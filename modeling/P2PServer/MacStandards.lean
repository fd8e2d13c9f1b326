import Mathlib

/-! Keyed hashing as RFC 2104 states it for a hash function, and the derivation of keys from
passwords as RFC 8018 states it for a pseudorandom function. -/
namespace MacStandards

abbrev Octets := List UInt8

def xorOctets (a b : Octets) : Octets := a.zipWith (· ^^^ ·) b

/-- The key as one block: hashed if it is too long, then filled with zeros. -/
def blockKey (H : Octets → Octets) (B : ℕ) (key : Octets) : Octets :=
  let k := if key.length > B then H key else key
  k ++ List.replicate (B - k.length) 0

def hmac (H : Octets → Octets) (B : ℕ) (key text : Octets) : Octets :=
  let k := blockKey H B key
  H (xorOctets k (List.replicate B 0x5c) ++ H (xorOctets k (List.replicate B 0x36) ++ text))

/-- The four bytes of a number, high byte first. -/
def INT (i : ℕ) : Octets := (List.range 4).map fun k => UInt8.ofNat (i / 256 ^ (3 - k))

section
variable (prf : Octets → Octets) (hLen : ℕ) (salt : Octets)

/-- `U 0` is the first value, which the standard calls `U_1`. -/
def U (i : ℕ) : ℕ → Octets
  | 0 => prf (salt ++ INT i)
  | j + 1 => prf (U i j)

/-- The sum of the first `c` values, for `c` from 1 on. -/
def F (c i : ℕ) : Octets :=
  (List.range' 1 (c - 1)).foldl (fun t j => xorOctets t (U prf salt i j)) (U prf salt i 0)

/-- The first `n` bytes of the blocks one after another. -/
def pbkdf2 (c n : ℕ) : Octets :=
  ((List.range' 1 ((n + hLen - 1) / hLen)).map (F prf salt c)).flatten.take n

variable {prf hLen salt}

theorem U_length (h : ∀ x, (prf x).length = hLen) (i j : ℕ) : (U prf salt i j).length = hLen := by
  cases j <;> exact h _

theorem F_length (h : ∀ x, (prf x).length = hLen) (c i : ℕ) : (F prf salt c i).length = hLen := by
  have hfold (js : List ℕ) (t : Octets) (ht : t.length = hLen) :
      (js.foldl (fun t j => xorOctets t (U prf salt i j)) t).length = hLen := by
    induction js generalizing t with
    | nil => exact ht
    | cons j js ih =>
      refine ih _ ?_
      simp [xorOctets, ht, U_length h]
  exact hfold _ _ (U_length h i 0)

theorem blocks_length (h : ∀ x, (prf x).length = hLen) (c i l : ℕ) :
    ((List.range' i l).map (F prf salt c)).flatten.length = hLen * l := by
  induction l generalizing i with
  | zero => rfl
  | succ l ih =>
    rw [List.range'_succ, List.map_cons, List.flatten_cons, List.length_append, ih, F_length h]
    ring

theorem blocks_take (h : ∀ x, (prf x).length = hLen) (c : ℕ) {i l l' n : ℕ} (hn : n ≤ hLen * l) (hl : l ≤ l') :
    ((List.range' i l').map (F prf salt c)).flatten.take n =
      ((List.range' i l).map (F prf salt c)).flatten.take n := by
  obtain ⟨more, rfl⟩ := Nat.exists_eq_add_of_le hl
  rw [← List.range'_append_1, List.map_append, List.flatten_append, List.take_append_of_le_length]
  rw [blocks_length h]
  exact hn

theorem pbkdf2_prefix (h : ∀ x, (prf x).length = hLen) (hpos : 0 < hLen) (c : ℕ) {m n : ℕ} (hmn : m ≤ n) :
    pbkdf2 prf hLen salt c m <+: pbkdf2 prf hLen salt c n := by
  have hm : m ≤ hLen * ((m + hLen - 1) / hLen) := by
    have hdiv := Nat.div_add_mod (m + hLen - 1) hLen
    have hmod := Nat.mod_lt (m + hLen - 1) hpos
    omega
  have hle : (m + hLen - 1) / hLen ≤ (n + hLen - 1) / hLen := Nat.div_le_div_right (by omega)
  rw [pbkdf2, pbkdf2, ← blocks_take h c hm hle]
  exact (List.take_prefix_take_left hmn)

end

end MacStandards
