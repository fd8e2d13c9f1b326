import Mathlib

/-! Decimal numbers as C programs write and read them. -/
namespace Decimals

/-- `%u` of a natural number. -/
def ofNat (n : ℕ) : List UInt8 := (Nat.toDigits 10 n).map fun c => UInt8.ofNat c.toNat

def minus : UInt8 := 0x2d
def plus : UInt8 := 0x2b

/-- `%lld`. -/
def ofInt (z : ℤ) : List UInt8 := if z < 0 then minus :: ofNat z.natAbs else ofNat z.natAbs

def isDigit (b : UInt8) : Bool := 0x30 ≤ b && b ≤ 0x39

def isSpace (b : UInt8) : Bool := b == 0x20 || (0x09 ≤ b && b ≤ 0x0d)

def digitsValue (text : List UInt8) : ℕ := text.foldl (fun v b => v * 10 + (b.toNat - 0x30)) 0

/-- `atoll`: white space, a sign and the digits that follow. -/
def atoll (text : List UInt8) : ℤ :=
  let text := text.dropWhile isSpace
  match text with
  | [] => 0
  | b :: rest =>
    if b = minus then -(digitsValue (rest.takeWhile isDigit) : ℤ)
    else if b = plus then digitsValue (rest.takeWhile isDigit)
    else digitsValue (text.takeWhile isDigit)

/-- `atoi`: a `strtol`, which stops at the ends of its 64 bits, cast to 32 bits. -/
def atoi (text : List UInt8) : ℤ := Int.bmod (max (-2 ^ 63) (min (2 ^ 63 - 1) (atoll text))) (2 ^ 32)

theorem toDigits_range {n : ℕ} {c : Char} (h : c ∈ Nat.toDigits 10 n) :
    48 ≤ c.toNat ∧ c.toNat ≤ 57 := by
  have hd := Nat.isDigit_of_mem_toDigits (by decide) (by decide) h
  simp only [Char.isDigit, Bool.and_eq_true, decide_eq_true_eq] at hd
  exact ⟨UInt32.le_iff_toNat_le.mp hd.1, UInt32.le_iff_toNat_le.mp hd.2⟩

theorem ofNat_range {n : ℕ} {b : UInt8} (h : b ∈ ofNat n) : 48 ≤ b.toNat ∧ b.toNat ≤ 57 := by
  obtain ⟨c, hc, rfl⟩ := List.mem_map.mp h
  have hr := toDigits_range hc
  rw [UInt8.toNat_ofNat']
  omega

theorem ofNat_digit {n : ℕ} {b : UInt8} (h : b ∈ ofNat n) : isDigit b = true := by
  have hr := ofNat_range h
  simp only [isDigit, Bool.and_eq_true, decide_eq_true_eq, UInt8.le_iff_toNat_le]
  exact hr

theorem ofNat_ne_nil (n : ℕ) : ofNat n ≠ [] := by
  simp [ofNat, Nat.toDigits_ne_nil]

theorem digitsValue_ofNat (n : ℕ) : digitsValue (ofNat n) = n := by
  have hfold (l : List Char) (hl : ∀ c ∈ l, 48 ≤ c.toNat ∧ c.toNat ≤ 57) (v : ℕ) :
      (l.map fun c => UInt8.ofNat c.toNat).foldl (fun v b => v * 10 + (b.toNat - 0x30)) v =
        Nat.ofDigitChars 10 l v := by
    induction l generalizing v with
    | nil => simp
    | cons c l ih =>
      have hc := hl c List.mem_cons_self
      have hb : (UInt8.ofNat c.toNat).toNat = c.toNat := by
        rw [UInt8.toNat_ofNat']
        omega
      rw [List.map_cons, List.foldl_cons, ih fun d hd => hl d (List.mem_cons_of_mem c hd),
        Nat.ofDigitChars_cons, hb, Nat.mul_comm]
      rfl
  rw [digitsValue, ofNat, hfold _ fun c hc => toDigits_range hc, Nat.ofDigitChars_ten_toDigits]

theorem ofNat_injective : Function.Injective ofNat :=
  Function.LeftInverse.injective digitsValue_ofNat

theorem isSpace_of_isDigit {b : UInt8} (h : isDigit b = true) :
    isSpace b = false ∧ b ≠ minus ∧ b ≠ plus := by
  simp only [isDigit, Bool.and_eq_true, decide_eq_true_eq, UInt8.le_iff_toNat_le] at h
  change 48 ≤ b.toNat ∧ b.toNat ≤ 57 at h
  refine ⟨?_, ?_, ?_⟩
  · have hne : b ≠ 0x20 := by
      rintro rfl
      exact absurd h.1 (by decide)
    have hgt : ¬b ≤ 0x0d := by
      rw [UInt8.le_iff_toNat_le]
      change ¬b.toNat ≤ 13
      omega
    simp [isSpace, hne, hgt]
  · rintro rfl
    exact absurd h.1 (by decide)
  · rintro rfl
    exact absurd h.1 (by decide)

theorem takeWhile_isDigit (n : ℕ) : (ofNat n).takeWhile isDigit = ofNat n :=
  List.takeWhile_eq_self_iff.mpr fun _ hb => ofNat_digit hb

theorem atoll_ofNat (n : ℕ) : atoll (ofNat n) = n := by
  obtain ⟨b, rest, hb⟩ := List.exists_cons_of_ne_nil (ofNat_ne_nil n)
  obtain ⟨hs, hm, hp⟩ := isSpace_of_isDigit (ofNat_digit (hb ▸ List.mem_cons_self : b ∈ ofNat n))
  have hvalue := digitsValue_ofNat n
  have htake := takeWhile_isDigit n
  rw [hb] at hvalue htake ⊢
  simp [atoll, hs, hm, hp, htake, hvalue]

theorem atoll_ofInt (z : ℤ) : atoll (ofInt z) = z := by
  rw [ofInt]
  split
  next hneg =>
    simp only [atoll, List.dropWhile_cons_of_neg (by decide : ¬isSpace minus = true), if_true,
      takeWhile_isDigit, digitsValue_ofNat]
    omega
  next hpos =>
    rw [atoll_ofNat]
    omega

theorem ofInt_printed {z : ℤ} {b : UInt8} (h : b ∈ ofInt z) : b = minus ∨ isDigit b = true := by
  rw [ofInt] at h
  split at h
  · rcases List.mem_cons.mp h with rfl | h
    · exact .inl rfl
    · exact .inr (ofNat_digit h)
  · exact .inr (ofNat_digit h)

theorem ofInt_ne_nil (z : ℤ) : ofInt z ≠ [] := by
  rw [ofInt]
  split
  · exact List.cons_ne_nil _ _
  · exact ofNat_ne_nil _

theorem ofInt_length {z : ℤ} (h : -2 ^ 63 ≤ z) (h' : z < 2 ^ 63) : (ofInt z).length ≤ 20 := by
  have hlen : (ofNat z.natAbs).length ≤ 19 := by
    rw [ofNat, List.length_map, Nat.length_toDigits_le_iff (by decide) (by decide)]
    omega
  rw [ofInt]
  split
  · rw [List.length_cons]
    omega
  · omega

example : ofInt (-120) = [0x2d, 0x31, 0x32, 0x30] := by decide

end Decimals
