import P2PServer.Memory

/-! Stretches of memory that a program reads or writes, and memories that agree on them. -/
namespace P2PServer
open ByteStrings

/-- One access: so many bytes from an offset on. -/
structure Access where
  start : ℕ
  size : ℕ
  deriving DecidableEq, Repr

namespace Access

def shift (k : ℕ) (r : Access) : Access := ⟨k + r.start, r.size⟩

/-- Every byte of every access lies below `n`. -/
def Within (n : ℕ) (rs : List Access) : Prop := ∀ r ∈ rs, ∀ i < r.size, r.start + i < n

def Agree (rs : List Access) (m m' : Memory) : Prop := ∀ r ∈ rs, m'.read r.start r.size = m.read r.start r.size

variable {n k : ℕ} {r : Access} {rs ss : List Access} {m m' : Memory}

@[simp] theorem within_nil : Within n [] := nofun

@[simp] theorem within_cons : Within n (r :: rs) ↔ (r.size = 0 ∨ r.start + r.size ≤ n) ∧ Within n rs := by
  rw [Within, List.forall_mem_cons]
  refine and_congr_left fun _ => ⟨fun h => ?_, fun h i hi => by omega⟩
  rcases Nat.eq_zero_or_pos r.size with hz | hp
  · exact .inl hz
  · have hlast := h (r.size - 1) (by omega)
    exact .inr (by omega)

@[simp] theorem within_append : Within n (rs ++ ss) ↔ Within n rs ∧ Within n ss := List.forall_mem_append

theorem within_shift : Within (k + n) (rs.map (shift k)) ↔ Within n rs := by
  simp only [Within, List.forall_mem_map, shift]
  exact ⟨fun h r hr i hi => by have := h r hr i hi; omega, fun h r hr i hi => by have := h r hr i hi; omega⟩

theorem Within.mono {n' : ℕ} (h : Within n rs) (hn : n ≤ n') : Within n' rs :=
  fun r hr i hi => (h r hr i hi).trans_le hn

@[simp] theorem agree_nil : Agree [] m m' := nofun

@[simp] theorem agree_cons : Agree (r :: rs) m m' ↔ m'.read r.start r.size = m.read r.start r.size ∧ Agree rs m m' :=
  List.forall_mem_cons

@[simp] theorem agree_append : Agree (rs ++ ss) m m' ↔ Agree rs m m' ∧ Agree ss m m' := List.forall_mem_append

theorem agree_shift : Agree (rs.map (shift k)) m m' ↔ Agree rs (m.offset k) (m'.offset k) := by
  simp only [Agree, List.forall_mem_map, shift, Memory.read_offset]

/-- What lies within a bound depends on the bytes below it only. -/
theorem Within.agree (h : Within n rs) (hm : ∀ i < n, m' i = m i) : Agree rs m m' :=
  fun r hr => Memory.read_ext fun i hi => hm _ (h r hr i hi)

theorem Agree.ite {α : Type*} {c : Prop} [Decidable c] {x x' y y' : α} (h : Agree (if c then rs else ss) m m')
    (ht : c → Agree rs m m' → x' = x) (he : ¬c → Agree ss m m' → y' = y) :
    (if c then x' else y') = if c then x else y := by
  by_cases hc : c
  · rw [if_pos hc] at h
    rw [if_pos hc, if_pos hc, ht hc h]
  · rw [if_neg hc] at h
    rw [if_neg hc, if_neg hc, he hc h]

theorem byte_of_read {i : ℕ} (h : m'.read i 1 = m.read i 1) : m' i = m i := by
  have h0 := congrArg List.head? h
  simpa [Memory.read] using h0

theorem byte_in_read {i j : ℕ} (h : m'.read i n = m.read i n) (hj : j < n) : m' (i + j) = m (i + j) := by
  have hb : (m'.read i n)[j]? = (m.read i n)[j]? := by rw [h]
  rwa [Memory.read_getElem? hj, Memory.read_getElem? hj, Option.some.injEq] at hb

end Access

end P2PServer
