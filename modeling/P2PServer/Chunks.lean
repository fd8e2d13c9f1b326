import Mathlib

/-! Lists that are read in pages, and records of a fixed size that stand one after another. -/
namespace Chunks

variable {α : Type*}

/-- The page of `w` elements that starts at `start`. -/
def page (l : List α) (w start : ℕ) : List α := (l.drop start).take w

/-- `start`, `start + w` and so on, while they are below `n`. -/
def startsFrom (w n : ℕ) : ℕ → ℕ → List ℕ
  | 0, _ => []
  | fuel + 1, start => if start < n then start :: startsFrom w n fuel (start + w) else []

def starts (w n : ℕ) : List ℕ := startsFrom w n n 0

theorem startsFrom_lt {w n fuel start i : ℕ} (h : i ∈ startsFrom w n fuel start) : i < n := by
  induction fuel generalizing start with
  | zero => cases h
  | succ fuel ih =>
    rw [startsFrom] at h
    split at h
    next hlt =>
      rcases List.mem_cons.mp h with rfl | h
      · exact hlt
      · exact ih h
    · cases h

theorem starts_lt {w n i : ℕ} (h : i ∈ starts w n) : i < n := startsFrom_lt h

theorem starts_cons {w n : ℕ} (h : 0 < n) : ∃ rest, starts w n = 0 :: rest := by
  obtain ⟨k, rfl⟩ := Nat.exists_eq_add_of_le' h
  refine ⟨startsFrom w (k + 1) k (0 + w), ?_⟩
  change startsFrom w (k + 1) (k + 1) 0 = _
  rw [startsFrom, if_pos h]

theorem page_length (l : List α) (w start : ℕ) : (page l w start).length = min w (l.length - start) := by
  rw [page, List.length_take, List.length_drop]

theorem flatMap_page {l : List α} {w : ℕ} (hw : 0 < w) : (starts w l.length).flatMap (page l w) = l := by
  have hloop (fuel start : ℕ) (hf : l.length ≤ fuel + start) :
      (startsFrom w l.length fuel start).flatMap (page l w) = l.drop start := by
    induction fuel generalizing start with
    | zero =>
      rw [List.drop_eq_nil_of_le (by omega)]
      rfl
    | succ fuel ih =>
      rw [startsFrom]
      split
      · rw [List.flatMap_cons, ih (start + w) (by omega), page, ← List.drop_drop, List.take_append_drop]
      · rw [List.drop_eq_nil_of_le (by omega)]
        rfl
  exact hloop l.length 0 le_rfl

/-- The first `n` records of `size` elements. -/
def records (size : ℕ) : ℕ → List α → List (List α)
  | 0, _ => []
  | n + 1, l => l.take size :: records size n (l.drop size)

theorem records_flatten (size : ℕ) (rs : List (List α)) (h : ∀ r ∈ rs, r.length = size) :
    records size rs.length rs.flatten = rs := by
  induction rs with
  | nil => rfl
  | cons r rs ih =>
    have hr : r.length = size := h r List.mem_cons_self
    rw [List.length_cons, List.flatten_cons, records, List.take_left' hr, List.drop_left' hr,
      ih fun r hr => h r (List.mem_cons_of_mem _ hr)]

theorem length_flatten (size : ℕ) (rs : List (List α)) (h : ∀ r ∈ rs, r.length = size) :
    rs.flatten.length = size * rs.length := by
  induction rs with
  | nil => rfl
  | cons r rs ih =>
    rw [List.flatten_cons, List.length_append, h r List.mem_cons_self,
      ih fun r hr => h r (List.mem_cons_of_mem _ hr), List.length_cons]
    ring

end Chunks
