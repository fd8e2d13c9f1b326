import Mathlib

/-! Stream ciphers: a list is combined, block by block, with the blocks of a key stream. Where
the operation is its own inverse under a fixed key, so is the cipher. -/
namespace KeyStreams

variable {α σ : Type*} (op : α → α → α) (ks : σ → List α) (next : σ → σ) (size : ℕ)

/-- The blocks of the key stream belong to `s`, `next s` and so on. -/
def combine : ℕ → σ → List α → List α
  | 0, _, data => data
  | fuel + 1, s, data =>
    if data.isEmpty then []
    else List.zipWith op (data.take size) (ks s) ++ combine fuel (next s) (data.drop size)

variable {op ks next size}

theorem combine_nil (fuel : ℕ) (s : σ) : combine op ks next size fuel s [] = [] := by
  cases fuel <;> rfl

theorem zipWith_take_length (hks : ∀ s, size ≤ (ks s).length) (s : σ) (data : List α) :
    (List.zipWith op (data.take size) (ks s)).length = min size data.length := by
  have h := hks s
  simp only [List.length_zipWith, List.length_take]
  omega

theorem combine_length (hks : ∀ s, size ≤ (ks s).length) (fuel : ℕ) (s : σ) (data : List α) :
    (combine op ks next size fuel s data).length = data.length := by
  induction fuel generalizing s data with
  | zero => rfl
  | succ fuel ih =>
    unfold combine
    split
    · rename_i h
      rw [List.isEmpty_iff.mp h]
    · rw [List.length_append, zipWith_take_length hks, ih, List.length_drop]
      omega

theorem zipWith_zipWith (hop : ∀ a b, op (op a b) b = a) {data key : List α} (h : data.length ≤ key.length) :
    List.zipWith op (List.zipWith op data key) key = data := by
  induction data generalizing key with
  | nil => simp
  | cons a data ih =>
    cases key with
    | nil => simp at h
    | cons b key =>
      rw [List.zipWith_cons_cons, List.zipWith_cons_cons, hop, ih (by simpa using h)]

theorem combine_combine (hop : ∀ a b, op (op a b) b = a) (hks : ∀ s, size ≤ (ks s).length) (fuel : ℕ) (s : σ)
    (data : List α) : combine op ks next size fuel s (combine op ks next size fuel s data) = data := by
  induction fuel generalizing s data with
  | zero => rfl
  | succ fuel ih =>
    cases data with
    | nil => rfl
    | cons a rest =>
      generalize hd : a :: rest = data
      have hne : data.isEmpty = false := by rw [← hd]; rfl
      have hhead : (List.zipWith op (data.take size) (ks s)).length = min size data.length :=
        zipWith_take_length hks s data
      have hfold : ∀ l : List α, l.isEmpty = false → combine op ks next size (fuel + 1) s l =
          List.zipWith op (l.take size) (ks s) ++ combine op ks next size fuel (next s) (l.drop size) := by
        intro l hl
        simp [combine, hl]
      have hne' : (combine op ks next size (fuel + 1) s data).isEmpty = false := by
        rw [List.isEmpty_eq_false_iff, ← List.length_pos_iff, combine_length hks, ← hd]
        simp
      rw [hfold _ hne', hfold _ hne]
      rcases Nat.le_total size data.length with hs | hs
      · rw [min_eq_left hs] at hhead
        rw [List.take_left' hhead, List.drop_left' hhead, ih, zipWith_zipWith hop, List.take_append_drop]
        exact (List.length_take_le ..).trans (hks s)
      · have hempty : data.drop size = [] := List.drop_eq_nil_of_le hs
        rw [min_eq_right hs] at hhead
        rw [hempty, combine_nil, List.append_nil, List.take_of_length_le (hhead.trans_le hs),
          List.drop_eq_nil_of_le (hhead.trans_le hs), combine_nil, List.append_nil, zipWith_zipWith hop]
        · exact List.take_of_length_le hs
        · exact (List.length_take_le ..).trans (hks s)

theorem zipWith_neutral {e : α} (he : ∀ b, op e b = b) (n : ℕ) (l : List α) :
    List.zipWith op (List.replicate n e) l = l.take n := by
  induction n generalizing l with
  | zero => simp
  | succ n ih =>
    cases l with
    | nil => rfl
    | cons b l => rw [List.replicate_succ, List.zipWith_cons_cons, he, ih, List.take_succ_cons]

theorem zipWith_neutral_right {e : α} (he : ∀ a, op a e = a) (data : List α) :
    List.zipWith op data (List.replicate data.length e) = data := by
  induction data with
  | nil => rfl
  | cons a data ih => rw [List.length_cons, List.replicate_succ, List.zipWith_cons_cons, he, ih]

/-- The data are combined element by element with what the neutral element becomes. -/
theorem combine_eq_zipWith {e : α} (hleft : ∀ b, op e b = b) (hright : ∀ a, op a e = a)
    (hks : ∀ s, size ≤ (ks s).length) (fuel : ℕ) (s : σ) (data : List α) :
    combine op ks next size fuel s data =
      List.zipWith op data (combine op ks next size fuel s (List.replicate data.length e)) := by
  induction fuel generalizing s data with
  | zero => exact (zipWith_neutral_right hright data).symm
  | succ fuel ih =>
    cases data with
    | nil => rfl
    | cons a rest =>
      generalize hd : a :: rest = data
      have hpos : 0 < data.length := by rw [← hd]; exact Nat.succ_pos _
      have hdata : data.isEmpty = false := by rw [← hd]; rfl
      have hzeros : (List.replicate data.length e).isEmpty = false := by
        rw [List.isEmpty_eq_false_iff, ← List.length_pos_iff, List.length_replicate]
        exact hpos
      have hlen : (data.take size).length = min size data.length := List.length_take
      have hkey : ((ks s).take (min size data.length)).length = min size data.length := by
        have h := hks s
        rw [List.length_take]
        omega
      have hblock : List.zipWith op (data.take size) ((ks s).take (min size data.length)) =
          List.zipWith op (data.take size) (ks s) := by
        have hcut : (List.zipWith op (data.take size) (ks s)).take (min size data.length) =
            List.zipWith op ((data.take size).take (min size data.length)) ((ks s).take (min size data.length)) :=
          List.take_zipWith
        rw [List.take_of_length_le hlen.le] at hcut
        rw [← hcut, List.take_of_length_le (zipWith_take_length hks s data).le]
      have hstream : combine op ks next size (fuel + 1) s (List.replicate data.length e) =
          (ks s).take (min size data.length) ++
            combine op ks next size fuel (next s) (List.replicate (data.drop size).length e) := by
        rw [combine, hzeros, List.take_replicate, List.drop_replicate, zipWith_neutral hleft, List.length_drop]
        rfl
      have hdrop := ih (next s) (data.drop size)
      calc combine op ks next size (fuel + 1) s data
        _ = List.zipWith op (data.take size) (ks s) ++ combine op ks next size fuel (next s) (data.drop size) := by
          rw [combine, hdata]
          rfl
        _ = List.zipWith op (data.take size ++ data.drop size)
            (combine op ks next size (fuel + 1) s (List.replicate data.length e)) := by
          rw [hstream, List.zipWith_append (hlen.trans hkey.symm), hblock, ← hdrop]
        _ = _ := by rw [List.take_append_drop]

end KeyStreams
