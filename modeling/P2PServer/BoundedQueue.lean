import Mathlib

/-! A queue of limited length that gives up its oldest item when it is full. The items are numbered in
the order in which they came; each one that has left the queue was taken or lost. -/
namespace BoundedQueue

variable {α : Type*}

def push (cap : ℕ) (q : List α) (a : α) : List α := (if cap ≤ q.length then q.tail else q) ++ [a]

inductive Fate
  | taken
  | lost
  deriving DecidableEq

def taken : List α → List Fate → List α
  | a :: came, .taken :: fates => a :: taken came fates
  | _ :: came, .lost :: fates => taken came fates
  | [], _ => []
  | _, [] => []

def pushFates (cap : ℕ) (q : List α) (fates : List Fate) : List Fate :=
  if cap ≤ q.length then fates ++ [.lost] else fates

/-- The items that came and what became of those that left account for the queue. -/
structure Accounts (cap : ℕ) (came : List α) (fates : List Fate) (q : List α) : Prop where
  le : fates.length ≤ came.length
  rest : q = came.drop fates.length
  room : q.length ≤ cap
  /-- An item is lost to the one that comes `cap` places behind it. -/
  late : ∀ n, fates[n]? = some .lost → n + cap < came.length

variable {cap : ℕ} {came : List α} {fates : List Fate} {q : List α}

theorem Accounts.start : Accounts cap ([] : List α) [] [] where
  le := le_rfl
  rest := rfl
  room := Nat.zero_le cap
  late n hn := by simp at hn

theorem Accounts.length_add (h : Accounts cap came fates q) : fates.length + q.length = came.length := by
  rw [h.rest, List.length_drop]
  have := h.le
  omega

theorem Accounts.push (h : Accounts cap came fates q) (hcap : 0 < cap) (a : α) :
    Accounts cap (came ++ [a]) (pushFates cap q fates) (push cap q a) := by
  have hlen := h.length_add
  have hroom := h.room
  rw [pushFates, BoundedQueue.push]
  by_cases hfull : cap ≤ q.length
  · rw [if_pos hfull, if_pos hfull]
    refine ⟨?_, ?_, ?_, fun n hn => ?_⟩
    · rw [List.length_append, List.length_append, List.length_singleton, List.length_singleton]
      omega
    · rw [List.length_append, List.length_singleton, List.drop_append_of_le_length (by omega), ← List.tail_drop,
        ← h.rest]
    · rw [List.length_append, List.length_tail, List.length_singleton]
      omega
    · rw [List.length_append, List.length_singleton]
      rcases Nat.lt_or_ge n fates.length with hlt | hge
      · rw [List.getElem?_append_left hlt] at hn
        have := h.late n hn
        omega
      · have hn' := (List.getElem?_eq_some_iff.mp hn).1
        rw [List.length_append, List.length_singleton] at hn'
        omega
  · rw [if_neg hfull, if_neg hfull]
    refine ⟨?_, ?_, ?_, fun n hn => ?_⟩
    · rw [List.length_append]
      omega
    · rw [List.drop_append_of_le_length h.le, ← h.rest]
    · rw [List.length_append, List.length_singleton]
      omega
    · rw [List.length_append]
      have := h.late n hn
      omega

theorem Accounts.next {a : α} (h : Accounts cap came fates (a :: q)) : came[fates.length]? = some a := by
  rw [← List.head?_drop, ← h.rest]
  rfl

theorem Accounts.pop {a : α} (h : Accounts cap came fates (a :: q)) : Accounts cap came (fates ++ [.taken]) q := by
  have hlen := h.length_add
  have hroom := h.room
  rw [List.length_cons] at hlen hroom
  refine ⟨?_, ?_, by omega, fun n hn => ?_⟩
  · rw [List.length_append, List.length_singleton]
    omega
  · rw [List.length_append, List.length_singleton, ← List.tail_drop, ← h.rest]
    rfl
  · rcases Nat.lt_or_ge n fates.length with hlt | hge
    · rw [List.getElem?_append_left hlt] at hn
      exact h.late n hn
    · rw [List.getElem?_append_right hge, List.getElem?_singleton] at hn
      split at hn <;> simp at hn

@[simp] theorem taken_nil (came : List α) : taken came [] = [] := by
  cases came <;> rfl

theorem taken_append (more : List α) (h : fates.length ≤ came.length) :
    taken (came ++ more) fates = taken came fates := by
  induction came generalizing fates with
  | nil =>
    rw [List.eq_nil_of_length_eq_zero (Nat.le_zero.mp h), taken_nil, taken_nil]
  | cons a came ih =>
    cases fates with
    | nil => rfl
    | cons f fates =>
      have hle : fates.length ≤ came.length := Nat.le_of_succ_le_succ h
      cases f with
      | taken => exact congrArg (a :: ·) (ih hle)
      | lost => exact ih hle

theorem taken_lost : taken came (fates ++ [.lost]) = taken came fates := by
  induction came generalizing fates with
  | nil => rfl
  | cons a came ih =>
    cases fates with
    | nil =>
      cases came <;> rfl
    | cons f fates =>
      cases f with
      | taken => exact congrArg (a :: ·) ih
      | lost => exact ih

theorem taken_next {a : α} (h : came[fates.length]? = some a) :
    taken came (fates ++ [.taken]) = taken came fates ++ [a] := by
  induction came generalizing fates with
  | nil => simp at h
  | cons b came ih =>
    cases fates with
    | nil =>
      rw [List.length_nil, List.getElem?_cons_zero, Option.some.injEq] at h
      rw [h]
      cases came <;> rfl
    | cons f fates =>
      rw [List.length_cons, List.getElem?_cons_succ] at h
      cases f with
      | taken => exact congrArg (b :: ·) (ih h)
      | lost => exact ih h

theorem pushFates_taken (cap : ℕ) (q : List α) (hle : fates.length ≤ came.length) (a : α) :
    taken (came ++ [a]) (pushFates cap q fates) = taken came fates := by
  rw [pushFates]
  split
  · rw [taken_lost, taken_append _ hle]
  · exact taken_append _ hle

end BoundedQueue
