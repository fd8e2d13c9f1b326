import Mathlib

/-! Labelled transition systems whose nondeterminism lies in the labels. A run may
be restricted to steps that meet a condition on the label and the state before it. -/
namespace Transitions

structure System (σ ε : Type*) where
  init : σ → Prop
  enabled : σ → ε → Prop
  next : σ → ε → σ

variable {σ ε : Type*}

/-- States reached by steps that all satisfy `ok`. -/
inductive Reach (S : System σ ε) (ok : σ → ε → Prop) : σ → Prop
  | start {s : σ} (h : S.init s) : Reach S ok s
  | step {s : σ} {e : ε} (prior : Reach S ok s) (can : S.enabled s e) (meets : ok s e) :
      Reach S ok (S.next s e)

/-- Every run of the system, with no condition on its steps. -/
abbrev Reachable (S : System σ ε) : σ → Prop := Reach S fun _ _ => True

/-- The steps `es` can be taken from `s` one after another. -/
def Run (S : System σ ε) (ok : σ → ε → Prop) : σ → List ε → Prop
  | _, [] => True
  | s, e :: es => S.enabled s e ∧ ok s e ∧ Run S ok (S.next s e) es

instance Run.decidable (S : System σ ε) (ok : σ → ε → Prop)
    [he : ∀ s e, Decidable (S.enabled s e)] [ho : ∀ s e, Decidable (ok s e)] :
    (s : σ) → (es : List ε) → Decidable (Run S ok s es)
  | _, [] => .isTrue trivial
  | s, e :: es =>
    have := Run.decidable S ok (S.next s e) es
    inferInstanceAs (Decidable (S.enabled s e ∧ ok s e ∧ Run S ok (S.next s e) es))

/-- Invariance: true at the start and kept by every admitted step. -/
theorem Reach.invariant {S : System σ ε} {ok : σ → ε → Prop} {I : σ → Prop}
    (h0 : ∀ s, S.init s → I s)
    (hs : ∀ s e, I s → S.enabled s e → ok s e → I (S.next s e))
    {s : σ} (h : Reach S ok s) : I s := by
  induction h with
  | start h => exact h0 _ h
  | step _ can meets ih => exact hs _ _ ih can meets

theorem Reach.mono {S : System σ ε} {ok ok' : σ → ε → Prop}
    (hok : ∀ s e, ok s e → ok' s e) {s : σ} (h : Reach S ok s) : Reach S ok' s := by
  induction h with
  | start h => exact .start h
  | step _ can meets ih => exact .step ih can (hok _ _ meets)

theorem Run.mono {S : System σ ε} {ok ok' : σ → ε → Prop} (hok : ∀ s e, ok s e → ok' s e) {s : σ}
    {es : List ε} (hr : Run S ok s es) : Run S ok' s es := by
  induction es generalizing s with
  | nil => trivial
  | cons e es ih => exact ⟨hr.1, hok s e hr.2.1, ih hr.2.2⟩

theorem Run.append {S : System σ ε} {ok : σ → ε → Prop} {s : σ} {es fs : List ε} :
    Run S ok s (es ++ fs) ↔ Run S ok s es ∧ Run S ok (es.foldl S.next s) fs := by
  induction es generalizing s with
  | nil => exact ⟨fun h => ⟨trivial, h⟩, fun h => h.2⟩
  | cons e es ih =>
    rw [List.cons_append, Run, ih, Run, List.foldl_cons]
    tauto

/-- A property of the steps taken so far and the state they lead to. -/
theorem Run.history {S : System σ ε} {ok : σ → ε → Prop} {J : List ε → σ → Prop} {s : σ} (h0 : J [] s)
    (hs : ∀ es s e, J es s → S.enabled s e → ok s e → J (es ++ [e]) (S.next s e)) {es : List ε}
    (hr : Run S ok s es) : J es (es.foldl S.next s) := by
  induction es using List.reverseRecOn with
  | nil => exact h0
  | append_singleton es e ih =>
    obtain ⟨hes, hcan, hmeets, -⟩ := Run.append.mp hr
    rw [List.foldl_append]
    exact hs es _ e (ih hes) hcan hmeets

/-- Every reachable state is the end of a run. -/
theorem Reach.exists_run {S : System σ ε} {ok : σ → ε → Prop} {s : σ} (h : Reach S ok s) :
    ∃ s₀ es, S.init s₀ ∧ Run S ok s₀ es ∧ es.foldl S.next s₀ = s := by
  induction h with
  | @start s h => exact ⟨s, [], h, trivial, rfl⟩
  | @step s e _ can meets ih =>
    obtain ⟨s₀, es, h0, hr, rfl⟩ := ih
    refine ⟨s₀, es ++ [e], h0, Run.append.mpr ⟨hr, can, meets, trivial⟩, ?_⟩
    rw [List.foldl_append]
    rfl

theorem Reach.run {S : System σ ε} {ok : σ → ε → Prop} {s : σ} (h : Reach S ok s)
    {es : List ε} (hr : Run S ok s es) : Reach S ok (es.foldl S.next s) := by
  induction es generalizing s with
  | nil => exact h
  | cons e es ih => exact ih (h.step hr.1 hr.2.1) hr.2.2

end Transitions
