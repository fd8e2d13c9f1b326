import P2PServer.Effects
import P2PServer.Transitions

/-! Actions whose outputs drive an automaton. An action is tracked if the automaton, started in what one
sees of the state, accepts the outputs and ends in what one sees of the new state. -/
namespace Tracking
open Effects Transitions

variable {σ ο β ε : Type*}

/-- The result `r` keeps the invariant, and its outputs lead the automaton `δ` from the view of the state
`s` to that of the new state. -/
structure Tracks (I : σ → Prop) (δ : β → ο → Option β) (π : σ → β) (s : σ) (r : σ × List ο) : Prop where
  keeps : I r.1
  follows : r.2.foldlM δ (π s) = some (π r.1)

variable {I : σ → Prop} {δ : β → ο → Option β} {π : σ → β} {s s' : σ} {r : σ × List ο}

/-- Outputs that the automaton ignores. -/
theorem Tracks.silent (h : I r.1) (hview : π r.1 = π s) (hout : ∀ o ∈ r.2, ∀ b, δ b o = some b) :
    Tracks I δ π s r := by
  refine ⟨h, ?_⟩
  rw [hview]
  obtain ⟨t, outs⟩ := r
  dsimp only at hout
  clear h hview
  induction outs with
  | nil => rfl
  | cons o outs ih =>
    rw [List.foldlM_cons, hout o List.mem_cons_self]
    exact ih fun o' ho' => hout o' (List.mem_cons_of_mem o ho')

theorem Tracks.nothing (h : I s) : Tracks I δ π s (s, []) := .silent h rfl nofun

theorem Tracks.state (h : I s') (hview : π s' = π s) : Tracks I δ π s (s', []) := .silent h hview nofun

/-- What tracks in every part of a result tracks in the whole. -/
theorem Tracks.composed {P : σ → σ × List ο → Prop} (h : ∀ s r, P s r → I s → Tracks I δ π s r)
    (hr : Composed P s r) (hs : I s) : Tracks I δ π s r := by
  induction hr with
  | nothing => exact .nothing hs
  | part hp => exact h _ _ hp hs
  | andThen _ _ ih ih' =>
    have hfirst := ih hs
    have hrest := ih' hfirst.keeps
    refine ⟨hrest.keeps, ?_⟩
    rw [List.foldlM_append, hfirst.follows]
    exact hrest.follows

/-- The automaton over a run; every step moves it by `δ`. -/
def followed (δ : σ → β → ε → Option β) (S : System σ ε) : β → σ → List ε → Option β
  | b, _, [] => some b
  | b, s, e :: es => (δ s b e).bind fun b' => followed δ S b' (S.next s e) es

/-- If every step moves the automaton from view to view, then so does every run. -/
theorem followed_run {δ : σ → β → ε → Option β} {S : System σ ε} {ok : σ → ε → Prop}
    (hstep : ∀ s e, I s → S.enabled s e → ok s e → I (S.next s e) ∧ δ s (π s) e = some (π (S.next s e)))
    {es : List ε} (hs : I s) (hr : Run S ok s es) :
    I (es.foldl S.next s) ∧ followed δ S (π s) s es = some (π (es.foldl S.next s)) := by
  induction es generalizing s with
  | nil => exact ⟨hs, rfl⟩
  | cons e es ih =>
    obtain ⟨hnext, hmove⟩ := hstep s e hs hr.1 hr.2.1
    rw [followed, hmove]
    exact ih hnext hr.2.2

end Tracking
