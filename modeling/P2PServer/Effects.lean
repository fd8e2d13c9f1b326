import Mathlib

/-! Actions of a sequential program: a new state and the outputs produced on the way.
The rules say what a composed action keeps, preserves and emits. -/
namespace Effects

variable {σ ο α β : Type*}

abbrev Eff (σ ο : Type*) := σ → σ × List ο

def skip : Eff σ ο := fun s => (s, [])

def emit (o : ο) : Eff σ ο := fun s => (s, [o])

def modify (f : σ → σ) : Eff σ ο := fun s => (f s, [])

def andThen (f g : Eff σ ο) : Eff σ ο := fun s =>
  let r := f s
  let r' := g r.1
  (r'.1, r.2 ++ r'.2)

def forEach (f : α → Eff σ ο) : List α → Eff σ ο
  | [] => skip
  | a :: as => andThen (f a) (forEach f as)

theorem mem_andThen {f g : Eff σ ο} {s : σ} {o : ο} :
    o ∈ (andThen f g s).2 ↔ o ∈ (f s).2 ∨ o ∈ (g (f s).1).2 := List.mem_append

theorem andThen_modify (f : σ → σ) (g : Eff σ ο) (s : σ) : andThen (modify f) g s = g (f s) := rfl

/-- Two sequences agree whose parts agree where they are run. -/
theorem andThen_congr {f f' g g' : Eff σ ο} {s : σ} (hf : f s = f' s)
    (hg : g (f s).1 = g' (f s).1) : andThen f g s = andThen f' g' s := by
  rw [andThen, andThen, ← hf, hg]

/-- A loop whose rounds only produce outputs. -/
theorem forEach_eq {f : α → Eff σ ο} {out : α → List ο} {s : σ} (as : List α)
    (h : ∀ a, f a s = (s, out a)) : forEach f as s = (s, as.flatMap out) := by
  induction as with
  | nil => rfl
  | cons a as ih => simp only [forEach, andThen, h, ih, List.flatMap_cons]

/-- The action leaves the view `π` of the state as it is. -/
def Keeps (π : σ → β) (f : Eff σ ο) : Prop := ∀ s, π (f s).1 = π s

/-- The action keeps the property `I` of the state. -/
def Preserves (I : σ → Prop) (f : Eff σ ο) : Prop := ∀ s, I s → I (f s).1

/-- A result `r` that is related to the state `s` before it and has only outputs in `Q`. -/
def Within (R : σ → σ → Prop) (Q : ο → Prop) (s : σ) (r : σ × List ο) : Prop :=
  R s r.1 ∧ ∀ o ∈ r.2, Q o

variable {π : σ → β} {I : σ → Prop} {R : σ → σ → Prop} {Q : ο → Prop} {f g : Eff σ ο} {s s' : σ}
  {r : σ × List ο}

theorem Keeps.andThen (hf : Keeps π f) (hg : Keeps π g) : Keeps π (andThen f g) :=
  fun s => (hg _).trans (hf s)

theorem Keeps.forEach {f : α → Eff σ ο} (h : ∀ a, Keeps π (f a)) (as : List α) :
    Keeps π (forEach f as) := by
  induction as with
  | nil => exact fun _ => rfl
  | cons a as ih => exact (h a).andThen ih

theorem Within.nothing [Std.Refl R] : Within R Q s (s, []) :=
  ⟨Std.Refl.refl s, fun _ ho => absurd ho List.not_mem_nil⟩

theorem Within.state (h : R s s') : Within R Q s (s', []) :=
  ⟨h, fun _ ho => absurd ho List.not_mem_nil⟩

theorem Within.after [IsTrans σ R] (h : R s s') (hr : Within R Q s' r) : Within R Q s r :=
  ⟨IsTrans.trans _ _ _ h hr.1, hr.2⟩

theorem Within.andThen [IsTrans σ R] (hf : Within R Q s (f s))
    (hg : Within R Q (f s).1 (g (f s).1)) : Within R Q s (andThen f g s) := by
  refine ⟨IsTrans.trans _ _ _ hf.1 hg.1, fun o ho => ?_⟩
  rcases List.mem_append.mp ho with h | h
  · exact hf.2 o h
  · exact hg.2 o h

theorem Within.forEach [Std.Refl R] [IsTrans σ R] {f : α → Eff σ ο}
    (h : ∀ a s, Within R Q s (f a s)) (as : List α) (s : σ) : Within R Q s (forEach f as s) := by
  induction as generalizing s with
  | nil => exact Within.nothing
  | cons a as ih => exact (h a s).andThen (ih _)

/-- A result that is composed of parts in `P`, one after another. -/
inductive Composed (P : σ → σ × List ο → Prop) : σ → σ × List ο → Prop
  | nothing {s : σ} : Composed P s (s, [])
  | part {s : σ} {r : σ × List ο} (h : P s r) : Composed P s r
  | andThen {s : σ} {r r' : σ × List ο} (h : Composed P s r) (h' : Composed P r.1 r') :
      Composed P s (r'.1, r.2 ++ r'.2)

variable {P P' : σ → σ × List ο → Prop}

theorem Composed.mono (h : ∀ s r, P s r → P' s r) (hr : Composed P s r) : Composed P' s r := by
  induction hr with
  | nothing => exact .nothing
  | part hp => exact .part (h _ _ hp)
  | andThen _ _ ih ih' => exact .andThen ih ih'

/-- The rest of a result whose first part has no outputs. -/
theorem Composed.after (h : Composed P s (s', [])) (hr : Composed P s' r) : Composed P s r := .andThen h hr

theorem Composed.forEach {f : α → Eff σ ο} (h : ∀ a s, Composed P s (f a s)) (as : List α) (s : σ) :
    Composed P s (forEach f as s) := by
  induction as generalizing s with
  | nil => exact .nothing
  | cons a as ih => exact .andThen (h a s) (ih _)

/-- What all parts keep and emit, the whole does. -/
theorem Composed.within [Std.Refl R] [IsTrans σ R] (h : ∀ s r, P s r → Within R Q s r) (hr : Composed P s r) :
    Within R Q s r := by
  induction hr with
  | nothing => exact .nothing
  | part hp => exact h _ _ hp
  | andThen _ _ ih ih' =>
    refine ⟨IsTrans.trans _ _ _ ih.1 ih'.1, fun o ho => ?_⟩
    exact (List.mem_append.mp ho).elim (ih.2 o) (ih'.2 o)

/-- What all parts preserve, the whole does. -/
theorem Composed.preserves (h : ∀ s r, P s r → I s → I r.1) (hr : Composed P s r) (hs : I s) : I r.1 := by
  induction hr with
  | nothing => exact hs
  | part hp => exact h _ _ hp hs
  | andThen _ _ ih ih' => exact ih' (ih hs)

end Effects
