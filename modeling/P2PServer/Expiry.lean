import P2PServer.TreeMaps

/-! Tables whose entries expire. An entry that is dead stays dead, so what a table shows does not
depend on when, or whether, its dead entries are taken out: a table that is purged in any way shows
what the record of all writes shows. -/
namespace Expiry

/-- When an entry is alive; the clock does not bring it back. -/
structure Lifetime (τ δ : Type*) [Preorder τ] where
  alive : τ → δ → Bool
  early {t t' : τ} {d : δ} (h : t ≤ t') : alive t' d = true → alive t d = true

variable {τ κ δ : Type*} [Preorder τ] (L : Lifetime τ δ)

/-- The entries that a table shows at the time `t`. -/
def shown (t : τ) (m : κ → Option δ) (k : κ) : Option δ := (m k).filter (L.alive t)

/-- The tables show the same from the time `t` on. -/
def Agree (t : τ) (m m' : κ → Option δ) : Prop := ∀ t', t ≤ t' → shown L t' m = shown L t' m'

/-- The table after a record of writes, the latest first; `none` removes the entry. -/
def written [DecidableEq κ] (m : κ → Option δ) (log : List (κ × Option δ)) : κ → Option δ :=
  log.foldr (fun w m => Function.update m w.1 w.2) m

variable {L} {t t' : τ} {m m' m'' : κ → Option δ}

theorem shown_some {k : κ} {d : δ} : shown L t m k = some d ↔ m k = some d ∧ L.alive t d = true := by
  rw [shown, Option.filter_eq_some_iff]

theorem shown_shown (h : t ≤ t') : shown L t' (shown L t m) = shown L t' m := by
  funext k
  rw [shown, shown, shown, Option.filter_filter]
  congr 1
  funext d
  rw [Bool.and_eq_right_iff_imp]
  exact L.early h

theorem Agree.refl : Agree L t m m := fun _ _ => rfl

theorem Agree.symm (h : Agree L t m m') : Agree L t m' m := fun t' ht => (h t' ht).symm

theorem Agree.trans (h : Agree L t m m') (h' : Agree L t m' m'') : Agree L t m m'' :=
  fun t' ht => (h t' ht).trans (h' t' ht)

theorem Agree.later (h : Agree L t m m') (ht : t ≤ t') : Agree L t' m m' := fun _ ht' => h _ (ht.trans ht')

/-- Tables that show the same now will always do so. -/
theorem agree_of_shown (h : shown L t m = shown L t m') : Agree L t m m' := by
  intro t' ht
  rw [← shown_shown ht, h, shown_shown ht]

theorem Agree.purge (h : ∀ k, m' k = m k ∨ m' k = none ∧ (m k).filter (L.alive t) = none) : Agree L t m' m := by
  refine agree_of_shown (funext fun k => ?_)
  rw [shown, shown]
  rcases h k with hk | ⟨hk, hdead⟩
  · rw [hk]
  · rw [hk, hdead]
    rfl

theorem shown_update [DecidableEq κ] (k : κ) (v : Option δ) :
    shown L t (Function.update m k v) = Function.update (shown L t m) k (v.filter (L.alive t)) := by
  funext j
  rw [shown, Function.update_apply, Function.update_apply]
  split <;> rfl

theorem Agree.write [DecidableEq κ] (h : Agree L t m m') (k : κ) (v : Option δ) :
    Agree L t (Function.update m k v) (Function.update m' k v) := by
  intro t' ht
  rw [shown_update, shown_update, h t' ht]

theorem Agree.absent [DecidableEq κ] {k : κ} (h : shown L t m k = none) :
    Agree L t (Function.update m k none) m := by
  refine agree_of_shown ?_
  rw [shown_update, Option.filter_none, Function.update_eq_self_iff, h]

theorem Agree.written [DecidableEq κ] (h : Agree L t m m') (log : List (κ × Option δ)) :
    Agree L t (written m log) (written m' log) := by
  induction log with
  | nil => exact h
  | cons w log ih => exact ih.write w.1 w.2

theorem written_append [DecidableEq κ] (log log' : List (κ × Option δ)) :
    Expiry.written m (log ++ log') = Expiry.written (Expiry.written m log') log := List.foldr_append

theorem written_same [DecidableEq κ] {log : List (κ × Option δ)} {k : κ} {v : Option δ} (h0 : m k = v)
    (h : ∀ w ∈ log, w.1 = k → w.2 = v) : Expiry.written m log k = v := by
  induction log with
  | nil => exact h0
  | cons w log ih =>
    simp only [Expiry.written, List.foldr_cons, Function.update_apply]
    by_cases hk : k = w.1
    · rw [if_pos hk]
      exact h w List.mem_cons_self hk.symm
    · rw [if_neg hk]
      exact ih fun w' hw' => h w' (List.mem_cons_of_mem w hw')

/-- The first table has what the second one has, but for entries that are dead. -/
def Pruned (L : Lifetime τ δ) (t : τ) (m m' : κ → Option δ) : Prop :=
  ∀ k, m k = m' k ∨ m k = none ∧ (m' k).filter (L.alive t) = none

theorem Pruned.refl : Pruned L t m m := fun _ => .inl rfl

theorem Pruned.trans (h : Pruned L t m m') (h' : Pruned L t m' m'') : Pruned L t m m'' := by
  intro k
  rcases h k with hk | ⟨hk, hdead⟩
  · rw [hk]
    exact h' k
  · rcases h' k with hk' | ⟨-, hdead'⟩
    · exact .inr ⟨hk, hk' ▸ hdead⟩
    · exact .inr ⟨hk, hdead'⟩

theorem Pruned.later (h : Pruned L t m m') (ht : t ≤ t') : Pruned L t' m m' := by
  intro k
  rcases h k with hk | ⟨hk, hdead⟩
  · exact .inl hk
  · refine .inr ⟨hk, Option.filter_eq_none_iff.mpr fun d hd halive => ?_⟩
    exact Option.filter_eq_none_iff.mp hdead d hd (L.early ht halive)

theorem Pruned.written [DecidableEq κ] (h : Pruned L t m m') (log : List (κ × Option δ)) :
    Pruned L t (Expiry.written m log) (Expiry.written m' log) := by
  induction log with
  | nil => exact h
  | cons w log ih =>
    intro k
    simp only [Expiry.written, List.foldr_cons, Function.update_apply]
    by_cases hk : k = w.1
    · exact .inl (by rw [if_pos hk, if_pos hk])
    · rw [if_neg hk, if_neg hk]
      exact ih k

/-- What is left is unchanged, and what is alive is left. -/
theorem Pruned.found {k : κ} {d : δ} (h : Pruned L t m m') :
    (m k = some d → m' k = some d) ∧ (m' k = some d → L.alive t d = true → m k = some d) := by
  rcases h k with hk | ⟨hk, hdead⟩
  · rw [hk]
    exact ⟨id, fun h' _ => h'⟩
  · refine ⟨fun hsome => ?_, fun hsome halive => ?_⟩
    · rw [hk] at hsome
      cases hsome
    · exact absurd halive (Option.filter_eq_none_iff.mp hdead d hsome)

end Expiry
