import Mathlib

/-! Replication of a keyed store over a queue of updates, with a filter that drops updates
it takes for repetitions. Each update carries a stamp, and the filter remembers keys with
stamps. What is dropped does no harm as long as every update that reuses a stamp repeats
the value that the source already has. -/
namespace Replication

variable {κ ν δ : Type*}

structure Update (κ ν δ : Type*) where
  key : κ
  value : ν
  stamp : δ

/-- What the filter knows an update by. -/
def Update.id (w : Update κ ν δ) : κ × δ := (w.key, w.stamp)

variable [DecidableEq κ]

def Update.apply (w : Update κ ν δ) (c : κ → Option ν) : κ → Option ν :=
  Function.update c w.key (some w.value)

@[simp] theorem Update.apply_self (w : Update κ ν δ) (c : κ → Option ν) :
    w.apply c w.key = some w.value := Function.update_self ..

theorem Update.apply_eq_self {w : Update κ ν δ} {c : κ → Option ν} (h : c w.key = some w.value) :
    w.apply c = c := by
  unfold Update.apply
  rw [← h, Function.update_eq_self]

/-- The store after all queued updates. -/
def replay (q : List (Update κ ν δ)) (c : κ → Option ν) : κ → Option ν :=
  q.foldl (fun c w => w.apply c) c

@[simp] theorem replay_nil (c : κ → Option ν) : replay ([] : List (Update κ ν δ)) c = c := rfl

@[simp] theorem replay_cons (w : Update κ ν δ) (q : List (Update κ ν δ)) (c : κ → Option ν) :
    replay (w :: q) c = replay q (w.apply c) := rfl

@[simp] theorem replay_append (q r : List (Update κ ν δ)) (c : κ → Option ν) :
    replay (q ++ r) c = replay r (replay q c) := List.foldl_append

/-- An update that the filter may drop finds its value in place when its turn comes. -/
def Settled : Set (κ × δ) → List (Update κ ν δ) → (κ → Option ν) → Prop
  | _, [], _ => True
  | seen, w :: q, c =>
    (w.id ∈ seen → c w.key = some w.value) ∧ Settled (insert w.id seen) q (w.apply c)

theorem Settled.mono {seen seen' : Set (κ × δ)} {q : List (Update κ ν δ)} {c : κ → Option ν}
    (h : Settled seen q c) (hsub : seen' ⊆ seen) : Settled seen' q c := by
  induction q generalizing seen seen' c with
  | nil => trivial
  | cons w q ih =>
    exact ⟨fun hw => h.1 (hsub hw), ih h.2 (Set.insert_subset_insert hsub)⟩

theorem Settled.push {seen : Set (κ × δ)} {q : List (Update κ ν δ)} {c : κ → Option ν}
    (h : Settled seen q c) {w : Update κ ν δ}
    (hw : w.id ∈ seen ∨ w.id ∈ q.map Update.id → replay q c w.key = some w.value) :
    Settled seen (q ++ [w]) c := by
  induction q generalizing seen c with
  | nil => exact ⟨fun hs => hw (.inl hs), trivial⟩
  | cons v q ih =>
    refine ⟨h.1, ih h.2 fun hs => hw ?_⟩
    rw [List.map_cons, List.mem_cons]
    rcases hs with hs | hs
    · rcases Set.mem_insert_iff.mp hs with hs | hs
      · exact .inr (.inl hs)
      · exact .inl hs
    · exact .inr (.inr hs)

/-- The replica follows the source: the queued updates lead to the records of the source,
the filter drops nothing that matters, and whatever it can know was sent. -/
structure Follows (source replica : κ → Option ν) (q : List (Update κ ν δ))
    (seen sent : Set (κ × δ)) : Prop where
  replays : ∀ k v, source k = some v → replay q replica k = some v
  settled : Settled seen q replica
  seen_sent : seen ⊆ sent
  queue_sent : ∀ w ∈ q, w.id ∈ sent

variable {source replica : κ → Option ν} {q : List (Update κ ν δ)} {seen sent : Set (κ × δ)}
  {w : Update κ ν δ}

theorem Follows.start (hs : ∀ k, source k = none) : Follows source replica [] ∅ sent where
  replays k v h := by
    rw [hs k] at h
    cases h
  settled := trivial
  seen_sent := Set.empty_subset _
  queue_sent _ h := by cases h

theorem Follows.sent_mono (h : Follows source replica q seen sent) {sent' : Set (κ × δ)}
    (hsub : sent ⊆ sent') : Follows source replica q seen sent' :=
  ⟨h.replays, h.settled, h.seen_sent.trans hsub, fun w hw => hsub (h.queue_sent w hw)⟩

/-- The source makes an update and queues it. A reused stamp repeats the present value. -/
theorem Follows.push (h : Follows source replica q seen sent)
    (hw : w.id ∈ sent → source w.key = some w.value) :
    Follows (w.apply source) replica (q ++ [w]) seen (insert w.id sent) where
  replays k v hk := by
    simp only [replay_append, replay_cons, replay_nil]
    unfold Update.apply at hk ⊢
    by_cases he : k = w.key
    · subst he
      rwa [Function.update_self] at hk ⊢
    · rw [Function.update_of_ne he] at hk ⊢
      exact h.replays k v hk
  settled := by
    refine h.settled.push fun hs => h.replays _ _ (hw ?_)
    rcases hs with hs | hs
    · exact h.seen_sent hs
    · obtain ⟨v, hv, he⟩ := List.mem_map.mp hs
      exact he ▸ h.queue_sent v hv
  seen_sent := h.seen_sent.trans (Set.subset_insert _ _)
  queue_sent v hv := by
    rcases List.mem_append.mp hv with hv | hv
    · exact Set.mem_insert_of_mem _ (h.queue_sent v hv)
    · rw [List.mem_singleton.mp hv]
      exact Set.mem_insert _ _

/-- The value of an update that the filter drops is already in place. -/
theorem Follows.dropped (h : Follows source replica (w :: q) seen sent) (hw : w.id ∈ seen) :
    replica w.key = some w.value := h.settled.1 hw

theorem Follows.drop (h : Follows source replica (w :: q) seen sent) (hw : w.id ∈ seen) :
    Follows source replica q seen sent := by
  have hsame := Update.apply_eq_self (h.dropped hw)
  refine ⟨fun k v hk => ?_, ?_, h.seen_sent, fun v hv => h.queue_sent v (.tail _ hv)⟩
  · have hr := h.replays k v hk
    rwa [replay_cons, hsame] at hr
  · have hs := h.settled.2
    rw [hsame] at hs
    exact hs.mono (Set.subset_insert _ _)

/-- The replica applies the first update of the queue; the filter may forget. -/
theorem Follows.applied (h : Follows source replica (w :: q) seen sent) {seen' : Set (κ × δ)}
    (hsub : seen' ⊆ insert w.id seen) : Follows source (w.apply replica) q seen' sent := by
  refine ⟨fun k v hk => ?_, h.settled.2.mono hsub, ?_, fun v hv => h.queue_sent v (.tail _ hv)⟩
  · have hr := h.replays k v hk
    rwa [replay_cons] at hr
  · exact hsub.trans (Set.insert_subset (h.queue_sent w (.head _)) h.seen_sent)

theorem Follows.converged (h : Follows source replica [] seen sent) {k : κ} {v : ν}
    (hk : source k = some v) : replica k = some v := h.replays k v hk

end Replication
