import P2PServer.BlacklistFile
import P2PServer.Transitions

/-! The timer thread saves the blacklists in several critical sections, between which the other
threads change them (`NatServer.cpp`, `AntiAbuse.cpp`). What the file is worth is what a restart reads of it. -/
namespace P2PServer.BlacklistPersist
open ByteStrings Crypto NatServer BlacklistStore SealedFiles Transitions

/-- The critical sections of the other threads. -/
inductive Mutation
  | configure (floodThreshold blacklistSec : UInt32)
  | checkFlood (ip : UInt32)
  | isIpBlacklistedIp (ip : UInt32)
  | isUuidBlacklisted (uuid : Bytes)
  | blacklistIp (ip : UInt32)
  | blacklistUuid (uuid : Bytes)
  | unblacklistIp (ip : UInt32)
  | unblacklistUuid (uuid : Bytes)
  | sweep

def Mutation.apply (now : ℤ) (a : AntiAbuse) : Mutation → AntiAbuse
  | configure floodThreshold blacklistSec => a.configure floodThreshold blacklistSec
  | checkFlood ip => (a.checkFlood ip now).2
  | isIpBlacklistedIp ip => (a.isIpBlacklistedIp ip now).2
  | isUuidBlacklisted uuid => (a.isUuidBlacklisted uuid now).2
  | blacklistIp ip => a.blacklistIp ip now
  | blacklistUuid uuid => a.blacklistUuid uuid now
  | unblacklistIp ip => a.unblacklistIp ip
  | unblacklistUuid uuid => a.unblacklistUuid uuid
  | sweep => a.sweep now

/-- Where the timer is in `if (abuse_.needs_save() && abuse_.save()) abuse_.reset_dirty()`. -/
inductive Phase
  | idle
  /-- `needs_save` has returned true. -/
  | needed
  /-- `save` has copied the path. -/
  | pathCopied
  /-- `save` has made the text of the file, of these lists. -/
  | textCopied (time : ℤ) (lists : AntiAbuse) (plain : Bytes)
  /-- `save` has returned true. -/
  | wrote
  deriving DecidableEq

/-- The file as it was written last, with the lists it was made of. -/
structure Image where
  time : ℤ
  lists : AntiAbuse
  bytes : Bytes
  deriving DecidableEq

structure State where
  store : BlacklistStore
  phase : Phase := .idle
  file : Option Image := none
  deriving DecidableEq

/-- The next critical section or file access of the timer. -/
def timer (env : Env) (s : State) : State :=
  match s.phase with
  | .idle => if s.store.abuse.dirty then { s with phase := .needed } else s
  | .needed =>
    if s.store.path.isEmpty ∨ !s.store.abuse.dirty then { s with phase := .idle }
    else { s with phase := .pathCopied }
  | .pathCopied => { s with phase := .textCopied env.now s.store.abuse (plainText s.store.abuse env.now) }
  | .textCopied time lists plain =>
    if !env.canOpen then { s with phase := .idle }
    else
      let w := written s.store.pass env.salt env.iv plain
      { s with
        file := some ⟨time, lists, w.2⟩
        phase := if w.1 then .wrote else .idle }
  | .wrote =>
    { s with
      store := { s.store with abuse := { s.store.abuse with dirty := false } }
      phase := .idle }

inductive Event
  | timer (env : Env)
  | other (now : ℤ) (m : Mutation)

def step (s : State) : Event → State
  | .timer env => timer env s
  | .other now m => { s with store := { s.store with abuse := m.apply now s.store.abuse } }

/-- `init`: without a `BlacklistFile` there is no path and nothing is loaded. -/
def start (floodThreshold blacklistSec : UInt32) (path pass : Bytes) (file : Option Bytes) : State :=
  let abuse := ({} : AntiAbuse).configure floodThreshold blacklistSec
  if path.isEmpty then { store := { abuse := abuse } }
  else { store := (load file { abuse := abuse, path := path, pass := pass }).2 }

/-- Salt and initialisation vector are 16 random bytes each. -/
def persistence : System State Event where
  init s := ∃ floodThreshold blacklistSec path pass file, s = start floodThreshold blacklistSec path pass file
  enabled _ e := match e with
    | .timer env => env.salt.length = 16 ∧ env.iv.length = 16
    | .other _ _ => True
  next := step

/-- What a restart reads of the file is what is in memory, as far as it had not ended when the file was written. -/
def Represents (s : State) : Prop :=
  (s.file = none → s.store.abuse.ipBlack = ∅ ∧ s.store.abuse.uuidBlack = ∅) ∧
    ∀ f ∈ s.file, ∃ s', load (some f.bytes) { path := s.store.path, pass := s.store.pass } = (true, s') ∧
      Unexpired s.store.abuse f.time s'.abuse

/-- Between two cycles of the timer, a clear mark means that nothing is left to save. -/
def Saved (s : State) : Prop := s.phase = .idle → s.store.abuse.dirty = false → Represents s

/-- The bans that last longer than `now`. -/
def inForce (a : AntiAbuse) (now : ℤ) : Std.ExtTreeMap UInt32 ℤ × Std.ExtTreeMap Bytes ℤ :=
  (a.ipBlack.filter fun _ t => now < t, a.uuidBlack.filter fun _ t => now < t)

/-- No uuid in the file has a blank or a newline in it. -/
def Legible (f : Image) : Prop := ∀ u t, f.lists.uuidBlack[u]? = some t → f.time < t → Clear u

/-- At `reset_dirty` the bans that the file is about are those that `save` made its text of, and the
text can be read back. -/
def Kept (s : State) : Event → Prop
  | .timer _ => s.phase = .wrote → ∀ f ∈ s.file,
      inForce s.store.abuse f.time = inForce f.lists f.time ∧ Legible f
  | .other _ _ => True

theorem apply_marks (m : Mutation) (now : ℤ) (a : AntiAbuse) : AntiAbuse.Marks a (m.apply now a) := by
  cases m with
  | configure => exact .inr ⟨rfl, rfl, rfl⟩
  | checkFlood ip => exact a.checkFlood_marks ip now
  | isIpBlacklistedIp ip => exact a.isIpBlacklistedIp_marks ip now
  | isUuidBlacklisted uuid => exact a.isUuidBlacklisted_marks uuid now
  | blacklistIp => exact .inl rfl
  | blacklistUuid => exact .inl rfl
  | unblacklistIp ip => exact a.unblacklistIp_marks ip
  | unblacklistUuid uuid => exact a.unblacklistUuid_marks uuid
  | sweep => exact a.sweep_marks now

theorem unexpired_iff {a a' : AntiAbuse} {now : ℤ} :
    Unexpired a now a' ↔ (a'.ipBlack, a'.uuidBlack) = inForce a now := by
  rw [Unexpired, inForce, Prod.mk.injEq]

/-- The text depends on the bans in force only. -/
theorem plainText_inForce {a a' : AntiAbuse} {now : ℤ} (h : inForce a now = inForce a' now) :
    plainText a now = plainText a' now := by
  obtain ⟨hip, huuid⟩ := Prod.mk.injEq .. ▸ h
  rw [plainText, plainText, lines, lines, filter_later, filter_later, filter_later, filter_later, hip, huuid]

/-- While the timer is in a cycle the mark is set, since only the timer clears it. -/
structure Inv (s : State) : Prop where
  marked : s.phase ≠ .idle → s.store.abuse.dirty = true
  text : ∀ time lists plain, s.phase = .textCopied time lists plain → plain = plainText lists time
  wrote : s.phase = .wrote → s.file ≠ none
  image : ∀ f, s.file = some f → ∃ salt iv, salt.length = 16 ∧ iv.length = 16 ∧
    f.bytes = (written s.store.pass salt iv (plainText f.lists f.time)).2

theorem Inv.other {s : State} (h : Inv s) (now : ℤ) (m : Mutation) : Inv (step s (.other now m)) := by
  refine ⟨fun hp => ?_, h.text, h.wrote, h.image⟩
  rcases apply_marks m now s.store.abuse with hd | ⟨hd, -, -⟩
  · exact hd
  · exact hd.trans (h.marked hp)

theorem Inv.timer {s : State} (h : Inv s) {env : Env} (hsalt : env.salt.length = 16) (hiv : env.iv.length = 16) :
    Inv (step s (.timer env)) := by
  obtain ⟨store, phase, file⟩ := s
  cases phase with
  | idle =>
    simp only [step, BlacklistPersist.timer]
    split
    next hd => exact ⟨fun _ => hd, nofun, nofun, h.image⟩
    · exact h
  | needed =>
    simp only [step, BlacklistPersist.timer]
    split
    · exact ⟨fun hp => absurd rfl hp, nofun, nofun, h.image⟩
    · exact ⟨fun _ => h.marked (by simp), nofun, nofun, h.image⟩
  | pathCopied =>
    refine ⟨fun _ => h.marked (by simp), fun time lists plain hp => ?_, nofun, h.image⟩
    cases hp
    rfl
  | textCopied time lists plain =>
    simp only [step, BlacklistPersist.timer]
    split
    · exact ⟨fun hp => absurd rfl hp, nofun, nofun, h.image⟩
    · refine ⟨fun _ => h.marked (by simp), ?_, fun _ => by simp, fun f hf => ?_⟩
      · intro time lists plain hp
        dsimp only at hp
        split at hp <;> cases hp
      · cases hf
        rw [h.text time lists plain rfl]
        exact ⟨env.salt, env.iv, hsalt, hiv, rfl⟩
  | wrote => exact ⟨fun hp => absurd rfl hp, nofun, nofun, h.image⟩

theorem start_inv (floodThreshold blacklistSec : UInt32) (path pass : Bytes) (file : Option Bytes) :
    Inv (start floodThreshold blacklistSec path pass file) := by
  unfold start
  dsimp only
  split <;> exact ⟨fun hp => absurd rfl hp, nofun, nofun, nofun⟩

/-- A change of memory either sets the mark or leaves what the file says. -/
theorem saved_other {s : State} (h : Saved s) (now : ℤ) (m : Mutation) : Saved (step s (.other now m)) := by
  intro hp hd
  rcases apply_marks m now s.store.abuse with hm | ⟨hm, hi, hu⟩
  · exact absurd (hm.symm.trans hd) (by decide)
  · have hrep : Represents s := h hp (hm.symm.trans hd)
    refine ⟨fun hn => ⟨hi.trans (hrep.1 hn).1, hu.trans (hrep.1 hn).2⟩, fun f hf => ?_⟩
    obtain ⟨s', hload, hip, huuid⟩ := hrep.2 f hf
    exact ⟨s', hload, hip.trans (by rw [← hi]; rfl), huuid.trans (by rw [← hu]; rfl)⟩

theorem load_image {s : State} (hinv : Inv s) {f : Image} (hf : s.file = some f) (hlegible : Legible f) :
    ∃ s', load (some f.bytes) { path := s.store.path, pass := s.store.pass } = (true, s') ∧
      Unexpired f.lists f.time s'.abuse := by
  obtain ⟨salt, iv, hsalt, hiv, hbytes⟩ := hinv.image f hf
  rw [hbytes]
  exact (load_written hlegible s.store.path s.store.pass hsalt hiv).2

theorem saved_timer {s : State} (hinv : Inv s) (h : Saved s) (env : Env) (hk : Kept s (.timer env)) :
    Saved (step s (.timer env)) := by
  have hread (f : Image) (hf : s.file = some f) := load_image hinv hf
  obtain ⟨store, phase, file⟩ := s
  have hmarked := hinv.marked
  cases phase with
  | idle =>
    simp only [step, timer]
    split
    · exact nofun
    · exact h
  | needed =>
    have hd : store.abuse.dirty = true := hmarked nofun
    simp only [step, timer]
    split
    · exact fun _ hc => absurd (hd.symm.trans hc) (by decide)
    · exact nofun
  | pathCopied => exact nofun
  | textCopied time lists plain =>
    have hd : store.abuse.dirty = true := hmarked nofun
    simp only [step, timer]
    split <;> exact fun _ hc => absurd (hd.symm.trans hc) (by decide)
  | wrote =>
    intro _ _
    refine ⟨fun hnone => absurd hnone (hinv.wrote rfl), fun f hf => ?_⟩
    obtain ⟨hsame, hlegible⟩ := hk rfl f hf
    obtain ⟨s', hload, hs'⟩ := hread f hf hlegible
    exact ⟨s', hload, unexpired_iff.mpr ((unexpired_iff.mp hs').trans hsame.symm)⟩

/-- If the file is legible, `reset_dirty` loses something unless the bans are the same. -/
theorem kept_of_saved {s : State} (hinv : Inv s) (env : Env) (hlegible : ∀ f ∈ s.file, Legible f)
    (h : Saved (step s (.timer env))) : Kept s (.timer env) := by
  intro hp f hf
  refine ⟨?_, hlegible f hf⟩
  obtain ⟨s', hload, hs'⟩ := load_image hinv hf (hlegible f hf)
  obtain ⟨store, phase, file⟩ := s
  change phase = .wrote at hp
  subst hp
  obtain ⟨s'', hload', hs''⟩ := (h rfl rfl).2 f hf
  have hsame : s' = s'' := congrArg Prod.snd (hload.symm.trans hload')
  rw [hsame] at hs'
  exact (unexpired_iff.mp hs'').symm.trans (unexpired_iff.mp hs')

theorem start_saved (floodThreshold blacklistSec : UInt32) (path pass : Bytes) (file : Option Bytes) :
    Saved (start floodThreshold blacklistSec path pass file) := by
  intro _ hd
  unfold start at hd ⊢
  dsimp only at hd ⊢
  split at hd
  next hp =>
    rw [if_pos hp]
    exact ⟨fun _ => ⟨rfl, rfl⟩, nofun⟩
  next hp =>
    rw [if_neg hp]
    rcases load_marks file ⟨({} : AntiAbuse).configure floodThreshold blacklistSec, path, pass⟩
      with hl | hl
    · rw [hl]
      exact ⟨fun _ => ⟨rfl, rfl⟩, nofun⟩
    · exact absurd (hl.symm.trans hd) (by decide)

/-- If `reset_dirty` is never called after a change of the bans that `save` has written, nor after an illegible
file, then a restart reads the bans in memory whenever the mark is clear between two cycles. Where the file is
legible, the next step of the timer loses nothing only if it meets the condition. -/
theorem saved_of_kept {s : State} (h : Reach persistence Kept s) :
    Saved s ∧ ∀ env, (∀ f ∈ s.file, Legible f) → (Saved (step s (.timer env)) ↔ Kept s (.timer env)) := by
  have hboth : Inv s ∧ Saved s := by
    refine h.invariant (I := fun s => Inv s ∧ Saved s) (fun s h0 => ?_) fun s e ⟨hinv, hsaved⟩ hcan hk => ?_
    · obtain ⟨floodThreshold, blacklistSec, path, pass, file, rfl⟩ := h0
      exact ⟨start_inv floodThreshold blacklistSec path pass file, start_saved floodThreshold blacklistSec path pass file⟩
    · cases e with
      | timer env => exact ⟨hinv.timer hcan.1 hcan.2, saved_timer hinv hsaved env hk⟩
      | other now m => exact ⟨hinv.other now m, saved_other hsaved now m⟩
  exact ⟨hboth.2, fun env hlegible =>
    ⟨kept_of_saved hboth.1 env hlegible, saved_timer hboth.1 hboth.2 env⟩⟩

/-- The operator bans a uuid, another thread looks an address up while the timer writes the ban, and `reset_dirty`
comes next. -/
def quietBan : List Event :=
  [.other 1000 (.blacklistUuid [0x75]), .timer {}, .timer {}, .timer { now := 1001 },
    .other 1001 (.isIpBlacklistedIp 0x0A000008), .timer {}]

def quietlySaved : State := (quietBan ++ [Event.timer {}]).foldl step (start 200 600 [0x62] [] none)

theorem saved_of_kept_quietBan : quietlySaved.store.abuse.dirty = false ∧ Saved quietlySaved := by
  have hstart : Reach persistence Kept (start 200 600 [0x62] [] none) := .start ⟨_, _, _, _, _, rfl⟩
  have hlast : Kept (quietBan.foldl step (start 200 600 [0x62] [] none)) (.timer {}) := by
    have himage : ∀ f ∈ (quietBan.foldl step (start 200 600 [0x62] [] none)).file,
        inForce (quietBan.foldl step (start 200 600 [0x62] [] none)).store.abuse f.time = inForce f.lists f.time ∧
          f.lists.uuidBlack = (∅ : Std.ExtTreeMap Bytes ℤ).insert [0x75] 1600 := by decide +kernel
    intro _ f hf
    obtain ⟨hsame, hone⟩ := himage f hf
    refine ⟨hsame, fun u t hu _ => ?_⟩
    rw [hone, TreeMaps.insert_get] at hu
    split at hu
    next h => exact h ▸ (by unfold Clear; decide)
    · simp at hu
  have hrun : Run persistence Kept (start 200 600 [0x62] [] none) (quietBan ++ [.timer {}]) :=
    Run.append.mpr ⟨⟨trivial, trivial, ⟨rfl, rfl⟩, nofun, ⟨rfl, rfl⟩, nofun, ⟨rfl, rfl⟩, nofun, trivial, trivial,
      ⟨rfl, rfl⟩, nofun, trivial⟩, ⟨rfl, rfl⟩, hlast, trivial⟩
  exact ⟨by decide +kernel, (saved_of_kept (hstart.run hrun)).1⟩

/-- The operator bans a second address while the timer writes the ban of the first. -/
def lateBan : List Event :=
  [.other 1000 (.blacklistIp 0x0A000009), .timer {}, .timer {}, .timer { now := 1001 },
    .other 1001 (.blacklistIp 0x0A000008), .timer {}, .timer {}]

/-- The second ban is in memory only, and the mark is clear. -/
theorem lateBan_lost : ¬∀ s, Reachable persistence s → Saved s := by
  intro h
  have hstart : Reachable persistence (start 200 600 [0x62] [] none) := .start ⟨_, _, _, _, _, rfl⟩
  have hrun : Run persistence (fun _ _ => True) (start 200 600 [0x62] [] none) lateBan :=
    ⟨trivial, trivial, ⟨rfl, rfl⟩, trivial, ⟨rfl, rfl⟩, trivial, ⟨rfl, rfl⟩, trivial, trivial, trivial,
      ⟨rfl, rfl⟩, trivial, ⟨rfl, rfl⟩, trivial, trivial⟩
  have hrep := (h _ (hstart.run hrun) (by decide) (by decide)).2
  obtain ⟨f, hf⟩ := Option.isSome_iff_exists.mp
    (show (lateBan.foldl step (start 200 600 [0x62] [] none)).file.isSome = true by decide +kernel)
  obtain ⟨s', hload, hip, -⟩ := hrep f hf
  have hread : ∀ f ∈ (lateBan.foldl step (start 200 600 [0x62] [] none)).file,
      (load (some f.bytes) { path := [0x62] }).2.abuse.ipBlack[(0x0A000008 : UInt32)]? = none ∧
        ((lateBan.foldl step (start 200 600 [0x62] [] none)).store.abuse.ipBlack.filter
          fun _ t => f.time < t)[(0x0A000008 : UInt32)]? = some 1601 := by decide +kernel
  obtain ⟨hgone, hthere⟩ := hread f hf
  have hsame : (load (some f.bytes) { path := [0x62] }).2 = s' := congrArg Prod.snd hload
  rw [hsame] at hgone
  exact absurd (hgone.symm.trans ((congrArg (·[(0x0A000008 : UInt32)]?) hip).trans hthere)) (by decide)

theorem timer_save (env : Env) {store : BlacklistStore} (file : Option Image) (hpath : store.path ≠ [])
    (hd : store.abuse.dirty = true) :
    timer env (timer env (timer env ⟨store, .needed, file⟩)) =
      match save env.canOpen env.now env.salt env.iv store with
      | (_, none) => ⟨store, .idle, file⟩
      | (ok, some bytes) => ⟨store, if ok then .wrote else .idle,
          some ⟨env.now, store.abuse, bytes⟩⟩ := by
  have hgo : ¬(store.path.isEmpty = true ∨ (!store.abuse.dirty) = true) := by
    simp [hpath, hd]
  have hfirst : timer env ⟨store, .needed, file⟩ = ⟨store, .pathCopied, file⟩ := if_neg hgo
  rw [hfirst, save, if_neg hgo]
  cases ho : env.canOpen with
  | false => simp [timer, ho]
  | true =>
    simp only [timer, ho]
    rfl

end P2PServer.BlacklistPersist
