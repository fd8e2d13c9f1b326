import P2PServer.AntiAbuse
import P2PServer.Transitions
import P2PServer.TreeMaps

/-! Flood detection over whole runs of the receiving loop: the sliding window, the lazy expiry and
the sweeps together count the packets of an address in a second. -/
namespace P2PServer.AntiAbuse
open Transitions

/-- What happened to an address: a packet of it reached `check_flood`, or its ban was removed. -/
inductive Entry
  | reached (ip : UInt32) (now : ℤ)
  | unblocked (ip : UInt32)

/-- The packets of `ip` in the second `now` that reached `check_flood` since the address was last
unblocked; the latest entry comes first. -/
def arrivals (ip : UInt32) (now : ℤ) : List Entry → ℕ
  | [] => 0
  | .reached i t :: log => (if i = ip ∧ t = now then 1 else 0) + arrivals ip now log
  | .unblocked i :: log => if i = ip then 0 else arrivals ip now log

/-- `pending` is the packet between its two tests, by its address. -/
structure State where
  abuse : AntiAbuse
  clock : ℤ
  pending : Option UInt32 := none
  log : List Entry := []

/-- The two tests of a packet, and the sweep of the timer, each with its reading of the clock. -/
inductive Event
  | gate (ip : UInt32) (now : ℤ)
  | flood (ip : UInt32) (now : ℤ)
  | sweep (now : ℤ)

def Event.now : Event → ℤ
  | .gate _ now => now
  | .flood _ now => now
  | .sweep now => now

/-- The bans that are gone. -/
def freed (a a' : AntiAbuse) : List UInt32 := a.ipBlack.keys.filter fun ip => !a'.ipBlack.contains ip

def State.moved (s : State) (a : AntiAbuse) (now : ℤ) : State :=
  { s with abuse := a, clock := now, log := (freed s.abuse a).map .unblocked ++ s.log }

/-- A packet that passes `is_ip_blacklisted` goes on to `check_flood`. -/
def next (s : State) : Event → State
  | .gate ip now =>
    let r := s.abuse.isIpBlacklistedIp ip now
    { s.moved r.2 now with pending := if r.1 then none else some ip }
  | .flood ip now =>
    { s with
      abuse := (s.abuse.checkFlood ip now).2
      clock := now
      pending := none
      log := .reached ip now :: s.log }
  | .sweep now => s.moved (s.abuse.sweep now) now

/-- The receiving loop takes one packet at a time; sweeps come at any time, and the clock does not
go back. -/
def enabled (s : State) (e : Event) : Prop :=
  s.clock ≤ e.now ∧ match e with
    | .gate _ _ => s.pending = none
    | .flood ip _ => s.pending = some ip
    | .sweep _ => True

/-- Nothing has been counted yet; bans may have been loaded. -/
def receiving : System State Event where
  init s := s.abuse.flood = ∅ ∧ s.pending = none ∧ s.log = []
  enabled := enabled
  next := next

def window (a : AntiAbuse) (ip : UInt32) : List ℤ := (a.flood[ip]?).getD []

section
variable (a : AntiAbuse) (ip : UInt32) (now : ℤ)

theorem gate_verdict : (a.isIpBlacklistedIp ip now).1 = a.ipBlack[ip]?.any fun t => now ≤ t := by
  unfold isIpBlacklistedIp
  cases a.ipBlack[ip]? with
  | none => rfl
  | some t =>
    dsimp only
    split
    · rename_i h
      simp [h]
    · rename_i h
      simpa using h

theorem gate_ipBlack (j : UInt32) : (a.isIpBlacklistedIp ip now).2.ipBlack[j]? =
    if j = ip then a.ipBlack[ip]?.filter fun t => now ≤ t else a.ipBlack[j]? := by
  unfold isIpBlacklistedIp
  cases h : a.ipBlack[ip]? with
  | none =>
    dsimp only
    split
    · rename_i hj
      rw [hj, h]
      rfl
    · rfl
  | some t =>
    dsimp only
    split
    · rename_i hnow
      rw [TreeMaps.erase_get, Option.filter_some_neg (by simpa using hnow)]
    · rename_i hnow
      split
      · rename_i hj
        rw [hj, h, Option.filter_some_pos (by simpa using hnow)]
      · rfl

theorem gate_frame : (a.isIpBlacklistedIp ip now).2.flood = a.flood ∧
    (a.isIpBlacklistedIp ip now).2.floodThreshold = a.floodThreshold ∧
    (a.isIpBlacklistedIp ip now).2.blacklistSec = a.blacklistSec := by
  unfold isIpBlacklistedIp
  split
  · exact ⟨rfl, rfl, rfl⟩
  · split <;> exact ⟨rfl, rfl, rfl⟩

theorem sweep_ipBlack (j : UInt32) :
    (a.sweep now).ipBlack[j]? = a.ipBlack[j]?.filter fun t => now ≤ t := by
  unfold sweep
  dsimp only
  rw [TreeMaps.filter_get]
  congr 1
  funext t
  rw [Bool.eq_iff_iff]
  simp

def advanced (a : AntiAbuse) (ip : UInt32) (now : ℤ) : List ℤ :=
  ((window a ip).dropWhile fun t => now - t ≥ 1) ++ [now]

theorem checkFlood_free (h : a.ipBlack[ip]? = none) : a.checkFlood ip now =
    if (advanced a ip now).length > a.floodThreshold.toNat then
      (true, { a with
        ipBlack := a.ipBlack.insert ip (a.banUntil now)
        flood := a.flood.insert ip []
        dirty := true
        droppedFlood := a.droppedFlood + a.floodThreshold.toUInt64 })
    else (false, { a with flood := a.flood.insert ip (advanced a ip now) }) := by
  have hnot : ¬a.ipBlack.contains ip = true := by
    rw [Std.ExtTreeMap.contains_eq_isSome_getElem?, h]
    simp
  unfold checkFlood
  rw [if_neg hnot]
  rfl

theorem checkFlood_ipBlack (h : a.ipBlack[ip]? = none) (j : UInt32) :
    (a.checkFlood ip now).2.ipBlack[j]? =
      if j = ip ∧ (a.checkFlood ip now).1 = true then some (a.banUntil now) else a.ipBlack[j]? := by
  rw [checkFlood_free a ip now h]
  split
  · simp [TreeMaps.insert_get]
  · simp

theorem checkFlood_window (h : a.ipBlack[ip]? = none) (j : UInt32) :
    window (a.checkFlood ip now).2 j =
      if j = ip then if (a.checkFlood ip now).1 then [] else advanced a ip now else window a j := by
  rw [checkFlood_free a ip now h]
  unfold window
  split
  · dsimp only
    rw [TreeMaps.insert_get]
    split <;> rfl
  · dsimp only
    rw [TreeMaps.insert_get]
    split <;> rfl

theorem checkFlood_frame : (a.checkFlood ip now).2.floodThreshold = a.floodThreshold ∧
    (a.checkFlood ip now).2.blacklistSec = a.blacklistSec := by
  simp only [checkFlood]
  split
  · exact ⟨rfl, rfl⟩
  · split <;> exact ⟨rfl, rfl⟩

end

theorem mem_freed {a a' : AntiAbuse} {ip : UInt32} :
    ip ∈ freed a a' ↔ (∃ t, a.ipBlack[ip]? = some t) ∧ a'.ipBlack[ip]? = none := by
  unfold freed
  rw [List.mem_filter, Std.ExtTreeMap.mem_keys, Std.ExtTreeMap.mem_iff_isSome_getElem?,
    Option.isSome_iff_exists, Bool.not_eq_true', Std.ExtTreeMap.contains_eq_isSome_getElem?,
    Option.isSome_eq_false_iff, Option.isNone_iff_eq_none]

theorem arrivals_unblocked (ips : List UInt32) (ip : UInt32) (now : ℤ) (log : List Entry) :
    arrivals ip now (ips.map .unblocked ++ log) = if ip ∈ ips then 0 else arrivals ip now log := by
  induction ips with
  | nil => rfl
  | cons i ips ih =>
    rw [List.map_cons, List.cons_append, arrivals, ih]
    by_cases hi : i = ip
    · simp [hi]
    · simp [hi, Ne.symm hi]

/-- A free address has the packets of the second in its window, behind older ones; a banned address
has an empty window. -/
structure Counted (s : State) (ip : UInt32) : Prop where
  window : s.abuse.ipBlack[ip]? = none → ∀ now, s.clock ≤ now →
    ((window s.abuse ip).dropWhile fun t => now - t ≥ 1) = List.replicate (arrivals ip now s.log) now
  future : ∀ now, s.clock < now → arrivals ip now s.log = 0
  bounded : s.abuse.ipBlack[ip]? = none → ∀ now, s.clock ≤ now →
    arrivals ip now s.log ≤ s.abuse.floodThreshold.toNat
  banned : ∀ t, s.abuse.ipBlack[ip]? = some t → AntiAbuse.window s.abuse ip = []

structure Counting (s : State) : Prop where
  counted : ∀ ip, Counted s ip
  passed : ∀ ip, s.pending = some ip → s.abuse.ipBlack[ip]? = none

theorem Counted.moved {s : State} {ip : UInt32} (h : Counted s ip) {a : AntiAbuse} {now : ℤ}
    (hnow : s.clock ≤ now) (hw : AntiAbuse.window a ip = AntiAbuse.window s.abuse ip)
    (hT : a.floodThreshold = s.abuse.floodThreshold)
    (hb : a.ipBlack[ip]? = s.abuse.ipBlack[ip]? ∨ a.ipBlack[ip]? = none) :
    Counted (s.moved a now) ip := by
  by_cases hfreed : ip ∈ freed s.abuse a
  · obtain ⟨⟨t, ht⟩, hgone⟩ := mem_freed.mp hfreed
    have hzero (now' : ℤ) : arrivals ip now' (s.moved a now).log = 0 := by
      rw [State.moved, arrivals_unblocked, if_pos hfreed]
    have hempty : AntiAbuse.window (s.moved a now).abuse ip = [] := hw.trans (h.banned t ht)
    refine ⟨fun _ now' _ => ?_, fun now' _ => hzero now', fun _ now' _ => ?_, fun _ _ => hempty⟩
    · rw [hempty, hzero]
      rfl
    · rw [hzero]
      exact Nat.zero_le _
  · have hlog (now' : ℤ) : arrivals ip now' (s.moved a now).log = arrivals ip now' s.log := by
      rw [State.moved, arrivals_unblocked, if_neg hfreed]
    have hsame : a.ipBlack[ip]? = s.abuse.ipBlack[ip]? := by
      rcases hb with hb | hb
      · exact hb
      · cases ho : s.abuse.ipBlack[ip]? with
        | none => rw [hb]
        | some t => exact absurd (mem_freed.mpr ⟨⟨t, ho⟩, hb⟩) hfreed
    refine ⟨fun hn now' hle => ?_, fun now' hlt => ?_, fun hn now' hle => ?_, fun t ht => ?_⟩
    · rw [hlog]
      have := h.window (hsame.symm.trans hn) now' (hnow.trans hle)
      rwa [← hw] at this
    · rw [hlog]
      exact h.future now' (hnow.trans_lt hlt)
    · rw [hlog, show (s.moved a now).abuse.floodThreshold = _ from hT]
      exact h.bounded (hsame.symm.trans hn) now' (hnow.trans hle)
    · exact hw.trans (h.banned t (hsame.symm.trans ht))

section
variable {s : State} {ip : UInt32} {now : ℤ}

theorem Counted.advanced (h : Counted s ip) (hfree : s.abuse.ipBlack[ip]? = none)
    (hnow : s.clock ≤ now) :
    AntiAbuse.advanced s.abuse ip now = List.replicate (arrivals ip now s.log + 1) now := by
  rw [AntiAbuse.advanced, h.window hfree now hnow, ← List.replicate_succ']

theorem Counted.verdict (h : Counted s ip) (hfree : s.abuse.ipBlack[ip]? = none)
    (hnow : s.clock ≤ now) : (s.abuse.checkFlood ip now).1 = true ↔
      s.abuse.floodThreshold.toNat < arrivals ip now s.log + 1 := by
  rw [checkFlood_free s.abuse ip now hfree, h.advanced hfree hnow, List.length_replicate]
  split
  · rename_i hgt
    exact iff_of_true rfl hgt
  · rename_i hgt
    exact iff_of_false (by simp) hgt

theorem Counted.flood (h : Counted s ip) (hfree : s.abuse.ipBlack[ip]? = none)
    (hnow : s.clock ≤ now) : Counted (next s (.flood ip now)) ip := by
  have hlog (t : ℤ) : arrivals ip t (next s (.flood ip now)).log =
      (if now = t then 1 else 0) + arrivals ip t s.log := by
    change (if ip = ip ∧ now = t then 1 else 0) + arrivals ip t s.log = _
    simp
  have hwin := checkFlood_window s.abuse ip now hfree ip
  have hblack := checkFlood_ipBlack s.abuse ip now hfree ip
  rw [if_pos rfl, h.advanced hfree hnow] at hwin
  refine ⟨fun hn t hle => ?_, fun t hlt => ?_, fun hn t hle => ?_, fun t ht => ?_⟩
  · cases hv : (s.abuse.checkFlood ip now).1 with
    | true =>
      rw [if_pos ⟨rfl, hv⟩] at hblack
      rw [show (next s (.flood ip now)).abuse.ipBlack[ip]? = _ from hblack] at hn
      cases hn
    | false =>
      rw [hv, if_neg (by decide)] at hwin
      rw [show AntiAbuse.window (next s (.flood ip now)).abuse ip = _ from hwin, hlog]
      rcases (show now ≤ t from hle).eq_or_lt with rfl | hlt
      · rw [if_pos rfl, List.replicate_succ, List.dropWhile_cons_of_neg (by simp),
          ← List.replicate_succ, Nat.add_comm]
      · rw [if_neg hlt.ne, h.future t (hnow.trans_lt hlt)]
        exact List.dropWhile_eq_nil_iff.mpr fun x hx => by
          rw [List.eq_of_mem_replicate hx, decide_eq_true_eq]
          omega
  · have hlt' : now < t := hlt
    rw [hlog, if_neg hlt'.ne, h.future t (hnow.trans_lt hlt')]
  · have hv : ¬(s.abuse.checkFlood ip now).1 = true := fun hv => by
      rw [if_pos ⟨rfl, hv⟩] at hblack
      rw [show (next s (.flood ip now)).abuse.ipBlack[ip]? = _ from hblack] at hn
      cases hn
    rw [h.verdict hfree hnow] at hv
    rw [hlog, show (next s (.flood ip now)).abuse.floodThreshold = _ from
      (checkFlood_frame s.abuse ip now).1]
    rcases (show now ≤ t from hle).eq_or_lt with rfl | hlt
    · rw [if_pos rfl]
      omega
    · rw [if_neg hlt.ne, h.future t (hnow.trans_lt hlt)]
      exact Nat.zero_le _
  · rw [show (next s (.flood ip now)).abuse.ipBlack[ip]? = _ from hblack] at ht
    split at ht
    · rename_i hv
      rw [if_pos hv.2] at hwin
      exact hwin
    · rw [hfree] at ht
      cases ht

theorem Counted.other {j : UInt32} (h : Counted s j) (hfree : s.abuse.ipBlack[ip]? = none)
    (hnow : s.clock ≤ now) (hj : j ≠ ip) : Counted (next s (.flood ip now)) j := by
  have hlog (t : ℤ) : arrivals j t (next s (.flood ip now)).log = arrivals j t s.log := by
    change (if ip = j ∧ now = t then 1 else 0) + arrivals j t s.log = _
    rw [if_neg fun hc => hj hc.1.symm, Nat.zero_add]
  have hwin := checkFlood_window s.abuse ip now hfree j
  have hblack := checkFlood_ipBlack s.abuse ip now hfree j
  rw [if_neg hj] at hwin
  rw [if_neg fun hc => hj hc.1] at hblack
  refine ⟨fun hn t hle => ?_, fun t hlt => ?_, fun hn t hle => ?_, fun t ht => ?_⟩
  · rw [hlog, show AntiAbuse.window (next s (.flood ip now)).abuse j = _ from hwin]
    exact h.window (hblack.symm.trans hn) t (hnow.trans hle)
  · rw [hlog]
    exact h.future t (hnow.trans_lt hlt)
  · rw [hlog, show (next s (.flood ip now)).abuse.floodThreshold = _ from
      (checkFlood_frame s.abuse ip now).1]
    exact h.bounded (hblack.symm.trans hn) t (hnow.trans hle)
  · exact hwin.trans (h.banned t (hblack.symm.trans ht))

end

theorem filter_or {t : ℤ → Bool} (o : Option ℤ) : o.filter t = o ∨ o.filter t = none := by
  cases o with
  | none => exact .inr rfl
  | some x =>
    by_cases hx : t x = true
    · exact .inl (Option.filter_some_pos hx)
    · exact .inr (Option.filter_some_neg (by simpa using hx))

theorem Counting.next {s : State} (h : Counting s) {e : Event} (can : enabled s e) :
    Counting (next s e) := by
  obtain ⟨hnow, can⟩ := can
  cases e with
  | gate ip now =>
    obtain ⟨hflood, hT, -⟩ := gate_frame s.abuse ip now
    have hwin (j : UInt32) : window (s.abuse.isIpBlacklistedIp ip now).2 j = window s.abuse j := by
      rw [window, window, hflood]
    refine ⟨fun j => ?_, fun j hj => ?_⟩
    · have hm : Counted (s.moved (s.abuse.isIpBlacklistedIp ip now).2 now) j := by
        refine (h.counted j).moved hnow (hwin j) hT ?_
        rw [gate_ipBlack]
        split
        · rename_i hj
          rw [hj]
          exact filter_or _
        · exact .inl rfl
      exact ⟨hm.window, hm.future, hm.bounded, hm.banned⟩
    · change (if (s.abuse.isIpBlacklistedIp ip now).1 then none else some ip) = some j at hj
      split at hj
      · cases hj
      · rename_i hv
        cases hj
        change (s.abuse.isIpBlacklistedIp ip now).2.ipBlack[ip]? = none
        rw [gate_verdict] at hv
        rw [gate_ipBlack, if_pos rfl]
        cases ho : s.abuse.ipBlack[ip]? with
        | none => rfl
        | some t =>
          rw [ho] at hv
          exact Option.filter_some_neg (by simpa using hv)
  | flood ip now =>
    have hfree := h.passed ip can
    refine ⟨fun j => ?_, fun j hj => by cases hj⟩
    by_cases hj : j = ip
    · rw [hj]
      exact (h.counted ip).flood hfree hnow
    · exact (h.counted j).other hfree hnow hj
  | sweep now =>
    refine ⟨fun j => ?_, fun j hj => ?_⟩
    · refine (h.counted j).moved hnow rfl rfl ?_
      rw [sweep_ipBlack]
      exact filter_or _
    · change (s.abuse.sweep now).ipBlack[j]? = none
      rw [sweep_ipBlack, h.passed j hj]
      rfl

theorem counting {s : State} (h : Reachable receiving s) : Counting s := by
  refine h.invariant ?_ fun s e hs can _ => hs.next can
  rintro s ⟨hflood, hpending, hlog⟩
  refine ⟨fun ip => ?_, fun ip hip => ?_⟩
  · have hwin : window s.abuse ip = [] := by simp [window, hflood]
    refine ⟨fun _ now _ => ?_, fun now _ => ?_, fun _ now _ => ?_, fun _ _ => hwin⟩
    · rw [hwin, hlog]
      rfl
    · rw [hlog]
      rfl
    · rw [hlog]
      exact Nat.zero_le _
  · rw [hpending] at hip
    cases hip

/-- A packet with which an address is banned. -/
def Violates (ip : UInt32) (s : State) (e : Event) : Prop :=
  ∃ now, e = .flood ip now ∧ (s.abuse.checkFlood ip now).1 = true

/-- The ban that ends at `t` is in force, or its time is over. -/
def Banned (ip : UInt32) (t : ℤ) (s : State) : Prop := s.abuse.ipBlack[ip]? = some t ∨ t < s.clock

/-- No later ban is in force. -/
def Unrenewed (ip : UInt32) (t : ℤ) (s : State) : Prop :=
  s.abuse.ipBlack[ip]? = some t ∨ s.abuse.ipBlack[ip]? = none

theorem filter_banned {t now : ℤ} {o : Option ℤ} (h : o = some t) :
    (o.filter fun t => now ≤ t) = some t ∨ t < now := by
  rw [h]
  rcases lt_or_ge t now with hlt | hle
  · exact .inr hlt
  · exact .inl (Option.filter_some_pos (by simpa using hle))

theorem filter_unrenewed {t : ℤ} {o : Option ℤ} (f : ℤ → Bool) (h : o = some t ∨ o = none) :
    o.filter f = some t ∨ o.filter f = none := by
  rcases filter_or o (t := f) with hf | hf
  · rw [hf]
    exact h
  · exact .inr hf

section
variable {s : State} {ip : UInt32} {t : ℤ} {e : Event}

theorem Banned.next (hc : Counting s) (h : Banned ip t s) (can : enabled s e) :
    Banned ip t (next s e) := by
  obtain ⟨hnow, can⟩ := can
  rcases h with hb | hlt
  · cases e with
    | gate j now =>
      unfold Banned
      change (s.abuse.isIpBlacklistedIp j now).2.ipBlack[ip]? = some t ∨ t < now
      rw [gate_ipBlack]
      split
      · rename_i hj
        exact filter_banned (hj ▸ hb)
      · exact .inl hb
    | flood j now =>
      -- the address itself is banned, so that the packet is one of another
      have hfree := hc.passed j can
      have hj : ip ≠ j := fun hj => by
        rw [hj, hfree] at hb
        cases hb
      left
      change (s.abuse.checkFlood j now).2.ipBlack[ip]? = some t
      rw [checkFlood_ipBlack _ _ _ hfree, if_neg fun hc => hj hc.1]
      exact hb
    | sweep now =>
      unfold Banned
      change (s.abuse.sweep now).ipBlack[ip]? = some t ∨ t < now
      rw [sweep_ipBlack]
      exact filter_banned hb
  · right
    have hclock : (AntiAbuse.next s e).clock = e.now := by cases e <;> rfl
    rw [hclock]
    omega

theorem Unrenewed.next (hc : Counting s) (h : Unrenewed ip t s) (can : enabled s e)
    (hv : ¬Violates ip s e) : Unrenewed ip t (next s e) := by
  cases e with
  | gate j now =>
    unfold Unrenewed
    change (s.abuse.isIpBlacklistedIp j now).2.ipBlack[ip]? = some t ∨
      (s.abuse.isIpBlacklistedIp j now).2.ipBlack[ip]? = none
    rw [gate_ipBlack]
    split
    · rename_i hj
      exact filter_unrenewed _ (hj ▸ h)
    · exact h
  | flood j now =>
    unfold Unrenewed
    change (s.abuse.checkFlood j now).2.ipBlack[ip]? = some t ∨
      (s.abuse.checkFlood j now).2.ipBlack[ip]? = none
    rw [checkFlood_ipBlack _ _ _ (hc.passed j can.2), if_neg]
    · exact h
    · rintro ⟨rfl, hban⟩
      exact hv ⟨now, rfl, hban⟩
  | sweep now =>
    unfold Unrenewed
    change (s.abuse.sweep now).ipBlack[ip]? = some t ∨ (s.abuse.sweep now).ipBlack[ip]? = none
    rw [sweep_ipBlack]
    exact filter_unrenewed _ h

end

/-- What holds at the start of a run and is kept by its steps holds at its end. -/
theorem run_keeps {ok : State → Event → Prop} {P : State → Prop}
    (hP : ∀ s e, Counting s → P s → enabled s e → ok s e → P (next s e)) {s : State}
    {es : List Event} (hc : Counting s) (h : P s) (hr : Run receiving ok s es) :
    P (es.foldl next s) := by
  induction es generalizing s with
  | nil => exact h
  | cons e es ih => exact ih (hc.next hr.1) (hP s e hc h hr.1 hr.2.1) hr.2.2

def Event.ip? : Event → Option UInt32
  | .gate ip _ => some ip
  | .flood ip _ => some ip
  | .sweep _ => none

/-- The answer of the test that the event makes. -/
def tested (s : State) : Event → Bool
  | .gate ip now => (s.abuse.isIpBlacklistedIp ip now).1
  | .flood ip now => (s.abuse.checkFlood ip now).1
  | .sweep _ => false

/-- The answers that the packets of an address get in a run. -/
def verdicts (ip : UInt32) : State → List Event → List Bool
  | _, [] => []
  | s, e :: es => (if e.ip? = some ip then [tested s e] else []) ++ verdicts ip (next s e) es

/-- An event that is not about a packet of another address. -/
def concerns (ip : UInt32) (e : Event) : Bool := e.ip? = none || e.ip? = some ip

/-- The second state knows the same of the address, and may not have seen the packets of others. -/
structure Agrees (ip : UInt32) (s s' : State) : Prop where
  ipBlack : s'.abuse.ipBlack[ip]? = s.abuse.ipBlack[ip]?
  window : AntiAbuse.window s'.abuse ip = AntiAbuse.window s.abuse ip
  threshold : s'.abuse.floodThreshold = s.abuse.floodThreshold
  sec : s'.abuse.blacklistSec = s.abuse.blacklistSec
  clock : s'.clock ≤ s.clock
  pending : s'.pending = if s.pending = some ip then some ip else none

section
variable {ip : UInt32} {s s' : State} {e : Event}

theorem Agrees.enabled (h : Agrees ip s s') (hown : concerns ip e = true) (can : enabled s e) :
    AntiAbuse.enabled s' e := by
  refine ⟨h.clock.trans can.1, ?_⟩
  obtain ⟨-, can⟩ := can
  cases e with
  | gate j now =>
    change s.pending = none at can
    change s'.pending = none
    rw [h.pending, can]
    rfl
  | flood j now =>
    have hj : j = ip := by simpa [concerns, Event.ip?] using hown
    change s.pending = some j at can
    change s'.pending = some j
    rw [h.pending, can, if_pos (by rw [hj]), hj]
  | sweep now => trivial

/-- A packet of the address gets the same answers in both states, and a sweep does the same. -/
theorem Agrees.step (h : Agrees ip s s') (hc : Counting s) (hown : concerns ip e = true)
    (can : AntiAbuse.enabled s e) : tested s' e = tested s e ∧ Agrees ip (next s e) (next s' e) := by
  cases e with
  | gate j now =>
    have hj : j = ip := by simpa [concerns, Event.ip?] using hown
    subst hj
    have hv : (s'.abuse.isIpBlacklistedIp j now).1 = (s.abuse.isIpBlacklistedIp j now).1 := by
      rw [gate_verdict, gate_verdict, h.ipBlack]
    obtain ⟨hf, hT, hS⟩ := gate_frame s.abuse j now
    obtain ⟨hf', hT', hS'⟩ := gate_frame s'.abuse j now
    refine ⟨hv, ?_, ?_, hT'.trans (h.threshold.trans hT.symm), hS'.trans (h.sec.trans hS.symm),
      le_rfl, ?_⟩
    · change (s'.abuse.isIpBlacklistedIp j now).2.ipBlack[j]? =
        (s.abuse.isIpBlacklistedIp j now).2.ipBlack[j]?
      rw [gate_ipBlack, gate_ipBlack, h.ipBlack]
    · change AntiAbuse.window (s'.abuse.isIpBlacklistedIp j now).2 j =
        AntiAbuse.window (s.abuse.isIpBlacklistedIp j now).2 j
      rw [AntiAbuse.window, AntiAbuse.window, hf, hf']
      exact h.window
    · change (if (s'.abuse.isIpBlacklistedIp j now).1 then none else some j) =
        if (if (s.abuse.isIpBlacklistedIp j now).1 then none else some j) = some j then some j
        else none
      rw [hv]
      split <;> simp
  | flood j now =>
    have hj : j = ip := by simpa [concerns, Event.ip?] using hown
    subst hj
    have hfree := hc.passed j can.2
    have hfree' := h.ipBlack.trans hfree
    have hadv : advanced s'.abuse j now = advanced s.abuse j now := by
      rw [advanced, h.window, advanced]
    have hv : (s'.abuse.checkFlood j now).1 = (s.abuse.checkFlood j now).1 := by
      rw [checkFlood_free _ _ _ hfree, checkFlood_free _ _ _ hfree', hadv, h.threshold]
      split <;> rfl
    have hfr := checkFlood_frame s.abuse j now
    have hfr' := checkFlood_frame s'.abuse j now
    refine ⟨hv, ?_, ?_, hfr'.1.trans (h.threshold.trans hfr.1.symm),
      hfr'.2.trans (h.sec.trans hfr.2.symm), le_rfl, rfl⟩
    · change (s'.abuse.checkFlood j now).2.ipBlack[j]? = (s.abuse.checkFlood j now).2.ipBlack[j]?
      rw [checkFlood_ipBlack _ _ _ hfree, checkFlood_ipBlack _ _ _ hfree', hv, h.ipBlack, banUntil,
        banUntil, h.sec]
    · change AntiAbuse.window (s'.abuse.checkFlood j now).2 j =
        AntiAbuse.window (s.abuse.checkFlood j now).2 j
      rw [checkFlood_window _ _ _ hfree, checkFlood_window _ _ _ hfree', hv, hadv, if_pos rfl,
        if_pos rfl]
  | sweep now =>
    refine ⟨rfl, ?_, h.window, h.threshold, h.sec, le_rfl, h.pending⟩
    change (s'.abuse.sweep now).ipBlack[ip]? = (s.abuse.sweep now).ipBlack[ip]?
    rw [sweep_ipBlack, sweep_ipBlack, h.ipBlack]

/-- A packet of another address changes nothing that the first one depends on. -/
theorem Agrees.skip (h : Agrees ip s s') (hc : Counting s) (hother : concerns ip e = false)
    (can : AntiAbuse.enabled s e) : Agrees ip (next s e) s' := by
  obtain ⟨hnow, can⟩ := can
  cases e with
  | gate j now =>
    have hj : j ≠ ip := by simpa [concerns, Event.ip?] using hother
    obtain ⟨hf, hT, hS⟩ := gate_frame s.abuse j now
    refine ⟨?_, ?_, h.threshold.trans hT.symm, h.sec.trans hS.symm, h.clock.trans hnow, ?_⟩
    · change s'.abuse.ipBlack[ip]? = (s.abuse.isIpBlacklistedIp j now).2.ipBlack[ip]?
      rw [gate_ipBlack, if_neg hj.symm, h.ipBlack]
    · change AntiAbuse.window s'.abuse ip = AntiAbuse.window (s.abuse.isIpBlacklistedIp j now).2 ip
      rw [AntiAbuse.window, AntiAbuse.window, hf]
      exact h.window
    · change s.pending = none at can
      change s'.pending = if (if (s.abuse.isIpBlacklistedIp j now).1 then none else some j) = some ip
        then some ip else none
      rw [h.pending, can, if_neg (by simp)]
      split <;> simp [hj]
  | flood j now =>
    have hj : j ≠ ip := by simpa [concerns, Event.ip?] using hother
    have hfree := hc.passed j can
    have hfr := checkFlood_frame s.abuse j now
    refine ⟨?_, ?_, h.threshold.trans hfr.1.symm, h.sec.trans hfr.2.symm, h.clock.trans hnow, ?_⟩
    · change s'.abuse.ipBlack[ip]? = (s.abuse.checkFlood j now).2.ipBlack[ip]?
      rw [checkFlood_ipBlack _ _ _ hfree, if_neg fun hc => hj hc.1.symm, h.ipBlack]
    · change AntiAbuse.window s'.abuse ip = AntiAbuse.window (s.abuse.checkFlood j now).2 ip
      rw [checkFlood_window _ _ _ hfree, if_neg hj.symm, h.window]
    · change s.pending = some j at can
      change s'.pending = none
      rw [h.pending, can, if_neg (by simpa using hj)]
  | sweep now => cases hother

end

/-- An address gets the same answers when the packets of all others are left out. -/
theorem verdicts_filter {ip : UInt32} {es : List Event} {s s' : State} (hc : Counting s)
    (h : Agrees ip s s') (hr : Run receiving (fun _ _ => True) s es) :
    Run receiving (fun _ _ => True) s' (es.filter (concerns ip)) ∧
      verdicts ip s' (es.filter (concerns ip)) = verdicts ip s es := by
  induction es generalizing s s' with
  | nil => exact ⟨trivial, rfl⟩
  | cons e es ih =>
    obtain ⟨can, -, hr⟩ := hr
    cases hown : concerns ip e with
    | true =>
      obtain ⟨hv, hnext⟩ := h.step hc hown can
      obtain ⟨hrun, hsame⟩ := ih (hc.next can) hnext hr
      rw [List.filter_cons_of_pos hown]
      refine ⟨⟨h.enabled hown can, trivial, hrun⟩, ?_⟩
      rw [verdicts, verdicts, hv, hsame]
    | false =>
      obtain ⟨hrun, hsame⟩ := ih (hc.next can) (h.skip hc hown can) hr
      rw [List.filter_cons_of_neg (by simp [hown])]
      refine ⟨hrun, ?_⟩
      have hne : e.ip? ≠ some ip := fun he => by simp [concerns, he] at hown
      rw [hsame, verdicts, if_neg hne, List.nil_append]

section
variable {s : State} {ip : UInt32} {now : ℤ}

theorem flood_step (hc : Counting s) (can : enabled s (.flood ip now)) :
    ((s.abuse.checkFlood ip now).1 = true ↔
      arrivals ip now (next s (.flood ip now)).log = s.abuse.floodThreshold.toNat + 1) ∧
    ((s.abuse.checkFlood ip now).1 = true → (next s (.flood ip now)).abuse.ipBlack[ip]? =
      some (now + s.abuse.blacklistSec.toNat)) ∧
    ((s.abuse.checkFlood ip now).1 = false → (next s (.flood ip now)).abuse.ipBlack[ip]? = none ∧
      (window (next s (.flood ip now)).abuse ip).length ≤ s.abuse.floodThreshold.toNat) := by
  have hnow : s.clock ≤ now := can.1
  have hfree := hc.passed ip can.2
  have hv := (hc.counted ip).verdict hfree hnow
  have hbound := (hc.counted ip).bounded hfree now hnow
  have hblack := checkFlood_ipBlack s.abuse ip now hfree ip
  have hlog : arrivals ip now (next s (.flood ip now)).log = 1 + arrivals ip now s.log := by
    change (if ip = ip ∧ now = now then 1 else 0) + arrivals ip now s.log = _
    simp
  refine ⟨?_, fun hban => ?_, fun hpass => ?_⟩
  · rw [hv, hlog]
    omega
  · rw [if_pos ⟨rfl, hban⟩] at hblack
    exact hblack
  · rw [hpass, if_neg (by simp), hfree] at hblack
    refine ⟨hblack, ?_⟩
    have hwin := checkFlood_window s.abuse ip now hfree ip
    rw [if_pos rfl, hpass, if_neg (by decide), (hc.counted ip).advanced hfree hnow] at hwin
    change (window (s.abuse.checkFlood ip now).2 ip).length ≤ _
    rw [hwin, List.length_replicate]
    have : ¬s.abuse.floodThreshold.toNat < arrivals ip now s.log + 1 := by
      rw [← hv, hpass]
      decide
    omega

/-- The packets of a banned address up to the end of the ban, and after it. -/
theorem ban_lasts (hc : Counting s) (can : enabled s (.flood ip now))
    (hban : (s.abuse.checkFlood ip now).1 = true) {es : List Event} {now' : ℤ}
    (hr : Run receiving (fun _ _ => True) (next s (.flood ip now)) es)
    (hclock : (es.foldl next (next s (.flood ip now))).clock ≤ now') :
    (now' ≤ now + s.abuse.blacklistSec.toNat →
      ((es.foldl next (next s (.flood ip now))).abuse.isIpBlacklistedIp ip now').1 = true) ∧
    (now + s.abuse.blacklistSec.toNat < now' →
      Run receiving (fun s e => ¬Violates ip s e) (next s (.flood ip now)) es →
      ((es.foldl next (next s (.flood ip now))).abuse.isIpBlacklistedIp ip now').1 = false) := by
  have hstart := checkFlood_ipBlack s.abuse ip now (hc.passed ip can.2) ip
  rw [if_pos ⟨rfl, hban⟩] at hstart
  rw [gate_verdict]
  refine ⟨fun hle => ?_, fun hlt hcalm => ?_⟩
  · have hend := run_keeps (P := Banned ip (now + s.abuse.blacklistSec.toNat))
      (fun s e hc h can _ => h.next hc can) (hc.next can) (.inl hstart) hr
    rcases hend with hb | hover
    · rw [hb]
      simpa using hle
    · omega
  · have hend := run_keeps (P := Unrenewed ip (now + s.abuse.blacklistSec.toNat))
      (fun s e hc h can hv => h.next hc can hv) (hc.next can) (.inl hstart) hcalm
    rcases hend with hb | hb
    · rw [hb]
      simpa using hlt
    · rw [hb]
      rfl

end

/-- An address is banned exactly with the first packet of a second that is more than the threshold,
is then shut out up to the end of the ban and not after it, and gets the answers it would get if
it were alone. -/
theorem flood_counted :
    (∀ (s : State), Reachable receiving s → ∀ (ip : UInt32) (now : ℤ), enabled s (.flood ip now) →
      ((s.abuse.checkFlood ip now).1 = true ↔
        arrivals ip now (next s (.flood ip now)).log = s.abuse.floodThreshold.toNat + 1) ∧
      ((s.abuse.checkFlood ip now).1 = true → (next s (.flood ip now)).abuse.ipBlack[ip]? =
        some (now + s.abuse.blacklistSec.toNat)) ∧
      ((s.abuse.checkFlood ip now).1 = false → (next s (.flood ip now)).abuse.ipBlack[ip]? = none ∧
        (window (next s (.flood ip now)).abuse ip).length ≤ s.abuse.floodThreshold.toNat)) ∧
    (∀ (s : State), Reachable receiving s → ∀ (ip : UInt32) (now : ℤ), enabled s (.flood ip now) →
      (s.abuse.checkFlood ip now).1 = true → ∀ (es : List Event) (now' : ℤ),
      Run receiving (fun _ _ => True) (next s (.flood ip now)) es →
      (es.foldl next (next s (.flood ip now))).clock ≤ now' →
      (now' ≤ now + s.abuse.blacklistSec.toNat →
        ((es.foldl next (next s (.flood ip now))).abuse.isIpBlacklistedIp ip now').1 = true) ∧
      (now + s.abuse.blacklistSec.toNat < now' →
        Run receiving (fun s e => ¬Violates ip s e) (next s (.flood ip now)) es →
        ((es.foldl next (next s (.flood ip now))).abuse.isIpBlacklistedIp ip now').1 = false)) ∧
    ∀ (s : State), receiving.init s → ∀ (es : List Event), Run receiving (fun _ _ => True) s es →
      ∀ ip : UInt32, Run receiving (fun _ _ => True) s (es.filter (concerns ip)) ∧
        verdicts ip s (es.filter (concerns ip)) = verdicts ip s es := by
  refine ⟨fun s hs ip now can => flood_step (counting hs) can,
    fun s hs ip now can hban es now' hr hclock => ban_lasts (counting hs) can hban hr hclock,
    fun s hs es hr ip => verdicts_filter (counting (.start hs)) ⟨rfl, rfl, rfl, rfl, le_rfl, ?_⟩ hr⟩
  rw [hs.2.1]
  rfl

/-- Two packets of an address in a second are allowed, and a violation lasts 60 seconds. -/
def pairwise : State := { abuse := { floodThreshold := 2 }, clock := 0 }

def tests (ip : UInt32) (now : ℤ) : List Event := [.gate ip now, .flood ip now]

/-- Packets of two addresses, up to the last test of the third packet of one in a second. -/
def crowd : List Event := tests 7 99 ++ tests 7 100 ++ tests 8 100 ++ tests 7 100 ++ [.gate 7 100]

instance (s : State) : (e : Event) → Decidable (receiving.enabled s e)
  | .gate _ _ => inferInstanceAs (Decidable (_ ∧ s.pending = _))
  | .flood _ _ => inferInstanceAs (Decidable (_ ∧ s.pending = _))
  | .sweep _ => inferInstanceAs (Decidable (_ ∧ True))

theorem flood_counted_third :
    ((crowd.foldl next pairwise).abuse.checkFlood 7 100).1 = true ∧
    ((next (crowd.foldl next pairwise) (.flood 7 100)).abuse.isIpBlacklistedIp 7 160).1 = true ∧
    ((next (crowd.foldl next pairwise) (.flood 7 100)).abuse.isIpBlacklistedIp 7 161).1 = false ∧
    verdicts 7 pairwise (crowd.filter (concerns 7)) = verdicts 7 pairwise crowd := by
  have hinit : receiving.init pairwise := ⟨rfl, rfl, rfl⟩
  have hrun : Run receiving (fun _ _ => True) pairwise crowd := by decide +kernel
  have hs : Reachable receiving (crowd.foldl next pairwise) := Reach.run (.start hinit) hrun
  have hflood : receiving.enabled (crowd.foldl next pairwise) (.flood 7 100) := by decide +kernel
  have hban := (flood_counted.1 _ hs 7 100 hflood).1.mpr (by decide +kernel)
  have hlasts := flood_counted.2.1 _ hs 7 100 hflood hban []
  exact ⟨hban, (hlasts 160 trivial (by decide +kernel)).1 (by decide +kernel),
    (hlasts 161 trivial (by decide +kernel)).2 (by decide +kernel) trivial,
    (flood_counted.2.2 pairwise hinit crowd hrun 7).2⟩

end P2PServer.AntiAbuse
