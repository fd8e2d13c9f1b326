import P2PServer.BoundedQueue
import P2PServer.NatTypeCheck
import P2PServer.ServerRun

/-! The threads of a server (`recv_thread`, `proc_pool_thread` and `timer_thread` in `NatServer.cpp`):
receiving threads test each datagram and put it into a queue of limited length, workers take it out
and handle it. -/
namespace P2PServer.PacketQueue
open ByteStrings ProtoDef Net NatServer BoundedQueue Transitions

structure Packet where
  data : Bytes
  src : Addr
  deriving DecidableEq

/-- Where a receiving thread is with its datagram. -/
inductive Receiver
  | idle
  /-- `recvfrom` has returned it and `total_pkts_` counts it. -/
  | counted (p : Packet)
  /-- `is_ip_blacklisted` has let it pass. -/
  | allowed (p : Packet)
  /-- `check_flood` has let it pass. -/
  | cleared (p : Packet)
  deriving DecidableEq

def Receiver.packet : Receiver → Option Packet
  | .idle => none
  | .counted p => some p
  | .allowed p => some p
  | .cleared p => some p

def queueLimit : ℕ := 8192

/-- The record of the datagrams: received, turned away at each of the three tests, put into the queue
with what became of them, and handled. -/
structure Record where
  received : List Packet := []
  refused : List Packet := []
  flooded : List Packet := []
  probes : List Packet := []
  came : List Packet := []
  fates : List Fate := []
  handled : List Packet := []
  deriving DecidableEq

/-- A worker holds the packet that it has taken out of the queue. -/
structure State where
  clock : ℤ
  server : NatServer
  receivers : List Receiver
  workers : List (Option Packet)
  queue : List Packet := []
  record : Record := {}
  deriving DecidableEq

/-- The steps of the threads; `i` is the number of a thread. -/
inductive Event
  | receive (i : ℕ) (p : Packet)
  | gate (i : ℕ) (p : Packet) (now : ℤ)
  | flood (i : ℕ) (p : Packet) (now : ℤ)
  | file (i : ℕ) (p : Packet)
  | take (i : ℕ) (p : Packet)
  | handle (i : ℕ) (p : Packet) (env : Env)
  | timer (env : Env) (proxyDue snapDue saved : Bool) (reloaded : Option CfgData)

def Event.reading : Event → Option ℤ
  | .gate _ _ now => some now
  | .flood _ _ now => some now
  | .handle _ _ env => some env.now
  | .timer env _ _ _ _ => some env.now
  | _ => none

/-- The fast path: a probe of the NAT type is answered without the queue. -/
def isProbe (s : NatServer) (p : Packet) : Bool :=
  ((⟨s.natPort, s.altPort⟩ : NatTypeCheck).tryFastHandle p.data p.src).isSome

def next (s : State) : Event → State
  | .receive i p => { s with
      server := { s.server with totalPkts := s.server.totalPkts + 1 }
      receivers := s.receivers.set i (.counted p)
      record := { s.record with received := s.record.received ++ [p] } }
  | .gate i p now =>
    let hit := s.server.abuse.isIpBlacklistedIp p.src.ip now
    let s := { s with clock := now, server := { s.server with abuse := hit.2 } }
    if hit.1 then { s with
      receivers := s.receivers.set i .idle
      record := { s.record with refused := s.record.refused ++ [p] } }
    else { s with receivers := s.receivers.set i (.allowed p) }
  | .flood i p now =>
    let hit := s.server.abuse.checkFlood p.src.ip now
    let s := { s with clock := now, server := { s.server with abuse := hit.2 } }
    if hit.1 then { s with
      receivers := s.receivers.set i .idle
      record := { s.record with flooded := s.record.flooded ++ [p] } }
    else { s with receivers := s.receivers.set i (.cleared p) }
  | .file i p =>
    if isProbe s.server p then { s with
      receivers := s.receivers.set i .idle
      record := { s.record with probes := s.record.probes ++ [p] } }
    else { s with
      receivers := s.receivers.set i .idle
      queue := push queueLimit s.queue p
      record := { s.record with
        came := s.record.came ++ [p]
        fates := pushFates queueLimit s.queue s.record.fates } }
  | .take i p => { s with
      workers := s.workers.set i (some p)
      queue := s.queue.tail
      record := { s.record with fates := s.record.fates ++ [.taken] } }
  | .handle i p env => { s with
      clock := env.now
      server := (handlePacket env p.data p.src s.server).1
      workers := s.workers.set i none
      record := { s.record with handled := s.record.handled ++ [p] } }
  | .timer env proxyDue snapDue saved reloaded => { s with
      clock := env.now
      server := (timerPass env proxyDue snapDue saved reloaded s.server).1 }

/-- The thread is at the step, with this packet. An empty datagram is not counted. -/
def ready (s : State) : Event → Prop
  | .receive i p => s.receivers[i]? = some .idle ∧ p.data ≠ []
  | .gate i p _ => s.receivers[i]? = some (.counted p)
  | .flood i p _ => s.receivers[i]? = some (.allowed p)
  | .file i p => s.receivers[i]? = some (.cleared p)
  | .take i p => s.workers[i]? = some none ∧ s.queue.head? = some p
  | .handle i p _ => s.workers[i]? = some (some p)
  | .timer .. => True

instance (s : State) (e : Event) : Decidable (ready s e) := by
  cases e <;> unfold ready <;> infer_instance

/-- Any number of threads of each kind, of which none has begun; the clock does not go back. -/
def threads (init : NatServer → Prop) : System State Event where
  init s := init s.server ∧ (∀ r ∈ s.receivers, r = .idle) ∧ (∀ w ∈ s.workers, w = none) ∧ s.queue = [] ∧
    s.record = {}
  enabled s e := ready s e ∧ ∀ now ∈ e.reading, s.clock ≤ now
  next := next

instance (init : NatServer → Prop) (s : State) (e : Event) : Decidable ((threads init).enabled s e) :=
  inferInstanceAs (Decidable (ready s e ∧ ∀ now ∈ e.reading, s.clock ≤ now))

/-- The packets in the hands of the receiving threads, and of the workers. -/
def State.incoming (s : State) : List Packet := s.receivers.filterMap Receiver.packet

def State.outgoing (s : State) : List Packet := s.workers.filterMap id

structure Accounted (s : State) : Prop where
  /-- It was turned away, put into the queue, or is still in the hands of a receiving thread. -/
  received : ∀ p, s.record.received.count p = s.record.refused.count p + s.record.flooded.count p +
    s.record.probes.count p + s.record.came.count p + s.incoming.count p
  /-- The queue loses a packet only to the one 8192 places behind it. -/
  queue : Accounts queueLimit s.record.came s.record.fates s.queue
  /-- What was taken out has been handled once, or is in the hands of a worker. -/
  handled : ∀ p, (taken s.record.came s.record.fates).count p = s.record.handled.count p + s.outgoing.count p
  /-- A single worker keeps the order of arrival. -/
  ordered : s.workers.length = 1 → taken s.record.came s.record.fates = s.record.handled ++ s.outgoing

theorem count_held_set {α : Type*} (f : α → Option Packet) {l : List α} {i : ℕ} {x : α} (h : l[i]? = some x)
    (y : α) (p : Packet) : ((l.set i y).filterMap f).count p + (f x).toList.count p =
      (l.filterMap f).count p + (f y).toList.count p := by
  induction l generalizing i with
  | nil => simp at h
  | cons a l ih =>
    have hcons (a : α) (l : List α) : ((a :: l).filterMap f).count p = (f a).toList.count p + (l.filterMap f).count p := by
      rw [List.filterMap_cons]
      cases f a with
      | none => simp
      | some q => rw [Option.toList_some, ← List.count_append, List.singleton_append]
    cases i with
    | zero =>
      rw [List.getElem?_cons_zero, Option.some.injEq] at h
      rw [h, List.set_cons_zero, hcons, hcons]
      omega
    | succ i =>
      rw [List.getElem?_cons_succ] at h
      have := ih h
      rw [List.set_cons_succ, hcons, hcons]
      omega

section
variable {s : State} {i : ℕ} {r : Receiver} {p : Packet}

theorem incoming_keep (t : Receiver) (h : s.receivers[i]? = some r) (hr : t.packet = r.packet) (q : Packet) :
    ((s.receivers.set i t).filterMap Receiver.packet).count q = s.incoming.count q := by
  have := count_held_set Receiver.packet h t q
  rw [hr] at this
  exact Nat.add_right_cancel this

theorem incoming_leave (h : s.receivers[i]? = some r) (hr : r.packet = some p) (q : Packet) :
    ((s.receivers.set i .idle).filterMap Receiver.packet).count q + [p].count q = s.incoming.count q := by
  have := count_held_set Receiver.packet h .idle q
  rw [hr] at this
  exact this

theorem outgoing_set {w : Option Packet} (h : s.workers[i]? = some w) (w' : Option Packet) (q : Packet) :
    ((s.workers.set i w').filterMap id).count q + w.toList.count q = s.outgoing.count q + w'.toList.count q :=
  count_held_set id h w' q

end

theorem single {α : Type*} {l : List α} {i : ℕ} {x : α} (h : l[i]? = some x) (hl : l.length = 1) (y : α) :
    l = [x] ∧ l.set i y = [y] := by
  obtain ⟨a, rfl⟩ := List.length_eq_one_iff.mp hl
  rw [List.getElem?_singleton] at h
  split at h
  · rename_i hi
    rw [hi, Option.some.inj h]
    exact ⟨rfl, rfl⟩
  · cases h

theorem Accounted.next {s : State} (h : Accounted s) {e : Event} (hr : ready s e) : Accounted (next s e) := by
  cases e with
  | receive i p =>
    refine ⟨fun q => ?_, h.queue, h.handled, h.ordered⟩
    have hq := h.received q
    have hset := count_held_set Receiver.packet hr.1 (.counted p) q
    simp only [PacketQueue.next, State.incoming, List.count_append] at hq ⊢
    simp only [Receiver.packet, Option.toList_none, List.count_nil, Option.toList_some] at hset
    omega
  | gate i p now =>
    simp only [PacketQueue.next]
    split
    · refine ⟨fun q => ?_, h.queue, h.handled, h.ordered⟩
      have hq := h.received q
      have hset := incoming_leave hr rfl q
      simp only [State.incoming, List.count_append] at hset hq ⊢
      omega
    · refine ⟨fun q => ?_, h.queue, h.handled, h.ordered⟩
      have hset := incoming_keep (.allowed p) hr rfl q
      rw [h.received q, ← hset]
      rfl
  | flood i p now =>
    simp only [PacketQueue.next]
    split
    · refine ⟨fun q => ?_, h.queue, h.handled, h.ordered⟩
      have hq := h.received q
      have hset := incoming_leave hr rfl q
      simp only [State.incoming, List.count_append] at hset hq ⊢
      omega
    · refine ⟨fun q => ?_, h.queue, h.handled, h.ordered⟩
      have hset := incoming_keep (.cleared p) hr rfl q
      rw [h.received q, ← hset]
      rfl
  | file i p =>
    simp only [PacketQueue.next]
    split
    · refine ⟨fun q => ?_, h.queue, h.handled, h.ordered⟩
      have hq := h.received q
      have hset := incoming_leave hr rfl q
      simp only [State.incoming, List.count_append] at hset hq ⊢
      omega
    · have htaken := pushFates_taken queueLimit s.queue h.queue.le p
      refine ⟨fun q => ?_, h.queue.push (by decide) p, fun q => ?_, fun hw => ?_⟩
      · have hq := h.received q
        have hset := incoming_leave hr rfl q
        simp only [State.incoming, List.count_append] at hset hq ⊢
        omega
      · exact (congrArg (List.count q) htaken).trans (h.handled q)
      · exact htaken.trans (h.ordered hw)
  | take i p =>
    obtain ⟨hw, hhead⟩ := hr
    have hrest : s.queue = p :: s.queue.tail := (List.cons_head?_tail hhead).symm
    have hacc := h.queue
    rw [hrest] at hacc
    have htaken := taken_next hacc.next
    refine ⟨h.received, hacc.pop, fun q => ?_, fun hone => ?_⟩
    · have hq := h.handled q
      have hset := outgoing_set hw (some p) q
      simp only [PacketQueue.next, htaken, State.outgoing, List.count_append] at hq ⊢
      simp only [Option.toList_none, List.count_nil, Option.toList_some, State.outgoing] at hset
      omega
    · have hlen : s.workers.length = 1 := (List.length_set (i := i) (a := some p)).symm.trans hone
      obtain ⟨hold, hnew⟩ := single hw hlen (some p)
      have hord := h.ordered hlen
      simp only [State.outgoing, hold] at hord
      simp only [PacketQueue.next, htaken, hord, State.outgoing, hnew]
      simp
  | handle i p env =>
    refine ⟨h.received, h.queue, fun q => ?_, fun hone => ?_⟩
    · have hq := h.handled q
      have hset := outgoing_set hr none q
      simp only [PacketQueue.next, State.outgoing, List.count_append] at hq ⊢
      simp only [Option.toList_none, List.count_nil, Option.toList_some, State.outgoing] at hset
      omega
    · have hlen : s.workers.length = 1 := (List.length_set (i := i) (a := none)).symm.trans hone
      obtain ⟨hold, hnew⟩ := single hr hlen none
      have hord := h.ordered hlen
      simp only [State.outgoing, hold] at hord
      simp only [PacketQueue.next, hord, State.outgoing, hnew]
      simp
  | timer env proxyDue snapDue saved reloaded => exact ⟨h.received, h.queue, h.handled, h.ordered⟩

/-- In every run of any number of threads, each datagram is in one place. -/
theorem packets_accounted {init : NatServer → Prop} {s : State} (h : Reachable (threads init) s) : Accounted s := by
  refine h.invariant ?_ fun s e hs can _ => hs.next can.1
  rintro s ⟨-, hidle, hnone, hq, hrec⟩
  have hin : s.incoming = [] := List.filterMap_eq_nil_iff.mpr fun r hr => by rw [hidle r hr]; rfl
  have hout : s.outgoing = [] := List.filterMap_eq_nil_iff.mpr fun w hw => hnone w hw
  refine ⟨fun p => ?_, ?_, fun p => ?_, fun _ => ?_⟩
  · rw [hin, hrec]
    rfl
  · rw [hq, hrec]
    exact .start
  · rw [hout, hrec]
    rfl
  · rw [hout, hrec]
    rfl

def idleThreads : State := { clock := 0, server := {}, receivers := [.idle, .idle], workers := [none] }

def checkUid (n : UInt16) : Packet := ⟨datagram msgCheckUidReq [], ⟨1, n⟩⟩

/-- The second datagram overtakes the first one before the queue. -/
def overtaking : List Event :=
  [.receive 0 (checkUid 1), .gate 0 (checkUid 1) 5, .receive 1 (checkUid 2), .gate 1 (checkUid 2) 5,
    .flood 1 (checkUid 2) 5, .flood 0 (checkUid 1) 6, .file 1 (checkUid 2), .file 0 (checkUid 1),
    .take 0 (checkUid 2), .handle 0 (checkUid 2) { now := 6 }, .take 0 (checkUid 1)]

theorem packets_accounted_overtaking : Accounted (overtaking.foldl (threads (· = {})).next idleThreads) ∧
    (overtaking.foldl (threads (· = {})).next idleThreads).record.handled = [checkUid 2] := by
  refine ⟨packets_accounted (Reach.run (Reach.start ?_) ?_), by decide +kernel⟩
  · exact ⟨rfl, by decide, by decide, rfl, rfl⟩
  · decide +kernel

end P2PServer.PacketQueue
