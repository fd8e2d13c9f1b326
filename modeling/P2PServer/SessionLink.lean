import P2PServer.SessionSend
import P2PServer.Transitions

/-! Two sessions joined by a network that may lose, duplicate, delay and reorder
frames. The network keeps every frame ever sent: any of them may arrive at any time
and any number of times, or never. -/
namespace P2PServer.SessionLink
open ByteStrings ProtoDef Codec Session Transitions

/-- A frame in the network. `mark` is bookkeeping that no session sees: the number of
the message a data frame of `a` carries, or how many messages of `a` had been
delivered when `b` sent the frame. -/
structure Packet where
  frame : Bytes
  mark : ℕ
  deriving DecidableEq

/-- `sent` lists the reliable messages `a` has accepted and `received` the calls of
`deliver` that `b` has made for reliable frames. -/
structure Link where
  a : Session
  b : Session
  sent : List (UInt8 × Bytes) := []
  received : List (UInt8 × Bytes) := []
  toB : List Packet := []
  toA : List Packet := []
  deriving DecidableEq

inductive Event
  | sendA (channelId : UInt8) (data : Bytes) (reliable : Bool) (now : UInt64)
  | sendB (channelId : UInt8) (data : Bytes) (reliable : Bool) (now : UInt64)
  | tickA (now : UInt64)
  | tickB (now : UInt64)
  | arriveB (p : Packet)
  | arriveA (p : Packet)

/-- The frames `a` sends, marked with the messages they carry. -/
def packetsA (sent : List (UInt8 × Bytes)) (a : Session) (outs : List Out) : List Packet :=
  (txFrames outs).map fun f => ⟨f, numberOf sent a f⟩

def packetsB (count : ℕ) (outs : List Out) : List Packet :=
  (txFrames outs).map fun f => ⟨f, count⟩

/-- The calls of `deliver` made for a frame, if it is reliable data. -/
def deliveredReliably (frame : Bytes) (outs : List Out) : List (UInt8 × Bytes) :=
  if isReliable frame then delivered outs else []

def next (s : Link) : Event → Link
  | .sendA ch data reliable now =>
    let r := s.a.send ch data reliable now
    let sent := if reliable && r.1 = .ok then s.sent ++ [(ch, data)] else s.sent
    { s with a := r.2.1, sent := sent, toB := s.toB ++ packetsA sent r.2.1 r.2.2 }
  | .sendB ch data reliable now =>
    let r := s.b.send ch data reliable now
    { s with b := r.2.1, toA := s.toA ++ packetsB s.received.length r.2.2 }
  | .tickA now =>
    let r := s.a.tick now
    { s with a := r.1, toB := s.toB ++ packetsA s.sent r.1 r.2 }
  | .tickB now =>
    let r := s.b.tick now
    { s with b := r.1, toA := s.toA ++ packetsB s.received.length r.2 }
  | .arriveB p =>
    let r := s.b.onFrame p.frame
    let received := s.received ++ deliveredReliably p.frame r.2
    { s with b := r.1, received := received, toA := s.toA ++ packetsB received.length r.2 }
  | .arriveA p =>
    let r := s.a.onFrame p.frame
    { s with a := r.1, toB := s.toB ++ packetsA s.sent r.1 r.2 }

def enabled (s : Link) : Event → Prop
  | .arriveB p => p ∈ s.toB
  | .arriveA p => p ∈ s.toA
  | _ => True

/-- Every run starts with two fresh sessions and an empty network. -/
def link : System Link Event where
  init s := ∃ x y, s = { a := { sessionId := x }, b := { sessionId := y } }
  enabled := enabled
  next := next

instance (s : Link) : (e : Event) → Decidable (link.enabled s e)
  | .arriveB p => inferInstanceAs (Decidable (p ∈ s.toB))
  | .arriveA p => inferInstanceAs (Decidable (p ∈ s.toA))
  | .sendA _ _ _ _ | .sendB _ _ _ _ | .tickA _ | .tickB _ => .isTrue trivial

/-- A reliable data frame in the network carries the message it is marked with. -/
def Genuine (sent : List (UInt8 × Bytes)) (p : Packet) : Prop :=
  isReliable p.frame → Carries sent p.mark p.frame

structure Inv (s : Link) : Prop where
  sends : Sends s.sent s.a
  receives : Receives s.sent s.received.length s.b
  received_eq : s.received = s.sent.take s.received.length
  genuine : ∀ p ∈ s.toB, Genuine s.sent p

theorem packetsA_genuine {sent : List (UInt8 × Bytes)} {a : Session} {outs : List Out}
    (h : Sends sent a) (ho : Honest a outs) : ∀ p ∈ packetsA sent a outs, Genuine sent p := by
  intro p hp hrel
  obtain ⟨f, hf, rfl⟩ := List.mem_map.mp hp
  rcases ho f hf with hno | ⟨m, hm, rfl⟩
  · rw [hno] at hrel
    exact absurd hrel (by decide)
  · exact h.numberOf_carries hm

theorem Genuine.append {sent more : List (UInt8 × Bytes)} {p : Packet} (h : Genuine sent p) :
    Genuine (sent ++ more) p := fun hrel => (h hrel).append

theorem genuine_append {sent : List (UInt8 × Bytes)} {ps qs : List Packet}
    (hp : ∀ p ∈ ps, Genuine sent p) (hq : ∀ p ∈ qs, Genuine sent p) :
    ∀ p ∈ ps ++ qs, Genuine sent p := by
  intro p hmem
  rcases List.mem_append.mp hmem with h | h
  · exact hp p h
  · exact hq p h

theorem inv_init {s : Link} (h : link.init s) : Inv s := by
  obtain ⟨x, y, rfl⟩ := h
  exact ⟨Sends.fresh x, Receives.fresh [] y, rfl, fun p hp => absurd hp (List.not_mem_nil)⟩

theorem inv_sendA {s : Link} (h : Inv s) (ch : UInt8) (data : Bytes) (reliable : Bool)
    (now : UInt64) : Inv (next s (.sendA ch data reliable now)) := by
  have hon := send_honest s.a ch data reliable now
  simp only [next]
  rcases send_cases s.a ch data reliable now with ⟨r, hr, he⟩ | ⟨hrel, -, he⟩ | ⟨hrel, hlen, hw, he⟩
  · rw [he]
    simp only [hr, decide_false, Bool.and_false, Bool.false_eq_true, if_false]
    exact ⟨h.sends, h.receives, h.received_eq,
      genuine_append h.genuine fun p hp => absurd hp (List.not_mem_nil)⟩
  · rw [he] at hon ⊢
    simp only [hrel, Bool.false_and, Bool.false_eq_true, if_false]
    exact ⟨h.sends, h.receives, h.received_eq,
      genuine_append h.genuine (packetsA_genuine h.sends hon)⟩
  · rw [he] at hon ⊢
    simp only [hrel, decide_true, Bool.and_true, if_true]
    have hpush := h.sends.push hw ch now hlen
    refine ⟨hpush, h.receives.append, ?_, ?_⟩
    · rw [List.take_append_of_le_length h.receives.le_length]
      exact h.received_eq
    · exact genuine_append (fun p hp => (h.genuine p hp).append) (packetsA_genuine hpush hon)

theorem inv_tickA {s : Link} (h : Inv s) (now : UInt64) : Inv (next s (.tickA now)) where
  sends := h.sends.tick now
  receives := h.receives
  received_eq := h.received_eq
  genuine := genuine_append h.genuine (packetsA_genuine (h.sends.tick now) (tick_honest s.a now))

theorem inv_arriveA {s : Link} (h : Inv s) (p : Packet) : Inv (next s (.arriveA p)) where
  sends := h.sends.onFrame p.frame
  receives := h.receives
  received_eq := h.received_eq
  genuine := genuine_append h.genuine
    (packetsA_genuine (h.sends.onFrame p.frame) (onFrame_honest s.a p.frame))

theorem inv_sendB {s : Link} (h : Inv s) (ch : UInt8) (data : Bytes) (reliable : Bool)
    (now : UInt64) : Inv (next s (.sendB ch data reliable now)) :=
  ⟨h.sends, h.receives.same (send_receiver s.b ch data reliable now), h.received_eq, h.genuine⟩

theorem inv_tickB {s : Link} (h : Inv s) (now : UInt64) : Inv (next s (.tickB now)) :=
  ⟨h.sends, h.receives.same (tick_receiver s.b now), h.received_eq, h.genuine⟩

/-- What the arrival of a reliable data frame does to the receiver. -/
theorem onFrame_burst {msgs : List (UInt8 × Bytes)} {e n : ℕ} {s : Session} {frame : Bytes}
    (h : Receives msgs e s) (hc : Carries msgs n frame) (ha : Aligned e n) :
    ∃ e', Burst msgs e e' (s.onFrame frame) := by
  obtain ⟨t, ht, hty, hfl, hs, hm⟩ := hc
  rw [onFrame, ht]
  simp only [if_pos hty]
  exact handleData_burst h (by rw [hfl]; decide) hs hm ha

theorem Burst.received_length {msgs : List (UInt8 × Bytes)} {e e' : ℕ} {r : Session × List Out}
    (h : Burst msgs e e' r) : e + (delivered r.2).length = e' := by
  have hle := h.le
  have hlen := h.receives.le_length
  rw [h.handed, List.length_drop, List.length_take]
  omega

/-- The step that matters: a frame arrives at `b`. -/
theorem inv_arriveB {s : Link} (h : Inv s) {p : Packet} (hp : p ∈ s.toB)
    (ha : isReliable p.frame → Aligned s.received.length p.mark) :
    Inv (next s (.arriveB p)) := by
  cases hrel : isReliable p.frame with
  | false =>
    have hsame := h.receives.same (onFrame_receiver s.b hrel)
    simp only [next, deliveredReliably, hrel, Bool.false_eq_true, if_false, List.append_nil]
    exact ⟨h.sends, hsame, h.received_eq, h.genuine⟩
  | true =>
    obtain ⟨e', hb⟩ := onFrame_burst h.receives (h.genuine p hp hrel) (ha hrel)
    have hlen := Burst.received_length hb
    simp only [next, deliveredReliably, hrel, if_true]
    refine ⟨h.sends, ?_, ?_, h.genuine⟩
    · rw [List.length_append, hlen]
      exact hb.receives
    · have htake : (s.sent.take e').take s.received.length = s.received := by
        rw [List.take_take, Nat.min_eq_left hb.le, ← h.received_eq]
      calc s.received ++ delivered (s.b.onFrame p.frame).2
          = (s.sent.take e').take s.received.length ++ (s.sent.take e').drop s.received.length := by
            rw [hb.handed, htake]
        _ = s.sent.take e' := List.take_append_drop _ _
        _ = _ := by rw [List.length_append, hlen]

theorem sent_mono (s : Link) (e : Event) : s.sent.length ≤ (next s e).sent.length := by
  cases e with
  | sendA ch data reliable now =>
    simp only [next]
    split
    · simp
    · exact le_rfl
  | sendB | tickA | tickB | arriveB | arriveA => exact le_rfl

theorem inv_step {s : Link} {e : Event} (h : Inv s) (he : enabled s e)
    (ha : ∀ p, e = .arriveB p → isReliable p.frame → Aligned s.received.length p.mark) :
    Inv (next s e) := by
  cases e with
  | sendA ch data reliable now => exact inv_sendA h ch data reliable now
  | sendB ch data reliable now => exact inv_sendB h ch data reliable now
  | tickA now => exact inv_tickA h now
  | tickB now => exact inv_tickB h now
  | arriveB p => exact inv_arriveB h he (ha p rfl)
  | arriveA p => exact inv_arriveA h p

theorem Carries.lt_length {msgs : List (UInt8 × Bytes)} {n : ℕ} {frame : Bytes}
    (h : Carries msgs n frame) : n < msgs.length := by
  obtain ⟨t, -, -, -, -, hm⟩ := h
  exact (List.getElem?_eq_some_iff.mp hm).1

/-- While the sequence numbers have not been used up, every frame of `a` is aligned. -/
theorem inv_of_short {s : Link} (h : Reachable link s) : s.sent.length ≤ 65535 → Inv s := by
  refine h.invariant (I := fun s => s.sent.length ≤ 65535 → Inv s) (fun s h0 _ => inv_init h0) ?_
  intro s e ih he _ hn
  have hn' : s.sent.length ≤ 65535 := (sent_mono s e).trans hn
  have hi := ih hn'
  refine inv_step hi he ?_
  rintro p rfl hrel
  have hlt := Carries.lt_length (hi.genuine p he hrel)
  have hle := hi.receives.le_length
  intro _
  omega

def nonEmpty (ds : List (UInt8 × Bytes)) : List (UInt8 × Bytes) := ds.filter fun d => !d.2.isEmpty

/-- Reliable in-order delivery: what `b` hands to `on_data` for reliable frames is a
prefix of the non-empty messages that `a` has accepted, in every run in which `a`
accepts at most 65535 of them. -/
theorem onData_prefix {s : Link} (h : Reachable link s) (hn : s.sent.length ≤ 65535) :
    nonEmpty s.received <+: nonEmpty s.sent := by
  have hi := inv_of_short h hn
  rw [hi.received_eq]
  exact (List.take_prefix _ _).filter _

def reversedPair : List Event :=
  [.sendA 1 [7] true 0, .sendA 2 [8] true 0,
    .arriveB ⟨buildFrame ttData 1 2 tfReliable 1 0 [8], 1⟩,
    .arriveB ⟨buildFrame ttData 1 1 tfReliable 0 0 [7], 0⟩]

def fresh : Link := { a := { sessionId := 1 }, b := { sessionId := 1 } }

theorem onData_prefix_reversedPair :
    (reversedPair.foldl next fresh).received = [(1, [7]), (2, [8])] ∧
    nonEmpty (reversedPair.foldl next fresh).received <+:
      nonEmpty (reversedPair.foldl next fresh).sent :=
  ⟨by decide +kernel, onData_prefix (Reach.run (S := link) (.start ⟨1, 1, rfl⟩)
    (by decide +kernel : Run link _ fresh reversedPair)) (by decide +kernel)⟩

end P2PServer.SessionLink
