import P2PServer.SessionReceive

/-! The sending half of a session against the numbered stream of the messages it has
accepted: which messages wait for an acknowledgement and which frames carry them. -/
namespace P2PServer.Session
open ByteStrings ProtoDef Codec

def isReliable (frame : Bytes) : Bool :=
  match codecReadTunnel frame with
  | some t => t.type = ttData && t.flags &&& tfReliable ≠ 0
  | none => false

def isAck (frame : Bytes) : Bool :=
  match codecReadTunnel frame with
  | some t => t.type = ttAck
  | none => false

/-- The frame is a reliable data frame with message `n` of the stream. -/
def Carries (msgs : List (UInt8 × Bytes)) (n : ℕ) (frame : Bytes) : Prop :=
  ∃ t, codecReadTunnel frame = some t ∧ t.type = ttData ∧ t.flags = tfReliable ∧
    t.seq = UInt16.ofNat n ∧ msgs[n]? = some (t.channelId, t.payload)

/-- How many accepted messages no longer wait for an acknowledgement. -/
def removed (msgs : List (UInt8 × Bytes)) (s : Session) : ℕ := msgs.length - s.pending.length

/-- `pending` holds the last accepted messages, in order and at most 64 of them. -/
structure Sends (msgs : List (UInt8 × Bytes)) (s : Session) : Prop where
  next : s.nextSeq = UInt16.ofNat msgs.length
  pending_le : s.pending.length ≤ msgs.length
  window : s.pending.length ≤ 64
  entry : ∀ i m, s.pending[i]? = some m →
    m.seq = UInt16.ofNat (removed msgs s + i) ∧ Carries msgs (removed msgs s + i) m.data

theorem isReliable_buildFrame (type : UInt8) (sid : UInt16) (ch flags : UInt8) (seq ack : UInt16)
    {p : Bytes} (h : p.length ≤ maxTunnelPayload) :
    isReliable (buildFrame type sid ch flags seq ack p) =
      (type = ttData && flags &&& tfReliable ≠ 0) := by
  rw [isReliable, codecReadTunnel_buildFrame _ _ _ _ _ _ _ (h.trans_lt (by decide))]

theorem isAck_buildFrame (type : UInt8) (sid : UInt16) (ch flags : UInt8) (seq ack : UInt16)
    {p : Bytes} (h : p.length ≤ maxTunnelPayload) :
    isAck (buildFrame type sid ch flags seq ack p) = decide (type = ttAck) := by
  rw [isAck, codecReadTunnel_buildFrame _ _ _ _ _ _ _ (h.trans_lt (by decide))]

theorem Carries.isAck {msgs : List (UInt8 × Bytes)} {n : ℕ} {frame : Bytes}
    (h : Carries msgs n frame) : isAck frame = false := by
  obtain ⟨t, ht, hty, -⟩ := h
  rw [Session.isAck, ht]
  simp only [hty]
  rfl

theorem Carries.append {msgs more : List (UInt8 × Bytes)} {n : ℕ} {frame : Bytes}
    (h : Carries msgs n frame) : Carries (msgs ++ more) n frame := by
  obtain ⟨t, ht, hty, hfl, hs, hm⟩ := h
  refine ⟨t, ht, hty, hfl, hs, ?_⟩
  rw [List.getElem?_append_left (List.getElem?_eq_some_iff.mp hm).1]
  exact hm

theorem carries_buildFrame (msgs : List (UInt8 × Bytes)) (sid : UInt16) (ch : UInt8) {p : Bytes}
    (h : p.length ≤ maxTunnelPayload) :
    Carries (msgs ++ [(ch, p)]) msgs.length
      (buildFrame ttData sid ch tfReliable (UInt16.ofNat msgs.length) 0 p) := by
  refine ⟨_, codecReadTunnel_buildFrame _ _ _ _ _ _ _ (h.trans_lt (by decide)), rfl, rfl, rfl, ?_⟩
  rw [List.getElem?_concat_length]

theorem send_cases (s : Session) (ch : UInt8) (data : Bytes) (reliable : Bool) (now : UInt64) :
    (∃ r, r ≠ .ok ∧ s.send ch data reliable now = (r, s, [])) ∨
    (reliable = false ∧ data.length ≤ maxTunnelPayload ∧ s.send ch data reliable now =
      (.ok, s, [.tx (buildFrame ttData s.sessionId ch 0 0 0 data)])) ∨
    (reliable = true ∧ data.length ≤ maxTunnelPayload ∧ s.pending.length < 64 ∧
      s.send ch data reliable now =
        (.ok, { s with
          nextSeq := s.nextSeq + 1
          pending := s.pending ++ [⟨s.nextSeq, ch, tfReliable,
            buildFrame ttData s.sessionId ch tfReliable s.nextSeq 0 data, now⟩] },
          [.tx (buildFrame ttData s.sessionId ch tfReliable s.nextSeq 0 data)])) := by
  rw [send]
  split
  · exact .inl ⟨.badLength, by decide, rfl⟩
  · next hlen =>
    split
    · next hrel =>
      split
      · exact .inl ⟨.windowFull, by decide, rfl⟩
      · next hwin => exact .inr (.inr ⟨hrel, not_lt.mp hlen, not_le.mp hwin, rfl⟩)
    · next hrel => exact .inr (.inl ⟨Bool.eq_false_iff.mpr hrel, not_lt.mp hlen, rfl⟩)

theorem Sends.fresh (sid : UInt16) : Sends [] { sessionId := sid } where
  next := rfl
  pending_le := le_rfl
  window := Nat.zero_le _
  entry i m h := by simp at h

theorem Sends.push {msgs : List (UInt8 × Bytes)} {s : Session} (h : Sends msgs s)
    (hw : s.pending.length < 64) (ch : UInt8) {data : Bytes} (now : UInt64)
    (hlen : data.length ≤ maxTunnelPayload) :
    Sends (msgs ++ [(ch, data)]) { s with
      nextSeq := s.nextSeq + 1
      pending := s.pending ++ [⟨s.nextSeq, ch, tfReliable,
        buildFrame ttData s.sessionId ch tfReliable s.nextSeq 0 data, now⟩] } := by
  have hle := h.pending_le
  refine ⟨?_, ?_, ?_, ?_⟩
  · rw [h.next, ofNat16_succ, List.length_append]
    rfl
  · simpa using hle
  · simpa using hw
  · intro i m hi
    have hr : removed (msgs ++ [(ch, data)]) { s with
        nextSeq := s.nextSeq + 1
        pending := s.pending ++ [⟨s.nextSeq, ch, tfReliable,
          buildFrame ttData s.sessionId ch tfReliable s.nextSeq 0 data, now⟩] } =
        removed msgs s := by
      simp only [removed, List.length_append, List.length_singleton]
      omega
    rw [hr]
    rcases Nat.lt_or_ge i s.pending.length with hlt | hge
    · rw [List.getElem?_append_left hlt] at hi
      exact ⟨(h.entry i m hi).1, (h.entry i m hi).2.append⟩
    · rw [List.getElem?_append_right hge, List.getElem?_singleton] at hi
      split at hi
      · cases hi
        have hn : removed msgs s + i = msgs.length := by
          rw [removed]
          omega
        rw [hn, h.next]
        exact ⟨rfl, carries_buildFrame msgs _ ch hlen⟩
      · simp at hi

/-- Acknowledgements take messages off the front only. -/
theorem Sends.drop {msgs : List (UInt8 × Bytes)} {s s' : Session} (h : Sends msgs s) (k : ℕ)
    (hn : s'.nextSeq = s.nextSeq) (hp : s'.pending = s.pending.drop k) : Sends msgs s' := by
  have hle := h.pending_le
  have hw := h.window
  have hlen : s'.pending.length = s.pending.length - k := by rw [hp, List.length_drop]
  refine ⟨hn.trans h.next, by omega, by omega, ?_⟩
  intro i m hi
  rw [hp, List.getElem?_drop] at hi
  have hlt : k + i < s.pending.length := (List.getElem?_eq_some_iff.mp hi).1
  have hr : removed msgs s' + i = removed msgs s + (k + i) := by
    simp only [removed, hlen]
    omega
  rw [hr]
  exact h.entry _ m hi

theorem tick_pending (s : Session) (now : UInt64) :
    (s.tick now).1.pending =
      s.pending.map fun m => if due s now m then { m with sentMs := now } else m := by
  rw [tick]
  dsimp only
  split <;> rfl

theorem tick_nextSeq (s : Session) (now : UInt64) : (s.tick now).1.nextSeq = s.nextSeq := by
  rw [tick]
  dsimp only
  split <;> rfl

theorem tick_txFrames (s : Session) (now : UInt64) :
    txFrames (s.tick now).2 =
      (if now - s.lastPingMs ≥ 15000 then [buildFrame ttPing s.sessionId 0 0 0 0 []] else []) ++
        (s.pending.filter (due s now)).map (·.data) := by
  have hmap : ∀ ms : List Msg, txFrames (ms.map fun m => .tx m.data) = ms.map (·.data) := by
    intro ms
    rw [txFrames, List.filterMap_map]
    exact List.filterMap_eq_map_iff_forall_eq_some.mpr fun m _ => rfl
  rw [tick]
  dsimp only
  rw [txFrames_append]
  split <;> rw [hmap] <;> rfl

theorem Sends.tick {msgs : List (UInt8 × Bytes)} {s : Session} (h : Sends msgs s)
    (now : UInt64) : Sends msgs (s.tick now).1 := by
  have hlen : (s.tick now).1.pending.length = s.pending.length := by
    rw [tick_pending, List.length_map]
  refine ⟨?_, ?_, ?_, ?_⟩
  · rw [tick_nextSeq, h.next]
  · exact hlen.le.trans h.pending_le
  · exact hlen.le.trans h.window
  · intro i m hi
    rw [tick_pending, List.getElem?_map] at hi
    obtain ⟨m', hm', rfl⟩ := Option.map_eq_some_iff.mp hi
    have he := h.entry i m' hm'
    have hr : removed msgs (s.tick now).1 = removed msgs s := by rw [removed, hlen, removed]
    rw [hr]
    split <;> exact he

/-- The number of the first pending message whose frame is `frame`. -/
def numberOf (msgs : List (UInt8 × Bytes)) (s : Session) (frame : Bytes) : ℕ :=
  removed msgs s + s.pending.findIdx fun m => m.data = frame

theorem Sends.numberOf_carries {msgs : List (UInt8 × Bytes)} {s : Session} (h : Sends msgs s)
    {m : Msg} (hm : m ∈ s.pending) : Carries msgs (numberOf msgs s m.data) m.data := by
  have hlt : s.pending.findIdx (fun m' => m'.data = m.data) < s.pending.length :=
    List.findIdx_lt_length_of_exists ⟨m, hm, by simp⟩
  have hdata := List.findIdx_getElem (w := hlt)
  have hc := (h.entry _ _ (List.getElem?_eq_getElem hlt)).2
  rw [decide_eq_true_eq] at hdata
  rw [hdata] at hc
  exact hc

/-- Every frame is sent either as a control or unreliable frame or for a message that
is pending afterwards. -/
def Honest (s' : Session) (outs : List Out) : Prop :=
  ∀ f ∈ txFrames outs, isReliable f = false ∨ ∃ m ∈ s'.pending, m.data = f

theorem tick_honest (s : Session) (now : UInt64) : Honest (s.tick now).1 (s.tick now).2 := by
  intro f hf
  rw [tick_txFrames, List.mem_append] at hf
  rcases hf with hf | hf
  · left
    split at hf
    · rw [List.mem_singleton] at hf
      rw [hf, isReliable_buildFrame _ _ _ _ _ _ (Nat.zero_le _)]
      rfl
    · simp at hf
  · right
    obtain ⟨m, hm, rfl⟩ := List.mem_map.mp hf
    have hm' := (List.mem_filter.mp hm).1
    rw [tick_pending]
    refine ⟨_, List.mem_map_of_mem hm', ?_⟩
    split <;> rfl

theorem send_honest (s : Session) (ch : UInt8) (data : Bytes) (reliable : Bool) (now : UInt64) :
    Honest (s.send ch data reliable now).2.1 (s.send ch data reliable now).2.2 := by
  intro f hf
  rcases send_cases s ch data reliable now with ⟨r, -, he⟩ | ⟨-, hlen, he⟩ | ⟨-, -, -, he⟩ <;>
    rw [he] at hf ⊢
  · simp [txFrames] at hf
  · left
    obtain rfl := List.mem_singleton.mp hf
    rw [isReliable_buildFrame _ _ _ _ _ _ hlen]
    rfl
  · right
    obtain rfl := List.mem_singleton.mp hf
    exact ⟨_, List.mem_append_right _ (List.mem_singleton_self _), rfl⟩

/-- Receiving sends nothing but a pong or an ack for the state it leads to. -/
theorem onFrame_txFrames (s : Session) (buf : Bytes) {f : Bytes}
    (hf : f ∈ txFrames (s.onFrame buf).2) :
    f = buildFrame ttPong s.sessionId 0 0 0 0 [] ∨ f ∈ txFrames (sendAck (s.onFrame buf).1) := by
  cases hc : codecReadTunnel buf with
  | none => simp [onFrame, hc, txFrames] at hf
  | some t =>
    by_cases hty : t.type = ttData
    · have he : s.onFrame buf = handleData s t := by
        rw [onFrame, hc]
        exact if_pos hty
      rw [he, handleData_txFrames] at hf
      rw [he]
      split at hf
      · exact .inr hf
      · simp at hf
    · rw [onFrame, hc] at hf
      simp only [if_neg hty] at hf
      split at hf
      · simp [txFrames] at hf
      · split at hf
        · exact .inl (List.mem_singleton.mp hf)
        · split at hf <;> simp [txFrames] at hf

theorem onFrame_honest (s : Session) (buf : Bytes) :
    Honest (s.onFrame buf).1 (s.onFrame buf).2 := by
  intro f hf
  left
  rcases onFrame_txFrames s buf hf with rfl | hf
  · rw [isReliable_buildFrame _ _ _ _ _ _ (Nat.zero_le _)]
    rfl
  · rw [List.mem_singleton.mp hf, isReliable_buildFrame _ _ _ _ _ _ (Nat.zero_le _)]
    rfl

/-- The messages that wait in `pending` are not acks. -/
def DataOnly (s : Session) : Prop := ∀ m ∈ s.pending, isAck m.data = false

theorem DataOnly.tick {s : Session} (h : DataOnly s) (now : UInt64) : DataOnly (s.tick now).1 := by
  intro m hm
  rw [tick_pending] at hm
  obtain ⟨m', hm', rfl⟩ := List.mem_map.mp hm
  split <;> exact h m' hm'

theorem DataOnly.tick_isAck {s : Session} (h : DataOnly s) (now : UInt64) {f : Bytes}
    (hf : f ∈ txFrames (s.tick now).2) : isAck f = false := by
  rw [tick_txFrames, List.mem_append] at hf
  rcases hf with hf | hf
  · split at hf
    · rw [List.mem_singleton.mp hf, isAck_buildFrame _ _ _ _ _ _ (Nat.zero_le _)]
      rfl
    · simp at hf
  · obtain ⟨m, hm, rfl⟩ := List.mem_map.mp hf
    exact h m (List.mem_filter.mp hm).1

theorem send_isAck (s : Session) (ch : UInt8) (data : Bytes) (reliable : Bool) (now : UInt64)
    {f : Bytes} (hf : f ∈ txFrames (s.send ch data reliable now).2.2) : isAck f = false := by
  rcases send_cases s ch data reliable now with ⟨r, -, he⟩ | ⟨-, hlen, he⟩ | ⟨-, hlen, -, he⟩ <;>
    rw [he] at hf
  · simp [txFrames] at hf
  · rw [List.mem_singleton.mp hf, isAck_buildFrame _ _ _ _ _ _ hlen]
    rfl
  · rw [List.mem_singleton.mp hf, isAck_buildFrame _ _ _ _ _ _ hlen]
    rfl

theorem DataOnly.send {s : Session} (h : DataOnly s) (ch : UInt8) (data : Bytes)
    (reliable : Bool) (now : UInt64) : DataOnly (s.send ch data reliable now).2.1 := by
  rcases send_cases s ch data reliable now with ⟨r, -, he⟩ | ⟨-, -, he⟩ | ⟨-, hlen, -, he⟩ <;>
    rw [he]
  · exact h
  · exact h
  · intro m hm
    rcases List.mem_append.mp hm with hm | hm
    · exact h m hm
    · rw [List.mem_singleton.mp hm, isAck_buildFrame _ _ _ _ _ _ hlen]
      rfl

/-- A frame that is not an ack leaves the sending half as it is. -/
theorem onFrame_sender (s : Session) {buf : Bytes} (h : isAck buf = false) :
    SameSender s (s.onFrame buf).1 := by
  rw [onFrame]
  split
  · exact ⟨rfl, rfl, rfl⟩
  · next t ht =>
    rw [isAck, ht] at h
    simp only [decide_eq_false_iff_not] at h
    split
    · exact handleData_sender s t
    · split
      · exact ⟨rfl, rfl, rfl⟩
      · split <;> exact ⟨rfl, rfl, rfl⟩

theorem onFrame_ack (s : Session) {buf : Bytes} (h : isAck buf = true) :
    ∃ t, codecReadTunnel buf = some t ∧ t.type = ttAck ∧
      s.onFrame buf = (handleAck s t.ack, []) := by
  rw [isAck] at h
  split at h
  · next t ht =>
    rw [decide_eq_true_eq] at h
    refine ⟨t, ht, h, ?_⟩
    rw [onFrame, ht]
    simp only
    rw [if_neg (by rw [h]; decide), if_pos h]
  · simp at h

theorem handleAck_pending (s : Session) (ack : UInt16) :
    (handleAck s ack).pending = s.pending.drop (s.pending.findIdx fun m => !acked m.seq ack) :=
  List.dropWhile_eq_drop_findIdx_not

theorem Sends.handleAck {msgs : List (UInt8 × Bytes)} {s : Session} (h : Sends msgs s)
    (ack : UInt16) : Sends msgs (handleAck s ack) :=
  h.drop _ rfl (handleAck_pending s ack)

theorem Sends.onFrame {msgs : List (UInt8 × Bytes)} {s : Session} (h : Sends msgs s)
    (buf : Bytes) : Sends msgs (s.onFrame buf).1 := by
  cases hack : isAck buf with
  | true =>
    obtain ⟨t, -, -, he⟩ := onFrame_ack s hack
    rw [he]
    exact h.handleAck t.ack
  | false =>
    have hs := onFrame_sender s hack
    exact h.drop 0 hs.nextSeq hs.pending

theorem DataOnly.onFrame {s : Session} (h : DataOnly s) (buf : Bytes) :
    DataOnly (s.onFrame buf).1 := by
  intro m hm
  cases hack : Session.isAck buf with
  | true =>
    obtain ⟨t, -, -, he⟩ := onFrame_ack s hack
    rw [he, handleAck_pending] at hm
    exact h m (List.mem_of_mem_drop hm)
  | false =>
    rw [(onFrame_sender s hack).pending] at hm
    exact h m hm

/-- The receiving half is not touched by what the sending half does. -/
structure SameReceiver (s s' : Session) : Prop where
  expectedSeq : s'.expectedSeq = s.expectedSeq
  ooo : s'.ooo = s.ooo
  slotChannel : s'.slotChannel = s.slotChannel

theorem Receives.same {msgs : List (UInt8 × Bytes)} {e : ℕ} {s s' : Session}
    (h : Receives msgs e s) (hs : SameReceiver s s') : Receives msgs e s' where
  expected := hs.expectedSeq.trans h.expected
  le_length := h.le_length
  buffered := by
    rw [hs.ooo, hs.slotChannel]
    exact h.buffered

theorem tick_receiver (s : Session) (now : UInt64) : SameReceiver s (s.tick now).1 := by
  rw [tick]
  dsimp only
  split <;> exact ⟨rfl, rfl, rfl⟩

theorem send_receiver (s : Session) (ch : UInt8) (data : Bytes) (reliable : Bool)
    (now : UInt64) : SameReceiver s (s.send ch data reliable now).2.1 := by
  rcases send_cases s ch data reliable now with ⟨r, -, he⟩ | ⟨-, -, he⟩ | ⟨-, -, -, he⟩ <;>
    rw [he] <;> exact ⟨rfl, rfl, rfl⟩

/-- A frame that is not reliable data leaves the receiving half as it is. -/
theorem onFrame_receiver (s : Session) {buf : Bytes} (h : isReliable buf = false) :
    SameReceiver s (s.onFrame buf).1 := by
  rw [onFrame]
  split
  · exact ⟨rfl, rfl, rfl⟩
  · next t ht =>
    split
    · next hty =>
      rw [isReliable, ht] at h
      simp only [hty, decide_true, Bool.true_and, decide_eq_false_iff_not, ne_eq, not_not] at h
      rw [handleData, if_neg (by rw [ne_eq, not_not]; exact h)]
      exact ⟨rfl, rfl, rfl⟩
    · split
      · exact ⟨rfl, rfl, rfl⟩
      · split
        · exact ⟨rfl, rfl, rfl⟩
        · split <;> exact ⟨rfl, rfl, rfl⟩

end P2PServer.Session
