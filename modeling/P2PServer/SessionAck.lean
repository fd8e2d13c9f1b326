import P2PServer.SessionLink

/-! What an acknowledgement proves. The receiver acknowledges `expected_seq_ - 1`, but
0 when `expected_seq_` is 0, and the sender compares in signed 16-bit arithmetic. -/
namespace P2PServer.SessionLink
open ByteStrings ProtoDef Codec Session Transitions

/-- The message that an ack names when it is sent after `c` deliveries. -/
def ackNumber (c : ℕ) : ℕ := if c % 65536 = 0 then c else c - 1

/-- The steps on which acks and sequence numbers mean what they should.
A copy of a delivered message arrives only while its sequence number is still below
`expected_seq_`. An ack arrives before 32768 further messages have been confirmed, and
an ack sent with `expected_seq_ = 0` not while `b` still waits for a message that `a`
has sent. -/
def Meaningful (s : Link) : Event → Prop
  | .arriveB p => isReliable p.frame → p.mark < s.received.length →
      UInt16.ofNat p.mark < s.b.expectedSeq
  | .arriveA p => isAck p.frame → s.a.pending ≠ [] →
      removed s.sent s.a < ackNumber p.mark + 32768 ∧
        ¬(s.b.expectedSeq = 0 ∧ p.mark = s.received.length ∧ p.mark < s.sent.length)
  | _ => True

instance (s : Link) : (e : Event) → Decidable (Meaningful s e)
  | .arriveB p => inferInstanceAs (Decidable (isReliable p.frame → p.mark < s.received.length →
      UInt16.ofNat p.mark < s.b.expectedSeq))
  | .arriveA p => inferInstanceAs (Decidable (isAck p.frame → s.a.pending ≠ [] →
      removed s.sent s.a < ackNumber p.mark + 32768 ∧
        ¬(s.b.expectedSeq = 0 ∧ p.mark = s.received.length ∧ p.mark < s.sent.length)))
  | .sendA _ _ _ _ | .sendB _ _ _ _ | .tickA _ | .tickB _ => .isTrue trivial

/-- Every message taken out of `pending` has been delivered, and every message not yet
delivered is still there and is sent again by each tick at which it is due. -/
def AckedDelivered (s : Link) : Prop :=
  (∀ n < removed s.sent s.a, n < s.received.length ∧ s.received[n]? = s.sent[n]?) ∧
    ∀ n < s.sent.length, s.received.length ≤ n → ∃ m ∈ s.a.pending, Carries s.sent n m.data ∧
      ∀ now, due s.a now m → .tx m.data ∈ (s.a.tick now).2

/-- An ack in the network was sent after `p.mark` deliveries. -/
def Truthful (count : ℕ) (p : Packet) : Prop :=
  isAck p.frame → p.mark ≤ count ∧ ∀ t, codecReadTunnel p.frame = some t → t.ack = ackValue p.mark

structure AckInv (s : Link) : Prop extends Inv s where
  removed_le : removed s.sent s.a ≤ s.received.length
  acks : ∀ p ∈ s.toA, Truthful s.received.length p
  dataB : DataOnly s.b

theorem ackValue_eq (c : ℕ) : ackValue c = UInt16.ofNat (ackNumber c) := by
  apply UInt16.toNat_inj.mp
  rw [ackValue, ackNumber]
  have hpos : UInt16.ofNat c > 0 ↔ ¬c % 65536 = 0 := by
    rw [gt_iff_lt, UInt16.lt_iff_toNat_lt, UInt16.toNat_ofNat']
    simp
    omega
  by_cases h : c % 65536 = 0
  · rw [if_neg (by rw [hpos]; exact not_not.mpr h), if_pos h, UInt16.toNat_ofNat', h]
    rfl
  · rw [if_pos (hpos.mpr h), if_neg h, UInt16.toNat_sub_of_le, UInt16.toNat_ofNat',
      UInt16.toNat_ofNat']
    · simp
      omega
    · rw [UInt16.le_iff_toNat_le, UInt16.toNat_ofNat']
      simp
      omega

/-- The signed comparison tells later messages apart up to 32767 ahead. -/
theorem acked_of_lt {x y : ℕ} (h : y < x) (hd : x < y + 32768) :
    acked (UInt16.ofNat x) (UInt16.ofNat y) = false := by
  have hnat : (UInt16.ofNat x - UInt16.ofNat y).toBitVec.toNat = x - y := by
    rw [UInt16.toNat_toBitVec, UInt16.toNat_sub, UInt16.toNat_ofNat', UInt16.toNat_ofNat']
    omega
  have hint : (UInt16.ofNat x - UInt16.ofNat y).toInt16.toInt = x - y := by
    change (UInt16.ofNat x - UInt16.ofNat y).toBitVec.toInt = x - y
    rw [BitVec.toInt_eq_toNat_cond, hnat]
    split <;> omega
  rw [acked, decide_eq_false_iff_not, Int16.le_iff_toInt_le, hint]
  simp
  omega

/-- Which messages an ack that names message `y` can take out of `pending`. -/
theorem removed_handleAck {msgs : List (UInt8 × Bytes)} {s : Session} (h : Sends msgs s) {y : ℕ}
    (hnear : removed msgs s < y + 32768) :
    removed msgs (handleAck s (UInt16.ofNat y)) ≤ max (removed msgs s) (y + 1) := by
  have hle := h.pending_le
  have hw := h.window
  set k := s.pending.findIdx fun m => !acked m.seq (UInt16.ofNat y) with hk
  have hkle : k ≤ s.pending.length := List.findIdx_le_length
  have hr : removed msgs (handleAck s (UInt16.ofNat y)) = removed msgs s + k := by
    simp only [removed, handleAck_pending, List.length_drop, ← hk]
    omega
  rw [hr]
  by_contra hgt
  -- the first pending message after `y` is not acknowledged, so the loop stops there
  have hlt : y + 1 - removed msgs s < k := by omega
  have hi : y + 1 - removed msgs s < s.pending.length := by omega
  have hstop := List.not_of_lt_findIdx hlt
  rw [(h.entry _ _ (List.getElem?_eq_getElem hi)).1, acked_of_lt (by omega) (by omega)] at hstop
  exact absurd hstop (by decide)

theorem ackInv_init {s : Link} (h : link.init s) : AckInv s := by
  have hi := inv_init h
  obtain ⟨x, y, rfl⟩ := h
  exact ⟨hi, le_rfl, fun p hp => absurd hp List.not_mem_nil, fun m hm => absurd hm List.not_mem_nil⟩

/-- A copy that arrives in time is aligned, and so is everything not yet delivered. -/
theorem AckInv.aligned {s : Link} (h : AckInv s) {p : Packet} (hp : p ∈ s.toB)
    (hrel : isReliable p.frame)
    (hok : p.mark < s.received.length → UInt16.ofNat p.mark < s.b.expectedSeq) :
    Aligned s.received.length p.mark := by
  have hlt := Carries.lt_length (h.genuine p hp hrel)
  have hw := h.sends.window
  have hr := h.removed_le
  rw [removed] at hr
  intro hmod
  rcases Nat.lt_or_ge p.mark s.received.length with hold | hnew
  · have hseq := hok hold
    rw [h.receives.expected, UInt16.lt_iff_toNat_lt, UInt16.toNat_ofNat',
      UInt16.toNat_ofNat'] at hseq
    omega
  · omega

theorem Truthful.mono {c c' : ℕ} (hc : c ≤ c') {p : Packet} (h : Truthful c p) : Truthful c' p :=
  fun hack => ⟨(h hack).1.trans hc, (h hack).2⟩

theorem packetsB_silent {count : ℕ} {outs : List Out} (h : ∀ f ∈ txFrames outs, isAck f = false) :
    ∀ p ∈ packetsB count outs, Truthful count p := by
  intro p hp hack
  obtain ⟨f, hf, rfl⟩ := List.mem_map.mp hp
  rw [h f hf] at hack
  exact absurd hack (by decide)

theorem packetsB_onFrame {msgs : List (UInt8 × Bytes)} {e : ℕ} {s : Session} {buf : Bytes}
    (h : Receives msgs e (s.onFrame buf).1) :
    ∀ p ∈ packetsB e (s.onFrame buf).2, Truthful e p := by
  intro p hp hack
  obtain ⟨f, hf, rfl⟩ := List.mem_map.mp hp
  refine ⟨le_rfl, fun t ht => ?_⟩
  rcases onFrame_txFrames s buf hf with rfl | hf
  · rw [isAck_buildFrame _ _ _ _ _ _ (Nat.zero_le _)] at hack
    exact absurd hack (by decide)
  · rw [h.sendAck] at hf
    rw [List.mem_singleton.mp hf, codecReadTunnel_buildFrame _ _ _ _ _ _ _ (by decide)] at ht
    cases ht
    rfl

theorem truthful_append {count count' : ℕ} (hc : count ≤ count') {ps qs : List Packet}
    (hp : ∀ p ∈ ps, Truthful count p) (hq : ∀ p ∈ qs, Truthful count' p) :
    ∀ p ∈ ps ++ qs, Truthful count' p := by
  intro p hmem
  rcases List.mem_append.mp hmem with h | h
  · exact (hp p h).mono hc
  · exact hq p h

theorem removed_send (s : Link) (ch : UInt8) (data : Bytes) (reliable : Bool) (now : UInt64)
    (h : Sends s.sent s.a) :
    removed (next s (.sendA ch data reliable now)).sent (next s (.sendA ch data reliable now)).a =
      removed s.sent s.a := by
  have hle := h.pending_le
  simp only [next]
  rcases send_cases s.a ch data reliable now with ⟨r, hr, he⟩ | ⟨hrel, -, he⟩ | ⟨hrel, -, -, he⟩
  · simp [he, hr]
  · rw [he]
    simp [hrel]
  · rw [he]
    simp only [hrel, decide_true, Bool.and_true, if_true, removed, List.length_append,
      List.length_singleton]
    omega

theorem removed_tick (msgs : List (UInt8 × Bytes)) (s : Session) (now : UInt64) :
    removed msgs (s.tick now).1 = removed msgs s := by
  rw [removed, tick_pending, List.length_map, removed]

/-- The step that matters: an ack arrives at `a`. -/
theorem removed_arriveA {s : Link} (h : AckInv s) {p : Packet} (hp : p ∈ s.toA)
    (hok : Meaningful s (.arriveA p)) :
    removed s.sent (s.a.onFrame p.frame).1 ≤ s.received.length := by
  have hr := h.removed_le
  cases hack : isAck p.frame with
  | false => rw [removed, (onFrame_sender s.a hack).pending, ← removed]; exact hr
  | true =>
    obtain ⟨t, ht, -, he⟩ := onFrame_ack s.a hack
    obtain ⟨hmark, hval⟩ := h.acks p hp hack
    rw [he, hval t ht, ackValue_eq]
    dsimp only
    by_cases hempty : s.a.pending = []
    · simpa [removed, handleAck, hempty] using hr
    obtain ⟨hnear, hzero⟩ := hok hack hempty
    have hbound := removed_handleAck h.sends hnear
    have hle : removed s.sent (handleAck s.a (UInt16.ofNat (ackNumber p.mark))) ≤
        s.sent.length := Nat.sub_le _ _
    rw [h.receives.expected] at hzero
    rcases Nat.lt_or_ge p.mark s.received.length with hlt | hge
    · have : ackNumber p.mark ≤ p.mark := by
        rw [ackNumber]
        split <;> omega
      omega
    · have heq : p.mark = s.received.length := le_antisymm hmark hge
      by_cases hz : p.mark % 65536 = 0
      · have h0 : UInt16.ofNat s.received.length = 0 := by
          rw [← heq]
          exact (ofNat16_eq_iff _ 0).mpr hz
        have : ¬p.mark < s.sent.length := fun hlt => hzero ⟨h0, heq, hlt⟩
        omega
      · have hnum : ackNumber p.mark = p.mark - 1 := if_neg hz
        omega

theorem ackInv_step {s : Link} {e : Event} (h : AckInv s) (he : enabled s e)
    (hok : Meaningful s e) : AckInv (next s e) := by
  have hinv : Inv (next s e) := by
    refine inv_step h.toInv he ?_
    rintro p rfl hrel
    exact h.aligned he hrel (hok hrel)
  cases e with
  | sendA ch data reliable now =>
    exact ⟨hinv, (removed_send s ch data reliable now h.sends).le.trans h.removed_le, h.acks,
      h.dataB⟩
  | sendB ch data reliable now =>
    exact ⟨hinv, h.removed_le, truthful_append le_rfl h.acks
      (packetsB_silent fun f hf => send_isAck s.b ch data reliable now hf),
      h.dataB.send ch data reliable now⟩
  | tickA now => exact ⟨hinv, (removed_tick _ _ now).le.trans h.removed_le, h.acks, h.dataB⟩
  | tickB now =>
    exact ⟨hinv, h.removed_le, truthful_append le_rfl h.acks
      (packetsB_silent fun f hf => h.dataB.tick_isAck now hf), h.dataB.tick now⟩
  | arriveB p =>
    have hgrow : s.received.length ≤ (next s (.arriveB p)).received.length := by
      simp only [next, List.length_append]
      omega
    exact ⟨hinv, h.removed_le.trans hgrow,
      truthful_append hgrow h.acks (packetsB_onFrame hinv.receives), h.dataB.onFrame p.frame⟩
  | arriveA p => exact ⟨hinv, removed_arriveA h he hok, h.acks, h.dataB⟩

theorem due_tick {s : Session} {m : Msg} (hm : m ∈ s.pending) {now : UInt64}
    (hd : due s now m) : .tx m.data ∈ (s.tick now).2 := by
  have hf : m.data ∈ txFrames (s.tick now).2 := by
    rw [tick_txFrames]
    exact List.mem_append_right _ (List.mem_map_of_mem (List.mem_filter.mpr ⟨hm, hd⟩))
  obtain ⟨o, ho, heq⟩ := List.mem_filterMap.mp hf
  cases o with
  | tx f => cases heq; exact ho
  | deliver ch p => simp at heq

/-- In every run whose steps are all meaningful, a message leaves `pending` only after
it has been delivered, and until then it stays there to be sent again. -/
theorem acked_delivered {s : Link} (h : Reach link Meaningful s) : AckedDelivered s := by
  have hi : AckInv s := h.invariant (fun s h0 => ackInv_init h0) fun s e hi he hok =>
    ackInv_step hi he hok
  refine ⟨fun n hn => ?_, fun n hn hun => ?_⟩
  · have hlt : n < s.received.length := hn.trans_le hi.removed_le
    refine ⟨hlt, ?_⟩
    conv_lhs => rw [hi.received_eq]
    rw [List.getElem?_take, if_pos hlt]
  · have hr := hi.removed_le
    have hp := hi.sends.pending_le
    have hidx : n - removed s.sent s.a < s.a.pending.length := by
      rw [removed] at hr ⊢
      omega
    have hentry := hi.sends.entry _ _ (List.getElem?_eq_getElem hidx)
    rw [Nat.add_sub_cancel' (hr.trans hun)] at hentry
    exact ⟨_, List.getElem_mem hidx, hentry.2, fun now hd => due_tick (List.getElem_mem hidx) hd⟩

def acknowledgedPair : List Event :=
  reversedPair ++ [.arriveA ⟨buildFrame ttAck 1 0 0 0 1 [], 2⟩]

theorem acked_delivered_acknowledgedPair :
    removed (acknowledgedPair.foldl next fresh).sent (acknowledgedPair.foldl next fresh).a = 2 ∧
      AckedDelivered (acknowledgedPair.foldl next fresh) :=
  ⟨by decide +kernel, acked_delivered (Reach.run (S := link) (.start ⟨1, 1, rfl⟩)
    (by decide +kernel : Run link Meaningful fresh acknowledgedPair))⟩

/-- The second of two messages arrives alone; the ack it triggers names message 0. -/
def firstLost : List Event :=
  [.sendA 1 [7] true 0, .sendA 1 [8] true 0,
    .arriveB ⟨buildFrame ttData 1 1 tfReliable 1 0 [8], 1⟩,
    .arriveA ⟨buildFrame ttAck 1 0 0 0 0 [], 0⟩]

theorem acked_not_delivered : ¬∀ s, Reachable link s → AckedDelivered s := by
  intro hall
  have h := hall _ (Reach.run (S := link) (.start ⟨1, 1, rfl⟩)
    (by decide +kernel : Run link _ fresh firstLost))
  exact absurd (h.1 0 (by decide +kernel)).1 (by decide +kernel)

end P2PServer.SessionLink
