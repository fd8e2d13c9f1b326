import P2PServer.SessionShape

/-! Progress of the joined sessions. While `a` has accepted at most 32768 reliable messages no
sequence number is used twice and no ack is taken for a later one; within this bound the receiver has
delivered exactly the messages that can be delivered, and one round without loss catches up. -/
namespace P2PServer.SessionLink
open ByteStrings ProtoDef Codec Session Transitions

def Arrived (es : List Event) (n : ℕ) : Prop := ∃ p, .arriveB p ∈ es ∧ isReliable p.frame ∧ p.mark = n

/-- Draining takes out an unbroken stretch of keys and nothing else. -/
structure Drained (e e' : ℕ) (s s' : Session) : Prop where
  le : e ≤ e'
  expected : s'.expectedSeq = UInt16.ofNat e'
  taken : ∀ n, e ≤ n → n < e' → UInt16.ofNat n ∈ s.ooo
  kept : ∀ k, k ∈ s'.ooo ↔ k ∈ s.ooo ∧ ∀ n, e ≤ n → n < e' → k ≠ UInt16.ofNat n

theorem Drained.refl {e : ℕ} {s : Session} (h : s.expectedSeq = UInt16.ofNat e) : Drained e e s s where
  le := le_rfl
  expected := h
  taken n h1 h2 := by omega
  kept k := ⟨fun hk => ⟨hk, fun n h1 h2 => by omega⟩, fun hk => hk.1⟩

theorem drainLoop_drained (fuel e : ℕ) (s : Session) (h : s.expectedSeq = UInt16.ofNat e) :
    ∃ e', Drained e e' s (drainLoop fuel s).1 := by
  induction fuel generalizing e s with
  | zero => exact ⟨e, .refl h⟩
  | succ fuel ih =>
    rw [drainLoop]
    split
    · exact ⟨e, .refl h⟩
    · next seq payload hd =>
      split
      · next hseq =>
        have hmem : UInt16.ofNat e ∈ s.ooo := by
          rw [← h, ← hseq, Std.ExtTreeMap.mem_iff_isSome_getElem?, TreeMaps.head_toList_get hd]
          rfl
        have hnext : (drainStep s seq payload).1.expectedSeq = UInt16.ofNat (e + 1) := by
          change s.expectedSeq + 1 = _
          rw [h, ofNat16_succ]
        have hkeys : ∀ k, k ∈ (drainStep s seq payload).1.ooo ↔ k ∈ s.ooo ∧ k ≠ UInt16.ofNat e := by
          intro k
          change k ∈ s.ooo.erase seq ↔ _
          rw [Std.ExtTreeMap.mem_erase, hseq, h, ne_eq, Std.compare_eq_iff_eq, and_comm, ne_eq, eq_comm]
        obtain ⟨e', hle, hexp, htaken, hkept⟩ := ih (e + 1) _ hnext
        refine ⟨e', by omega, hexp, fun n h1 h2 => ?_, fun k => ?_⟩
        · rcases Nat.eq_or_lt_of_le h1 with rfl | hlt
          · exact hmem
          · exact ((hkeys _).mp (htaken n hlt h2)).1
        · dsimp only
          rw [hkept, hkeys, and_assoc]
          refine and_congr_right fun _ => ⟨fun hk n h1 h2 => ?_, fun hk => ⟨hk e le_rfl (by omega), fun n h1 h2 =>
            hk n (by omega) h2⟩⟩
          rcases Nat.eq_or_lt_of_le h1 with rfl | hlt
          · exact hk.1
          · exact hk.2 n hlt h2
      · exact ⟨e, .refl h⟩

/-- A buffer whose keys are the numbers of a stretch that leaves one of them out. -/
theorem size_of_stretch {m : Std.ExtTreeMap UInt16 Bytes} {a b x : ℕ} (hx : a < x) (hxb : x < b)
    (h : ∀ k ∈ m, ∃ n, a < n ∧ n < b ∧ n ≠ x ∧ k = UInt16.ofNat n) : m.size + a + 2 ≤ b := by
  have hsub : m.keys.toFinset ⊆ ((Finset.Ioo a b).erase x).image UInt16.ofNat := by
    intro k hk
    rw [List.mem_toFinset, Std.ExtTreeMap.mem_keys] at hk
    obtain ⟨n, ha, hb, hne, rfl⟩ := h k hk
    exact Finset.mem_image_of_mem _ (Finset.mem_erase.mpr ⟨hne, Finset.mem_Ioo.mpr ⟨ha, hb⟩⟩)
  have hcard := (Finset.card_le_card hsub).trans Finset.card_image_le
  rw [List.toFinset_card_of_nodup Std.ExtTreeMap.nodup_keys, Std.ExtTreeMap.length_keys,
    Finset.card_erase_of_mem (Finset.mem_Ioo.mpr ⟨hx, hxb⟩), Nat.card_Ioo] at hcard
  omega

/-- A message that has arrived is delivered or buffered, and nothing else is. -/
structure Stocked (arrived : ℕ → Prop) (count : ℕ) (b : Session) : Prop where
  short : ∀ n, arrived n → n < 65536
  came : ∀ n < count, arrived n
  held : ∀ n, arrived n → n < count ∨ count < n ∧ UInt16.ofNat n ∈ b.ooo
  buffered : ∀ k ∈ b.ooo, ∃ n, arrived n ∧ k = UInt16.ofNat n

theorem Stocked.same {arrived : ℕ → Prop} {count : ℕ} {b b' : Session} (h : Stocked arrived count b)
    (hs : SameReceiver b b') : Stocked arrived count b' where
  short := h.short
  came := h.came
  held n hn := by
    rw [hs.ooo]
    exact h.held n hn
  buffered k hk := by
    rw [hs.ooo] at hk
    exact h.buffered k hk

theorem Stocked.congr {arrived arrived' : ℕ → Prop} {count : ℕ} {b : Session} (h : Stocked arrived count b)
    (he : ∀ n, arrived' n ↔ arrived n) : Stocked arrived' count b := by
  rwa [show arrived' = arrived from funext fun n => propext (he n)]

/-- The first message that has not arrived is the first one that is not delivered. -/
theorem Stocked.lt_iff {arrived : ℕ → Prop} {count : ℕ} {b : Session} (h : Stocked arrived count b) (n : ℕ) :
    n < count ↔ ∀ j ≤ n, arrived j := by
  refine ⟨fun hn j hj => h.came j (hj.trans_lt hn), fun hall => ?_⟩
  by_contra hge
  rcases h.held count (hall count (not_lt.mp hge)) with hlt | ⟨hlt, -⟩
  · exact absurd hlt (lt_irrefl _)
  · exact absurd hlt (lt_irrefl _)

section
variable {msgs : List (UInt8 × Bytes)} {e n : ℕ} {b : Session}

theorem number_of_mem (hr : Receives msgs e b) {k : UInt16} (hk : k ∈ b.ooo) :
    ∃ i, e < i ∧ i < msgs.length ∧ k = UInt16.ofNat i := by
  rw [Std.ExtTreeMap.mem_iff_isSome_getElem?, Option.isSome_iff_exists] at hk
  obtain ⟨p, hp⟩ := hk
  obtain ⟨i, ch, hi, -, rfl, hm, -⟩ := hr.buffered k p hp
  exact ⟨i, hi, (List.getElem?_eq_some_iff.mp hm).1, rfl⟩

/-- The buffer has room for every message of the window that it does not hold yet. -/
theorem room_of_window (hr : Receives msgs e b) (hn : e < n) (hlt : n < msgs.length)
    (hwin : msgs.length ≤ max e 1 + 64) (hnew : UInt16.ofNat n ∉ b.ooo) : b.ooo.size < 64 := by
  have hsize := size_of_stretch (m := b.ooo) hn hlt fun k hk => by
    obtain ⟨i, hi, hlen, rfl⟩ := number_of_mem hr hk
    refine ⟨i, hi, hlen, ?_, rfl⟩
    rintro rfl
    exact hnew hk
  omega

theorem handleData_drained {t : WireTunnel} (hrel : t.flags &&& tfReliable ≠ 0) (hs : t.seq = b.expectedSeq)
    (he : b.expectedSeq = UInt16.ofNat e) : ∃ e', Drained (e + 1) e' b (handleData b t).1 := by
  rw [handleData]
  dsimp only
  rw [if_pos hrel, if_pos hs]
  obtain ⟨e', h⟩ := drainLoop_drained b.ooo.size (e + 1)
    { (Session.deliver { b with txBytes := b.txBytes + t.len.toUInt64 } t.payload t.channelId).1 with
      expectedSeq := b.expectedSeq + 1 } (by rw [he]; exact ofNat16_succ e)
  exact ⟨e', h.le, h.expected, h.taken, h.kept⟩

theorem ofNat16_inj {i j : ℕ} (hi : i < 65536) (hj : j < 65536) (h : UInt16.ofNat i = UInt16.ofNat j) : i = j := by
  rw [ofNat16_eq_iff] at h
  omega

theorem Stocked.arrive_expected {arrived : ℕ → Prop} (h : Stocked arrived e b) (hr : Receives msgs e b)
    {b' : Session} {e' : ℕ} (hd : Drained (e + 1) e' b b') (hr' : Receives msgs e' b')
    (hshort : msgs.length < 65536) (he : e < msgs.length) : Stocked (fun j => arrived j ∨ e = j) e' b' := by
  have hle := hd.le
  refine ⟨fun j hj => ?_, fun j hj => ?_, fun j hj => ?_, fun k hk => ?_⟩
  · rcases hj with hj | rfl
    · exact h.short j hj
    · omega
  · rcases Nat.lt_trichotomy j e with hje | rfl | hje
    · exact .inl (h.came j hje)
    · exact .inr rfl
    · obtain ⟨i, ha, heq⟩ := h.buffered _ (hd.taken j hje hj)
      obtain rfl := ofNat16_inj (hj.trans_le hr'.le_length |>.trans hshort) (h.short i ha) heq
      exact .inl ha
  · rcases Nat.lt_or_ge j e' with hje | hje
    · exact .inl hje
    rcases hj with hj | rfl
    · rcases h.held j hj with hlt | ⟨-, hmem⟩
      · omega
      have hin : UInt16.ofNat j ∈ b'.ooo := (hd.kept _).mpr ⟨hmem, fun i h1 h2 heq => by
        have := ofNat16_inj (h.short j hj) (by have := hr'.le_length; omega) heq
        omega⟩
      obtain ⟨i, hi, hlen, heq⟩ := number_of_mem hr' hin
      obtain rfl := ofNat16_inj (h.short j hj) (by omega) heq
      exact .inr ⟨hi, hin⟩
    · omega
  · obtain ⟨i, ha, rfl⟩ := h.buffered k ((hd.kept k).mp hk).1
    exact ⟨i, .inl ha, rfl⟩

theorem Stocked.arrive_other {arrived : ℕ → Prop} (h : Stocked arrived e b) (hr : Receives msgs e b)
    {t : WireTunnel} (hrel : t.flags &&& tfReliable ≠ 0) (hs : t.seq = UInt16.ofNat n) (hne : n ≠ e)
    (hn : n < msgs.length) (hshort : msgs.length < 65536) (hwin : msgs.length ≤ max e 1 + 64) :
    Stocked (fun j => arrived j ∨ n = j) e (handleData b t).1 := by
  have hle := hr.le_length
  have hseq : t.seq ≠ b.expectedSeq := by
    rw [hs, hr.expected]
    exact fun heq => hne (ofNat16_inj (by omega) (by omega) heq)
  have hlater : b.expectedSeq < t.seq ↔ e < n := by
    rw [hs, hr.expected, UInt16.lt_iff_toNat_lt, UInt16.toNat_ofNat', UInt16.toNat_ofNat']
    omega
  obtain ⟨-, -, hmaps⟩ := handleData_other hrel hseq
  have hmem : ∀ k, k ∈ (handleData b t).1.ooo ↔ k ∈ b.ooo ∨ e < n ∧ k = UInt16.ofNat n := by
    intro k
    split at hmaps
    · next hc =>
      rw [hmaps.1, Std.ExtTreeMap.mem_insert, Std.compare_eq_iff_eq, hs, eq_comm, or_comm,
        and_iff_right (hlater.mp hc.1)]
    · next hc =>
      rw [hmaps.1]
      refine ⟨.inl, fun hk => hk.elim id fun hk => ?_⟩
      -- the buffer can only be full if it has the message
      by_contra hnew
      rw [hk.2] at hnew
      exact hc ⟨hlater.mpr hk.1, room_of_window hr hk.1 hn hwin hnew⟩
  refine ⟨fun j hj => ?_, fun j hj => .inl (h.came j hj), fun j hj => ?_, fun k hk => ?_⟩
  · rcases hj with hj | rfl
    · exact h.short j hj
    · omega
  · rcases hj with hj | rfl
    · exact (h.held j hj).imp_right fun hk => ⟨hk.1, (hmem _).mpr (.inl hk.2)⟩
    · exact (Nat.lt_or_gt_of_ne hne).imp_right fun hk => ⟨hk, (hmem _).mpr (.inr ⟨hk, rfl⟩)⟩
  · rcases (hmem k).mp hk with hk | ⟨-, rfl⟩
    · obtain ⟨i, ha, rfl⟩ := h.buffered k hk
      exact ⟨i, .inl ha, rfl⟩
    · exact ⟨n, .inr rfl, rfl⟩

/-- The frame of message `n` arrives while the first `e` messages are delivered. -/
theorem Stocked.arrive {arrived : ℕ → Prop} (h : Stocked arrived e b) (hr : Receives msgs e b) {frame : Bytes}
    (hc : Carries msgs n frame) (hshort : msgs.length < 65536) (hwin : msgs.length ≤ max e 1 + 64) :
    ∃ e', Burst msgs e e' (b.onFrame frame) ∧ (n ≠ e → e' = e) ∧
      Stocked (fun j => arrived j ∨ n = j) e' (b.onFrame frame).1 := by
  have hlt := Carries.lt_length hc
  have hle := hr.le_length
  obtain ⟨e', hb⟩ := onFrame_burst hr hc fun _ => by omega
  refine ⟨e', hb, ?_⟩
  have hr' := hb.receives
  have hlen' := hr'.le_length
  obtain ⟨t, ht, hty, hfl, hs, hm⟩ := hc
  have hrel : t.flags &&& tfReliable ≠ 0 := by
    rw [hfl]
    decide
  rw [onFrame_eq ht hty] at hr' ⊢
  by_cases hne : n = e
  · subst hne
    obtain ⟨e'', hd⟩ := handleData_drained (b := b) (e := n) hrel (hs.trans hr.expected.symm) hr.expected
    have hlast : e'' ≤ msgs.length := by
      by_contra hgt
      obtain ⟨i, -, hi, heq⟩ := number_of_mem hr (hd.taken msgs.length (by omega) (by omega))
      have := ofNat16_inj hshort (by omega) heq
      omega
    obtain rfl := ofNat16_inj (i := e') (j := e'') (by omega) (by omega) (hr'.expected.symm.trans hd.expected)
    exact ⟨fun hn => absurd rfl hn, h.arrive_expected hr hd hr' hshort hlt⟩
  · have hseq : t.seq ≠ b.expectedSeq := by
      rw [hs, hr.expected]
      exact fun heq => hne (ofNat16_inj (by omega) (by omega) heq)
    have hsame : e' = e := by
      refine ofNat16_inj (by omega) (by omega) ?_
      rw [← hr'.expected, (handleData_other hrel hseq).2.1, hr.expected]
    subst hsame
    exact ⟨fun _ => rfl, h.arrive_other hr hrel hs hne hlt hshort hwin⟩

end

structure ArriveInv (arrived : ℕ → Prop) (s : Link) : Prop extends Inv s where
  removed_le : removed s.sent s.a ≤ max s.received.length 1
  acks : ∀ p ∈ s.toA, Truthful s.received.length p
  dataB : DataOnly s.b
  stocked : Stocked arrived s.received.length s.b

theorem not_arrived_nil (n : ℕ) : ¬Arrived [] n := by
  rintro ⟨p, hp, -⟩
  exact absurd hp List.not_mem_nil

theorem arrived_snoc (es : List Event) (e : Event) (n : ℕ) :
    Arrived (es ++ [e]) n ↔ Arrived es n ∨ ∃ p, e = .arriveB p ∧ isReliable p.frame ∧ p.mark = n := by
  constructor
  · rintro ⟨p, hp, hrel, hn⟩
    rcases List.mem_append.mp hp with hp | hp
    · exact .inl ⟨p, hp, hrel, hn⟩
    · exact .inr ⟨p, (List.mem_singleton.mp hp).symm, hrel, hn⟩
  · rintro (⟨p, hp, hrel, hn⟩ | ⟨p, rfl, hrel, hn⟩)
    · exact ⟨p, List.mem_append_left _ hp, hrel, hn⟩
    · exact ⟨p, List.mem_append_right _ (List.mem_singleton_self _), hrel, hn⟩

theorem arriveInv_init {s : Link} (h : link.init s) : ArriveInv (Arrived []) s := by
  have hi := inv_init h
  obtain ⟨x, y, rfl⟩ := h
  exact ⟨hi, Nat.zero_le _, fun p hp => absurd hp List.not_mem_nil, fun m hm => absurd hm List.not_mem_nil,
    fun n hn => absurd hn (not_arrived_nil n), fun n hn => absurd hn (Nat.not_lt_zero n),
    fun n hn => absurd hn (not_arrived_nil n), fun k hk => absurd hk Std.ExtTreeMap.not_mem_empty⟩

/-- The window reaches at most 64 messages past the first one that is not delivered. -/
theorem ArriveInv.window {arrived : ℕ → Prop} {s : Link} (h : ArriveInv arrived s) :
    s.sent.length ≤ max s.received.length 1 + 64 := by
  have h1 := h.removed_le
  have h2 := h.sends.window
  rw [removed] at h1
  omega

/-- With few messages an ack takes out nothing that is neither delivered nor message 0. -/
theorem ArriveInv.removed_arriveA {arrived : ℕ → Prop} {s : Link} (h : ArriveInv arrived s)
    (hshort : s.sent.length ≤ 32768) {p : Packet} (hp : p ∈ s.toA) :
    removed s.sent (s.a.onFrame p.frame).1 ≤ max s.received.length 1 := by
  have hr := h.removed_le
  cases hack : isAck p.frame with
  | false => rw [removed, (onFrame_sender s.a hack).pending, ← removed]; exact hr
  | true =>
    obtain ⟨t, ht, -, he⟩ := onFrame_ack s.a hack
    obtain ⟨hmark, hval⟩ := h.acks p hp hack
    rw [he, hval t ht, ackValue_eq]
    dsimp only
    by_cases hempty : s.a.pending = []
    · simpa [removed, handleAck, hempty] using hr
    have hpos := List.length_pos_of_ne_nil hempty
    have hnear : removed s.sent s.a < ackNumber p.mark + 32768 := by
      have := h.sends.pending_le
      rw [removed]
      omega
    have hbound := removed_handleAck h.sends hnear
    have hle := h.receives.le_length
    have hnum : ackNumber p.mark + 1 ≤ max p.mark 1 := by
      rw [ackNumber]
      split <;> omega
    omega

theorem ArriveInv.same {s s' : Link} {es : List Event} {e : Event} (h : ArriveInv (Arrived es) s)
    (hinv : Inv s') (hcount : s'.received = s.received) (hrem : removed s'.sent s'.a ≤ removed s.sent s.a)
    (hacks : ∀ p ∈ s'.toA, Truthful s.received.length p) (hdata : DataOnly s'.b) (hb : SameReceiver s.b s'.b)
    (hno : ∀ p, e = .arriveB p → isReliable p.frame = false) : ArriveInv (Arrived (es ++ [e])) s' where
  toInv := hinv
  removed_le := by
    rw [hcount]
    exact hrem.trans h.removed_le
  acks := by
    rw [hcount]
    exact hacks
  dataB := hdata
  stocked := by
    rw [hcount]
    refine (h.stocked.same hb).congr fun n => ?_
    rw [arrived_snoc, or_iff_left]
    rintro ⟨p, rfl, hrel, -⟩
    exact absurd hrel (by rw [hno p rfl]; decide)

theorem ArriveInv.arriveB {s : Link} {es : List Event} (h : ArriveInv (Arrived es) s)
    (hshort : s.sent.length ≤ 32768) {p : Packet} (hp : p ∈ s.toB) (hinv : Inv (next s (.arriveB p))) :
    ArriveInv (Arrived (es ++ [.arriveB p])) (next s (.arriveB p)) := by
  cases hrel : isReliable p.frame with
  | false =>
    have hcount : (next s (.arriveB p)).received = s.received := by
      simp [next, deliveredReliably, hrel]
    refine h.same hinv hcount le_rfl ?_ (h.dataB.onFrame p.frame) (onFrame_receiver s.b hrel) fun q hq => ?_
    · have hacks := truthful_append le_rfl h.acks (packetsB_onFrame (hcount ▸ hinv.receives :
        Receives s.sent s.received.length (s.b.onFrame p.frame).1))
      simpa only [next, deliveredReliably, hrel, Bool.false_eq_true, if_false, List.append_nil] using hacks
    · cases hq
      exact hrel
  | true =>
    obtain ⟨e', hb, -, hstock⟩ := h.stocked.arrive h.receives (h.genuine p hp hrel) (by omega) h.window
    have hlen : (next s (.arriveB p)).received.length = e' := by
      simp only [next, deliveredReliably, hrel, if_true, List.length_append]
      exact Burst.received_length hb
    have hle := hb.le
    refine ⟨hinv, ?_, ?_, h.dataB.onFrame p.frame, ?_⟩
    · rw [hlen]
      exact h.removed_le.trans (by omega)
    · have hcount : (s.received ++ deliveredReliably p.frame (s.b.onFrame p.frame).2).length = e' := hlen
      rw [hlen]
      refine truthful_append hle h.acks ?_
      rw [hcount]
      exact packetsB_onFrame hb.receives
    · rw [hlen]
      refine hstock.congr fun n => ?_
      rw [arrived_snoc]
      refine or_congr_right ⟨?_, ?_⟩
      · rintro ⟨q, hq, -, rfl⟩
        cases hq
        rfl
      · rintro rfl
        exact ⟨p, rfl, hrel, rfl⟩

theorem ArriveInv.step {s : Link} {es : List Event} {e : Event} (h : ArriveInv (Arrived es) s)
    (he : enabled s e) (hshort : (next s e).sent.length ≤ 32768) :
    ArriveInv (Arrived (es ++ [e])) (next s e) := by
  have hs : s.sent.length ≤ 32768 := (sent_mono s e).trans hshort
  have hinv : Inv (next s e) := by
    refine inv_step h.toInv he ?_
    rintro p rfl hrel
    have hlt := Carries.lt_length (h.genuine p he hrel)
    have hle := h.receives.le_length
    intro _
    omega
  cases e with
  | sendA ch data reliable now =>
    exact h.same hinv rfl (removed_send s ch data reliable now h.sends).le h.acks h.dataB ⟨rfl, rfl, rfl⟩
      fun q hq => by cases hq
  | sendB ch data reliable now =>
    exact h.same hinv rfl le_rfl (truthful_append le_rfl h.acks
      (packetsB_silent fun f hf => send_isAck s.b ch data reliable now hf)) (h.dataB.send ch data reliable now)
      (send_receiver s.b ch data reliable now) fun q hq => by cases hq
  | tickA now =>
    exact h.same hinv rfl (removed_tick _ _ now).le h.acks h.dataB ⟨rfl, rfl, rfl⟩ fun q hq => by cases hq
  | tickB now =>
    exact h.same hinv rfl le_rfl (truthful_append le_rfl h.acks
      (packetsB_silent fun f hf => h.dataB.tick_isAck now hf)) (h.dataB.tick now) (tick_receiver s.b now)
      fun q hq => by cases hq
  | arriveB p => exact h.arriveB hs he hinv
  | arriveA p =>
    refine ⟨hinv, h.removed_arriveA hs he, h.acks, h.dataB, h.stocked.congr fun n => ?_⟩
    rw [arrived_snoc, or_iff_left]
    rintro ⟨q, hq, -⟩
    cases hq

theorem arriveInv_run {s : Link} (h0 : link.init s) {es : List Event} (hr : Run link (fun _ _ => True) s es) :
    (es.foldl next s).sent.length ≤ 32768 → ArriveInv (Arrived es) (es.foldl next s) := by
  refine Run.history (J := fun es s => s.sent.length ≤ 32768 → ArriveInv (Arrived es) s)
    (fun _ => arriveInv_init h0) (fun es s e ih he _ hn => ?_) hr
  exact (ih ((sent_mono s e).trans hn)).step he hn

/-- At every point of a run in which `a` accepts at most 32768 reliable messages, `b` has delivered a
message exactly if this one and all before it have arrived, whatever was lost, repeated or reordered. -/
theorem delivered_iff_arrived {s : Link} (h0 : link.init s) {es : List Event}
    (hr : Run link (fun _ _ => True) s es) (hshort : (es.foldl next s).sent.length ≤ 32768) (n : ℕ) :
    n < (es.foldl next s).received.length ↔ ∀ j ≤ n, Arrived es j :=
  (arriveInv_run h0 hr hshort).stocked.lt_iff n

theorem delivered_iff_arrived_reversed : 1 < (reversedPair.foldl next fresh).received.length ↔
    ∀ j ≤ 1, Arrived reversedPair j :=
  delivered_iff_arrived ⟨1, 1, rfl⟩ (by decide +kernel : Run link _ fresh reversedPair) (by decide +kernel) 1

/-- `a` ticks, and all that it sends arrives at `b` in order. -/
def deliveries (now : UInt64) (s : Link) : List Event :=
  .tickA now :: (packetsA s.sent (s.a.tick now).1 (s.a.tick now).2).map .arriveB

/-- Then all that `b` has sent arrives at `a`. -/
def round (now : UInt64) (s : Link) : List Event :=
  deliveries now s ++ (((deliveries now s).foldl next s).toA.drop s.toA.length).map .arriveA

/-- Arrivals at `b` change nothing on the side of `a` and only add to what is sent back. -/
structure FromB (s s' : Link) : Prop where
  a : s'.a = s.a
  sent : s'.sent = s.sent
  toB : s'.toB = s.toB
  toA : ∃ more, s'.toA = s.toA ++ more

theorem arriveB_all (ps : List Packet) (s : Link) : FromB s ((ps.map .arriveB).foldl next s) := by
  induction ps generalizing s with
  | nil => exact ⟨rfl, rfl, rfl, [], (List.append_nil _).symm⟩
  | cons p ps ih =>
    obtain ⟨ha, hsent, hB, more, hA⟩ := ih (next s (.arriveB p))
    refine ⟨ha, hsent, hB,
      packetsB (next s (.arriveB p)).received.length (s.b.onFrame p.frame).2 ++ more, ?_⟩
    rw [List.map_cons, List.foldl_cons, hA, ← List.append_assoc]
    rfl

theorem arriveB_run {ps : List Packet} {s : Link} (h : ∀ p ∈ ps, p ∈ s.toB) :
    Run link (fun _ _ => True) s (ps.map .arriveB) := by
  induction ps generalizing s with
  | nil => trivial
  | cons p ps ih =>
    exact ⟨h p List.mem_cons_self, trivial, ih fun q hq => h q (List.mem_cons_of_mem p hq)⟩

/-- Arrivals at `a` change nothing on the side of `b`. -/
structure FromA (s s' : Link) : Prop where
  received : s'.received = s.received
  sent : s'.sent = s.sent
  toA : s'.toA = s.toA

theorem arriveA_all (ps : List Packet) (s : Link) : FromA s ((ps.map .arriveA).foldl next s) := by
  induction ps generalizing s with
  | nil => exact ⟨rfl, rfl, rfl⟩
  | cons p ps ih =>
    obtain ⟨hr, hs, hA⟩ := ih (next s (.arriveA p))
    exact ⟨hr, hs, hA⟩

theorem arriveA_run {ps : List Packet} {s : Link} (h : ∀ p ∈ ps, p ∈ s.toA) :
    Run link (fun _ _ => True) s (ps.map .arriveA) := by
  induction ps generalizing s with
  | nil => trivial
  | cons p ps ih =>
    exact ⟨h p List.mem_cons_self, trivial, ih fun q hq => h q (List.mem_cons_of_mem p hq)⟩

theorem round_run (now : UInt64) (s : Link) : Run link (fun _ _ => True) s (round now s) := by
  refine Run.append.mpr ⟨⟨trivial, trivial, arriveB_run fun p hp => List.mem_append_right _ hp⟩, ?_⟩
  exact arriveA_run fun p hp => List.mem_of_mem_drop hp

theorem isReliable_of_carries {msgs : List (UInt8 × Bytes)} {n : ℕ} {frame : Bytes} (h : Carries msgs n frame) :
    isReliable frame = true := by
  obtain ⟨t, ht, hty, hfl, -⟩ := h
  rw [Session.isReliable, ht]
  simp only [hty, hfl]
  decide

theorem carries_inj {msgs : List (UInt8 × Bytes)} {n n' : ℕ} {frame : Bytes} (h : Carries msgs n frame)
    (h' : Carries msgs n' frame) (hshort : msgs.length ≤ 65536) : n = n' := by
  have hn := Carries.lt_length h
  have hn' := Carries.lt_length h'
  obtain ⟨t, ht, -, -, hs, -⟩ := h
  obtain ⟨t', ht', -, -, hs', -⟩ := h'
  rw [ht] at ht'
  cases ht'
  exact ofNat16_inj (by omega) (by omega) (hs.symm.trans hs')

theorem tick_packets {s : Link} (h : Sends s.sent s.a) (hshort : s.sent.length ≤ 65536) {now : UInt64}
    (hdue : ∀ m ∈ s.a.pending, due s.a now m = true) {n : ℕ} (hge : removed s.sent s.a ≤ n)
    (hlt : n < s.sent.length) : ∃ p ∈ packetsA s.sent (s.a.tick now).1 (s.a.tick now).2,
      isReliable p.frame = true ∧ p.mark = n := by
  have hle := h.pending_le
  have hidx : n - removed s.sent s.a < s.a.pending.length := by
    rw [removed] at hge ⊢
    omega
  set m := s.a.pending[n - removed s.sent s.a] with hm
  have hc := (h.entry _ m (List.getElem?_eq_getElem hidx)).2
  rw [Nat.add_sub_cancel' hge] at hc
  have hmem : m ∈ s.a.pending := List.getElem_mem hidx
  have hframe : m.data ∈ txFrames (s.a.tick now).2 := by
    rw [tick_txFrames]
    exact List.mem_append_right _ (List.mem_map_of_mem (List.mem_filter.mpr ⟨hmem, hdue m hmem⟩))
  refine ⟨_, List.mem_map_of_mem hframe, isReliable_of_carries hc, ?_⟩
  obtain ⟨m', hm', hdata⟩ : ∃ m' ∈ (s.a.tick now).1.pending, m'.data = m.data := by
    refine ⟨_, tick_pending s.a now ▸ List.mem_map_of_mem hmem, ?_⟩
    split <;> rfl
  exact carries_inj (hdata ▸ (h.tick now).numberOf_carries hm') hc hshort

theorem le_mark {s : Link} {now : UInt64} {p : Packet} (hp : p ∈ packetsA s.sent (s.a.tick now).1 (s.a.tick now).2) :
    removed s.sent s.a ≤ p.mark := by
  obtain ⟨f, -, rfl⟩ := List.mem_map.mp hp
  rw [← removed_tick s.sent s.a now]
  exact Nat.le_add_right _ _

theorem pending_arriveA (s : Link) (p : Packet) (h : s.a.pending = []) :
    (next s (.arriveA p)).a.pending = [] := by
  change (s.a.onFrame p.frame).1.pending = []
  cases hack : isAck p.frame with
  | false => rw [(onFrame_sender s.a hack).pending, h]
  | true =>
    obtain ⟨t, -, -, he⟩ := onFrame_ack s.a hack
    rw [he, handleAck, h]
    rfl

theorem pending_arriveA_all (ps : List Packet) {s : Link} (h : s.a.pending = []) :
    ((ps.map .arriveA).foldl next s).a.pending = [] := by
  induction ps generalizing s with
  | nil => exact h
  | cons p ps ih => exact ih (pending_arriveA s p h)

theorem handleAck_all {msgs : List (UInt8 × Bytes)} {a : Session} (h : Sends msgs a) (hpos : 0 < msgs.length)
    (hshort : msgs.length ≤ 32768) : (handleAck a (ackValue msgs.length)).pending = [] := by
  have hnum : ackNumber msgs.length = msgs.length - 1 := if_neg (by omega)
  rw [ackValue_eq, hnum]
  refine List.dropWhile_eq_nil_iff.mpr fun m hm => ?_
  obtain ⟨i, hi⟩ := List.mem_iff_getElem?.mp hm
  have hlt := (List.getElem?_eq_some_iff.mp hi).1
  have hle := h.pending_le
  rw [(h.entry i m hi).1]
  refine acked_of_le ?_ (by omega)
  rw [removed]
  omega

/-- Among the frames that arrive at `a` is an ack for all messages. -/
theorem pending_of_ack {ps : List Packet} {q : Packet} (hq : q ∈ ps) {s : Link} (h : Sends s.sent s.a)
    (hpos : 0 < s.sent.length) (hshort : s.sent.length ≤ 32768) {sid : UInt16}
    (hframe : q.frame = buildFrame ttAck sid 0 0 0 (ackValue s.sent.length) []) :
    ((ps.map .arriveA).foldl next s).a.pending = [] := by
  induction ps generalizing s with
  | nil => exact absurd hq List.not_mem_nil
  | cons p ps ih =>
    rw [List.map_cons, List.foldl_cons]
    rcases List.mem_cons.mp hq with rfl | hin
    · have hack : isAck q.frame = true := by
        rw [hframe, isAck_buildFrame _ _ _ _ _ _ (Nat.zero_le _)]
        rfl
      obtain ⟨t, ht, -, he⟩ := onFrame_ack s.a hack
      rw [hframe, codecReadTunnel_buildFrame _ _ _ _ _ _ _ (by decide)] at ht
      cases ht
      refine pending_arriveA_all ps ?_
      simp only [next, he]
      exact handleAck_all h hpos hshort
    · exact ih hin (h.onFrame p.frame) hpos hshort hframe

/-- `b` answers a reliable frame with an ack for all that it has delivered. -/
theorem ack_of_arriveB {s : Link} {p : Packet} (hrel : isReliable p.frame = true)
    (hr : Receives s.sent (next s (.arriveB p)).received.length (s.b.onFrame p.frame).1) :
    ∃ q more, (next s (.arriveB p)).toA = s.toA ++ q :: more ∧
      q.frame = buildFrame ttAck (s.b.onFrame p.frame).1.sessionId 0 0 0
        (ackValue (next s (.arriveB p)).received.length) [] := by
  have hframes : txFrames (s.b.onFrame p.frame).2 = txFrames (sendAck (s.b.onFrame p.frame).1) := by
    rw [Session.isReliable] at hrel
    split at hrel
    · next t ht =>
      rw [Bool.and_eq_true, decide_eq_true_eq] at hrel
      rw [onFrame_eq ht hrel.1, handleData_txFrames, if_pos (by simpa using hrel.2)]
    · exact absurd hrel (by decide)
  rw [hr.sendAck] at hframes
  refine ⟨⟨buildFrame ttAck (s.b.onFrame p.frame).1.sessionId 0 0 0
    (ackValue (next s (.arriveB p)).received.length) [], (next s (.arriveB p)).received.length⟩, [], ?_, rfl⟩
  change s.toA ++ packetsB _ _ = _
  rw [packetsB, hframes]
  rfl

/-- When everything is due, the last frame of a tick is that of the last waiting message. -/
theorem packetsA_last {s : Link} (h : Sends s.sent s.a) (hne : s.a.pending ≠ []) {now : UInt64}
    (hdue : ∀ m ∈ s.a.pending, due s.a now m = true) :
    ∃ ps p, packetsA s.sent (s.a.tick now).1 (s.a.tick now).2 = ps ++ [p] ∧ isReliable p.frame = true := by
  obtain ⟨ms, m, hms⟩ : ∃ ms m, s.a.pending = ms ++ [m] :=
    ⟨_, _, (List.dropLast_append_getLast hne).symm⟩
  have hm : isReliable m.data = true := by
    have hlast : s.a.pending[ms.length]? = some m := by rw [hms, List.getElem?_concat_length]
    exact isReliable_of_carries (h.entry _ m hlast).2
  rw [packetsA, tick_txFrames, List.filter_eq_self.mpr hdue, hms, List.map_append (f := Msg.data),
    ← List.append_assoc, List.map_append]
  exact ⟨_, _, rfl, hm⟩

/-- After the deliveries the answers contain an ack for all that `b` has delivered. -/
theorem ack_of_deliveries {s : Link} (h : Sends s.sent s.a) (hne : s.a.pending ≠ []) {now : UInt64}
    (hdue : ∀ m ∈ s.a.pending, due s.a now m = true) {arrived : ℕ → Prop}
    (hinv : ArriveInv arrived ((deliveries now s).foldl next s)) :
    ∃ q ∈ ((deliveries now s).foldl next s).toA.drop s.toA.length, ∃ sid,
      q.frame = buildFrame ttAck sid 0 0 0 (ackValue ((deliveries now s).foldl next s).received.length) [] := by
  obtain ⟨ps, p, hps, hrel⟩ := packetsA_last h hne hdue
  have hend : (deliveries now s).foldl next s =
      next ((ps.map .arriveB).foldl next (next s (.tickA now))) (.arriveB p) := by
    rw [deliveries, hps, List.map_append, List.foldl_cons, List.foldl_append]
    rfl
  rw [hend] at hinv ⊢
  set s' := (ps.map .arriveB).foldl next (next s (.tickA now)) with hs'
  obtain ⟨q, more, hq, hframe⟩ := ack_of_arriveB (s := s') hrel hinv.receives
  obtain ⟨-, -, -, more', hmore⟩ := arriveB_all ps (next s (.tickA now))
  refine ⟨q, ?_, _, hframe⟩
  have hA : (next s (.tickA now)).toA = s.toA := rfl
  rw [hq, hs', hmore, hA, List.append_assoc, List.drop_left]
  exact List.mem_append_right _ List.mem_cons_self

/-- A round without loss delivers every accepted message and empties the window, unless message 0 has
been taken out of the window before anything was delivered. -/
theorem round_completes_iff {s : Link} (h : Reachable link s) (hshort : s.sent.length ≤ 32768) {now : UInt64}
    (hdue : ∀ m ∈ s.a.pending, due s.a now m = true) :
    Run link (fun _ _ => True) s (round now s) ∧ ((round now s).foldl next s).sent = s.sent ∧
      (((round now s).foldl next s).received = s.sent ∧ ((round now s).foldl next s).a.pending = [] ↔
        ¬(s.received = [] ∧ 0 < removed s.sent s.a)) := by
  obtain ⟨s₀, es, h0, hr, rfl⟩ := h.exists_run
  have hbefore : ArriveInv (Arrived es) (es.foldl link.next s₀) := arriveInv_run h0 hr hshort
  set s := es.foldl link.next s₀ with hs
  have hround := round_run now s
  set s₁ := (deliveries now s).foldl next s with hs₁
  obtain ⟨ha, hsent, -, -⟩ := arriveB_all (packetsA s.sent (s.a.tick now).1 (s.a.tick now).2) (next s (.tickA now))
  have hsent₁ : s₁.sent = s.sent := hsent
  have hafter : ArriveInv (Arrived (es ++ deliveries now s)) s₁ := by
    have hrun := Run.append.mpr ⟨hr, (Run.append.mp hround).1⟩
    have hend : (es ++ deliveries now s).foldl next s₀ = s₁ := List.foldl_append
    exact hend ▸ arriveInv_run h0 hrun (hend ▸ hsent₁ ▸ hshort)
  obtain ⟨hreceived, hsent₂, -⟩ := arriveA_all (s₁.toA.drop s.toA.length) s₁
  rw [round, List.foldl_append, ← hs₁, hreceived, hsent₂]
  refine ⟨hround, hsent₁, ⟨fun hdone hstuck => ?_, fun hfree => ?_⟩⟩
  · -- message 0 has not arrived before the round, and the round does not send it
    have hpos : 0 < s₁.received.length := by
      rw [hdone.1]
      exact hstuck.2.trans_le (Nat.sub_le _ _)
    obtain ⟨p, hp, hrel, hmark⟩ := hafter.stocked.came 0 hpos
    rcases List.mem_append.mp hp with hp | hp
    · have hgot := (hbefore.stocked.lt_iff 0).mpr fun j hj => ⟨p, hp, hrel, by omega⟩
      rw [hstuck.1] at hgot
      exact absurd hgot (Nat.not_lt_zero 0)
    · have hin : p ∈ packetsA s.sent (s.a.tick now).1 (s.a.tick now).2 := by simpa [deliveries] using hp
      have := le_mark hin
      omega
  · have hall : s₁.received.length = s.sent.length := by
      refine le_antisymm (hsent₁ ▸ hafter.receives.le_length) ?_
      by_contra hlt
      refine absurd ((hafter.stocked.lt_iff s₁.received.length).mpr fun j hj => ?_) (lt_irrefl _)
      rcases Nat.lt_or_ge j (removed s.sent s.a) with hj' | hj'
      · have hrem := hbefore.removed_le
        have hgot : j < s.received.length := by
          rcases Nat.eq_zero_or_pos s.received.length with hzero | hpos
          · exact absurd ⟨List.eq_nil_of_length_eq_zero hzero, by omega⟩ hfree
          · omega
        obtain ⟨p, hp, hrest⟩ := hbefore.stocked.came j hgot
        exact ⟨p, List.mem_append_left _ hp, hrest⟩
      · obtain ⟨p, hp, hrel, hmark⟩ := tick_packets hbefore.sends (by omega) hdue hj' (by omega)
        exact ⟨p, List.mem_append_right _ (List.mem_cons_of_mem _ (List.mem_map_of_mem hp)), hrel, hmark⟩
    have hrec : s₁.received = s.sent := by
      rw [hafter.received_eq, hall, hsent₁, List.take_length]
    refine ⟨hrec, ?_⟩
    by_cases hne : s.a.pending = []
    · refine pending_arriveA_all _ ?_
      have hpend : s₁.a.pending = (s.a.tick now).1.pending := congrArg Session.pending ha
      rw [hpend, tick_pending, hne]
      rfl
    · obtain ⟨q, hq, sid, hframe⟩ := ack_of_deliveries hbefore.sends hne hdue hafter
      have hpos : 0 < s.sent.length :=
        (List.length_pos_of_ne_nil hne).trans_le hbefore.sends.pending_le
      rw [hall, ← hsent₁] at hframe
      exact pending_of_ack hq hafter.sends (hsent₁ ▸ hpos) (hsent₁ ▸ hshort) hframe

/-- Both messages of the reversed pair are sent again after 500 ms. -/
theorem round_completes_iff_reversed :
    (((round 500 (reversedPair.foldl next fresh)).foldl next (reversedPair.foldl next fresh)).received =
        (reversedPair.foldl next fresh).sent ∧
      ((round 500 (reversedPair.foldl next fresh)).foldl next (reversedPair.foldl next fresh)).a.pending = []) ∧
    ¬((reversedPair.foldl next fresh).received = [] ∧
      0 < removed (reversedPair.foldl next fresh).sent (reversedPair.foldl next fresh).a) := by
  have hreach : Reachable link (reversedPair.foldl next fresh) :=
    Reach.run (S := link) (.start ⟨1, 1, rfl⟩) (by decide +kernel : Run link _ fresh reversedPair)
  have hdue : ∀ m ∈ (reversedPair.foldl next fresh).a.pending,
      due (reversedPair.foldl next fresh).a 500 m = true := by decide +kernel
  have hiff := (round_completes_iff hreach (by decide +kernel) hdue).2.2
  exact ⟨hiff.mpr (by decide +kernel), by decide +kernel⟩

end P2PServer.SessionLink
