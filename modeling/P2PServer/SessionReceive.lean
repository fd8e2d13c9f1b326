import P2PServer.Session
import P2PServer.TreeMaps

/-! The receiving half of a session against a numbered stream of messages. The stream
numbers are unbounded; the session sees them modulo 65536. -/
namespace P2PServer.Session
open ByteStrings ProtoDef Codec TreeMaps

/-- The first `e` messages of the stream have been delivered, and the out-of-order
buffer holds later messages whose numbers lie in the same block of 65536 as `e`. -/
structure Receives (msgs : List (UInt8 × Bytes)) (e : ℕ) (s : Session) : Prop where
  expected : s.expectedSeq = UInt16.ofNat e
  le_length : e ≤ msgs.length
  buffered : ∀ k p, s.ooo[k]? = some p → ∃ n ch, e < n ∧ n / 65536 = e / 65536 ∧
    k = UInt16.ofNat n ∧ msgs[n]? = some (ch, p) ∧ s.slotChannel[k]? = some ch

/-- As `Receives`, except that the buffer may still hold message `e` itself. -/
structure Draining (msgs : List (UInt8 × Bytes)) (e : ℕ) (s : Session) : Prop where
  expected : s.expectedSeq = UInt16.ofNat e
  le_length : e ≤ msgs.length
  buffered : ∀ k p, s.ooo[k]? = some p → ∃ n ch, e ≤ n ∧ n / 65536 = e / 65536 ∧
    k = UInt16.ofNat n ∧ msgs[n]? = some (ch, p) ∧ s.slotChannel[k]? = some ch

theorem Receives.fresh (msgs : List (UInt8 × Bytes)) (sid : UInt16) :
    Receives msgs 0 { sessionId := sid } where
  expected := rfl
  le_length := Nat.zero_le _
  buffered k p h := by simp at h

/-- A longer stream with the same beginning is received just as well. -/
theorem Receives.append {msgs more : List (UInt8 × Bytes)} {e : ℕ} {s : Session}
    (h : Receives msgs e s) : Receives (msgs ++ more) e s where
  expected := h.expected
  le_length := by
    rw [List.length_append]
    exact h.le_length.trans (Nat.le_add_right _ _)
  buffered k p hk := by
    obtain ⟨n, ch, hn, hb, hkn, hm, hc⟩ := h.buffered k p hk
    refine ⟨n, ch, hn, hb, hkn, ?_, hc⟩
    rw [List.getElem?_append_left (List.getElem?_eq_some_iff.mp hm).1]
    exact hm

theorem ofNat16_eq_iff (m n : ℕ) : UInt16.ofNat m = UInt16.ofNat n ↔ m % 65536 = n % 65536 := by
  rw [← UInt16.toNat_inj, UInt16.toNat_ofNat', UInt16.toNat_ofNat']

theorem ofNat16_succ (n : ℕ) : UInt16.ofNat n + 1 = UInt16.ofNat (n + 1) := by
  rw [UInt16.ofNat_add]
  rfl

theorem take_drop_succ {α : Type*} {msgs : List α} {e e' : ℕ} {x : α}
    (hx : msgs[e]? = some x) (he : e + 1 ≤ e') :
    x :: (msgs.take e').drop (e + 1) = (msgs.take e').drop e := by
  obtain ⟨hlt, rfl⟩ := List.getElem?_eq_some_iff.mp hx
  have hlt' : e < (msgs.take e').length := by
    rw [List.length_take]
    omega
  rw [List.drop_eq_getElem_cons hlt', List.getElem_take]

/-- A buffered entry with the expected sequence number is message `e`. -/
theorem Draining.entry {msgs : List (UInt8 × Bytes)} {e : ℕ} {s : Session}
    (h : Draining msgs e s) {k : UInt16} {p : Bytes} (hk : s.ooo[k]? = some p)
    (he : k = s.expectedSeq) :
    ∃ ch, msgs[e]? = some (ch, p) ∧ s.slotChannel[k]? = some ch := by
  obtain ⟨n, ch, hn, hb, hkn, hm, hc⟩ := h.buffered k p hk
  rw [hkn, h.expected, ofNat16_eq_iff] at he
  have hne : n = e := by omega
  subst hne
  exact ⟨ch, hm, hc⟩

theorem Draining.drainStep {msgs : List (UInt8 × Bytes)} {e : ℕ} {s : Session}
    (h : Draining msgs e s) {k : UInt16} {p : Bytes} (hk : s.ooo[k]? = some p)
    (he : k = s.expectedSeq) : Draining msgs (e + 1) (drainStep s k p).1 := by
  obtain ⟨ch, hm, -⟩ := h.entry hk he
  have hlt : e < msgs.length := (List.getElem?_eq_some_iff.mp hm).1
  refine ⟨?_, hlt, ?_⟩
  · change s.expectedSeq + 1 = _
    rw [h.expected, ofNat16_succ]
  · intro k' p' hk'
    change (s.ooo.erase k)[k']? = some p' at hk'
    rw [Std.ExtTreeMap.getElem?_erase] at hk'
    split at hk'
    · exact absurd hk' (by simp)
    · next hcmp =>
      obtain ⟨n, ch', hn, hb, hkn, hm', hc'⟩ := h.buffered k' p' hk'
      have hne : n ≠ e := by
        rintro rfl
        rw [hkn, he, h.expected] at hcmp
        exact hcmp Std.ReflCmp.compare_self
      refine ⟨n, ch', by omega, by omega, hkn, hm', ?_⟩
      change (s.slotChannel.erase k)[k']? = some ch'
      rw [Std.ExtTreeMap.getElem?_erase, if_neg hcmp]
      exact hc'

/-- When the smallest key is not the expected one, no entry has the expected number. -/
theorem Draining.stop {msgs : List (UInt8 × Bytes)} {e : ℕ} {s : Session}
    (h : Draining msgs e s) {k : UInt16} {p : Bytes} (hd : s.ooo.toList.head? = some (k, p))
    (he : k ≠ s.expectedSeq) : Receives msgs e s := by
  refine ⟨h.expected, h.le_length, ?_⟩
  intro k' p' hk'
  obtain ⟨n, ch, hn, hb, hkn, hm, hc⟩ := h.buffered k' p' hk'
  obtain ⟨n₀, ch₀, hn₀, hb₀, hkn₀, -, -⟩ := h.buffered k p (head_toList_get hd)
  have hle := Std.isLE_compare.mp (head_toList_le hd hk')
  rw [hkn, hkn₀, UInt16.le_iff_toNat_le, UInt16.toNat_ofNat', UInt16.toNat_ofNat'] at hle
  rw [hkn₀, h.expected, Ne, ofNat16_eq_iff] at he
  exact ⟨n, ch, by omega, hb, hkn, hm, hc⟩

theorem Draining.empty {msgs : List (UInt8 × Bytes)} {e : ℕ} {s : Session}
    (h : Draining msgs e s) (h0 : ∀ k : UInt16, s.ooo[k]? = none) : Receives msgs e s where
  expected := h.expected
  le_length := h.le_length
  buffered k p hk := by simp [h0 k] at hk

theorem delivered_append (xs ys : List Out) :
    delivered (xs ++ ys) = delivered xs ++ delivered ys := List.filterMap_append

theorem txFrames_append (xs ys : List Out) :
    txFrames (xs ++ ys) = txFrames xs ++ txFrames ys := List.filterMap_append

/-- A run of in-order deliveries: messages `e` to `e' - 1` are handed over. -/
structure Burst (msgs : List (UInt8 × Bytes)) (e e' : ℕ) (r : Session × List Out) : Prop where
  le : e ≤ e'
  receives : Receives msgs e' r.1
  handed : delivered r.2 = (msgs.take e').drop e

theorem Burst.nothing {msgs : List (UInt8 × Bytes)} {e : ℕ} {s : Session}
    (h : Receives msgs e s) : Burst msgs e e (s, []) where
  le := le_rfl
  receives := h
  handed := by
    rw [List.drop_eq_nil_of_le (by simp)]
    rfl

theorem Burst.cons {msgs : List (UInt8 × Bytes)} {e e' : ℕ} {s : Session} {outs : List Out}
    {ch : UInt8} {p : Bytes} (h : Burst msgs (e + 1) e' (s, outs))
    (hm : msgs[e]? = some (ch, p)) : Burst msgs e e' (s, .deliver ch p :: outs) where
  le := by
    have := h.le
    omega
  receives := h.receives
  handed := by
    change (ch, p) :: delivered outs = _
    rw [h.handed]
    exact take_drop_succ hm h.le

theorem Burst.sendAck {msgs : List (UInt8 × Bytes)} {e e' : ℕ} {s : Session} {outs : List Out}
    (h : Burst msgs e e' (s, outs)) (s' : Session) :
    Burst msgs e e' (s, outs ++ sendAck s') where
  le := h.le
  receives := h.receives
  handed := by
    rw [delivered_append, h.handed]
    exact List.append_nil _

theorem drainLoop_burst (msgs : List (UInt8 × Bytes)) (fuel : ℕ) (e : ℕ) (s : Session)
    (h : Draining msgs e s) (hf : s.ooo.size ≤ fuel) :
    ∃ e', Burst msgs e e' (drainLoop fuel s) := by
  induction fuel generalizing e s with
  | zero =>
    have hempty : s.ooo = ∅ := Std.ExtTreeMap.eq_empty_iff_size_eq_zero.mpr (Nat.le_zero.mp hf)
    refine ⟨e, Burst.nothing (h.empty fun k => ?_)⟩
    rw [hempty, Std.ExtTreeMap.getElem?_empty]
  | succ fuel ih =>
    rw [drainLoop]
    split
    · next hd => exact ⟨e, Burst.nothing (h.empty (head_toList_none hd))⟩
    · next k p hd =>
      split
      · next he =>
        have hk := head_toList_get hd
        obtain ⟨ch, hm, hc⟩ := h.entry hk he
        have hmem : k ∈ s.ooo := by
          rw [Std.ExtTreeMap.mem_iff_isSome_getElem?, hk]
          rfl
        have hsize : (drainStep s k p).1.ooo.size ≤ fuel := by
          change (s.ooo.erase k).size ≤ fuel
          rw [Std.ExtTreeMap.size_erase, if_pos (Std.ExtTreeMap.contains_iff_mem.mpr hmem)]
          omega
        obtain ⟨e', hb⟩ := ih (e + 1) _ (h.drainStep hk he) hsize
        have hout : (drainStep s k p).2 = [.deliver ch p] := by
          rw [drainStep, hc]
          rfl
        refine ⟨e', ?_⟩
        simp only [hout]
        exact hb.cons hm
      · next he => exact ⟨e, Burst.nothing (h.stop hd he)⟩

/-- Message `n` cannot be taken for a message the receiver still waits for: its
sequence number lies below the expected one, or its number is in the same block. -/
def Aligned (e n : ℕ) : Prop := e % 65536 ≤ n % 65536 → n / 65536 = e / 65536

theorem Receives.insert {msgs : List (UInt8 × Bytes)} {e n : ℕ} {s : Session}
    (h : Receives msgs e s) {ch : UInt8} {p : Bytes} (hn : e < n) (hb : n / 65536 = e / 65536)
    (hm : msgs[n]? = some (ch, p)) :
    Receives msgs e { s with
      ooo := s.ooo.insert (UInt16.ofNat n) p
      slotChannel := s.slotChannel.insert (UInt16.ofNat n) ch } where
  expected := h.expected
  le_length := h.le_length
  buffered k p' hk := by
    simp only [Std.ExtTreeMap.getElem?_insert] at hk ⊢
    split at hk
    · next hcmp =>
      rw [if_pos hcmp]
      cases hk
      exact ⟨n, ch, hn, hb, (Std.LawfulEqCmp.eq_of_compare hcmp).symm, hm, rfl⟩
    · next hcmp =>
      rw [if_neg hcmp]
      exact h.buffered k p' hk

theorem handleData_burst {msgs : List (UInt8 × Bytes)} {e n : ℕ} {s : Session}
    {t : WireTunnel} (h : Receives msgs e s) (hf : t.flags &&& tfReliable ≠ 0)
    (hs : t.seq = UInt16.ofNat n) (hm : msgs[n]? = some (t.channelId, t.payload))
    (ha : Aligned e n) : ∃ e', Burst msgs e e' (handleData s t) := by
  have h' : Receives msgs e { s with txBytes := s.txBytes + t.len.toUInt64 } :=
    ⟨h.expected, h.le_length, h.buffered⟩
  rw [handleData]
  simp only [if_pos hf]
  split
  · next hseq =>
    rw [hs, h.expected, ofNat16_eq_iff] at hseq
    have hne : n = e := by
      have := ha hseq.ge
      omega
    subst hne
    set s1 : Session := { (deliver { s with txBytes := s.txBytes + t.len.toUInt64 } t.payload
      t.channelId).1 with expectedSeq := s.expectedSeq + 1 } with hs1
    have hd : Draining msgs (n + 1) s1 := by
      refine ⟨?_, (List.getElem?_eq_some_iff.mp hm).1, ?_⟩
      · rw [hs1, h.expected]
        exact ofNat16_succ n
      · intro k p hk
        obtain ⟨m, ch, hlt, hb, hrest⟩ := h.buffered k p hk
        exact ⟨m, ch, hlt, by omega, hrest⟩
    obtain ⟨e', hb⟩ := drainLoop_burst msgs s1.ooo.size (n + 1) s1 hd le_rfl
    exact ⟨e', (hb.cons hm).sendAck _⟩
  · split
    · next hseq hgt =>
      rw [hs, h.expected] at hgt
      have hlt := hgt.1
      rw [gt_iff_lt, UInt16.lt_iff_toNat_lt, UInt16.toNat_ofNat', UInt16.toNat_ofNat'] at hlt
      have hblock := ha (by omega)
      have hins := h'.insert (by omega) hblock hm
      rw [← hs] at hins
      exact ⟨e, (Burst.nothing hins).sendAck _⟩
    · exact ⟨e, (Burst.nothing h').sendAck _⟩

/-- The acknowledgement sent when `e` messages have been delivered. -/
def ackValue (e : ℕ) : UInt16 :=
  if UInt16.ofNat e > 0 then UInt16.ofNat e - 1 else 0

theorem Receives.sendAck {msgs : List (UInt8 × Bytes)} {e : ℕ} {s : Session}
    (h : Receives msgs e s) :
    sendAck s = [.tx (buildFrame ttAck s.sessionId 0 0 0 (ackValue e) [])] := by
  rw [Session.sendAck, h.expected]
  rfl

/-- The fields that only the sending half writes. -/
structure SameSender (s s' : Session) : Prop where
  sessionId : s'.sessionId = s.sessionId
  nextSeq : s'.nextSeq = s.nextSeq
  pending : s'.pending = s.pending

theorem SameSender.trans {s t u : Session} (h : SameSender s t) (h' : SameSender t u) :
    SameSender s u :=
  ⟨h'.sessionId.trans h.sessionId, h'.nextSeq.trans h.nextSeq, h'.pending.trans h.pending⟩

theorem drainLoop_sender (fuel : ℕ) (s : Session) : SameSender s (drainLoop fuel s).1 := by
  induction fuel generalizing s with
  | zero => exact ⟨rfl, rfl, rfl⟩
  | succ fuel ih =>
    rw [drainLoop]
    split
    · exact ⟨rfl, rfl, rfl⟩
    · next k p _ =>
      split
      · have h : SameSender s (drainStep s k p).1 := ⟨rfl, rfl, rfl⟩
        exact h.trans (ih _)
      · exact ⟨rfl, rfl, rfl⟩

theorem drainLoop_txFrames (fuel : ℕ) (s : Session) : txFrames (drainLoop fuel s).2 = [] := by
  induction fuel generalizing s with
  | zero => rfl
  | succ fuel ih =>
    rw [drainLoop]
    split
    · rfl
    · next k p _ =>
      split
      · rw [txFrames_append, ih]
        rfl
      · rfl

theorem handleData_sender (s : Session) (t : WireTunnel) : SameSender s (handleData s t).1 := by
  rw [handleData]
  split
  · split
    · exact ⟨(drainLoop_sender _ _).sessionId, (drainLoop_sender _ _).nextSeq,
        (drainLoop_sender _ _).pending⟩
    · split <;> exact ⟨rfl, rfl, rfl⟩
  · exact ⟨rfl, rfl, rfl⟩

/-- A reliable frame is answered by one ack for the state it leads to. -/
theorem handleData_txFrames (s : Session) (t : WireTunnel) :
    txFrames (handleData s t).2 =
      if t.flags &&& tfReliable ≠ 0 then txFrames (sendAck (handleData s t).1) else [] := by
  rw [handleData]
  split
  · split
    · simp only [txFrames_append]
      rw [drain, drainLoop_txFrames]
      rfl
    · split <;> rfl
  · rfl

end P2PServer.Session
