import P2PServer.SequenceWrap
import P2PServer.SessionAck

/-! The representation of a session in every run: what its two maps, its window and its counters
have to do with each other. Frames are arbitrary, and the numbers may wrap around any number of times. -/
namespace P2PServer.Session
open ByteStrings ProtoDef Codec TreeMaps Transitions
open SessionLink (acked_of_lt)

inductive Call
  | send (channelId : UInt8) (data : Bytes) (reliable : Bool) (now : UInt64)
  | tick (now : UInt64)
  | frame (buf : Bytes)

def answered (s : Session) : Call → Session × List Out
  | .send channelId data reliable now => (s.send channelId data reliable now).2
  | .tick now => s.tick now
  | .frame buf => s.onFrame buf

def call (s : Session) (c : Call) : Session := (answered s c).1

def calls : System Session Call where
  init s := ∃ sid, s = { sessionId := sid }
  enabled _ _ := True
  next := call

/-- The two maps have the same keys, all of them ahead of the expected number, and the waiting messages
are numbered without a gap up to the next number. -/
structure Shape (s : Session) : Prop where
  sameKeys : ∀ k, k ∈ s.ooo ↔ k ∈ s.slotChannel
  fewBuffered : s.ooo.size ≤ 64
  later : ∀ k ∈ s.ooo, s.expectedSeq < k
  fewPending : s.pending.length ≤ 64
  consecutive : ∀ i m m', s.pending[i]? = some m → s.pending[i + 1]? = some m' → m'.seq = m.seq + 1
  last : ∀ m, s.pending.getLast? = some m → m.seq = s.nextSeq - 1

/-- Every buffered payload has its channel, and there are at most 64 of them. -/
structure Paired (s : Session) : Prop where
  keys : ∀ k, k ∈ s.ooo ↔ k ∈ s.slotChannel
  few : s.ooo.size ≤ 64

variable {s s' : Session}

theorem Paired.same (h : Paired s) (hs : SameReceiver s s') : Paired s' where
  keys k := by
    rw [hs.ooo, hs.slotChannel]
    exact h.keys k
  few := by
    rw [hs.ooo]
    exact h.few

theorem Later.same (h : Later s) (hs : SameReceiver s s') : Later s' := by
  intro k p hk
  rw [hs.ooo] at hk
  rw [hs.expectedSeq]
  exact h k p hk

theorem drainStep_paired (h : Paired s) (seq : UInt16) (payload : Bytes) :
    Paired (drainStep s seq payload).1 where
  keys k := by
    change k ∈ s.ooo.erase seq ↔ k ∈ s.slotChannel.erase seq
    rw [Std.ExtTreeMap.mem_erase, Std.ExtTreeMap.mem_erase, h.keys k]
  few := (Std.ExtTreeMap.size_erase_le).trans h.few

theorem drainLoop_paired (fuel : ℕ) (h : Paired s) : Paired (drainLoop fuel s).1 := by
  induction fuel generalizing s with
  | zero => exact h
  | succ fuel ih =>
    rw [drainLoop]
    split
    · exact h
    · split
      · exact ih (drainStep_paired h _ _)
      · exact h

theorem handleData_paired (h : Paired s) (t : WireTunnel) : Paired (handleData s t).1 := by
  rw [handleData]
  dsimp only
  split
  · split
    · exact drainLoop_paired _ ⟨h.keys, h.few⟩
    · split
      · rename_i hroom
        refine ⟨fun k => ?_, ?_⟩
        · change k ∈ s.ooo.insert t.seq t.payload ↔ k ∈ s.slotChannel.insert t.seq t.channelId
          rw [Std.ExtTreeMap.mem_insert, Std.ExtTreeMap.mem_insert, h.keys k]
        · have hle : (s.ooo.insert t.seq t.payload).size ≤ s.ooo.size + 1 := Std.ExtTreeMap.size_insert_le
          exact hle.trans hroom.2
      · exact ⟨h.keys, h.few⟩
  · exact ⟨h.keys, h.few⟩

theorem onFrame_paired (h : Paired s) (buf : Bytes) : Paired (s.onFrame buf).1 := by
  unfold onFrame
  split
  · exact h
  · split
    · exact handleData_paired h _
    · split
      · exact ⟨h.keys, h.few⟩
      · split
        · exact h
        · split
          · exact ⟨h.keys, h.few⟩
          · exact h

/-- Within half of the number range the signed comparison is the order of the messages. -/
theorem acked_of_le {x y : ℕ} (h : x ≤ y) (hd : y < x + 32768) :
    acked (UInt16.ofNat x) (UInt16.ofNat y) = true := by
  have hnat : (UInt16.ofNat x - UInt16.ofNat y).toBitVec.toNat = (65536 - (y - x)) % 65536 := by
    rw [UInt16.toNat_toBitVec, UInt16.toNat_sub, UInt16.toNat_ofNat', UInt16.toNat_ofNat']
    omega
  have hint : (UInt16.ofNat x - UInt16.ofNat y).toInt16.toInt = -((y : ℤ) - x) := by
    change (UInt16.ofNat x - UInt16.ofNat y).toBitVec.toInt = -((y : ℤ) - x)
    rw [BitVec.toInt_eq_toNat_cond, hnat]
    split <;> omega
  rw [acked, decide_eq_true_eq, Int16.le_iff_toInt_le, hint]
  simp
  omega

section
variable {msgs : List (UInt8 × Bytes)}

theorem Sends.consecutive (h : Sends msgs s) {i : ℕ} {m m' : Msg} (hm : s.pending[i]? = some m)
    (hm' : s.pending[i + 1]? = some m') : m'.seq = m.seq + 1 := by
  rw [(h.entry _ _ hm).1, (h.entry _ _ hm').1, ofNat16_succ, Nat.add_assoc]

theorem Sends.last (h : Sends msgs s) {m : Msg} (hm : s.pending.getLast? = some m) :
    m.seq = s.nextSeq - 1 := by
  rw [List.getLast?_eq_getElem?] at hm
  have hpos : s.pending.length - 1 < s.pending.length := (List.getElem?_eq_some_iff.mp hm).1
  have hle := h.pending_le
  have hnumber : removed msgs s + (s.pending.length - 1) + 1 = msgs.length := by
    rw [removed]
    omega
  rw [(h.entry _ _ hm).1, h.next, ← hnumber, ← ofNat16_succ, UInt16.add_sub_cancel]

/-- An ack for a waiting message takes out this one and the ones before it. -/
theorem Sends.handleAck_drop (h : Sends msgs s) {i : ℕ} {m : Msg} (hm : s.pending[i]? = some m) :
    (Session.handleAck s m.seq).pending = s.pending.drop (i + 1) := by
  have hw := h.window
  have hi : i < s.pending.length := (List.getElem?_eq_some_iff.mp hm).1
  have hdropped : ∀ m' ∈ s.pending.take (i + 1), acked m'.seq m.seq = true := by
    intro m' hm'
    obtain ⟨j, hj⟩ := List.mem_iff_getElem?.mp hm'
    rw [List.getElem?_take] at hj
    split at hj
    · rw [(h.entry _ _ hm).1, (h.entry _ _ hj).1]
      exact acked_of_le (by omega) (by omega)
    · cases hj
  have hkept : ∀ m', s.pending[i + 1]? = some m' → acked m'.seq m.seq = false := by
    intro m' hm'
    rw [(h.entry _ _ hm).1, (h.entry _ _ hm').1]
    exact acked_of_lt (by omega) (by omega)
  change s.pending.dropWhile (fun m' => acked m'.seq m.seq) = _
  conv_lhs => rw [← List.take_append_drop (i + 1) s.pending]
  rw [List.dropWhile_append_of_pos hdropped]
  have hhead : (s.pending.drop (i + 1)).head? = s.pending[i + 1]? := List.head?_drop ..
  cases hrest : s.pending.drop (i + 1) with
  | nil => rfl
  | cons m' rest =>
    rw [hrest, List.head?_cons] at hhead
    rw [List.dropWhile_cons_of_neg]
    simpa using hkept m' hhead.symm

end

structure Held (s : Session) : Prop where
  sends : ∃ msgs, Sends msgs s
  paired : Paired s
  later : Later s

theorem Held.fresh (sid : UInt16) : Held { sessionId := sid } where
  sends := ⟨[], .fresh sid⟩
  paired := ⟨fun k => by simp, by simp⟩
  later k p hk := by simp at hk

theorem Held.send (h : Held s) (channelId : UInt8) (data : Bytes) (reliable : Bool) (now : UInt64) :
    Held (s.send channelId data reliable now).2.1 := by
  obtain ⟨msgs, hs⟩ := h.sends
  have hrecv := send_receiver s channelId data reliable now
  refine ⟨?_, h.paired.same hrecv, h.later.same hrecv⟩
  rcases send_cases s channelId data reliable now with ⟨r, -, he⟩ | ⟨-, -, he⟩ | ⟨-, hlen, hroom, he⟩
  · rw [he]
    exact ⟨msgs, hs⟩
  · rw [he]
    exact ⟨msgs, hs⟩
  · rw [he]
    exact ⟨_, hs.push hroom channelId now hlen⟩

theorem Held.tick (h : Held s) (now : UInt64) : Held (s.tick now).1 := by
  obtain ⟨msgs, hs⟩ := h.sends
  have hrecv := tick_receiver s now
  exact ⟨⟨msgs, hs.tick now⟩, h.paired.same hrecv, h.later.same hrecv⟩

theorem Held.onFrame (h : Held s) (buf : Bytes) : Held (s.onFrame buf).1 := by
  obtain ⟨msgs, hs⟩ := h.sends
  exact ⟨⟨msgs, hs.onFrame buf⟩, onFrame_paired h.paired buf, onFrame_later h.later buf⟩

theorem calls_held (h : Reachable calls s) : Held s := by
  refine h.invariant ?_ fun s e hs _ _ => ?_
  · rintro s ⟨sid, rfl⟩
    exact .fresh sid
  · cases e with
    | send channelId data reliable now => exact hs.send channelId data reliable now
    | tick now => exact hs.tick now
    | frame buf => exact hs.onFrame buf

theorem Held.shape (h : Held s) : Shape s := by
  obtain ⟨msgs, hs⟩ := h.sends
  refine ⟨h.paired.keys, h.paired.few, fun k hk => ?_, hs.window, fun i m m' => hs.consecutive,
    fun m => hs.last⟩
  rw [Std.ExtTreeMap.mem_iff_isSome_getElem?, Option.isSome_iff_exists] at hk
  obtain ⟨p, hp⟩ := hk
  exact h.later k p hp

/-- In every run the session has its shape, and an ack for a waiting message takes out this one and the
ones before it, and no others. -/
theorem calls_shape (h : Reachable calls s) : Shape s ∧
    ∀ (i : ℕ) (m : Msg), s.pending[i]? = some m → ∀ (buf : Bytes) (t : WireTunnel),
      codecReadTunnel buf = some t → t.type = ttAck → t.ack = m.seq →
        (s.onFrame buf).1.pending = s.pending.drop (i + 1) := by
  have hheld := calls_held h
  refine ⟨hheld.shape, fun i m hm buf t hread hack hseq => ?_⟩
  obtain ⟨msgs, hs⟩ := hheld.sends
  have hdata : ttAck ≠ ttData := by decide
  rw [Session.onFrame, hread]
  dsimp only
  rw [hack, if_neg hdata, if_pos rfl, hseq]
  exact hs.handleAck_drop hm

def threeSent : List Call := [.send 0 [1] true 5, .send 0 [2] true 6, .send 0 [3] true 7]

theorem calls_shape_three : Shape (threeSent.foldl call { sessionId := 7 }) ∧
    ((threeSent.foldl call { sessionId := 7 }).onFrame (buildFrame ttAck 7 0 0 0 1 [])).1.pending =
      (threeSent.foldl call { sessionId := 7 }).pending.drop 2 := by
  have hrun : Run calls (fun _ _ => True) { sessionId := 7 } threeSent :=
    ⟨trivial, trivial, trivial, trivial, trivial, trivial, trivial⟩
  have hfresh : Reachable calls { sessionId := 7 } := .start ⟨7, rfl⟩
  have hreach : Reachable calls (threeSent.foldl call { sessionId := 7 }) := hfresh.run hrun
  have hack := codecReadTunnel_buildFrame ttAck 7 0 0 0 1 [] (by decide)
  obtain ⟨hshape, hdrop⟩ := calls_shape hreach
  exact ⟨hshape, hdrop 1 ⟨1, 0, tfReliable, buildFrame ttData 7 0 tfReliable 1 0 [2], 6⟩ rfl _ _ hack rfl rfl⟩

end P2PServer.Session
