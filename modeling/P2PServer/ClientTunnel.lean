import P2PServer.ClientAuthRetry
import P2PServer.ClientSessions

/-! Tunnel frames that arrive. `decrypt_tunnel_frame` refuses a frame that is not encrypted or
does not authenticate, but `on_tunnel_frame` then hands the frame as it came to the session. -/
namespace P2PServer.P2PClient
open ByteStrings ProtoDef Net Codec Crypto Effects Transitions

/-- The calls of `on_message` that the outputs of a session make. -/
def calls (s : P2PClient) (peer : Bytes) (outs : List Session.Out) : List (Bytes × UInt8 × Bytes) :=
  if s.callbacks.onMessage then (Session.onData outs).map fun d => (peer, d.1, d.2) else []

theorem sessionOut_spec (env : Env) (peer : Bytes) (o : Session.Out) (s : P2PClient) :
    (sessionOut env peer o s).1.sessions = s.sessions ∧
      (sessionOut env peer o s).1.callbacks = s.callbacks ∧
      messages (sessionOut env peer o s).2 = calls s peer [o] := by
  have hquiet {frame : Bytes} : calls s peer [.tx frame] = [] := by
    unfold calls
    split <;> rfl
  cases o with
  | tx frame =>
    rw [hquiet, sessionOut]
    dsimp only
    split
    · rename_i c hc
      have h := sendTunnelVia_sends (s := s) env c frame
      exact ⟨h.sessions, h.callbacks, h.silent⟩
    · exact ⟨rfl, rfl, rfl⟩
  | deliver ch payload =>
    refine ⟨rfl, rfl, ?_⟩
    cases hm : s.callbacks.onMessage <;> cases payload <;>
      simp [sessionOut, calls, messages, Session.onData, Session.delivered, hm]

theorem calls_append (s : P2PClient) (peer : Bytes) (a b : List Session.Out) :
    calls s peer (a ++ b) = calls s peer a ++ calls s peer b := by
  unfold calls
  split
  · simp [Session.onData, Session.delivered]
  · rfl

theorem forEach_sessionOut (env : Env) (peer : Bytes) (outs : List Session.Out) (s : P2PClient) :
    (forEach (sessionOut env peer) outs s).1.sessions = s.sessions ∧
      messages (forEach (sessionOut env peer) outs s).2 = calls s peer outs := by
  induction outs generalizing s with
  | nil =>
    refine ⟨rfl, ?_⟩
    unfold calls
    split <;> rfl
  | cons o outs ih =>
    obtain ⟨hs, hc, hm⟩ := sessionOut_spec env peer o s
    obtain ⟨hs', hm'⟩ := ih (sessionOut env peer o s).1
    refine ⟨hs'.trans hs, ?_⟩
    simp only [forEach, andThen, messages_append]
    have hcalls : calls (sessionOut env peer o s).1 peer outs = calls s peer outs := by
      rw [calls, hc, ← calls]
    rw [hm, hm', hcalls, ← calls_append]
    rfl

/-- An operation of the session stores the new session and reports what it delivers. -/
theorem withSession_spec (env : Env) (peer : Bytes) (f : Session → Session × List Session.Out)
    (s : P2PClient) :
    (withSession env peer f s).1.sessions[peer]? = some (f (sessionFor peer s).1).1 ∧
      messages (withSession env peer f s).2 = calls s peer (f (sessionFor peer s).1).2 := by
  have hcb : (sessionFor peer s).2.callbacks = s.callbacks := by
    unfold sessionFor
    split <;> rfl
  obtain ⟨hs, hm⟩ := forEach_sessionOut env peer (f (sessionFor peer s).1).2
    { (sessionFor peer s).2 with
      sessions := (sessionFor peer s).2.sessions.insert peer (f (sessionFor peer s).1).1 }
  refine ⟨?_, ?_⟩
  · rw [withSession, hs]
    simp
  · rw [withSession, hm, calls, hcb, ← calls]

theorem sessionFor_sends {s r : P2PClient} (h : Sends s (r, [])) (peer : Bytes) :
    (sessionFor peer r).1 = (sessionFor peer s).1 := by
  have hs : r.sessions = s.sessions := h.sessions
  have hn : r.nextSessionId = s.nextSessionId := h.nextSessionId
  unfold sessionFor
  rw [hs, hn]
  split <;> rfl

/-- The session handles the frame that was decrypted, or else the frame as it came. -/
theorem onTunnelFrame_spec (env : Env) (peer : Bytes) (m : Memory) (len : ℕ) {s : P2PClient}
    (henc : s.tunnel.tunnelEnc = true) :
    let f := (decryptTunnelFrame peer m len s).1.getD (m.read 0 len)
    (onTunnelFrame env peer m len s).1.sessions[peer]? =
        some ((sessionFor peer s).1.onFrame f).1 ∧
      messages (onTunnelFrame env peer m len s).2 =
        calls s peer ((sessionFor peer s).1.onFrame f).2 := by
  intro f
  have hsend := decryptTunnelFrame_sends (s := s) peer m len
  have hfor := sessionFor_sends hsend peer
  have hcb : (decryptTunnelFrame peer m len s).2.callbacks = s.callbacks := hsend.callbacks
  obtain ⟨hs, hm⟩ := withSession_spec env peer (fun x => x.onFrame f) (decryptTunnelFrame peer m len s).2
  rw [hfor] at hs hm
  rw [calls, hcb, ← calls] at hm
  unfold onTunnelFrame
  rw [if_pos henc]
  exact ⟨hs, hm⟩

theorem length_of_codecReadTunnel {b : Bytes} {t : WireTunnel} (h : codecReadTunnel b = some t) :
    14 ≤ b.length := by
  unfold codecReadTunnel at h
  split at h
  · simp
  · cases h

/-- The frame at the start of the memory, as far as its length field says. -/
def frameAt (m : Memory) : WireTunnel where
  type := m 3
  sessionId := rd16 (m 4) (m 5)
  channelId := m 6
  flags := m 7
  seq := rd16 (m 8) (m 9)
  ack := rd16 (m 10) (m 11)
  payload := m.read 14 (rd16 (m 12) (m 13)).toNat
  len := rd16 (m 12) (m 13)

/-- The frame `t` stands at the start of the memory. -/
structure Holds (m : Memory) (t : WireTunnel) : Prop where
  high : m 0 = UInt8.ofNat (tunnelMagic.toNat / 256)
  low : m 1 = tunnelMagic.toUInt8
  version : m 2 = tunnelVer
  frame : frameAt m = t

theorem codecReadTunnel_read {m : Memory} {len : ℕ} (hlen : 14 ≤ len) {t : WireTunnel} :
    codecReadTunnel (m.read 0 len) = some t ↔ Holds m t ∧ 14 + t.len.toNat ≤ len := by
  obtain ⟨n, rfl⟩ := Nat.exists_eq_add_of_le hlen
  have hhead : m.read 0 14 = [m 0, m 1, m 2, m 3, m 4, m 5, m 6, m 7, m 8, m 9, m 10, m 11, m 12,
    m 13] := rfl
  rw [Memory.read_add, hhead]
  simp only [List.cons_append, List.nil_append, codecReadTunnel, Memory.read_length]
  by_cases hmagic : m 0 ≠ UInt8.ofNat (tunnelMagic.toNat / 256) ∨ m 1 ≠ tunnelMagic.toUInt8
  · rw [if_pos hmagic]
    exact ⟨fun h => absurd h (Option.some_ne_none t).symm, fun h => absurd hmagic (by simp [h.1.high, h.1.low])⟩
  by_cases hver : m 2 ≠ tunnelVer
  · rw [if_neg hmagic, if_pos hver]
    exact ⟨fun h => absurd h (Option.some_ne_none t).symm, fun h => absurd h.1.version hver⟩
  rw [if_neg hmagic, if_neg hver]
  by_cases hfit : (rd16 (m 12) (m 13)).toNat > n
  · rw [if_pos hfit]
    refine ⟨fun h => absurd h (Option.some_ne_none t).symm, fun h => ?_⟩
    have hsize : (rd16 (m 12) (m 13)).toNat = t.len.toNat := congrArg (·.len.toNat) h.1.frame
    omega
  · have htake : (m.read (0 + 14) n).take (rd16 (m 12) (m 13)).toNat = m.read 14 (rd16 (m 12) (m 13)).toNat :=
      Memory.window_read m (i := 14) (k := 0) (by omega)
    rw [if_neg hfit, htake, Option.some.injEq]
    rw [not_or, not_not, not_not] at hmagic
    constructor
    · rintro rfl
      exact ⟨⟨hmagic.1, hmagic.2, not_not.mp hver, rfl⟩, by dsimp only; omega⟩
    · exact fun h => h.1.frame

theorem holds_of_codecReadTunnel {m : Memory} {len : ℕ} {t : WireTunnel}
    (h : codecReadTunnel (m.read 0 len) = some t) : 14 ≤ len ∧ Holds m t := by
  have hlen := length_of_codecReadTunnel h
  rw [Memory.read_length] at hlen
  exact ⟨hlen, ((codecReadTunnel_read hlen).mp h).1⟩

def nonceOf (t : WireTunnel) : Bytes := window t.payload 0 12

def cipherOf (t : WireTunnel) : Bytes := window t.payload 12 (t.len.toNat - 28)

def tagOf (t : WireTunnel) : Bytes := window t.payload (12 + (t.len.toNat - 28)) 16

/-- The frame carries the tag of its nonce and ciphertext under the key. -/
def Authentic (key : Bytes) (t : WireTunnel) : Prop :=
  t.flags &&& tfEnc ≠ 0 ∧ 28 ≤ t.len.toNat ∧ aeadTag key (nonceOf t) (cipherOf t) = tagOf t

/-- The frame with the decryption of its ciphertext for a payload. -/
def opened (key : Bytes) (t : WireTunnel) : WireTunnel :=
  { t with
    flags := t.flags &&& ~~~tfEnc
    payload := aes256CtrXor key (nonceOf t) (cipherOf t)
    len := UInt16.ofNat (t.len.toNat - 28) }

/-- The bytes of the opened frame, made from those of the frame in memory. -/
def openedBytes (m : Memory) (key : Bytes) (t : WireTunnel) : Bytes :=
  let plain := aes256CtrXor key (nonceOf t) (cipherOf t)
  ((m.read 0 14).set 7 (m 7 &&& ~~~tfEnc)).take 12 ++ be16 (UInt16.ofNat plain.length) ++ plain

/-- The frame is authentic, comes from another uuid, and its plaintext fits the buffer. -/
def Opens (s : P2PClient) (peer : Bytes) (t : WireTunnel) : Prop :=
  Authentic (pairKey s.cfg.secret s.cfg.uuid peer) t ∧ t.len.toNat ≤ maxPkt + 14 ∧
    peer ≠ [] ∧ peer ≠ s.cfg.uuid

theorem getTunnelKey_pairKey {s : P2PClient} (hkeys : KeysDerived s) (hsecret : s.cfg.secret ≠ [])
    (peer : Bytes) :
    (getTunnelKey peer s).1 = if peer ≠ [] ∧ peer ≠ s.cfg.uuid then
      some (pairKey s.cfg.secret s.cfg.uuid peer) else none := by
  unfold getTunnelKey
  by_cases hp : peer = []
  · simp [hp]
  · by_cases hu : peer = s.cfg.uuid
    · simp [hu]
    · simp only [hsecret, hp, hu, List.isEmpty_iff, Bool.or_eq_true, decide_eq_true_eq, or_self,
        if_false, ne_eq, not_false_eq_true, and_self, if_true]
      split
      · rename_i key hk
        rw [hkeys peer key hk]
      · rfl

theorem p2pAeadDecrypt_eq {key nonce input tag : Bytes} (hlen : input.length ≤ 4096) :
    p2pAeadDecrypt key nonce input input.length tag =
      if aeadTag key nonce input = tag.take 16 then some (aes256CtrXor key nonce input) else none := by
  unfold p2pAeadDecrypt
  rw [if_neg (lt_irrefl _), if_neg (not_lt.mpr hlen)]
  simp only [ne_eq, ite_not]

section
variable {m : Memory} {len : ℕ} {t : WireTunnel}

/-- The parts of an encrypted frame, where `decrypt_tunnel_frame` reads them. -/
theorem Holds.parts (h : Holds m t) (hlen : 28 ≤ t.len.toNat) :
    m.read 14 12 = nonceOf t ∧ m.read 26 (t.len.toNat - 12 - 16) = cipherOf t ∧
      m.read (26 + (t.len.toNat - 12 - 16)) 16 = tagOf t := by
  obtain rfl := h.frame
  unfold nonceOf cipherOf tagOf
  have hpay : (frameAt m).payload = m.read 14 (frameAt m).len.toNat := rfl
  rw [hpay, Memory.window_read m (by omega), Memory.window_read m (by omega), Memory.window_read m (by omega)]
  refine ⟨rfl, ?_, ?_⟩
  · congr 1
  · congr 1
    omega

theorem Holds.opened_length (h : Holds m t) (hlen : 28 ≤ t.len.toNat) (key : Bytes) :
    (aes256CtrXor key (nonceOf t) (cipherOf t)).length = t.len.toNat - 28 := by
  rw [aes256CtrXor_length, ← (h.parts hlen).2.1, Memory.read_length]
  omega

theorem Holds.opened (h : Holds m t) (hlen : 28 ≤ t.len.toNat) (key : Bytes) :
    codecReadTunnel (openedBytes m key t) = some (opened key t) := by
  have hplain := h.opened_length hlen key
  have hsmall := t.len.toNat_lt
  have hnat : (UInt16.ofNat (t.len.toNat - 28)).toNat = t.len.toNat - 28 := by
    rw [UInt16.toNat_ofNat']
    omega
  have hhead : ((m.read 0 14).set 7 (m 7 &&& ~~~tfEnc)).take 12 = [m 0, m 1, m 2, m 3, m 4, m 5, m 6,
    m 7 &&& ~~~tfEnc, m 8, m 9, m 10, m 11] := rfl
  rw [openedBytes, hplain, hhead, h.high, h.low, h.version]
  simp only [be16, List.cons_append, List.nil_append, codecReadTunnel, ne_eq, not_true_eq_false,
    or_self, if_false, rd16_be16]
  rw [hnat, hplain, if_neg (lt_irrefl _), List.take_of_length_le hplain.le]
  obtain rfl := h.frame
  rfl

/-- What `decrypt_tunnel_frame` makes of a frame. How much of it has come does not matter. -/
theorem Holds.decrypt (h : Holds m t) (hlen : 14 ≤ len) {s : P2PClient} (hkeys : KeysDerived s)
    (hsecret : s.cfg.secret ≠ []) (peer : Bytes) :
    (¬Opens s peer t → (decryptTunnelFrame peer m len s).1 = none) ∧
      (Opens s peer t → (decryptTunnelFrame peer m len s).1 =
        some (openedBytes m (pairKey s.cfg.secret s.cfg.uuid peer) t)) := by
  have hkey := getTunnelKey_pairKey hkeys hsecret peer
  have hflags : m 7 = t.flags := congrArg (·.flags) h.frame
  have hsize : rd16 (m 12) (m 13) = t.len := congrArg (·.len) h.frame
  unfold decryptTunnelFrame
  by_cases he : t.flags &&& tfEnc = 0
  · rw [hflags, if_pos (.inr he)]
    exact ⟨fun _ => rfl, fun ho => absurd he ho.1.1⟩
  have hok : ¬(len < 14 ∨ m 7 &&& tfEnc = 0) := by
    rw [hflags]
    rintro (hc | hc)
    · omega
    · exact he hc
  rw [if_neg hok]
  dsimp only
  rw [hsize]
  by_cases hl : 28 ≤ t.len.toNat ∧ t.len.toNat ≤ maxPkt + 14
  · rw [if_neg (by omega)]
    generalize getTunnelKey peer s = k at hkey ⊢
    obtain ⟨found, s'⟩ := k
    dsimp only at hkey
    subst hkey
    obtain ⟨hn, hc, hg⟩ := h.parts hl.1
    have hcl : t.len.toNat - 12 - 16 = (cipherOf t).length := by
      rw [← hc, Memory.read_length]
    have hmax : (cipherOf t).length ≤ 4096 := by
      have hm : maxPkt = 2048 := rfl
      omega
    have htag : (tagOf t).take 16 = tagOf t := by
      rw [List.take_of_length_le]
      rw [← hg, Memory.read_length]
    rw [hn, hc, hg]
    by_cases hp : peer ≠ [] ∧ peer ≠ s.cfg.uuid
    · rw [if_pos hp]
      dsimp only
      rw [hcl, p2pAeadDecrypt_eq hmax, htag]
      by_cases ha : aeadTag (pairKey s.cfg.secret s.cfg.uuid peer) (nonceOf t) (cipherOf t) = tagOf t
      · rw [if_pos ha]
        exact ⟨fun ho => absurd ⟨⟨he, hl.1, ha⟩, hl.2, hp⟩ ho, fun _ => rfl⟩
      · rw [if_neg ha]
        exact ⟨fun _ => rfl, fun ho => absurd ho.1.2.2 ha⟩
    · rw [if_neg hp]
      exact ⟨fun _ => rfl, fun ho => absurd ho.2.2 hp⟩
  · rw [if_pos (by omega)]
    exact ⟨fun _ => rfl, fun ho => absurd ⟨ho.1.2.1, ho.2.1⟩ hl⟩

end

theorem drainLoop_txBytes (fuel : ℕ) (x : Session) : (x.drainLoop fuel).1.txBytes = x.txBytes := by
  induction fuel generalizing x with
  | zero => rfl
  | succ fuel ih =>
    unfold Session.drainLoop
    split
    · rfl
    · split
      · exact ih _
      · rfl

theorem handleData_txBytes (x : Session) (t : WireTunnel) :
    (x.handleData t).1.txBytes = x.txBytes + t.len.toUInt64 := by
  unfold Session.handleData
  dsimp only
  split
  · split
    · exact drainLoop_txBytes _ _
    · split <;> rfl
  · rfl

theorem handleData_ne {x : Session} {t t' : WireTunnel} (h : t.len ≠ t'.len) :
    (x.handleData t).1 ≠ (x.handleData t').1 := by
  intro hc
  have htx := congrArg Session.txBytes hc
  rw [handleData_txBytes, handleData_txBytes, UInt64.add_right_inj] at htx
  exact h (UInt16.toUInt64_inj.mp htx)

/-- The loop that empties the buffer changes nothing, or takes something out. -/
theorem drainLoop_shrinks (fuel : ℕ) (x : Session) :
    (x.drainLoop fuel).1 = x ∨ (x.drainLoop fuel).1.ooo.size < x.ooo.size := by
  induction fuel generalizing x with
  | zero => exact .inl rfl
  | succ fuel ih =>
    unfold Session.drainLoop
    split
    · exact .inl rfl
    · rename_i seq payload hhead
      have hmem : seq ∈ x.ooo := by
        rw [Std.ExtTreeMap.mem_iff_isSome_getElem?, TreeMaps.head_toList_get hhead]
        rfl
      have hsize : (x.drainStep seq payload).1.ooo.size < x.ooo.size := by
        change (x.ooo.erase seq).size < _
        have hpos : x.ooo.size ≠ 0 := by
          rw [ne_eq, ← Std.ExtTreeMap.eq_empty_iff_size_eq_zero]
          intro he
          rw [he] at hmem
          exact Std.ExtTreeMap.not_mem_empty hmem
        rw [Std.ExtTreeMap.size_erase, if_pos (Std.ExtTreeMap.contains_iff_mem.mpr hmem)]
        omega
      split
      · refine .inr ?_
        rcases ih (x.drainStep seq payload).1 with h | h
        · dsimp only
          rwa [h]
        · exact h.trans hsize
      · exact .inl rfl

/-- The data frame counts nothing, and is no news to the window. -/
structure Unmoved (x : Session) (t : WireTunnel) : Prop where
  empty : t.len = 0
  known : t.flags &&& tfReliable ≠ 0 → t.seq ≠ x.expectedSeq ∧ (x.expectedSeq < t.seq → x.ooo.size < 64 →
    x.ooo[t.seq]? = some [] ∧ x.slotChannel[t.seq]? = some t.channelId)

theorem handleData_unmoved_iff {x : Session} {t : WireTunnel} (hlen : t.payload.length = t.len.toNat) :
    (x.handleData t).1 = x ↔ Unmoved x t := by
  have hempty (h : t.len = 0) : t.payload = [] ∧ { x with txBytes := x.txBytes + t.len.toUInt64 } = x := by
    rw [h] at hlen ⊢
    exact ⟨List.length_eq_zero_iff.mp hlen, by simp⟩
  have hunmoved (h : (x.handleData t).1 = x) : t.len = 0 := by
    have htx := congrArg Session.txBytes h
    rw [handleData_txBytes, UInt64.add_eq_left] at htx
    exact UInt16.toUInt64_inj.mp htx
  by_cases hz : t.len = 0
  · obtain ⟨hpay, hsame⟩ := hempty hz
    have hdeliver : x.deliver [] t.channelId = (x, [.deliver t.channelId []]) := by
      simp [Session.deliver]
    have hcases : (x.handleData t).1 = if t.flags &&& tfReliable ≠ 0 then
        if t.seq = x.expectedSeq then (Session.drain { x with expectedSeq := x.expectedSeq + 1 }).1
        else if t.seq > x.expectedSeq ∧ x.ooo.size < 64 then
          { x with ooo := x.ooo.insert t.seq [], slotChannel := x.slotChannel.insert t.seq t.channelId }
        else x
      else x := by
      unfold Session.handleData
      rw [hsame, hpay]
      dsimp only
      rw [hdeliver]
      dsimp only
      split
      · split
        · rfl
        · split <;> rfl
      · rfl
    rw [hcases]
    split
    · rename_i hrel
      split
      · rename_i hseq
        refine ⟨fun h => absurd h ?_, fun h => absurd hseq (h.known hrel).1⟩
        rcases drainLoop_shrinks x.ooo.size { x with expectedSeq := x.expectedSeq + 1 } with h | h
        · intro hsame
          have he := congrArg Session.expectedSeq (h.symm.trans hsame)
          simp at he
        · intro hsame
          have hooo := congrArg (fun y : Session => y.ooo.size) hsame
          exact absurd hooo h.ne
      · rename_i hseq
        split
        · rename_i hroom
          constructor
          · intro h
            refine ⟨hz, fun _ => ⟨hseq, fun _ _ => ⟨?_, ?_⟩⟩⟩
            · exact (TreeMaps.insert_eq_self ..).mp (congrArg Session.ooo h)
            · exact (TreeMaps.insert_eq_self ..).mp (congrArg Session.slotChannel h)
          · intro h
            obtain ⟨hooo, hslot⟩ := (h.known hrel).2 hroom.1 hroom.2
            rw [(TreeMaps.insert_eq_self ..).mpr hooo, (TreeMaps.insert_eq_self ..).mpr hslot]
        · rename_i hroom
          exact ⟨fun _ => ⟨hz, fun _ => ⟨hseq, fun h1 h2 => absurd ⟨h1, h2⟩ hroom⟩⟩, fun _ => rfl⟩
    · rename_i hrel
      exact ⟨fun _ => ⟨hz, fun h => absurd h hrel⟩, fun _ => rfl⟩
  · exact ⟨fun h => absurd (hunmoved h) hz, fun h => absurd h.empty hz⟩

theorem Unmoved.silent {x : Session} {t : WireTunnel} (h : Unmoved x t) (hlen : t.payload.length = t.len.toNat) :
    Session.onData (x.handleData t).2 = [] := by
  have hpay : t.payload = [] := by
    rw [h.empty] at hlen
    exact List.length_eq_zero_iff.mp hlen
  unfold Session.handleData
  dsimp only
  split
  · rename_i hrel
    rw [if_neg (h.known hrel).1]
    split <;> rfl
  · rw [hpay]
    rfl

/-- Of a frame that opens nothing is left, and it is no news to the window. -/
structure Harmless (x : Session) (t : WireTunnel) : Prop where
  empty : t.len = 28
  known : t.flags &&& tfReliable ≠ 0 → t.seq ≠ x.expectedSeq ∧ (x.expectedSeq < t.seq → x.ooo.size < 64 →
    x.ooo[t.seq]? = some [] ∧ x.slotChannel[t.seq]? = some t.channelId)

theorem unmoved_opened_iff {x : Session} {t : WireTunnel} (hlen : 28 ≤ t.len.toNat) (key : Bytes) :
    Unmoved x (opened key t) ↔ Harmless x t := by
  have hflags : (opened key t).flags &&& tfReliable = t.flags &&& tfReliable := by
    have hkeep : ~~~tfEnc &&& tfReliable = tfReliable := by decide
    rw [opened, UInt8.and_assoc, hkeep]
  have hempty : (opened key t).len = 0 ↔ t.len = 28 := by
    have h28 : (28 : UInt16).toNat = 28 := rfl
    have hsmall := t.len.toNat_lt
    rw [← UInt16.toNat_inj, ← UInt16.toNat_inj, opened, UInt16.toNat_ofNat', h28]
    change (t.len.toNat - 28) % 65536 = 0 ↔ _
    omega
  constructor
  · exact fun h => ⟨hempty.mp h.empty, fun hr => h.known (hflags.symm ▸ hr)⟩
  · exact fun h => ⟨hempty.mpr h.empty, fun hr => h.known (hflags ▸ hr)⟩

/-- A data frame with a payload, of which the head has come. -/
structure IsData (m : Memory) (len : ℕ) : Prop where
  head : 14 ≤ len
  holds : Holds m (frameAt m)
  type : (frameAt m).type = ttData
  payload : (frameAt m).len ≠ 0

/-- All of the frame has come, and it is authentic. -/
def Genuine (key : Bytes) (m : Memory) (len : ℕ) : Prop :=
  14 + (frameAt m).len.toNat ≤ len ∧ Authentic key (frameAt m)

/-- A genuine frame reaches the session with its payload decrypted. Any other frame changes
neither the session nor the application. -/
structure Protected (env : Env) (peer : Bytes) (m : Memory) (len : ℕ) (s : P2PClient) : Prop where
  decrypted : Genuine (pairKey s.cfg.secret s.cfg.uuid peer) m len →
    let r := (sessionFor peer s).1.handleData (opened (pairKey s.cfg.secret s.cfg.uuid peer) (frameAt m))
    (onTunnelFrame env peer m len s).1.sessions[peer]? = some r.1 ∧
      messages (onTunnelFrame env peer m len s).2 = calls s peer r.2
  untouched : ¬Genuine (pairKey s.cfg.secret s.cfg.uuid peer) m len →
    (sessionFor peer (onTunnelFrame env peer m len s).1).1 = (sessionFor peer s).1 ∧
      messages (onTunnelFrame env peer m len s).2 = []

theorem onFrame_data {b : Bytes} {t : WireTunnel} (h : codecReadTunnel b = some t)
    (hdata : t.type = ttData) (x : Session) : x.onFrame b = x.handleData t := by
  unfold Session.onFrame
  rw [h]
  exact if_pos hdata

theorem sessionFor_stored {s : P2PClient} {peer : Bytes} {x : Session} (h : s.sessions[peer]? = some x) :
    (sessionFor peer s).1 = x := by
  unfold sessionFor
  rw [h]

/-- In every client with a secret, whatever its sessions hold, and whatever stands behind the bytes that have
come: a data frame of which all has come is protected exactly if it authenticates under the key of the pair,
comes from another uuid, and its plaintext fits the buffer. One that is cut short is protected exactly if it
does not do so with what stands behind it, or is harmless. -/
theorem protected_iff {s₀ s : P2PClient} (hreach : Reachable client s₀) (hcfg : s.cfg = s₀.cfg)
    (htunnel : s.tunnel = s₀.tunnel) (hsecret : s.cfg.secret ≠ []) (henc : s.tunnel.tunnelEnc = true)
    (env : Env) (peer : Bytes) {m : Memory} {len : ℕ} (h : IsData m len) :
    Protected env peer m len s ↔
      if 14 + (frameAt m).len.toNat ≤ len then Opens s peer (frameAt m)
      else Opens s peer (frameAt m) → Harmless (sessionFor peer s).1 (frameAt m) := by
  have hkeys : KeysDerived s := by
    have hk := keysDerived_reachable hreach
    unfold KeysDerived at hk ⊢
    rwa [hcfg, htunnel]
  obtain ⟨hs, hm⟩ := onTunnelFrame_spec env peer m len henc
  obtain ⟨hclosed, hopen⟩ := h.holds.decrypt h.head hkeys hsecret peer
  have hopened (ho : Opens s peer (frameAt m)) (x : Session) :
      x.onFrame ((decryptTunnelFrame peer m len s).1.getD (m.read 0 len)) =
        x.handleData (opened (pairKey s.cfg.secret s.cfg.uuid peer) (frameAt m)) := by
    rw [hopen ho, Option.getD_some]
    exact onFrame_data (h.holds.opened ho.1.2.1 _) h.type x
  by_cases hfit : 14 + (frameAt m).len.toNat ≤ len
  · rw [if_pos hfit]
    constructor
    · intro hp
      by_contra hno
      have hread : codecReadTunnel (m.read 0 len) = some (frameAt m) :=
        (codecReadTunnel_read h.head).mpr ⟨h.holds, hfit⟩
      rw [hclosed hno, Option.getD_none, onFrame_data hread h.type] at hs
      by_cases ha : Authentic (pairKey s.cfg.secret s.cfg.uuid peer) (frameAt m)
      · have hsame := hs.symm.trans (hp.decrypted ⟨hfit, ha⟩).1
        refine handleData_ne ?_ (Option.some.inj hsame)
        intro hl
        have hn := congrArg UInt16.toNat hl
        have hmin := ha.2.1
        rw [opened, UInt16.toNat_ofNat'] at hn
        omega
      · have hsame := (hp.untouched fun hg => ha hg.2).1
        rw [sessionFor_stored hs] at hsame
        have hlen : (frameAt m).payload.length = (frameAt m).len.toNat := Memory.read_length ..
        exact h.payload ((handleData_unmoved_iff hlen).mp hsame).empty
    · intro ho
      rw [hopened ho] at hs hm
      exact ⟨fun _ => ⟨hs, hm⟩, fun hn => absurd ⟨hfit, ho.1⟩ hn⟩
  · rw [if_neg hfit]
    have hfalse : ¬Genuine (pairKey s.cfg.secret s.cfg.uuid peer) m len := fun hg => hfit hg.1
    have hlength (ho : Opens s peer (frameAt m)) :
        (opened (pairKey s.cfg.secret s.cfg.uuid peer) (frameAt m)).payload.length =
          (opened (pairKey s.cfg.secret s.cfg.uuid peer) (frameAt m)).len.toNat := by
      have hsmall := (frameAt m).len.toNat_lt
      rw [opened, h.holds.opened_length ho.1.2.1, UInt16.toNat_ofNat']
      omega
    constructor
    · intro hp ho
      have hsame := (hp.untouched hfalse).1
      rw [hopened ho] at hs
      rw [sessionFor_stored hs, handleData_unmoved_iff (hlength ho)] at hsame
      exact (unmoved_opened_iff ho.1.2.1 _).mp hsame
    · intro hharmless
      refine ⟨fun hg => absurd hg hfalse, fun _ => ?_⟩
      rw [sessionFor_stored hs, hm]
      by_cases ho : Opens s peer (frameAt m)
      · have hunmoved := (unmoved_opened_iff ho.1.2.1 (pairKey s.cfg.secret s.cfg.uuid peer)).mpr (hharmless ho)
        rw [hopened ho, calls, hunmoved.silent (hlength ho)]
        exact ⟨(handleData_unmoved_iff (hlength ho)).mpr hunmoved, by split <;> rfl⟩
      · have hread : codecReadTunnel (m.read 0 len) = none := by
          rw [Option.eq_none_iff_forall_ne_some]
          intro t ht
          obtain ⟨hholds, hall⟩ := (codecReadTunnel_read h.head).mp ht
          exact hfit (hholds.frame ▸ hall)
        rw [hclosed ho, Option.getD_none, Session.onFrame, hread, calls]
        exact ⟨rfl, by split <;> rfl⟩

def tunnelClient : P2PClient := client.next quietClient ({}, .start quietClient.cfg)

theorem tunnelClient_reachable : Reachable client tunnelClient :=
  Reach.step (S := client) (e := ({}, .start quietClient.cfg)) (.start quietClient_init) trivial trivial

open Samples (uuidV)

def sealedByte (key : Bytes) : Bytes :=
  List.replicate 12 0 ++ [0x41] ++ aeadTag key (List.replicate 12 0) [0x41]

def sealedFrame (key : Bytes) : WireTunnel := ⟨ttData, 1, 0, tfEnc, 0, 0, sealedByte key, 29⟩

def sealedMemory (key : Bytes) : Memory :=
  .ofBytes (tunnelHeader ttData 1 0 tfEnc 0 0 29 ++ sealedByte key) fun _ => 0

theorem sealedByte_length (key : Bytes) : (sealedByte key).length = 29 := by
  rw [sealedByte, List.length_append, aeadTag_length]
  rfl

theorem codecReadTunnel_sealed (key : Bytes) :
    codecReadTunnel ((sealedMemory key).read 0 43) = some (sealedFrame key) := by
  have hlen := sealedByte_length key
  have hbytes : (sealedMemory key).read 0 43 =
      tunnelHeader ttData 1 0 tfEnc 0 0 29 ++ sealedByte key := by
    have h43 : (tunnelHeader ttData 1 0 tfEnc 0 0 29 ++ sealedByte key).length = 43 := by
      rw [List.length_append, tunnelHeader_length, hlen]
    rw [← h43]
    exact Memory.read_ofBytes _ _
  rw [hbytes, codecReadTunnel_header _ _ _ _ _ _ _ _ (by rw [hlen]; decide), List.take_of_length_le]
  · rfl
  · rw [hlen]
    decide

theorem sealed_authentic (key : Bytes) : Authentic key (sealedFrame key) := by
  have hn : nonceOf (sealedFrame key) = List.replicate 12 0 := by
    simp [nonceOf, sealedFrame, sealedByte, window]
  have hc : cipherOf (sealedFrame key) = [0x41] := by
    simp [cipherOf, sealedFrame, sealedByte, window]
  have hg : tagOf (sealedFrame key) = aeadTag key (List.replicate 12 0) [0x41] := by
    simp [tagOf, sealedFrame, sealedByte, window, aeadTag_length]
  have hflag : tfEnc &&& tfEnc ≠ 0 := by decide
  have hsize : 28 ≤ (29 : UInt16).toNat := by decide
  refine ⟨hflag, hsize, ?_⟩
  rw [hn, hc, hg]

def keyV : Bytes := pairKey tunnelClient.cfg.secret tunnelClient.cfg.uuid uuidV

theorem protected_iff_sealed :
    Opens tunnelClient uuidV (sealedFrame keyV) ∧ Protected {} uuidV (sealedMemory keyV) 43 tunnelClient := by
  have hfits : (29 : UInt16).toNat ≤ maxPkt + 14 := by decide
  have hopens : Opens tunnelClient uuidV (sealedFrame keyV) :=
    ⟨sealed_authentic keyV, hfits, by decide, by decide +kernel⟩
  obtain ⟨hholds, hfit⟩ := (codecReadTunnel_read (by decide)).mp (codecReadTunnel_sealed keyV)
  have hdata : IsData (sealedMemory keyV) 43 := by
    refine ⟨by decide, hholds.frame ▸ hholds, ?_, ?_⟩ <;> rw [hholds.frame]
    · rfl
    · exact (by decide : (29 : UInt16) ≠ 0)
  refine ⟨hopens, (protected_iff tunnelClient_reachable rfl rfl (by decide +kernel) (by decide +kernel)
    {} uuidV hdata).mpr ?_⟩
  rw [hholds.frame, if_pos hfit]
  exact hopens

def plainFrame : Memory :=
  .ofBytes (Session.buildFrame ttData 1 0 0 0 0 [0x41]) fun _ => 0

/-- A frame that was never encrypted reaches the application. -/
theorem plain_not_protected : ¬∀ s, Reachable client s → s.cfg.secret ≠ [] →
    s.tunnel.tunnelEnc = true → ∀ env peer m len, IsData m len → Protected env peer m len s := by
  intro h
  have hdata : IsData plainFrame 15 :=
    ⟨by decide, ⟨by decide +kernel, by decide +kernel, by decide +kernel, rfl⟩, by decide +kernel, by decide +kernel⟩
  have hp := h tunnelClient tunnelClient_reachable (by decide +kernel) (by decide +kernel) {} uuidV plainFrame 15 hdata
  have hplain : (frameAt plainFrame).flags &&& tfEnc = 0 := by decide +kernel
  have hun := (hp.untouched fun hg => hg.2.1 hplain).2
  revert hun
  decide +kernel

end P2PServer.P2PClient
