import P2PServer.AeadCalls
import P2PServer.Fields
import P2PServer.ClientSessions

/-! What a failed encryption leaves behind: the output arguments of `p2p_aead_encrypt` and of
`encrypt_tunnel_frame` after the call. -/
namespace P2PServer.Crypto
open ByteStrings Net

/-- A call that fails gives back the outputs as they were, whatever they held. -/
def LeavesNoTrace (key nonce input : Bytes) (outCap : ℕ) : Prop :=
  ∀ o : AeadOut, o.out.length = outCap → (p2pAeadEncrypt key nonce input outCap o).1 = false →
    (p2pAeadEncrypt key nonce input outCap o).2 = o

/-- Of the two size limits only the first one is checked before the ciphertext and its length are
written. -/
theorem leavesNoTrace_iff (key nonce input : Bytes) (outCap : ℕ) :
    LeavesNoTrace key nonce input outCap ↔ input.length > outCap ∨ input.length ≤ 4096 := by
  constructor
  · intro h
    by_contra! hc
    obtain ⟨hcap, hlen⟩ := hc
    have hfail (o : AeadOut) : p2pAeadEncrypt key nonce input outCap o =
        (false, { o with out := overwrite o.out (aes256CtrXor key nonce input)
                         outLen := input.length }) := by
      rw [p2pAeadEncrypt, if_neg (Nat.not_lt.mpr hcap)]
      exact if_pos hlen
    -- the length that was stored before the call is lost
    have hback := h ⟨List.replicate outCap 0, 0, List.replicate 16 0⟩ (by simp) (by rw [hfail])
    rw [hfail] at hback
    have hz : input.length = 0 := congrArg AeadOut.outLen hback
    omega
  · rintro (hcap | hlen) o - hfalse
    · rw [p2pAeadEncrypt, if_pos hcap]
    · by_cases hcap : input.length ≤ outCap
      · rw [p2pAeadEncrypt_fits hcap hlen] at hfalse
        cases hfalse
      · rw [p2pAeadEncrypt, if_pos (Nat.lt_of_not_le hcap)]

/-- A byte more than the MAC buffer takes: the call fails with the ciphertext already written. -/
theorem failure_traced : ¬∀ (key nonce input : Bytes) (outCap : ℕ),
    LeavesNoTrace key nonce input outCap := by
  intro h
  have := (leavesNoTrace_iff _ _ _ _).mp (h keyK nonceN (List.replicate 4097 0) 4097)
  rw [List.length_replicate] at this
  omega

end P2PServer.Crypto

namespace P2PServer.P2PClient
open ByteStrings ProtoDef Net Crypto

structure SealOut where
  out : Memory
  outlen : ℕ

/-- `encrypt_tunnel_frame` with the buffers it reads and writes; true is the return value true. -/
def encryptTunnelFrameCall (env : Env) (peer : Bytes) (inp : Memory) (inlen : ℕ) (o : SealOut)
    (s : P2PClient) : Bool × SealOut × P2PClient :=
  if inlen < 14 then (false, o, s)
  else
    let plen := (rd16 (inp 12) (inp 13)).toNat
    if plen = 0 ∨ 14 + 12 + plen + 16 > maxPkt then (false, o, s)
    else
      match getTunnelKey peer s with
      | (none, s) => (false, o, s)
      | (some key, s) =>
        let nonce := env.nonce s.tunnel.tunnelEncTx.toNat
        let out := (o.out.write 0 (inp.read 0 14)).write 14 (nonce.take 12)
        let r := p2pAeadEncrypt key nonce (inp.read 14 plen) plen
          ⟨out.read 26 plen, 0, List.replicate 16 0⟩
        let out := out.write 26 r.2.out
        if !r.1 then (false, { o with out := out }, s)
        else
          let out := out.write (26 + r.2.outLen) r.2.tag
          let out := out.write 7 [out 7 ||| tfEnc]
          let out := out.write 12 (be16 (UInt16.ofNat (12 + r.2.outLen + 16)))
          (true, ⟨out, 14 + 12 + r.2.outLen + 16⟩,
            { s with tunnel := { s.tunnel with tunnelEncTx := s.tunnel.tunnelEncTx + 1 } })

/-- The length and the counter are written at the end of a call that succeeds, and nowhere else. -/
theorem encryptTunnelFrameCall_failed (env : Env) (peer : Bytes) (inp : Memory) (inlen : ℕ)
    (o : SealOut) (s : P2PClient) (h : (encryptTunnelFrameCall env peer inp inlen o s).1 = false) :
    (encryptTunnelFrameCall env peer inp inlen o s).2.1.outlen = o.outlen ∧
      (encryptTunnelFrameCall env peer inp inlen o s).2.2.tunnel.tunnelEncTx =
        s.tunnel.tunnelEncTx := by
  obtain ⟨keys, hk⟩ := getTunnelKey_state peer s
  revert h
  unfold encryptTunnelFrameCall
  split
  · exact fun _ => ⟨rfl, rfl⟩
  dsimp only
  split
  · exact fun _ => ⟨rfl, rfl⟩
  split
  · rename_i hkey
    rw [hkey] at hk
    dsimp only at hk ⊢
    rw [hk]
    exact fun _ => ⟨rfl, rfl⟩
  · rename_i hkey
    rw [hkey] at hk
    dsimp only at hk ⊢
    split
    · rw [hk]
      exact fun _ => ⟨rfl, rfl⟩
    · exact fun h => by cases h

theorem read_write_byte (m : Memory) {i n : ℕ} (h : i < n) (b : UInt8) :
    (m.write i [b]).read 0 n = (m.read 0 n).set i b := by
  refine List.ext_getElem? fun k => ?_
  rcases Nat.lt_or_ge k n with hk | hk
  · rw [Memory.read_getElem? hk, Nat.zero_add, Memory.write]
    rcases eq_or_ne k i with rfl | hne
    · simp [hk]
    · rw [if_neg (by simp only [List.length_singleton]; omega), List.getElem?_set_ne hne.symm,
        Memory.read_getElem? hk, Nat.zero_add]
  · rw [List.getElem?_eq_none (by simpa using hk), List.getElem?_eq_none (by simpa using hk)]

theorem read_write_take (m : Memory) (i : ℕ) {data : Bytes} {n : ℕ} (h : n ≤ data.length) :
    (m.write i data).read i n = data.take n := by
  have hw := Memory.window_read (m.write i data) (i := i) (n := data.length) (k := 0) (j := n)
    (by omega)
  rw [Memory.read_write] at hw
  exact hw.symm

/-- The parts of an encrypted frame as the call stores them: the flags and the length last, over the
header it copied first. -/
theorem sealed_read (m : Memory) (head nonce cipher tag nl : Bytes) (hh : head.length = 14)
    (hn : nonce.length = 12) (ht : tag.length = 16) (hl : nl.length = 2) :
    ((((((m.write 0 head).write 14 nonce).write 26 cipher).write (26 + cipher.length) tag).write 7
      [((((m.write 0 head).write 14 nonce).write 26 cipher).write (26 + cipher.length) tag) 7 |||
        tfEnc]).write 12 nl).read 0 (26 + cipher.length + 16) =
      (head.set 7 (byteAt head 7 ||| tfEnc)).take 12 ++ nl ++ nonce ++ cipher ++ tag := by
  have h7 : ((((m.write 0 head).write 14 nonce).write 26 cipher).write (26 + cipher.length) tag) 7 =
      byteAt head 7 := by
    simp only [Memory.write, Nat.zero_add, hh, Nat.sub_zero, byteAt]
    rw [if_neg (by omega), if_neg (by omega), if_neg (by omega), if_pos (by omega)]
  rw [h7]
  generalize byteAt head 7 ||| tfEnc = b
  generalize hout : (((((m.write 0 head).write 14 nonce).write 26 cipher).write
    (26 + cipher.length) tag).write 7 [b]).write 12 nl = out
  have hhead : out.read 0 12 = (head.set 7 b).take 12 := by
    rw [← hout, Memory.read_write_apart (.inl (by omega)), read_write_byte _ (by omega),
      Memory.read_write_apart (.inl (by omega)), Memory.read_write_apart (.inl (by omega)),
      Memory.read_write_apart (.inl (by omega)), List.take_set, read_write_take m 0 (by omega)]
  have hlen : out.read 12 2 = nl := by rw [← hout, ← hl, Memory.read_write]
  have hnonce : out.read 14 12 = nonce := by
    rw [← hout, Memory.read_write_apart (.inr (by omega)),
      Memory.read_write_apart (.inr (by simp)), Memory.read_write_apart (.inl (by omega)),
      Memory.read_write_apart (.inl (by omega)), ← hn, Memory.read_write]
  have hcipher : out.read 26 cipher.length = cipher := by
    rw [← hout, Memory.read_write_apart (.inr (by omega)),
      Memory.read_write_apart (.inr (by simp)), Memory.read_write_apart (.inl (by omega)),
      Memory.read_write]
  have htag : out.read (26 + cipher.length) 16 = tag := by
    rw [← hout, Memory.read_write_apart (.inr (by omega)),
      Memory.read_write_apart (.inr (by simp only [List.length_singleton]; omega)), ← ht,
      Memory.read_write]
  have hsize : 26 + cipher.length + 16 = 12 + 2 + 12 + cipher.length + 16 := by omega
  rw [hsize, Memory.read_add, Memory.read_add, Memory.read_add, Memory.read_add]
  simp only [Nat.zero_add, Nat.reduceAdd]
  rw [hhead, hlen, hnonce, hcipher, htag]

/-- The call writes the frame that `encryptTunnelFrame` gives, for a frame that holds the payload
its header announces. -/
theorem encryptTunnelFrameCall_eq (env : Env) (hn : ∀ k, (env.nonce k).length = 12) (peer : Bytes)
    {frame : Bytes} (inp : Memory) (hin : inp.read 0 frame.length = frame)
    (hfit : 14 + (u16At frame 12).toNat ≤ frame.length) (o : SealOut) (s : P2PClient) :
    (encryptTunnelFrameCall env peer inp frame.length o s).2.2 =
        (encryptTunnelFrame env peer frame s).2 ∧
      (encryptTunnelFrame env peer frame s).1 =
        if (encryptTunnelFrameCall env peer inp frame.length o s).1 then
          some ((encryptTunnelFrameCall env peer inp frame.length o s).2.1.out.read 0
            (encryptTunnelFrameCall env peer inp frame.length o s).2.1.outlen)
        else none := by
  have hbyte (i : ℕ) (hi : i < frame.length) : inp i = byteAt frame i := by
    have := Memory.read_getElem? (m := inp) (i := 0) hi
    rw [hin, Nat.zero_add] at this
    simp [byteAt, this]
  have hu : rd16 (inp 12) (inp 13) = u16At frame 12 := by
    rw [hbyte 12 (by omega), hbyte 13 (by omega), u16At]
  have hwin (i n : ℕ) (h : i + n ≤ frame.length) : inp.read i n = window frame i n := by
    rw [← hin, Memory.window_read _ (by simpa using h), Nat.zero_add]
  unfold encryptTunnelFrameCall encryptTunnelFrame
  rw [hu]
  generalize (u16At frame 12).toNat = plen at hfit ⊢
  rw [if_neg (show ¬frame.length < 14 by omega), if_neg (show ¬frame.length < 14 by omega)]
  dsimp only
  split
  · exact ⟨rfl, rfl⟩
  rename_i hsize
  rw [maxPkt] at hsize
  generalize getTunnelKey peer s = found
  obtain ⟨key, s'⟩ := found
  cases key with
  | none => exact ⟨rfl, rfl⟩
  | some key =>
    have hplain : (window frame 14 plen).length = plen := by
      rw [← hwin 14 plen hfit, Memory.read_length]
    have hnonce : ((env.nonce s'.tunnel.tunnelEncTx.toNat).take 12).length = 12 := by
      rw [List.length_take, hn, Nat.min_self]
    dsimp only
    simp only [hwin 14 plen hfit, hwin 0 14 (by omega), p2pAeadEncrypt_fits hplain.le (by omega),
      hplain, Bool.not_true, Bool.false_eq_true, if_false, if_true, Option.some.injEq, true_and]
    have hcipher : (aes256CtrXor key (env.nonce s'.tunnel.tunnelEncTx.toNat)
        (window frame 14 plen)).length = plen := by rw [aes256CtrXor_length, hplain]
    have hover (old : Memory) : overwrite (old.read 26 plen) (aes256CtrXor key
        (env.nonce s'.tunnel.tunnelEncTx.toNat) (window frame 14 plen)) = aes256CtrXor key
        (env.nonce s'.tunnel.tunnelEncTx.toNat) (window frame 14 plen) := by
      rw [overwrite, hcipher, List.drop_of_length_le (by simp), List.append_nil]
    have htag := aeadTag_length key (env.nonce s'.tunnel.tunnelEncTx.toNat)
      (aes256CtrXor key (env.nonce s'.tunnel.tunnelEncTx.toNat) (window frame 14 plen))
    have hnil (w : Bytes) : overwrite [] w = w := by simp [overwrite]
    have h7 : byteAt (window frame 0 14) 7 = byteAt frame 7 := byteAt_take (by decide)
    have hread := sealed_read o.out (window frame 0 14)
      ((env.nonce s'.tunnel.tunnelEncTx.toNat).take 12)
      (aes256CtrXor key (env.nonce s'.tunnel.tunnelEncTx.toNat) (window frame 14 plen)) _
      (be16 (UInt16.ofNat (12 + plen + 16))) (by simp [window]; omega) hnonce htag rfl
    rw [hcipher, h7] at hread
    rw [hover, hnil]
    exact hread.symm

/-- A failed encryption leaves no trace in the outputs exactly where it fails for want of room, and a
frame that is not encrypted leaves none in the length and the counter. -/
theorem traceless_iff (key nonce input : Bytes) (outCap : ℕ) (env : Env) (peer : Bytes) (inp : Memory)
    (inlen : ℕ) (o : SealOut) (s : P2PClient) :
    (LeavesNoTrace key nonce input outCap ↔ input.length > outCap ∨ input.length ≤ 4096) ∧
      ((encryptTunnelFrameCall env peer inp inlen o s).1 = false →
        (encryptTunnelFrameCall env peer inp inlen o s).2.1.outlen = o.outlen ∧
          (encryptTunnelFrameCall env peer inp inlen o s).2.2.tunnel.tunnelEncTx =
            s.tunnel.tunnelEncTx) :=
  ⟨leavesNoTrace_iff key nonce input outCap, encryptTunnelFrameCall_failed env peer inp inlen o s⟩

theorem traceless_short :
    LeavesNoTrace keyK nonceN [1] 0 ∧ (encryptTunnelFrameCall {} [0x62] (fun _ => 0) 13 ⟨fun _ => 0, 7⟩
      { cfg := { uuid := [0x61], natServers := [] } }).2.1.outlen = 7 := by
  have h := traceless_iff keyK nonceN [1] 0 {} [0x62] (fun _ => 0) 13 ⟨fun _ => 0, 7⟩
    { cfg := { uuid := [0x61], natServers := [] } }
  exact ⟨h.1.mpr (by decide), (h.2 rfl).1⟩

end P2PServer.P2PClient
