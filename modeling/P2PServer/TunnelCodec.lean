import P2PServer.Codec
import P2PServer.Memory

/-! The tunnel frame codec: what `codec_write_tunnel` stores into its buffer, and that reading
and writing are inverse to each other on the frames `codec_read_tunnel` accepts. -/
namespace P2PServer.Codec
open ByteStrings ProtoDef

/-- Stores of consecutive bytes, the first one at the index `i`. -/
def storesAt (i : ℕ) : List UInt8 → List (ℕ × UInt8)
  | [] => []
  | b :: bs => (i, b) :: storesAt (i + 1) bs

theorem mem_storesAt {i : ℕ} {bs : List UInt8} {s : ℕ × UInt8} (h : s ∈ storesAt i bs) :
    i ≤ s.1 ∧ s.1 < i + bs.length := by
  induction bs generalizing i with
  | nil => simp [storesAt] at h
  | cons b bs ih =>
    rcases List.mem_cons.mp h with rfl | h
    · simp
    · have := ih h
      simp only [List.length_cons]
      omega

/-- A call of `codec_write_tunnel`: the value it returns and the bytes it stores, in order. -/
structure WriteCall where
  ret : ℤ
  stores : List (ℕ × UInt8)

/-- The buffer after the stores of a call. -/
def WriteCall.buffer (c : WriteCall) (buf : Memory) : Memory :=
  c.stores.foldl (fun m s => Function.update m s.1 s.2) buf

/-- `payload` is the pointer the caller passes, `none` for a null pointer. -/
def writeTunnelCall (cap : ℤ) (type : UInt8) (sessionId : UInt16) (channelId flags : UInt8)
    (seq ack : UInt16) (payload : Option Memory) (len : UInt16) : WriteCall :=
  if 8 + (len.toNat : ℤ) > cap then ⟨-1, []⟩
  else
    let header := storesAt 0 (tunnelHeader type sessionId channelId flags seq ack len)
    let body := match payload with
      | some p => if 0 < len.toNat then storesAt 14 (p.read 0 len.toNat) else []
      | none => []
    ⟨14 + len.toNat, header ++ body⟩

section Call
variable {cap : ℤ} {type channelId flags : UInt8} {sessionId seq ack len : UInt16}
  {payload : Option Memory}

theorem writeTunnelCall_rejected (h : cap < 8 + len.toNat) :
    writeTunnelCall cap type sessionId channelId flags seq ack payload len = ⟨-1, []⟩ :=
  if_pos h

theorem writeTunnelCall_ret (h : 8 + (len.toNat : ℤ) ≤ cap) :
    (writeTunnelCall cap type sessionId channelId flags seq ack payload len).ret =
      14 + len.toNat := by
  unfold writeTunnelCall
  rw [if_neg (by omega)]

theorem writeTunnelCall_stores {s : ℕ × UInt8}
    (h : s ∈ (writeTunnelCall cap type sessionId channelId flags seq ack payload len).stores) :
    s.1 < 14 + len.toNat := by
  unfold writeTunnelCall at h
  split at h
  · simp at h
  · rcases List.mem_append.mp h with h | h
    · have := mem_storesAt h
      rw [tunnelHeader_length] at this
      omega
    · cases payload with
      | none => simp at h
      | some p =>
        dsimp only at h
        split at h
        · have := mem_storesAt h
          rw [Memory.read_length] at this
          omega
        · simp at h

end Call

/-- The stores of consecutive bytes are one `memcpy`. -/
theorem foldl_storesAt (i : ℕ) (bs : List UInt8) (buf : Memory) :
    (storesAt i bs).foldl (fun m s => Function.update m s.1 s.2) buf = buf.write i bs := by
  induction bs generalizing i buf with
  | nil =>
    funext k
    exact (if_neg (by simp)).symm
  | cons b bs ih =>
    rw [storesAt, List.foldl_cons, ih]
    funext k
    simp only [Memory.write, List.length_cons, Function.update_apply]
    rcases Nat.lt_trichotomy k i with hk | rfl | hk
    · simp [show ¬ i ≤ k by omega, show ¬ i + 1 ≤ k by omega, show k ≠ i by omega]
    · simp
    · obtain ⟨d, rfl⟩ := Nat.exists_eq_add_of_lt hk
      rw [if_neg (show i + d + 1 ≠ i by omega), show i + d + 1 - i = d + 1 by omega,
        show i + d + 1 - (i + 1) = d by omega, List.getD_cons_succ]
      exact if_congr (by omega) rfl rfl

theorem writeTunnelCall_buffer {cap : ℤ} {type channelId flags : UInt8}
    {sessionId seq ack len : UInt16} {p : Memory} {b : Bytes}
    (h : codecWriteTunnel cap type sessionId channelId flags seq ack (p.read 0 len.toNat) len =
      some b) (buf : Memory) :
    ((writeTunnelCall cap type sessionId channelId flags seq ack (some p) len).buffer buf).read
      0 (14 + len.toNat) = b := by
  unfold codecWriteTunnel at h
  split at h
  · cases h
  · rename_i hcap
    cases h
    have hbody : (if 0 < len.toNat then storesAt 14 (p.read 0 len.toNat) else []) =
        storesAt 14 (p.read 0 len.toNat) := by
      split
      · rfl
      · rw [show len.toNat = 0 by omega]
        rfl
    have hhead : ((buf.write 0 (tunnelHeader type sessionId channelId flags seq ack len)).write 14
        (p.read 0 len.toNat)).read 0 14 = tunnelHeader type sessionId channelId flags seq ack len := by
      rw [Memory.read_write_apart (by simp)]
      exact Memory.read_write buf 0 (tunnelHeader type sessionId channelId flags seq ack len)
    have hrest : ((buf.write 0 (tunnelHeader type sessionId channelId flags seq ack len)).write 14
        (p.read 0 len.toNat)).read 14 len.toNat = p.read 0 len.toNat := by
      have := Memory.read_write (Memory.write buf 0
        (tunnelHeader type sessionId channelId flags seq ack len)) 14 (p.read 0 len.toNat)
      rwa [Memory.read_length] at this
    unfold writeTunnelCall
    rw [if_neg hcap]
    simp only [WriteCall.buffer, hbody, List.foldl_append, foldl_storesAt]
    rw [Memory.read_add, Nat.zero_add, hhead, hrest, List.take_of_length_le (by simp)]

/-- What a caller may expect of the capacity it passes: no store at or behind it, nothing
stored and -1 exactly for the frames that do not fit, and the size of the frame otherwise. -/
structure WriteCall.Respects (c : WriteCall) (cap : ℤ) (len : UInt16) : Prop where
  inside : ∀ s ∈ c.stores, (s.1 : ℤ) < cap
  rejects : (c.ret = -1 ∧ c.stores = []) ↔ 14 + (len.toNat : ℤ) > cap
  returns : ¬14 + (len.toNat : ℤ) > cap → c.ret = 14 + len.toNat

/-- The size is tested as if the header had eight bytes: the capacity is respected unless it
lies in the six bytes between the tested size and the size of the frame. -/
theorem writeTunnelCall_respects_iff (cap : ℤ) (type : UInt8) (sessionId : UInt16)
    (channelId flags : UInt8) (seq ack : UInt16) (payload : Option Memory) (len : UInt16) :
    (writeTunnelCall cap type sessionId channelId flags seq ack payload len).Respects cap len ↔
      cap < 8 + len.toNat ∨ 14 + (len.toNat : ℤ) ≤ cap := by
  constructor
  · intro h
    by_contra! hc
    have hret := (h.rejects.mpr hc.2).1
    rw [writeTunnelCall_ret hc.1] at hret
    omega
  · rintro (hc | hc)
    · rw [writeTunnelCall_rejected hc]
      exact ⟨by simp, by simp; omega, fun hn => absurd hn (by omega)⟩
    · have hret : (writeTunnelCall cap type sessionId channelId flags seq ack payload len).ret =
          14 + len.toNat := writeTunnelCall_ret (by omega)
      refine ⟨fun s hs => ?_, ?_, fun _ => hret⟩
      · have := writeTunnelCall_stores hs
        omega
      · rw [hret]
        constructor <;> intro _ <;> omega

/-- The six capacities before the size of a frame are accepted: with a capacity of 8, an empty
frame is stored over the six bytes behind it. -/
theorem writeTunnelCall_overruns : ¬∀ (cap : ℤ) (type : UInt8) (sessionId : UInt16)
    (channelId flags : UInt8) (seq ack : UInt16) (payload : Option Memory) (len : UInt16),
    0 ≤ cap → (writeTunnelCall cap type sessionId channelId flags seq ack payload len).Respects
      cap len := by
  intro h
  have hret := ((h 8 ttPing 1 0 0 0 0 none 0 (by decide)).rejects.mpr (by decide)).1
  rw [writeTunnelCall_ret (by decide)] at hret
  revert hret
  decide

/-- The frames `codec_read_tunnel` accepts. -/
theorem codecReadTunnel_isSome_iff (data : Bytes) : (codecReadTunnel data).isSome ↔
    14 ≤ data.length ∧ data.take 2 = be16 tunnelMagic ∧ data[2]? = some tunnelVer ∧
      14 + (rd16 (data.getD 12 0) (data.getD 13 0)).toNat ≤ data.length := by
  unfold codecReadTunnel
  split
  · rename_i b0 b1 b2 b3 b4 b5 b6 b7 b8 b9 b10 b11 b12 b13 rest
    have hmagic : (b0 :: b1 :: b2 :: b3 :: b4 :: b5 :: b6 :: b7 :: b8 :: b9 :: b10 :: b11 :: b12 ::
        b13 :: rest).take 2 = be16 tunnelMagic ↔
        b0 = UInt8.ofNat (tunnelMagic.toNat / 256) ∧ b1 = tunnelMagic.toUInt8 := by
      simp [be16]
    rw [hmagic]
    simp only [List.getElem?_cons_succ, List.getElem?_cons_zero, Option.some.injEq,
      List.getD_cons_succ, List.getD_cons_zero, List.length_cons]
    constructor
    · intro h
      split at h
      · cases h
      split at h
      · cases h
      split at h
      · cases h
      · rename_i hm hv hl
        push Not at hm hv
        exact ⟨by omega, hm, hv, by omega⟩
    · rintro ⟨-, hm, hv, hl⟩
      rw [if_neg (by simp [hm]), if_neg (by simp [hv]), if_neg (by omega)]
      rfl
  · rename_i hshort
    refine iff_of_false (by simp) fun h => ?_
    obtain ⟨h14, -⟩ := h
    have hsplit : data = data[0] :: data[1] :: data[2] :: data[3] :: data[4] :: data[5] :: data[6] :: data[7] ::
        data[8] :: data[9] :: data[10] :: data[11] :: data[12] :: data[13] :: data.drop 14 := by
      simp only [List.getElem_cons_drop, List.drop_zero]
    exact hshort _ _ _ _ _ _ _ _ _ _ _ _ _ _ _ hsplit

theorem codecReadTunnel_write {cap : ℤ} {type channelId flags : UInt8} {sessionId seq ack : UInt16}
    {payload b : Bytes} (hlen : payload.length ≤ 65535)
    (hw : codecWriteTunnel cap type sessionId channelId flags seq ack payload
      (UInt16.ofNat payload.length) = some b) (trailing : Bytes) :
    codecReadTunnel (b ++ trailing) = some ⟨type, sessionId, channelId, flags, seq, ack, payload,
      UInt16.ofNat payload.length⟩ := by
  have hn : (UInt16.ofNat payload.length).toNat = payload.length := by
    rw [UInt16.toNat_ofNat']
    omega
  unfold codecWriteTunnel at hw
  split at hw
  · cases hw
  · cases hw
    rw [List.append_assoc, codecReadTunnel_header _ _ _ _ _ _ _ _ (by simp [hn]), hn]
    simp

theorem codecWriteTunnel_read {cap : ℤ} {data : Bytes} {t : WireTunnel}
    (hr : codecReadTunnel data = some t) (hcap : 8 + (t.len.toNat : ℤ) ≤ cap) :
    t.payload.length = t.len.toNat ∧
    codecWriteTunnel cap t.type t.sessionId t.channelId t.flags t.seq t.ack t.payload t.len =
      some (data.take (14 + t.len.toNat)) := by
  unfold codecReadTunnel at hr
  split at hr
  · rename_i b0 b1 b2 b3 b4 b5 b6 b7 b8 b9 b10 b11 b12 b13 rest
    split at hr
    · cases hr
    split at hr
    · cases hr
    dsimp only at hr
    split at hr
    · cases hr
    rename_i hm hv hl
    push Not at hm hv hl
    cases hr
    dsimp only at hcap ⊢
    refine ⟨by simp [hl], ?_⟩
    rw [codecWriteTunnel, if_neg (by omega)]
    have hmagic : be16 tunnelMagic = [b0, b1] := by rw [hm.1, hm.2, be16]
    rw [tunnelHeader, hmagic, ← hv, be16_rd16, be16_rd16, be16_rd16, be16_rd16]
    simp [Nat.add_comm 14]
  · cases hr

/-- Writing and reading are inverse to each other on the frames that are accepted, for every
capacity `codec_write_tunnel` takes, and the accepted frames are exactly the byte strings with a full
header, the magic, the version and the announced payload. -/
theorem tunnelCodec_bijective :
    (∀ (cap : ℤ) (type : UInt8) (sessionId : UInt16) (channelId flags : UInt8) (seq ack : UInt16)
      (payload trailing : Bytes), payload.length ≤ 65535 → 8 + (payload.length : ℤ) ≤ cap →
      ∃ b, codecWriteTunnel cap type sessionId channelId flags seq ack payload
          (UInt16.ofNat payload.length) = some b ∧
        codecReadTunnel (b ++ trailing) = some ⟨type, sessionId, channelId, flags, seq, ack,
          payload, UInt16.ofNat payload.length⟩) ∧
    (∀ (cap : ℤ) (data : Bytes) (t : WireTunnel), codecReadTunnel data = some t →
      8 + (t.len.toNat : ℤ) ≤ cap → t.payload.length = t.len.toNat ∧
      codecWriteTunnel cap t.type t.sessionId t.channelId t.flags t.seq t.ack t.payload t.len =
        some (data.take (14 + t.len.toNat))) ∧
    ∀ data : Bytes, (codecReadTunnel data).isSome ↔
      14 ≤ data.length ∧ data.take 2 = be16 tunnelMagic ∧ data[2]? = some tunnelVer ∧
        14 + (rd16 (data.getD 12 0) (data.getD 13 0)).toNat ≤ data.length := by
  refine ⟨fun cap type sessionId channelId flags seq ack payload trailing hlen hcap => ?_,
    fun _ _ _ => codecWriteTunnel_read, codecReadTunnel_isSome_iff⟩
  have hn : (UInt16.ofNat payload.length).toNat = payload.length := by
    rw [UInt16.toNat_ofNat']
    omega
  have hw : codecWriteTunnel cap type sessionId channelId flags seq ack payload
      (UInt16.ofNat payload.length) = some (tunnelHeader type sessionId channelId flags seq ack
        (UInt16.ofNat payload.length) ++ payload.take (UInt16.ofNat payload.length).toNat) := by
    rw [codecWriteTunnel, if_neg (by omega)]
  exact ⟨_, hw, codecReadTunnel_write hlen hw trailing⟩

theorem tunnelCodec_bijective_three :
    (∃ b, codecWriteTunnel 17 ttData 1 0 0 7 8 [1, 2, 3] 3 = some b ∧
      codecReadTunnel (b ++ [255]) = some ⟨ttData, 1, 0, 0, 7, 8, [1, 2, 3], 3⟩) ∧
    codecWriteTunnel 17 ttData 1 0 0 7 8 [1, 2, 3] 3 =
      some ((tunnelHeader ttData 1 0 0 7 8 3 ++ [1, 2, 3, 255]).take 17) :=
  ⟨tunnelCodec_bijective.1 17 ttData 1 0 0 7 8 [1, 2, 3] [255] (by decide) (by decide),
    (tunnelCodec_bijective.2.1 17 (tunnelHeader ttData 1 0 0 7 8 3 ++ [1, 2, 3, 255])
      ⟨ttData, 1, 0, 0, 7, 8, [1, 2, 3], 3⟩ (by decide) (by decide)).2⟩

end P2PServer.Codec
