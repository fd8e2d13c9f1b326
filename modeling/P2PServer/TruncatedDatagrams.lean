import P2PServer.ClientAuthRetry
import P2PServer.ProxyTables

/-! Control datagrams whose head announces more than has arrived. The two servers drop them; the
client handles them as messages without a payload. -/
namespace P2PServer.TruncatedDatagrams
open ByteStrings Codec

/-- The datagram has a valid head with the message `msgId`, and ends before the payload does. -/
def Truncated (msgId : UInt8) (data : Bytes) : Prop :=
  ∃ h, codecReadHead data = some h ∧ h.msgId = msgId ∧ data.length - 8 < h.length.toNat

theorem readDatagram_truncated {msgId : UInt8} {data : Bytes} (h : Truncated msgId data) :
    NatServer.readDatagram data = none := by
  obtain ⟨head, hread, -, hshort⟩ := h
  rw [NatServer.readDatagram, hread]
  exact if_pos hshort

end P2PServer.TruncatedDatagrams

namespace P2PServer.P2PClient
open ByteStrings ProtoDef Net Codec Effects TruncatedDatagrams

/-- The back-off of the authentication counts on with every retry. -/
theorem retryAuth_ne (now : UInt64) (a : AuthState) : (retryAuth now a).authBackoff ≠ a.authBackoff := by
  intro h
  have hsucc : a.authBackoff.attempt + 1 = a.authBackoff.attempt := congrArg BackOff.attempt h
  have := congrArg UInt32.toNat hsucc
  rw [UInt32.toNat_add] at this
  have hlt := a.authBackoff.attempt.toNat_lt
  change (a.authBackoff.attempt.toNat + 1) % 2 ^ 32 = _ at this
  omega

/-- The messages on which the client acts without a payload. -/
def Ignores (msgId : UInt8) (s : P2PClient) : Prop :=
  msgId ≠ msgAuthChallengeRsp ∧ (msgId = msgAuthLoginRsp → s.auth.authInflight = false)

/-- All other messages are too short without a payload, and dropped. -/
theorem handleProto_short (env : Env) {msgId : UInt8} (m : Memory) (s : P2PClient)
    (hC : msgId ≠ msgAuthChallengeRsp) (hL : msgId ≠ msgAuthLoginRsp) :
    handleProto env msgId m 0 s = (s, []) := by
  have hmsg := handleProto_handles env msgId m 0
  generalize handleProto env msgId m 0 = act at hmsg ⊢
  cases hmsg with
  | challengeRsp => exact absurd rfl hC
  | loginRsp => exact absurd rfl hL
  | heartbeatRsp | heartbeatRspEnc | natDetectRsp | connectAck => rfl
  | connectInvite | iceSdp | registerRsp | relayData | other => rfl

/-- Without a payload only the answers of the authentication have an effect: a challenge counts as
failed, and a login is no longer in flight. -/
theorem handleProto_empty (env : Env) (msgId : UInt8) (m : Memory) (s : P2PClient) :
    handleProto env msgId m 0 s = (s, []) ↔ Ignores msgId s := by
  by_cases hC : msgId = msgAuthChallengeRsp
  · subst hC
    refine iff_of_false (fun h => ?_) fun h => h.1 rfl
    have hchallenge : handleProto env msgAuthChallengeRsp m 0 s =
        ({ s with auth := retryAuth env.now { s.auth with authInflight := false } }, []) := rfl
    rw [hchallenge] at h
    have hauth : retryAuth env.now { s.auth with authInflight := false } = s.auth :=
      congrArg (fun r => r.1.auth) h
    exact retryAuth_ne env.now { s.auth with authInflight := false }
      (congrArg (·.authBackoff) hauth)
  by_cases hL : msgId = msgAuthLoginRsp
  · subst hL
    have hlogin : handleProto env msgAuthLoginRsp m 0 s =
        ({ s with auth := { s.auth with authInflight := false } }, []) := rfl
    rw [hlogin]
    constructor
    · intro h
      have hauth : { s.auth with authInflight := false } = s.auth := congrArg (fun r => r.1.auth) h
      exact ⟨hC, fun _ => (congrArg (·.authInflight) hauth).symm⟩
    · intro h
      rw [← h.2 rfl]
  · exact iff_of_true (handleProto_short env m s hC hL) ⟨hC, fun h => absurd h hL⟩

theorem handlePacket_truncated (env : Env) {msgId : UInt8} {m : Memory} {len : ℕ}
    (h : Truncated msgId (m.read 0 len)) (src : Addr) (s : P2PClient) :
    handlePacket env m len src s = handleProto env msgId (m.offset 8) 0 s := by
  obtain ⟨head, hread, rfl, hshort⟩ := h
  rw [Memory.read_length] at hshort
  rw [handlePacket, hread]
  dsimp only
  rw [if_neg (Nat.not_le.mpr hshort)]

end P2PServer.P2PClient

namespace P2PServer.TruncatedDatagrams
open ByteStrings ProtoDef Net Codec Effects Transitions

/-- The servers drop a truncated datagram. The client ignores it exactly if it is neither the answer
to a challenge nor, while a request is in flight, the one to a login. -/
theorem ignored_iff {msgId : UInt8} :
    (∀ (env : NatServer.Env) (data : Bytes) (src : Addr) (s : NatServer), Truncated msgId data →
      NatServer.handlePacket env data src s = (s, [])) ∧
    (∀ (now : ℤ) (data : Bytes) (src : Addr) (s : P2PProxy), Truncated msgId data →
      P2PProxy.handle now data src s = (s, [])) ∧
    ∀ (env : P2PClient.Env) (m : Memory) (len : ℕ) (src : Addr) (s : P2PClient),
      Truncated msgId (m.read 0 len) →
      (P2PClient.handlePacket env m len src s = (s, []) ↔ msgId ≠ msgAuthChallengeRsp ∧
        (msgId = msgAuthLoginRsp → s.auth.authInflight = false)) := by
  refine ⟨fun env data src s h => ?_, fun now data src s h => ?_, fun env m len src s h => ?_⟩
  · rw [NatServer.handlePacket, readDatagram_truncated h]
  · rw [P2PProxy.handle, readDatagram_truncated h]
  · rw [P2PClient.handlePacket_truncated env h]
    exact P2PClient.handleProto_empty env msgId _ s

/-- A head that announces 19 bytes, with nothing behind it. -/
def bare (msgId : UInt8) : Bytes := codecWriteHead msgId 19

theorem truncated_bare (msgId : UInt8) : Truncated msgId (bare msgId) := by
  refine ⟨⟨natMagic, protoVer, msgId, 19⟩, ?_, rfl, ?_⟩
  · have h := codecReadHead_write msgId 19 []
    rwa [List.append_nil] at h
  · change 8 - 8 < (19 : UInt32).toNat
    decide

theorem truncated_memory (msgId : UInt8) : Truncated msgId ((Memory.ofBytes (bare msgId) fun _ => 0).read 0 8) :=
  (Memory.read_ofBytes (bare msgId) fun _ => 0).symm ▸ truncated_bare msgId

theorem ignored_connect : P2PClient.handlePacket {} (Memory.ofBytes (bare msgConnectAck) fun _ => 0) 8 ⟨1, 2⟩
    { cfg := { uuid := [0x61], natServers := [] } } = ({ cfg := { uuid := [0x61], natServers := [] } }, []) :=
  (ignored_iff.2.2 {} _ 8 ⟨1, 2⟩ _ (truncated_memory msgConnectAck)).mpr ⟨by decide, fun h => absurd h (by decide)⟩

/-- The answer to the first challenge of a client is cut off: its authentication is put off. -/
theorem not_ignored : ¬∀ (env : P2PClient.Env) (msgId : UInt8) (m : Memory) (len : ℕ) (src : Addr)
    (s : P2PClient), Reachable P2PClient.client s → P2PClient.enabled s (.packet m len src) →
    Truncated msgId (m.read 0 len) → P2PClient.handlePacket env m len src s = (s, []) := by
  intro h
  have hrun : Run P2PClient.client (fun _ _ => True) P2PClient.quietClient
      P2PClient.startEvents := by decide +kernel
  have hrunning : (P2PClient.startEvents.foldl P2PClient.client.next
      P2PClient.quietClient).running = true := by decide +kernel
  have hignored := h {} msgAuthChallengeRsp _ 8 ⟨1, 2⟩ _
    (Reach.run (.start P2PClient.quietClient_init) hrun) hrunning
    (truncated_memory msgAuthChallengeRsp)
  rw [P2PClient.handlePacket_truncated {} (truncated_memory msgAuthChallengeRsp)] at hignored
  exact ((P2PClient.handleProto_empty {} msgAuthChallengeRsp _ _).mp hignored).1 rfl

end P2PServer.TruncatedDatagrams
