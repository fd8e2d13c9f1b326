import P2PServer.ClientFrame

/-! What a client says to servers. A datagram with a message head is one of a few requests, or it
registers the client's own uuid with a relay; only `stop` takes a registration back. -/
namespace P2PServer.P2PClient
open ByteStrings ProtoDef Net Codec Crypto Effects Transitions

/-- The messages of a running client, apart from the registration. -/
def requests : List UInt8 :=
  [msgHeartbeatReq, msgHeartbeatReqEnc, msgNatDetectReq, msgConnectReq, msgIceSdp, msgAuthChallengeReq,
    msgAuthLoginReq, msgProxyRelayData]

def Out.ordinary (uuid : Bytes) : Out → Bool
  | .proto _ id payload => requests.contains id || (id == msgProxyRegisterReq && payload == registration uuid)
  | _ => true

/-- A step that keeps the settings and the registration flag, and says nothing else. -/
structure Talks (s : P2PClient) (r : P2PClient × List Out) : Prop where
  cfg : r.1.cfg = s.cfg
  registered : r.1.relay.relayRegistered = s.relay.relayRegistered
  outs : ∀ o ∈ r.2, o.ordinary s.cfg.uuid = true

variable {s : P2PClient} {r r' : P2PClient × List Out} {k : Kind} {ks : List Kind} {o : Out}

theorem Talks.append (h : Talks s r) (h' : Talks r.1 r') : Talks s (r'.1, r.2 ++ r'.2) := by
  refine ⟨h'.cfg.trans h.cfg, h'.registered.trans h.registered, fun o ho => ?_⟩
  rcases List.mem_append.mp ho with ho | ho
  · exact h.outs o ho
  · rw [← h.cfg]
    exact h'.outs o ho

theorem Out.Plain.ordinary {uuid : Bytes} (h : o.Plain uuid) : o.ordinary uuid = true := by
  cases h with
  | request h =>
    have hall : plainRequests.all requests.contains = true := rfl
    rw [Out.ordinary, List.all_eq_true.mp hall _ (List.contains_iff_mem.mp h), Bool.true_or]
  | registers dst => simp [Out.ordinary]
  | raw | juice | ready | error | erasedUse => rfl

theorem Emits.ordinary (h : Emits s k o) : o.ordinary s.cfg.uuid = true := by
  cases h with
  | plain h => exact h.ordinary
  | challenge | login | message | description | connected | disconnected => rfl

theorem Write.talks (h : Write k s r) (hk : k ≠ .granted) : Talks s r := by
  refine ⟨h.mild.cfg, ?_, fun o ho => (h.emits o ho).ordinary⟩
  cases h with
  | grants => exact absurd rfl hk
  | _ => rfl

theorem Made.talks (h : Made ks s r) (hks : ks.contains .granted = false) : Talks s r := by
  induction h with
  | nothing => exact ⟨rfl, rfl, fun _ ho => absurd ho List.not_mem_nil⟩
  | part hw =>
    obtain ⟨k, hk, hw⟩ := hw
    refine hw.talks fun heq => ?_
    subst heq
    cases hks.symm.trans (List.contains_iff_mem.mpr hk)
  | andThen _ _ ih ih' => exact ih.append ih'

theorem handlePacket_registerRsp (env : Env) {m : Memory} {len : ℕ} {p : Bytes} (src : Addr)
    (h : protoOf m len = some (msgProxyRegisterRsp, p)) :
    handlePacket env m len src s = onProxyRegisterRsp p s := by
  obtain ⟨plen, rfl, he⟩ := handlePacket_message env src s h
  rw [he]
  rfl

theorem onProxyRegisterRsp_state (p : Bytes) :
    (onProxyRegisterRsp p s).1.cfg = s.cfg ∧
      ((onProxyRegisterRsp p s).1.relay.relayRegistered = true →
        s.relay.relayRegistered = true ∨ 1 ≤ p.length ∧ byteAt p 0 = 0) ∧
      ∀ o ∈ (onProxyRegisterRsp p s).2, o.ordinary s.cfg.uuid = true := by
  unfold onProxyRegisterRsp
  split
  · exact ⟨rfl, .inl, nofun⟩
  · split
    · exact ⟨rfl, fun _ => .inr ⟨by omega, ‹_›⟩, nofun⟩
    · have h : Talks s (onError (ascii "relay register failed result=" ++ decimalByte (byteAt p 0)) s) :=
        (onError_made _).talks rfl
      exact ⟨h.cfg, fun hr => .inl (h.registered ▸ hr), h.outs⟩

def Event.answers : Event → Prop
  | .packet m len _ => ∃ p, protoOf m len = some (msgProxyRegisterRsp, p)
  | _ => False

theorem granted_kinds {e : Event} (h : ¬e.answers) : e.kinds.contains .granted = false := by
  cases e with
  | packet m len src =>
    rw [Event.kinds]
    cases hmsg : protoOf m len with
    | none => rfl
    | some msg =>
      have hno : msg.1 ≠ msgProxyRegisterRsp := fun hid => h ⟨msg.2, by rw [hmsg, ← hid]⟩
      dsimp only
      unfold messageKinds
      rw [if_neg hno]
      split_ifs <;> rfl
  | _ => rfl

theorem step_talks (env : Env) {e : Event} (hstart : ∀ cfg, e ≠ .start cfg) (hstop : e ≠ .stop)
    (h : ¬e.answers) : Talks s (step env e s) :=
  (step_made hstart hstop).talks (granted_kinds h)

end P2PServer.P2PClient
