import P2PServer.ClientSessions
import P2PServer.TreeMaps

/-! The keys of the client's connections. A connection that is being set up is filed under the
uuid of its peer, in every state that a client can reach. -/
namespace P2PServer.P2PClient
open ByteStrings ProtoDef Net Codec Crypto Effects Transitions

/-- A connection that may be entered under this key. -/
def Conn.Fits (key : Bytes) (c : Conn) : Prop := c.connecting = true → c.peerUuid = key

def Named (s : P2PClient) : Prop :=
  ∀ (key : Bytes) (c : Conn), s.conns[key]? = some c → c.Fits key

/-- A remote description is handed to the ICE library. -/
def Out.appliesSdp : Out → Bool
  | .juice _ (.setRemoteDescription _) => true
  | _ => false

/-- A step that touches neither the connections nor the buffered description. -/
structure Still (s s' : P2PClient) : Prop where
  conns : s'.conns = s.conns
  pending : s'.pendingRemoteSdp = s.pendingRemoteSdp

/-- A step that keeps the connections filed and the buffered description. -/
structure Filed (s s' : P2PClient) : Prop where
  named : Named s → Named s'
  pending : s'.pendingRemoteSdp = s.pendingRemoteSdp

instance : Std.Refl Still := ⟨fun _ => ⟨rfl, rfl⟩⟩

instance : IsTrans P2PClient Still where
  trans _ _ _ h g := ⟨g.conns.trans h.conns, g.pending.trans h.pending⟩

instance : Std.Refl Filed := ⟨fun _ => ⟨id, rfl⟩⟩

instance : IsTrans P2PClient Filed where
  trans _ _ _ h g := ⟨g.named ∘ h.named, g.pending.trans h.pending⟩

abbrev Idle (s : P2PClient) (r : P2PClient × List Out) : Prop :=
  Within Still (fun o => o.appliesSdp = false) s r

abbrev Files (s : P2PClient) (r : P2PClient × List Out) : Prop :=
  Within Filed (fun o => o.appliesSdp = false) s r

variable {s s' : P2PClient} {r : P2PClient × List Out} {k : Kind} {ks : List Kind} {o : Out}

theorem Named.connAt (h : Named s) (key : Bytes) : (connAt s key).Fits key := by
  unfold P2PClient.connAt
  cases hc : s.conns[key]? with
  | none => exact fun hf => absurd hf (by decide)
  | some c => exact h key c hc

theorem Named.setConn (h : Named s) {key : Bytes} {c : Conn} (hc : c.Fits key) :
    Named (setConn key c s) := by
  intro k c' hk
  rw [P2PClient.setConn, TreeMaps.insert_get] at hk
  split at hk
  · rename_i heq
    rw [heq, ← Option.some.inj hk]
    exact hc
  · exact h k c' hk

theorem ackConn_fits {key : Bytes} {c : Conn} (h : c.Fits key) (env : Env) (cfg : Config) (p : Bytes) :
    (ackConn env cfg p c).Fits key := by
  unfold ackConn
  split <;> exact h

theorem Named.rewrite (h : Named s) {key : Bytes} {c c' : Conn} (hget : s.conns[key]? = some c)
    (hname : c'.peerUuid = c.peerUuid) (hconnecting : c'.connecting = c.connecting) : Named (P2PClient.setConn key c' s) := by
  refine h.setConn fun hon => ?_
  rw [hname]
  exact h key c hget (hconnecting.symm.trans hon)

theorem Emits.appliesSdp (h : Emits s k o) (hk : k ≠ .described) : o.appliesSdp = false := by
  cases h with
  | plain h =>
    cases h with
    | @juice call h =>
      cases call with
      | setRemoteDescription sdp => exact absurd rfl (h sdp)
      | _ => rfl
    | _ => rfl
  | description => exact absurd rfl hk
  | _ => rfl

theorem Write.named (h : Write k s r) (hs : Named s) : Named r.1 := by
  cases h with
  | grants =>
    intro key c hk
    rw [Std.ExtTreeMap.getElem?_map] at hk
    obtain ⟨c', hc', rfl⟩ := Option.map_eq_some_iff.mp hk
    exact hs key c' hc'
  | keeps hget h => exact hs.rewrite hget h.peerUuid h.connecting
  | enters hname => exact hs.setConn fun _ => hname
  | finds => exact hs.setConn (hs.connAt _)
  | begins _ _ _ hname => exact hs.setConn fun _ => hname
  | acks env p hget => exact hs.setConn (ackConn_fits (hs _ _ hget) env _ p)
  | invitesRelay _ _ _ hname => exact hs.setConn fun _ => hname
  | invites _ _ _ hname => exact hs.setConn fun _ => hname
  | lifts _ hget h => cases h <;> exact hs.rewrite hget rfl rfl
  | closes c =>
    intro key c' hk
    change (s.conns.erase c.peerUuid)[key]? = some c' at hk
    rw [TreeMaps.erase_get] at hk
    split at hk
    · cases hk
    · exact hs key c' hk
  | _ => exact hs

/-- The kinds that keep the buffered description and hand none to the ICE library. -/
def Kind.files : Kind → Bool
  | .invites | .described => false
  | _ => true

theorem Write.files (h : Write k s r) (hk : k.files = true) : Files s r := by
  have hnamed := h.named
  refine ⟨?_, fun o ho => (h.emits o ho).appliesSdp ?_⟩
  · cases h with
    | invitesRelay | invites | applies | pends => cases hk
    | _ => exact ⟨hnamed, rfl⟩
  · rintro rfl
    cases hk

theorem Write.idle (h : Write k s r) (hk : k.still = true) : Idle s r := by
  have hfiles : k.files = true := by
    cases k <;> first | rfl | cases hk
  exact ⟨⟨(h.links hk).1, (h.files hfiles).1.pending⟩, (h.files hfiles).2⟩

theorem Made.named (h : Made ks s r) (hs : Named s) : Named r.1 :=
  Composed.preserves (fun _ _ ⟨_, _, hw⟩ => hw.named) h hs

theorem Made.files (h : Made ks s r) (hks : ks.all Kind.files = true) : Files s r :=
  Composed.within (fun _ _ ⟨k, hk, hw⟩ => hw.files (List.all_eq_true.mp hks k hk)) h

theorem Made.idle (h : Made ks s r) (hks : ks.all Kind.still = true) : Idle s r :=
  Composed.within (fun _ _ ⟨k, hk, hw⟩ => hw.idle (List.all_eq_true.mp hks k hk)) h

def Event.brings (msgId : UInt8) : Event → Prop
  | .packet m len _ => ∃ p, protoOf m len = some (msgId, p)
  | _ => False

theorem files_messageKinds {msgId : UInt8} (hi : msgId ≠ msgConnectInvite) (hd : msgId ≠ msgIceSdp) :
    (messageKinds msgId).all Kind.files = true := by
  unfold messageKinds
  rw [if_neg hi, if_neg hd]
  split_ifs <;> rfl

theorem files_kinds {e : Event} (hinvite : ¬e.brings msgConnectInvite) (hsdp : ¬e.brings msgIceSdp) :
    e.kinds.all Kind.files = true := by
  cases e with
  | packet m len src =>
    rw [Event.kinds]
    cases hmsg : protoOf m len with
    | none => rfl
    | some msg =>
      refine files_messageKinds (fun hid => hinvite ⟨msg.2, ?_⟩) fun hid => hsdp ⟨msg.2, ?_⟩
      · rw [hmsg, ← hid]
      · rw [hmsg, ← hid]
  | _ => rfl

theorem stop_files : Files s (stop s) := by
  obtain ⟨-, -, -, houts⟩ := stop_spec s
  refine ⟨?_, fun o ho => ?_⟩
  · cases hrun : s.running with
    | false =>
      rw [stop, hrun]
      exact Std.Refl.refl s
    | true =>
      rw [stop_state hrun]
      refine ⟨fun _ key c hk => ?_, rfl⟩
      rw [Std.ExtTreeMap.getElem?_empty] at hk
      cases hk
  · obtain ⟨dst, payload, rfl⟩ := houts o ho
    rfl

/-- Only a start, an invite and a description do more than keep the table filed. -/
theorem step_files (env : Env) {e : Event} (hstart : ∀ cfg, e ≠ .start cfg)
    (hinvite : ¬ e.brings msgConnectInvite) (hsdp : ¬ e.brings msgIceSdp) : Files s (step env e s) := by
  by_cases hstop : e = .stop
  · rw [hstop]
    exact stop_files
  · exact (step_made hstart hstop).files (files_kinds hinvite hsdp)

theorem start_conns {env : Env} {cfg : Config} (h : start env cfg s = some s') :
    s'.conns = s.conns ∧ s'.pendingRemoteSdp = [] := by
  unfold start at h
  split at h
  · cases h
  · split at h
    · cases h
    · split at h
      · cases h
      · split at h
        · cases h
        · rw [← Option.some.inj h]
          exact ⟨rfl, rfl⟩

theorem step_named (env : Env) (e : Event) (h : Named s) : Named (step env e s).1 := by
  by_cases hstart : ∃ cfg, e = .start cfg
  · obtain ⟨cfg, rfl⟩ := hstart
    change Named ((start env cfg s).getD s)
    cases hs : start env cfg s with
    | none => exact h
    | some s' =>
      unfold Named
      rw [Option.getD_some, (start_conns hs).1]
      exact h
  · rw [not_exists] at hstart
    by_cases hstop : e = .stop
    · rw [hstop]
      exact stop_files.1.named h
    · exact (step_made hstart hstop).named h

theorem named_reachable (h : Reachable client s) : Named s := by
  refine h.invariant (fun s hs => ?_) fun s e hn _ _ => ?_
  rotate_left
  · exact step_named e.1 e.2 hn
  obtain ⟨cfg, callbacks, rfl⟩ := hs
  intro key c hk
  rw [Std.ExtTreeMap.getElem?_empty] at hk
  cases hk

end P2PServer.P2PClient
