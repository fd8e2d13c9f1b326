import P2PServer.ConnWiring
import P2PServer.RemoteClose

/-! What becomes of a frame for a connection that is up. `send_tunnel_via` chooses between three
transports, and one of its branches ends without any. -/
namespace P2PServer.P2PClient
open ByteStrings ProtoDef Net Codec Crypto Effects Transitions

variable {s s' : P2PClient} {c : Conn}

/-- The frame, as it is or encrypted, is handed to a transport that leads to the peer. -/
def Delivers (env : Env) (c : Conn) (frame : Bytes) (s : P2PClient) : Prop :=
  ∃ o ∈ (sendTunnelVia env c frame s).2, ∃ tx, Carries s.cfg.uuid c.peerUuid tx o

def relayReady (env : Env) (c : Conn) (s : P2PClient) : Bool :=
  c.relay.relayOk || (s.relay.relayRegistered && !s.relay.proxies.isEmpty &&
    (s.cfg.forceRelay || env.now ≥ c.punch.punchDeadline))

/-- One of the three branches that send is taken, and the relay has an address. -/
def HasTransport (env : Env) (c : Conn) (s : P2PClient) : Prop :=
  (c.punch.juice && c.punch.directOk) = true ∨
    (c.punch.directOk && c.punch.haveDirect || !relayReady env c s && c.punch.haveDirect) = true ∨
    (relayReady env c s = true ∧ s.relay.relayRegistered = true ∧ (proxyAddr s).isSome = true)

theorem proxies_of_address (h : (proxyAddr s).isSome = true) : s.relay.proxies.isEmpty = false := by
  unfold proxyAddr at h
  split at h
  · cases h
  · rename_i hp
    rw [hp]
    rfl

theorem transmit_iff (env : Env) (c : Conn) {tx : Bytes} (hlen : tx.length ≤ 1242) :
    (transmit env c tx s).2 ≠ [] ↔ HasTransport env c s := by
  have hfit : ¬8 + relayFrameSize + tx.length > maxPkt := by
    rw [relayFrameSize, maxPkt]
    omega
  unfold transmit HasTransport
  rw [← relayReady]
  dsimp only
  split
  · rename_i hice
    simp [hice]
  · rename_i hice
    split
    · rename_i hdirect
      simp [hdirect]
    · rename_i hdirect
      rw [or_iff_right hice, or_iff_right hdirect]
      split
      · rename_i hrelay
        simp only [Bool.and_eq_true] at hrelay
        obtain ⟨⟨hready, hreg⟩, -⟩ := hrelay
        rw [hready, hreg]
        cases proxyAddr s with
        | none => simp
        | some dst => simp
      · rename_i hrelay
        refine iff_of_false (fun h => h rfl) fun h => hrelay ?_
        obtain ⟨hready, hreg, haddr⟩ := h
        rw [hready, hreg, proxies_of_address haddr]
        rfl

theorem p2pAeadEncrypt_length (key nonce input : Bytes) (cap : ℕ) :
    (p2pAeadEncrypt key nonce input cap ⟨[], 0, []⟩).2.out.length ≤ input.length ∧
      (p2pAeadEncrypt key nonce input cap ⟨[], 0, []⟩).2.tag.length ≤ 16 := by
  unfold p2pAeadEncrypt
  split
  · exact ⟨Nat.zero_le _, Nat.zero_le _⟩
  · dsimp only
    split
    · simp [overwrite]
    · simp [overwrite, aeadTag_length]

theorem encryptTunnelFrame_length {env : Env} {peer tx : Bytes} (f : Plain)
    (h : (encryptTunnelFrame env peer f.bytes s).1 = some tx) : tx.length ≤ 1242 := by
  have hshort := f.short
  rw [maxTunnelPayload] at hshort
  have hd : f.bytes.drop 12 = be16 (UInt16.ofNat f.payload.length) ++ f.payload := by
    rw [f.bytes_eq]
    rfl
  unfold encryptTunnelFrame at h
  split at h
  · cases h
  · rw [u16At_of_drop hd, f.payload_toNat] at h
    dsimp only at h
    split at h
    · cases h
    · split at h
      · cases h
      · rename_i key s₁ _
        have hw : (window f.bytes 14 f.payload.length).length ≤ f.payload.length :=
          List.length_take_le _ _
        obtain ⟨hout, htag⟩ := p2pAeadEncrypt_length key (env.nonce s₁.tunnel.tunnelEncTx.toNat)
          (window f.bytes 14 f.payload.length) f.payload.length
        split at h
        · cases h
        · rw [← Option.some.inj h]
          simp only [List.length_append, List.length_take, be16_length]
          omega

/-- What `send_tunnel_via` hands over has come from the frame, and the state is what it was. -/
theorem sendTunnelVia_transmits (env : Env) (c : Conn) (f : Plain) (s : P2PClient) :
    ∃ tx t, tx.length ≤ 1242 ∧ outer t = outer s ∧ sendTunnelVia env c f.bytes s = transmit env c tx t := by
  have hshort := f.short
  have hlen := f.bytes_length
  rw [maxTunnelPayload] at hshort
  unfold sendTunnelVia
  split
  · obtain ⟨x, hx⟩ := encryptTunnelFrame_state env c.peerUuid f.bytes s
    have hout : outer (encryptTunnelFrame env c.peerUuid f.bytes s).2 = outer s := by
      rw [hx]
      rfl
    split
    · rename_i tx t he
      rw [he] at hout
      exact ⟨tx, t, encryptTunnelFrame_length f (congrArg Prod.fst he), hout, rfl⟩
    · rename_i t he
      rw [he] at hout
      exact ⟨f.bytes, t, by omega, hout, rfl⟩
  · exact ⟨f.bytes, s, by omega, rfl, rfl⟩

theorem hasTransport_outer {env : Env} (h : outer s' = outer s) :
    HasTransport env c s' ↔ HasTransport env c s := by
  have hsame : HasTransport env c (outer s') ↔ HasTransport env c (outer s) := by rw [h]
  exact hsame

theorem delivers_iff (env : Env) (c : Conn) (f : Plain) :
    Delivers env c f.bytes s ↔ HasTransport env c s := by
  obtain ⟨tx, t, hlen, hout, he⟩ := sendTunnelVia_transmits env c f s
  have hcfg : (outer t).cfg.uuid = (outer s).cfg.uuid := by rw [hout]
  change t.cfg.uuid = s.cfg.uuid at hcfg
  rw [Delivers, he, ← hasTransport_outer hout, ← transmit_iff env c hlen, ← hcfg]
  constructor
  · rintro ⟨o, ho, -⟩ hnil
    rw [hnil] at ho
    cases ho
  · intro hne
    obtain ⟨o, ho⟩ := List.exists_mem_of_ne_nil _ hne
    exact ⟨o, ho, tx, transmit_carries env c tx o ho⟩

/-- Nothing can keep the frames of this connection from a transport. -/
def Served (s : P2PClient) (c : Conn) : Prop :=
  (c.punch.directOk = true ∧ (c.punch.juice = true ∨ c.punch.haveDirect = true)) ∨
    ((c.relay.relayOk = true → s.relay.relayRegistered = true) ∧
      (c.relay.relayOk = true ∨ s.relay.relayRegistered = true ∧ s.relay.proxies.isEmpty = false →
        (proxyAddr s).isSome = true))

theorem delivers_of_served {strict : Prop} {key : Bytes} (hfits : Fits strict s key c)
    (hup : c.connected = true) (h : Served s c) (env : Env) (f : Plain) : Delivers env c f.bytes s := by
  rw [delivers_iff]
  rcases h with ⟨hok, hjuice | hdirect⟩ | ⟨hreg, haddr⟩
  · exact .inl (by rw [hjuice, hok]; rfl)
  · exact .inr (.inl (by rw [hok, hdirect]; rfl))
  · rcases hfits.path hup with ⟨hok, hjuice⟩ | hdirect | hrelay
    · exact .inl (by rw [hjuice, hok]; rfl)
    · cases hready : relayReady env c s with
      | false => exact .inr (.inl (by simp [hdirect, hready]))
      | true =>
        have hr : c.relay.relayOk = true ∨ s.relay.relayRegistered = true ∧ s.relay.proxies.isEmpty = false := by
          simp only [relayReady, Bool.or_eq_true, Bool.and_eq_true, Bool.not_eq_true'] at hready
          exact hready.imp_right fun hr => hr.1
        exact .inr (.inr ⟨hready, hr.elim hreg And.left, haddr hr⟩)
    · exact .inr (.inr ⟨by rw [relayReady, hrelay]; rfl, hreg hrelay, haddr (.inl hrelay)⟩)

/-- The deadline of the attempts has passed, and the frame is one without payload. -/
theorem served_of_delivers (h : ∀ (env : Env) (f : Plain), Delivers env c f.bytes s) : Served s c := by
  by_cases hproven : c.punch.directOk = true ∧ (c.punch.juice = true ∨ c.punch.haveDirect = true)
  · exact .inl hproven
  · have hlate := (delivers_iff _ c _).mp (h { now := c.punch.punchDeadline } (closing 0))
    have hready (hr : c.relay.relayOk = true ∨
        s.relay.relayRegistered = true ∧ s.relay.proxies.isEmpty = false) :
        relayReady { now := c.punch.punchDeadline } c s = true := by
      rcases hr with hr | ⟨hr, hp⟩
      · rw [relayReady, hr]
        rfl
      · simp [relayReady, hr, hp]
    have hrelay (hr : c.relay.relayOk = true ∨
        s.relay.relayRegistered = true ∧ s.relay.proxies.isEmpty = false) :
        s.relay.relayRegistered = true ∧ (proxyAddr s).isSome = true := by
      rcases hlate with hice | hdirect | ⟨-, hreg, haddr⟩
      · simp only [Bool.and_eq_true] at hice
        exact absurd ⟨hice.2, .inl hice.1⟩ hproven
      · rw [hready hr] at hdirect
        simp only [Bool.not_true, Bool.false_and, Bool.or_false, Bool.and_eq_true] at hdirect
        exact absurd ⟨hdirect.1, .inr hdirect.2⟩ hproven
      · exact ⟨hreg, haddr⟩
    exact .inr ⟨fun hr => (hrelay (.inl hr)).1, fun hr => (hrelay hr).2⟩

theorem send_frame {x : Session} {ch : UInt8} {data : Bytes} {reliable : Bool} {now : UInt64}
    (h : (x.send ch data reliable now).1 = .ok) :
    ∃ f : Plain, (x.send ch data reliable now).2.2 = [.tx f.bytes] := by
  rcases Session.send_cases x ch data reliable now with ⟨r, hr, he⟩ | ⟨-, hlen, he⟩ | ⟨-, hlen, -, he⟩ <;>
    rw [he] at h ⊢
  · exact absurd h hr
  · exact ⟨⟨ttData, x.sessionId, ch, 0, 0, 0, data, by decide, hlen⟩, rfl⟩
  · exact ⟨⟨ttData, x.sessionId, ch, tfReliable, x.nextSeq, 0, data, by decide, hlen⟩, rfl⟩

theorem withSession_tx (env : Env) {peer frame : Bytes} {g : Session → Session × List Session.Out}
    (hg : (g (sessionFor peer s).1).2 = [.tx frame]) (hc : s.conns[peer]? = some c) :
    ∃ t, outer t = outer s ∧ (withSession env peer g s).2 = (sendTunnelVia env c frame t).2 := by
  have hfor := sessionFor_outer peer s
  have hconns : (outer (sessionFor peer s).2).conns[peer]? = some c := by
    rw [hfor]
    exact hc
  change (sessionFor peer s).2.conns[peer]? = some c at hconns
  unfold withSession
  generalize sessionFor peer s = x at hg hfor hconns ⊢
  refine ⟨{ x.2 with sessions := x.2.sessions.insert peer (g x.1).1 }, hfor, ?_⟩
  dsimp only
  rw [hg]
  simp only [forEach, andThen, sessionOut, hconns, skip, List.append_nil]

/-- Every connection that is up is reachable: each frame for it is handed to a transport, and
`send` never returns 0 for one that is not. -/
structure Serves (s : P2PClient) : Prop where
  tunnel : ∀ (key : Bytes) (c : Conn), s.conns[key]? = some c → c.connected = true →
    ∀ (env : Env) (f : Plain), Delivers env c f.bytes s
  send : ∀ (env : Env) (peer : Bytes) (channel : UInt8) (data : Bytes) (reliable : Bool),
    (send env peer channel data reliable s).1 = some .ok →
      ∃ c, s.conns[peer]? = some c ∧ ∃ o ∈ (send env peer channel data reliable s).2.2, ∃ tx,
        Carries s.cfg.uuid c.peerUuid tx o

/-- `send` hands the frame of the session to `send_tunnel_via`. -/
theorem serves_of_tunnel (h : ∀ (key : Bytes) (c : Conn), s.conns[key]? = some c → c.connected = true →
    ∀ (env : Env) (f : Plain), Delivers env c f.bytes s) : Serves s := by
  refine ⟨h, fun env peer channel data reliable hok => ?_⟩
  unfold P2PClient.send at hok ⊢
  split at hok
  · cases hok
  · rename_i c hc
    split at hok
    · cases hok
    · rename_i hup
      obtain ⟨f, hf⟩ := send_frame (Option.some.inj hok)
      have hfor := sessionFor_outer peer s
      obtain ⟨t, hout, hsent⟩ := withSession_tx env
        (g := fun x => ((x.send channel data reliable env.now).2.1, (x.send channel data reliable env.now).2.2)) hf hc
      have hcfg : (outer t).cfg.uuid = (outer s).cfg.uuid := by rw [hout]
      change t.cfg.uuid = s.cfg.uuid at hcfg
      obtain ⟨o, ho, tx, hcarries⟩ := (delivers_iff env c f).mpr ((hasTransport_outer hout).mpr
        ((delivers_iff env c f).mp (h peer c hc (by simpa using hup) env f)))
      rw [if_neg hup]
      refine ⟨c, hc, o, ?_, tx, ?_⟩
      · rw [← hsent] at ho
        exact ho
      · rw [← hcfg]
        exact hcarries

/-- In every state of every run in which the ICE library reports on agents that exist, the client
serves its connections if and only if none of them has a path that `send_tunnel_via` drops frames on.
In runs in which the relay is registered with first, it always does. -/
theorem serves_iff_served (h : Reach client (Faithful False) s) :
    (Serves s ↔ ∀ (key : Bytes) (c : Conn), s.conns[key]? = some c → c.connected = true → Served s c) ∧
      (Reach client (Faithful True) s → Serves s) := by
  refine ⟨⟨fun hs key c hc hup => served_of_delivers (hs.tunnel key c hc hup), fun hs => ?_⟩, fun hr => ?_⟩
  · have hwired := run_wired h
    exact serves_of_tunnel fun key c hc hup => delivers_of_served (hwired.conns key c hc) hup (hs key c hc hup)
  · have hwired := run_wired hr
    refine serves_of_tunnel fun key c hc hup => delivers_of_served (hwired.conns key c hc) hup (.inr ?_)
    have hreg := (hwired.conns key c hc).relayed trivial
    exact ⟨hreg, fun hor => hwired.address trivial (hor.elim hreg And.left)⟩

/-- Nothing is asked of a step without a datagram or a report of the ICE library. -/
theorem faithful_quiet {strict : Prop} {e : Env × Event} (hjuice : ∀ peer, e.2 ≠ .juiceState peer)
    (hpacket : strict → ∀ m len src, e.2 ≠ .packet m len src) : Faithful strict s e :=
  ⟨fun peer _ he => absurd he (hjuice peer), fun hs m len src _ _ he => absurd he (hpacket hs m len src)⟩

theorem metU_reach (strict : Prop) : Reach client (Faithful strict) metU := by
  have hagent : ((client.next (started Samples.uuidU) ({}, .connect Samples.uuidV)).conns[Samples.uuidV]?).map
      (fun c => c.punch.juice) = some true := by decide +kernel
  refine .step (.step (.step (.start ⟨_, _, rfl⟩) trivial ?_) trivial ?_) trivial ⟨fun peer c he hc => ?_, ?_⟩
  · exact faithful_quiet (fun _ h => by cases h) fun _ _ _ _ h => by cases h
  · exact faithful_quiet (fun _ h => by cases h) fun _ _ _ _ h => by cases h
  · cases he
    rw [hc] at hagent
    exact Option.some.inj hagent
  · intro _ _ _ _ _ _ he
    cases he

theorem serves_iff_served_metU : Serves metU :=
  (serves_iff_served (metU_reach False)).2 (metU_reach True)

/-- The answer to the registration is lost, and a frame of the peer comes through the relay. -/
def halfRegistered : P2PClient :=
  let cfg : Config := { uuid := Samples.uuidU, natServers := [relayServer], proxyServers := [relayServer] }
  client.next (client.next (client.next { cfg := cfg } ({}, .start cfg)) ({}, .tick 0))
    ({}, relays Samples.uuidV Samples.uuidU (controlFrame ttPing 1))

/-- The client is told of a connection, and `send` returns 0 without a datagram. -/
theorem not_serves : ¬∀ s, Reach client (Faithful False) s → Serves s := by
  intro h
  have hreach : Reach client (Faithful False) halfRegistered := by
    refine .step (.step (.step (.start ⟨_, _, rfl⟩) trivial ?_) (by decide +kernel) ?_) (by decide +kernel) ?_
    · exact faithful_quiet (fun _ h => by cases h) False.elim
    · exact faithful_quiet (fun _ h => by cases h) False.elim
    · exact faithful_quiet (fun _ h => by cases h) False.elim
  obtain ⟨c, -, o, ho, -⟩ := (h _ hreach).send {} Samples.uuidV 0 [0x41] false (by decide +kernel)
  have hnone : (P2PClient.send {} Samples.uuidV 0 [0x41] false halfRegistered).2.2 = [] := by decide +kernel
  rw [hnone] at ho
  cases ho

end P2PServer.P2PClient
