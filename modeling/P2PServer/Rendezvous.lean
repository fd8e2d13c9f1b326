import P2PServer.DataPlane
import P2PServer.HeartbeatExchange
import P2PServer.RegistryHistory
import P2PServer.SdpExchange

/-! A connection brought about by the server: the client's request, the server's answer and its invite, and
what the two clients make of them. Either aims at the address under which the server knows the other. -/
namespace P2PServer.Rendezvous
open ByteStrings ProtoDef Net NatServer Registry PacketCases ServerRun Transitions Expiry RegistryHistory
open SyncConvergence (Content content)
open P2PClient (Conn connAt setConn connectReq onConnectAck onConnectInvite lanTarget isPrivateIp)

theorem cstr_ipField (ip : UInt32) (b : Bytes) : cstr (ipField ip ++ b) = inetNtop ip := by
  have hlen := inetNtop_length ip
  obtain ⟨k, hk⟩ : ∃ k, maxIpLen - (inetNtop ip).length = k + 1 := ⟨15 - (inetNtop ip).length, by
    have hmax : maxIpLen = 16 := rfl
    omega⟩
  rw [ipField, padded, hk, List.replicate_succ, List.append_assoc, List.cons_append, cstr_append_zero]
  have h := cstr_inetNtop ip 0
  rwa [List.replicate_zero, List.append_nil] at h

theorem inetPton_ipField (ip : UInt32) (b : Bytes) : inetPton (ipField ip ++ b) = some ip := by
  have hsame : inetPton (ipField ip ++ b) = inetPton (inetNtop ip) := by
    have htext := cstr_inetNtop ip 0
    rw [List.replicate_zero, List.append_nil] at htext
    unfold inetPton
    rw [cstr_ipField, htext]
  rw [hsame, inetPton_inetNtop]

theorem inetNtop_injective {a b : UInt32} (h : inetNtop a = inetNtop b) : a = b := by
  have hback := inetPton_inetNtop a
  rw [h, inetPton_inetNtop] at hback
  exact (Option.some.inj hback).symm

/-- The second address that is worth trying: a private one that is not the public one. -/
def lanOf (c : Content) : Option Addr :=
  if isPrivateIp c.lanAddr.ip && decide (c.lanAddr.ip ≠ c.pubAddr.ip) then some c.lanAddr else none

section
variable {w b : Bytes} {pub lan : Addr} {nattype : UInt8} {j : ℕ}

theorem sockaddrFrom_read (h : w.drop j = peerAddresses pub lan nattype ++ b) :
    sockaddrFrom (w.drop j) (u16At w (j + 16)) = some pub := by
  have h0 : w.drop j = ipField pub.ip ++ (be16 pub.port ++ (ipField lan.ip ++ (be16 lan.port ++ (nattype :: b)))) := by
    rw [h]
    simp [peerAddresses]
  have h16 := drop_past h0 (j := j + 16) (by rw [ipField_length])
  rw [u16At_of_drop h16, h0, sockaddrFrom, inetPton_ipField]
  rfl

theorem lanTarget_read {c : Content} (h : w.drop j = peerAddresses c.pubAddr c.lanAddr nattype ++ b) :
    lanTarget (w.drop j) (w.drop (j + 18)) (u16At w (j + 34)) = lanOf c := by
  have h0 : w.drop j = ipField c.pubAddr.ip ++ (be16 c.pubAddr.port ++ (ipField c.lanAddr.ip ++
      (be16 c.lanAddr.port ++ (nattype :: b)))) := by
    rw [h]
    simp [peerAddresses]
  have h16 := drop_past h0 (j := j + 16) (by rw [ipField_length])
  have h18 := drop_past h16 (j := j + 18) rfl
  have h34 := drop_past h18 (j := j + 34) (by rw [ipField_length])
  have hfield (ip : UInt32) (rest : Bytes) : cstr ((ipField ip ++ rest).take maxIpLen) = inetNtop ip := by
    rw [List.take_left' (show _ = maxIpLen from ipField_length ip)]
    have := cstr_ipField ip []
    rwa [List.append_nil] at this
  have htext : inetNtop c.lanAddr.ip ≠ inetNtop c.pubAddr.ip ↔ c.lanAddr.ip ≠ c.pubAddr.ip :=
    not_congr ⟨inetNtop_injective, congrArg _⟩
  rw [u16At_of_drop h34, h18, h0, lanTarget, inetPton_ipField]
  dsimp only
  rw [hfield, hfield, lanOf, decide_eq_decide.mpr htext]

end

/-- The client sets up a connection with the peer, tries it at the address, and at a second one if there is
any, and takes the frames that come from there as the peer's. -/
structure Aims (peer : Bytes) (addr : Addr) (lan : Option Addr) (s : P2PClient) : Prop where
  conn : ∃ c : Conn, s.conns[peer]? = some c ∧ c.peerUuid = peer ∧ c.connecting = true ∧
    c.punch.haveDirect = true ∧ c.punch.direct = addr ∧
    ∀ l ∈ lan, c.punch.haveLan = true ∧ c.punch.directLan = l
  source : s.addrToPeer[addrKey addr]? = some peer
  sourceLan : ∀ l ∈ lan, s.addrToPeer[addrKey l]? = some peer

section
variable {env : P2PClient.Env} {s : P2PClient}

theorem adoptProxies_aims {now : UInt64} {cands : List P2PClient.ServerAddr} {peer : Bytes} {addr : Addr}
    {lan : Option Addr} (h : Aims peer addr lan s) : Aims peer addr lan (P2PClient.adoptProxies now cands s) := by
  unfold P2PClient.adoptProxies
  split
  · exact ⟨h.conn, h.source, h.sourceLan⟩
  · split
    · exact ⟨h.conn, h.source, h.sourceLan⟩
    · exact h

theorem ackConn_aim (env : P2PClient.Env) {cfg : P2PClient.Config} (hdirect : cfg.forceRelay = false) {w b : Bytes} {c : Content}
    {nattype : UInt8} (h34 : w.drop 34 = peerAddresses c.pubAddr c.lanAddr nattype ++ b) (c0 : Conn) :
    (P2PClient.ackConn env cfg w c0).peerUuid = c0.peerUuid ∧
      (P2PClient.ackConn env cfg w c0).connecting = c0.connecting ∧
      (P2PClient.ackConn env cfg w c0).punch.haveDirect = true ∧
      (P2PClient.ackConn env cfg w c0).punch.direct = c.pubAddr ∧
      (P2PClient.ackConn env cfg w c0).punch.haveLan = (lanOf c).isSome ∧
      (P2PClient.ackConn env cfg w c0).punch.directLan = (lanOf c).getD c0.punch.directLan := by
  have haddr := sockaddrFrom_read h34
  have hlan := lanTarget_read h34
  rw [P2PClient.ackConn, hdirect, if_neg Bool.false_ne_true, haddr, hlan]
  exact ⟨rfl, rfl, rfl, rfl, rfl, rfl⟩

/-- Frames from either address are taken as the peer's. -/
theorem learnAddrs_sources {cfg : P2PClient.Config} (hdirect : cfg.forceRelay = false) (peer : Bytes) (c : Conn)
    (m : Std.ExtTreeMap UInt64 Bytes) :
    (P2PClient.learnAddrs cfg peer c m)[addrKey c.punch.direct]? = some peer ∧
      (c.punch.haveLan = true → (P2PClient.learnAddrs cfg peer c m)[addrKey c.punch.directLan]? = some peer) := by
  rw [P2PClient.learnAddrs, hdirect, if_neg Bool.false_ne_true]
  split
  · refine ⟨?_, fun _ => by rw [TreeMaps.insert_get, if_pos rfl]⟩
    rw [TreeMaps.insert_get, TreeMaps.insert_get, if_pos rfl, ite_self]
  · rename_i hno
    exact ⟨by rw [TreeMaps.insert_get, if_pos rfl], fun hlan => absurd hlan hno⟩

theorem onConnectAck_aims (hs : P2PClient.Named s) (hdirect : s.cfg.forceRelay = false) {w b v : Bytes} {c : Content}
    {nattype : UInt8} (hsize : w.length = P2PClient.connectAckSize) (hresult : byteAt w 0 = ProtoDef.connectOk)
    (hpeer : uuidAt w 1 = v) (h34 : w.drop 34 = peerAddresses c.pubAddr c.lanAddr nattype ++ b) :
    Aims v c.pubAddr (lanOf c) (onConnectAck env w s).1 := by
  have hfits := hs.connAt v
  rw [onConnectAck, if_neg (by omega), List.take_of_length_le hsize.le]
  dsimp only
  rw [hpeer, hresult, if_neg (by decide), if_neg (by simp)]
  refine adoptProxies_aims ?_
  have hnamed : (if (!(connAt s v).connecting) = true then
      { connAt s v with peerUuid := v, connecting := true } else connAt s v).peerUuid = v ∧
      (if (!(connAt s v).connecting) = true then
        { connAt s v with peerUuid := v, connecting := true } else connAt s v).connecting = true := by
    split
    · exact ⟨rfl, rfl⟩
    · rename_i hc
      have hon : (connAt s v).connecting = true := by simpa using hc
      exact ⟨hfits hon, hon⟩
  generalize (if (!(connAt s v).connecting) = true then
    { connAt s v with peerUuid := v, connecting := true } else connAt s v) = c0 at hnamed ⊢
  obtain ⟨hname, hset, hhave, haim, hlan, hsecond⟩ := ackConn_aim env hdirect h34 c0
  generalize P2PClient.ackConn env s.cfg w c0 = c1 at hname hset hhave haim hlan hsecond ⊢
  obtain ⟨hsource, hsourceLan⟩ := learnAddrs_sources hdirect v c1 s.addrToPeer
  have hlanAim : ∀ l ∈ lanOf c, c1.punch.haveLan = true ∧ c1.punch.directLan = l := by
    intro l hl
    rw [Option.mem_def.mp hl] at hlan hsecond
    exact ⟨hlan, hsecond⟩
  refine ⟨⟨c1, (TreeMaps.insert_get ..).trans (if_pos rfl), hname.trans hnamed.1, hset.trans hnamed.2, hhave, haim,
    hlanAim⟩, ?_, fun l hl => ?_⟩
  · rw [← haim]
    exact hsource
  · obtain ⟨hon, hl'⟩ := hlanAim l hl
    rw [← hl']
    exact hsourceLan hon

theorem ensureIceAgent_aim (env : P2PClient.Env) (cfg : P2PClient.Config) (c : Conn) :
    (P2PClient.ensureIceAgent env cfg c).1.peerUuid = c.peerUuid ∧
      (P2PClient.ensureIceAgent env cfg c).1.connecting = c.connecting ∧
      (P2PClient.ensureIceAgent env cfg c).1.punch.haveDirect = c.punch.haveDirect ∧
      (P2PClient.ensureIceAgent env cfg c).1.punch.direct = c.punch.direct := by
  unfold P2PClient.ensureIceAgent
  split
  · exact ⟨rfl, rfl, rfl, rfl⟩
  · split <;> exact ⟨rfl, rfl, rfl, rfl⟩

theorem applyRemoteIceSdp_aim (c : Conn) (sdp : Bytes) :
    (P2PClient.applyRemoteIceSdp c sdp).1.peerUuid = c.peerUuid ∧
      (P2PClient.applyRemoteIceSdp c sdp).1.connecting = c.connecting ∧
      (P2PClient.applyRemoteIceSdp c sdp).1.punch.haveDirect = c.punch.haveDirect ∧
      (P2PClient.applyRemoteIceSdp c sdp).1.punch.direct = c.punch.direct := by
  unfold P2PClient.applyRemoteIceSdp
  split <;> exact ⟨rfl, rfl, rfl, rfl⟩

theorem onConnectInvite_aims (hdirect : s.cfg.forceRelay = false) {w b u : Bytes} {pub lan : Addr}
    {nattype : UInt8} (hsize : w.length = P2PClient.connectInviteSize) (hu : u ≠ []) (hpeer : uuidAt w 0 = u)
    (h33 : w.drop 33 = peerAddresses pub lan nattype ++ b) : Aims u pub none (onConnectInvite env w s).1 := by
  have haddr := sockaddrFrom_read h33
  rw [onConnectInvite, if_neg (by omega), List.take_of_length_le hsize.le]
  dsimp only
  rw [hpeer, if_neg (by simpa using hu), hdirect, if_neg Bool.false_ne_true, haddr, Option.getD_some]
  refine adoptProxies_aims ?_
  let c0 : Conn := { connAt s u with
    peerUuid := u, connecting := true, self := true
    punch := { (connAt s u).punch with
      directOk := false, haveDirect := true, nextPunch := env.now + 100
      punchDeadline := env.now + s.cfg.connectTimeoutMs.toUInt64, direct := pub } }
  obtain ⟨h1, h2, h3, h4⟩ := ensureIceAgent_aim env s.cfg c0
  refine ⟨⟨_, (TreeMaps.insert_get ..).trans (if_pos rfl), ?_⟩, ?_, fun l hl => by cases hl⟩
  · split
    · exact ⟨h1, h2, h3, h4, fun l hl => by cases hl⟩
    · obtain ⟨h1', h2', h3', h4'⟩ := applyRemoteIceSdp_aim (P2PClient.ensureIceAgent env s.cfg c0).1 s.pendingRemoteSdp
      exact ⟨h1'.trans h1, h2'.trans h2, h3'.trans h3, h4'.trans h4, fun l hl => by cases hl⟩
  · rw [TreeMaps.insert_get, if_pos rfl]

end

def request (u v : Bytes) : Bytes := uuidField u ++ uuidField v

theorem request_uuids {u v : Bytes} (hu : P2PProxy.Proper u) (hv : P2PProxy.Proper v) :
    uuidAt (request u v) 0 = u ∧ uuidAt (request u v) 33 = v := by
  have h := P2PClient.uuidAt_relayPayload hu hv []
  rwa [P2PClient.relayPayload, List.append_nil] at h

/-- The gates let a request of this uuid through. -/
structure Admits (env : Env) (u : Bytes) (s : NatServer) : Prop where
  authed : (s.cfg.authEnabled && !s.peers.authed u env.now) = false
  permitted : (s.cfg.enableLicense && !s.license.permits u) = false

section
variable {env : Env} {s : NatServer} {u v : Bytes} {src : Addr} {dst : Peer}

theorem grantedAck_layout (env : Env) (s : NatServer) (u : Bytes) (dst : Peer) (hv : P2PProxy.Proper v) :
    (grantedAck env (request u v) dst s).length = P2PClient.connectAckSize ∧
      byteAt (grantedAck env (request u v) dst s) 0 = ProtoDef.connectOk ∧
      uuidAt (grantedAck env (request u v) dst s) 1 = v ∧
      (grantedAck env (request u v) dst s).drop 34 =
        peerAddresses dst.pubAddr dst.lanAddr dst.nattype ++ proxyTable s.proxyPort (pickProxy env env.draw s) := by
  have hraw : window (request u v) 33 maxUuidLen = (uuidField v).take maxUuidLen := by
    rw [window, request, List.drop_left' (uuidField_length u)]
  have h0 : (grantedAck env (request u v) dst s).drop 0 = [ProtoDef.connectOk] ++ (uuidField v ++
      (peerAddresses dst.pubAddr dst.lanAddr dst.nattype ++ proxyTable s.proxyPort (pickProxy env env.draw s))) := by
    rw [List.drop_zero, grantedAck, connectAck, hraw, List.take_take, min_self, List.append_assoc [_],
      HeartbeatExchange.uuidField_terminated, List.append_assoc [_]]
  have h1 := drop_past h0 (j := 1) rfl
  have h34 := drop_past h1 (j := 34) (by rw [uuidField_length])
  refine ⟨?_, byteAt_of_drop h0, ?_, h34⟩
  · rw [← List.drop_zero (l := grantedAck env (request u v) dst s), h0]
    simp only [List.length_append, uuidField_length, peerAddresses_length, List.length_singleton,
      Gates.proxyTable_length _ (Gates.pickProxy_length env env.draw s)]
    rfl
  · have h := uuidAt_uuidField v
      (peerAddresses dst.pubAddr dst.lanAddr dst.nattype ++ proxyTable s.proxyPort (pickProxy env env.draw s))
    rw [hv.text, List.take_of_length_le hv.short, ← h1] at h
    conv_rhs => rw [← h]
    simp only [uuidAt, textAt, window, List.drop_drop, Nat.add_zero]

theorem grantedInvite_layout (env : Env) (s : NatServer) (v : Bytes) (src : Addr) (hu : P2PProxy.Proper u) :
    (grantedInvite env (request u v) src s).length = P2PClient.connectInviteSize ∧
      uuidAt (grantedInvite env (request u v) src s) 0 = u ∧
      ∃ lan nattype, (grantedInvite env (request u v) src s).drop 33 = peerAddresses src lan nattype ++
        proxyTable s.proxyPort (pickProxy env (fun k => env.draw (k + 3)) s) := by
  have hraw : window (request u v) 0 maxUuidLen = (uuidField u).take maxUuidLen := by
    rw [window, List.drop_zero, request, List.take_append_of_le_length]
    rw [uuidField_length]
    decide
  obtain ⟨lan, nattype, hw⟩ : ∃ lan nattype, grantedInvite env (request u v) src s = uuidField u ++
      (peerAddresses src lan nattype ++ proxyTable s.proxyPort (pickProxy env (fun k => env.draw (k + 3)) s)) := by
    unfold grantedInvite
    rw [hraw, HeartbeatExchange.uuidField_terminated]
    cases s.peers.get (uuidAt (request u v) 0) with
    | none => exact ⟨src, natUnknown, by rw [List.append_assoc]⟩
    | some me => exact ⟨me.lanAddr, me.nattype, by rw [List.append_assoc]⟩
  rw [hw, uuidAt_uuidField, hu.text, List.take_of_length_le hu.short]
  refine ⟨?_, rfl, lan, nattype, List.drop_left' (uuidField_length u)⟩
  simp only [List.length_append, uuidField_length, peerAddresses_length,
    Gates.proxyTable_length _ (Gates.pickProxy_length env _ s)]
  rfl

theorem sendMsg_out {dst : Addr} {msgId : UInt8} {payload : Bytes} (h : payload.length ≤ 2040) (s : NatServer) :
    (sendMsg dst msgId payload s).2 = [.send dst (datagram msgId payload)] := by
  have hmax : maxPkt = 2048 := rfl
  rw [sendMsg, if_neg (by omega)]
  rfl

theorem handlePacket_connects (src : Addr) (hu : P2PProxy.Proper u) (hv : P2PProxy.Proper v) (hadmits : Admits env u s)
    (hdst : s.peers.get v = some dst) :
    (handlePacket env (datagram msgConnectReq (request u v)) src s).2 =
      [.send src (datagram msgConnectAck (grantedAck env (request u v) dst s)),
        .send dst.pubAddr (datagram msgConnectInvite (grantedInvite env (request u v) src s))] := by
  have hsize : (request u v).length = connectReqSize := by
    simp [request, connectReqSize]
  obtain ⟨hsrc, hto⟩ := request_uuids hu hv
  have hways := onConnectReq_connects env (request u v) src s
  rw [handlePacket_read (readDatagram_datagram msgConnectReq (by rw [hsize]; decide))]
  change (onConnectReq env (request u v) src s).2 = _
  generalize onConnectReq env (request u v) src s = r at hways ⊢
  cases hways with
  | short h => omega
  | refused _ _ hwhy =>
    rw [hsrc, hto, hadmits.authed, hadmits.permitted, hdst] at hwhy
    rcases hwhy with hwhy | hwhy | hwhy <;> cases hwhy
  | granted _ _ _ hget =>
    rw [hto, hdst, Option.some.injEq] at hget
    subst hget
    have hack := (grantedAck_layout env s u dst hv).1
    have hinvite := (grantedInvite_layout env s v src hu).1
    have hackSize : P2PClient.connectAckSize = 126 := rfl
    have hinviteSize : P2PClient.connectInviteSize = 125 := rfl
    dsimp only
    rw [sendMsg_out (by omega), sendMsg_out (by omega)]
    rfl

end

theorem connect_asks {env : P2PClient.Env} {a : P2PClient} {v q : Bytes} {dst : Addr}
    (h : P2PClient.Out.proto dst msgConnectReq q ∈ (P2PClient.connect env v a).2) : q = request a.cfg.uuid v := by
  have hice (cfg : P2PClient.Config) (c : Conn) :
      P2PClient.Out.proto dst msgConnectReq q ∉ (P2PClient.ensureIceAgent env cfg c).2 := by
    unfold P2PClient.ensureIceAgent
    split
    · simp
    · split <;> simp
  unfold P2PClient.connect at h
  split at h
  · simp at h
  · dsimp only at h
    split at h
    · simp at h
    · rw [Effects.andThen, List.mem_append] at h
      rcases h with h | h
      · exact absurd h (hice _ _)
      · unfold P2PClient.sendProtoNat P2PClient.sendProto at h
        split at h
        · simp [Effects.skip] at h
        · rw [Effects.emit, List.mem_singleton, P2PClient.Out.proto.injEq] at h
          exact h.2.2

/-- Every client that may go straight to its peers and receives the datagram aims at the peer. -/
def LeadsTo (data peer : Bytes) (addr : Addr) (lan : Option Addr) : Prop :=
  ∀ (env : P2PClient.Env) (s : P2PClient) (m : Memory) (len : ℕ) (src : Addr), Reachable P2PClient.client s →
    s.cfg.forceRelay = false → m.read 0 len = data → Aims peer addr lan (P2PClient.handlePacket env m len src s).1

/-- In every run, a request that a client sends is answered if it passes the gates and its peer was
registered in the last 90 seconds. The answer leads to the address that was registered last, and the
invite that goes there leads to the address of the one who asked. -/
theorem rendezvous {s : ℤ × NatServer} (hs : s.2.peers.WellFiled) {es : List Event}
    (hr : Run servers (fun _ _ => True) s es) {clientEnv : P2PClient.Env} {a : P2PClient} {v q : Bytes} {dst : Addr}
    (hsent : P2PClient.Out.proto dst msgConnectReq q ∈ (P2PClient.connect clientEnv v a).2)
    (hu : P2PProxy.Proper a.cfg.uuid) (hv : P2PProxy.Proper v) {r : Record}
    (hlast : written (known s.2.peers) (history s es) v = some r) {env : Env}
    (hnow : (es.foldl servers.next s).1 ≤ env.now) (hage : env.now - r.2 ≤ 90)
    (hadmits : Admits env a.cfg.uuid (es.foldl servers.next s).2) (src : Addr) :
    ∃ ack invite, (handlePacket env (datagram msgConnectReq q) src (es.foldl servers.next s).2).2 =
        [.send src (datagram msgConnectAck ack), .send r.1.pubAddr (datagram msgConnectInvite invite)] ∧
      LeadsTo (datagram msgConnectAck ack) v r.1.pubAddr (lanOf r.1) ∧
      LeadsTo (datagram msgConnectInvite invite) a.cfg.uuid src none := by
  have halive : visit.alive env.now r = true := by simpa [visit] using hage
  have hknown := (run_known hs hr).found.2 hlast (visit.early hnow halive)
  obtain ⟨peer, hpeer, hrecord⟩ := Option.map_eq_some_iff.mp hknown
  obtain rfl := connect_asks hsent
  have hout := handlePacket_connects src hu hv hadmits hpeer
  generalize (es.foldl servers.next s).2 = server at hout ⊢
  have hcontent : content peer = r.1 := congrArg Prod.fst hrecord
  have hpub : r.1.pubAddr = peer.pubAddr := by rw [← hcontent, content]
  rw [hpub]
  refine ⟨_, _, hout, ?_, ?_⟩
  · intro env' t m len src' ht hdirect hread
    obtain ⟨hsize, hresult, hname, haddr⟩ :=
      grantedAck_layout env server a.cfg.uuid peer hv
    have hsmall : P2PClient.connectAckSize = 126 := rfl
    obtain ⟨plen, hpayload, hp⟩ := P2PClient.handlePacket_message env' src' t
      (P2PClient.protoOf_of_readDatagram (hread ▸ readDatagram_datagram msgConnectAck (by omega)))
    rw [hp]
    change Aims v peer.pubAddr (lanOf r.1) (onConnectAck env' ((m.offset 8).read 0 plen) t).1
    rw [hpayload, ← hcontent]
    exact onConnectAck_aims (c := content peer) (P2PClient.named_reachable ht) hdirect hsize hresult hname haddr
  · intro env' t m len src' _ hdirect hread
    obtain ⟨hsize, hname, lan, nattype, haddr⟩ :=
      grantedInvite_layout env server v src hu
    have hsmall : P2PClient.connectInviteSize = 125 := rfl
    obtain ⟨plen, hpayload, hp⟩ := P2PClient.handlePacket_message env' src' t
      (P2PClient.protoOf_of_readDatagram (hread ▸ readDatagram_datagram msgConnectInvite (by omega)))
    rw [hp]
    change Aims a.cfg.uuid src none (onConnectInvite env' ((m.offset 8).read 0 plen) t).1
    rw [hpayload]
    exact onConnectInvite_aims hdirect hsize hu.nonempty hname haddr

def asker : P2PClient := { cfg := { uuid := [0x61], natServers := [] }, running := true }

def outside : Addr := ⟨0x0A000009, 4000⟩

theorem rendezvous_moving : ∃ ack invite,
    (handlePacket { now := 240 } (datagram msgConnectReq (request [0x61] [0x75])) outside
      (moving.foldl servers.next (0, {})).2).2 =
        [.send outside (datagram msgConnectAck ack), .send away (datagram msgConnectInvite invite)] ∧
      LeadsTo (datagram msgConnectAck ack) [0x75] away none ∧
      LeadsTo (datagram msgConnectInvite invite) [0x61] outside none := by
  have hs : ((0, {}) : ℤ × NatServer).2.peers.WellFiled := by
    intro u p hp
    simp at hp
  have hr : Run servers (fun _ _ => True) (0, {}) moving :=
    ⟨(by decide : (0 : ℤ) ≤ 100), trivial, (by decide : (100 : ℤ) ≤ 150), trivial, (by decide : (150 : ℤ) ≤ 195),
      trivial, trivial⟩
  have hsent : P2PClient.Out.proto asker.natSock msgConnectReq (request [0x61] [0x75]) ∈
      (P2PClient.connect {} [0x75] asker).2 := by
    decide +kernel
  have hproper (x : UInt8) (hx : x ≠ 0) : P2PProxy.Proper [x] :=
    ⟨List.cons_ne_nil _ _, by simp [maxUuidLen], by simp [cstr, hx]⟩
  have hadmits : Admits { now := 240 } asker.cfg.uuid (moving.foldl servers.next (0, {})).2 :=
    ⟨by decide +kernel, by decide +kernel⟩
  have h := rendezvous (r := awayRecord) hs hr hsent (hproper 0x61 (by decide)) (hproper 0x75 (by decide))
    (by decide +kernel) (by decide +kernel) (by decide) hadmits outside
  rwa [show lanOf awayRecord.1 = none by decide] at h

end P2PServer.Rendezvous
