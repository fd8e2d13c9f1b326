import P2PServer.CfgLines
import P2PServer.Gates

/-! The candidates that `pick_proxy` lists: drawn with replacement among the healthy proxies, then
filled up in the order of the configuration. -/
namespace P2PServer.ProxyCandidates
open ByteStrings ProtoDef Net NatServer Gates

/-- A text that a field of `MAX_IP_LEN` bytes holds as it is. -/
structure IpText (ip : Bytes) : Prop where
  short : ip.length ≤ 15
  text : 0 ∉ ip
  nonempty : ip ≠ []

theorem ipText_inetNtop (a : UInt32) : IpText (inetNtop a) where
  short := inetNtop_length a
  text h := absurd (inetNtop_ne_zero 0 h) (by decide)
  nonempty h := by
    have hread := inetPton_inetNtop a
    have hnone : inetPton [] = none := by decide
    rw [h, hnone] at hread
    cases hread

theorem foldl_validIpStep_none (ip : Bytes) : ip.foldl CfgFile.validIpStep none = none := by
  induction ip with
  | nil => rfl
  | cons c ip ih => exact ih

theorem foldl_validIpStep_text {ip : Bytes} {st st' : ℕ × ℕ × ℕ}
    (h : ip.foldl CfgFile.validIpStep (some st) = some st') : 0 ∉ ip := by
  induction ip generalizing st with
  | nil => exact List.not_mem_nil
  | cons c ip ih =>
    rw [List.foldl_cons] at h
    cases hstep : CfgFile.validIpStep (some st) c with
    | none =>
      rw [hstep, foldl_validIpStep_none] at h
      cases h
    | some next =>
      rw [hstep] at h
      rintro hmem
      rcases List.mem_cons.mp hmem with rfl | hmem
      · cases hstep
      · exact ih h hmem

theorem ipText_of_valid {ip : Bytes} (h : CfgFile.validIp ip = true) : IpText ip := by
  unfold CfgFile.validIp at h
  split at h
  · cases h
  next hkeep =>
    rw [not_or] at hkeep
    split at h
    next seg num dots hfold =>
      exact ⟨by omega, foldl_validIpStep_text hfold, by simpa using hkeep.1⟩
    · cases h

theorem text_ipTextField {ip : Bytes} (h : IpText ip) : cstr (ipTextField ip) = ip := by
  have hall : cstr ip = ip := cstr_eq_self h.text
  have hshort : ip.take 15 = ip := List.take_of_length_le h.short
  rw [ipTextField, field, cstr_take_append_zero, hall]
  exact hshort

theorem loadServerSet_valid (out : CfgFile) (path : Bytes) (file : Option Bytes) :
    ∀ ip ∈ (CfgFile.loadServerSet out path file).2.proxyIps, CfgFile.validIp ip = true := by
  have hlocal : CfgFile.validIp CfgFile.localhost = true := by decide
  cases file with
  | none =>
    intro ip hip
    rw [List.mem_singleton.mp hip]
    exact hlocal
  | some content =>
    rw [CfgFile.loadServerSet_some]
    unfold CfgFile.filled
    dsimp only
    split
    · intro ip hip
      rw [List.mem_singleton.mp hip]
      exact hlocal
    · intro ip hip
      rcases (CfgFile.mem_addresses_foldl _ _ ip).mp (List.mem_append_right _ hip) with hnone | ⟨a, -, ha, rfl⟩
      · cases hnone
      · exact ha.2

def drawn (draw : ℕ → ℕ) (cands : List Bytes) : List Bytes :=
  (List.range 3).foldl (fun out k =>
    match cands[draw k % cands.length]? with
    | some ip => addCandidate out ip
    | none => out) []

def filledUp (ips out : List Bytes) : List Bytes :=
  ips.foldl (fun out ip =>
    if out.length ≥ 3 ∨ out.contains ip then out else out ++ [cstr (ipTextField ip)]) out

theorem pickProxy_eq (env : Env) (draw : ℕ → ℕ) (s : NatServer) :
    pickProxy env draw s = filledUp s.cfg.proxyIps (drawn draw (healthyProxies env s)) := rfl

theorem addCandidate_eq (out : List Bytes) {ip : Bytes} (h : IpText ip) :
    addCandidate out ip = if ip ∈ out then out else out ++ [ip] := by
  rw [addCandidate, text_ipTextField h]
  by_cases hmem : ip ∈ out
  · rw [if_pos (.inr (by simpa using hmem)), if_pos hmem]
  · rw [if_neg (by simpa [h.nonempty] using hmem), if_neg hmem]

/-- What the draws keep: candidates without duplicates. -/
structure Drawn (cands out : List Bytes) : Prop where
  distinct : out.Nodup
  drawn : ∀ ip ∈ out, ip ∈ cands

theorem Drawn.add {cands out : List Bytes} (h : Drawn cands out) {ip : Bytes} (hip : IpText ip)
    (hmem : ip ∈ cands) : Drawn cands (addCandidate out ip) ∧ addCandidate out ip ≠ [] := by
  rw [addCandidate_eq out hip]
  split
  next hold => exact ⟨h, List.ne_nil_of_mem hold⟩
  next hnew =>
    refine ⟨⟨?_, fun a ha => ?_⟩, by simp⟩
    · exact List.nodup_append.mpr ⟨h.distinct, List.nodup_singleton ip, by
        intro a ha b hb
        rw [List.mem_singleton.mp hb]
        rintro rfl
        exact hnew ha⟩
    · rcases List.mem_append.mp ha with ha | ha
      · exact h.drawn a ha
      · rw [List.mem_singleton.mp ha]
        exact hmem

theorem drawn_spec (draw : ℕ → ℕ) {cands : List Bytes} (h : ∀ ip ∈ cands, IpText ip) :
    Drawn cands (drawn draw cands) ∧ (cands ≠ [] → drawn draw cands ≠ []) := by
  by_cases hne : cands = []
  · subst hne
    exact ⟨⟨List.nodup_nil, fun ip hip => by cases hip⟩, fun hne => absurd rfl hne⟩
  · have hround (k : ℕ) : ∃ ip, cands[draw k % cands.length]? = some ip ∧ ip ∈ cands := by
      have hlt : draw k % cands.length < cands.length := Nat.mod_lt _ (List.length_pos_of_ne_nil hne)
      exact ⟨_, List.getElem?_eq_getElem hlt, List.getElem_mem hlt⟩
    obtain ⟨a, hga, hma⟩ := hround 0
    obtain ⟨b, hgb, hmb⟩ := hround 1
    obtain ⟨c, hgc, hmc⟩ := hround 2
    have hdrawn : drawn draw cands = addCandidate (addCandidate (addCandidate [] a) b) c := by
      simp [drawn, List.range_succ, hga, hgb, hgc]
    have h0 : Drawn cands [] := ⟨List.nodup_nil, fun ip hip => by cases hip⟩
    have h1 := h0.add (h a hma) hma
    have h2 := h1.1.add (h b hmb) hmb
    have h3 := h2.1.add (h c hmc) hmc
    rw [hdrawn]
    exact ⟨h3.1, fun _ => h3.2⟩

/-- Filling up keeps the drawn candidates in front, and stops short of three only if every configured
proxy is there. -/
theorem filledUp_spec {ips out : List Bytes} (h : ∀ ip ∈ ips, IpText ip) (hout : out.Nodup) :
    (filledUp ips out).Nodup ∧ out <+: filledUp ips out ∧
      (∀ ip ∈ filledUp ips out, ip ∈ out ∨ ip ∈ ips) ∧
      ((filledUp ips out).length < 3 → ∀ ip ∈ ips, ip ∈ filledUp ips out) := by
  induction ips generalizing out with
  | nil => exact ⟨hout, List.prefix_rfl, fun ip hip => .inl hip, fun _ ip hip => by cases hip⟩
  | cons a ips ih =>
    have htail : ∀ ip ∈ ips, IpText ip := fun ip hip => h ip (List.mem_cons_of_mem _ hip)
    have hcons : filledUp (a :: ips) out =
        filledUp ips (if out.length ≥ 3 ∨ out.contains a then out else out ++ [cstr (ipTextField a)]) := rfl
    rw [hcons, text_ipTextField (h a List.mem_cons_self)]
    split
    next hskip =>
      obtain ⟨hdistinct, hfront, hmem, hfull⟩ := ih htail hout
      refine ⟨hdistinct, hfront, fun ip hip => (hmem ip hip).imp_right (List.mem_cons_of_mem _),
        fun hshort ip hip => ?_⟩
      rcases List.mem_cons.mp hip with rfl | hip
      · have hle := hfront.length_le
        rcases hskip with hlong | hold
        · omega
        · exact hfront.subset (by simpa using hold)
      · exact hfull hshort ip hip
    next hadd =>
      rw [not_or] at hadd
      have hnew : a ∉ out := by simpa using hadd.2
      have hout' : (out ++ [a]).Nodup := List.nodup_append.mpr ⟨hout, List.nodup_singleton a, by
        intro b hb c hc
        rw [List.mem_singleton.mp hc]
        rintro rfl
        exact hnew hb⟩
      obtain ⟨hdistinct, hfront, hmem, hfull⟩ := ih htail hout'
      refine ⟨hdistinct, (List.prefix_append out [a]).trans hfront, fun ip hip => ?_, fun hshort ip hip => ?_⟩
      · rcases hmem ip hip with hip | hip
        · rcases List.mem_append.mp hip with hip | hip
          · exact .inl hip
          · exact .inr (List.mem_cons.mpr (.inl (List.mem_singleton.mp hip)))
        · exact .inr (List.mem_cons_of_mem _ hip)
      · rcases List.mem_cons.mp hip with rfl | hip
        · exact hfront.subset (by simp)
        · exact hfull hshort ip hip

def candidatesAt (p : Bytes) (i : ℕ) : List Bytes :=
  (List.range (byteAt p i).toNat).map fun k => textAt p (i + 1 + 18 * k) 16

theorem candidatesAt_slots {ips : List Bytes} (h : ∀ ip ∈ ips, IpText ip) {p rest : Bytes} {port : UInt16} {j : ℕ}
    (hp : p.drop j = (ips.map fun ip => ipTextField ip ++ be16 port).flatten ++ rest) :
    (List.range ips.length).map (fun k => textAt p (j + 18 * k) 16) = ips := by
  induction ips generalizing j with
  | nil => rfl
  | cons ip ips ih =>
    have hip : IpText ip := h ip List.mem_cons_self
    have hlen : (ipTextField ip).length = 16 := field_length (by decide) ip
    have hfirst : p.drop j = ipTextField ip ++ (be16 port ++
        ((ips.map fun ip => ipTextField ip ++ be16 port).flatten ++ rest)) := by
      rw [hp]
      simp
    have hrest := drop_past (drop_past hfirst (j := j + 16) (by omega)) (j := j + 18) (by rw [be16_length])
    have htext : textAt p j 16 = ip := by
      rw [textAt, window_of_drop hfirst hlen, text_ipTextField hip]
    have htail := ih (fun ip' hip' => h ip' (List.mem_cons_of_mem _ hip')) hrest
    rw [List.length_cons, List.range_succ_eq_map, List.map_cons, List.map_map, Nat.mul_zero, Nat.add_zero, htext]
    congr 1
    conv_rhs => rw [← htail]
    refine List.map_congr_left fun k _ => ?_
    simp only [Function.comp_apply, Nat.succ_eq_add_one]
    congr 1
    ring

theorem candidatesAt_proxyTable {ips : List Bytes} (h : ∀ ip ∈ ips, IpText ip) (hshort : ips.length ≤ 3)
    {p : Bytes} {port : UInt16} {i : ℕ} (hp : p.drop i = proxyTable port ips) : candidatesAt p i = ips := by
  have hcount : byteAt p i = UInt8.ofNat ips.length := byteAt_of_drop hp
  let slots := (ips.map fun ip => ipTextField ip ++ be16 port).flatten
  have hslots : p.drop (i + 1) = slots ++ List.replicate (54 - slots.length) 0 := by
    rw [← List.drop_drop, hp, proxyTable]
    rfl
  have hn : (UInt8.ofNat ips.length).toNat = ips.length := by
    rw [UInt8.toNat_ofNat']
    omega
  rw [candidatesAt, hcount, hn]
  exact candidatesAt_slots h hslots

structure Usable (env : Env) (s : NatServer) (out : List Bytes) : Prop where
  short : out.length ≤ 3
  distinct : out.Nodup
  full : 3 ≤ s.cfg.proxyIps.dedup.length → out.length = 3
  whole : ∀ ip ∈ out, ip ∈ healthyProxies env s ∨ ip ∈ s.cfg.proxyIps
  written : candidatesAt (proxyTable s.proxyPort out) 0 = out
  first : healthyProxies env s ≠ [] → ∃ ip ∈ healthyProxies env s, out.head? = some ip

theorem healthyProxies_text (env : Env) {s : NatServer} (h : ∀ p ∈ s.proxyHealth, ∃ a, p.ip = inetNtop a) :
    ∀ ip ∈ healthyProxies env s, IpText ip := by
  intro ip hip
  obtain ⟨p, hp, rfl⟩ := List.mem_map.mp hip
  obtain ⟨a, ha⟩ := h p (List.mem_of_mem_filter hp)
  rw [ha]
  exact ipText_inetNtop a

theorem usable_of_texts {s : NatServer} (hhealth : ∀ p ∈ s.proxyHealth, ∃ a, p.ip = inetNtop a)
    (hcfg : ∀ ip ∈ s.cfg.proxyIps, CfgFile.validIp ip = true) (env : Env) (draw : ℕ → ℕ) :
    Usable env s (pickProxy env draw s) := by
  have hhealthy := healthyProxies_text env hhealth
  have hips : ∀ ip ∈ s.cfg.proxyIps, IpText ip := fun ip hip => ipText_of_valid (hcfg ip hip)
  obtain ⟨hdrawn, hfound⟩ := drawn_spec draw hhealthy
  obtain ⟨hdistinct, hfront, hmem, hfull⟩ := filledUp_spec hips hdrawn.distinct
  rw [← pickProxy_eq] at hdistinct hfront hmem hfull
  have hshort := pickProxy_length env draw s
  have hwhole : ∀ ip ∈ pickProxy env draw s, ip ∈ healthyProxies env s ∨ ip ∈ s.cfg.proxyIps :=
    fun ip hip => (hmem ip hip).imp_left (hdrawn.drawn ip)
  refine ⟨hshort, hdistinct, fun hthree => ?_, hwhole, ?_, fun hne => ?_⟩
  · by_contra hless
    have hsub : s.cfg.proxyIps.dedup ⊆ pickProxy env draw s :=
      fun ip hip => hfull (by omega) ip (List.mem_dedup.mp hip)
    have hle := ((List.nodup_dedup s.cfg.proxyIps).subperm hsub).length_le
    omega
  · exact candidatesAt_proxyTable (fun ip hip => (hwhole ip hip).elim (hhealthy ip) (hips ip)) hshort rfl
  · obtain ⟨ip, rest, hcons⟩ := List.exists_cons_of_ne_nil (hfound hne)
    refine ⟨ip, hdrawn.drawn ip (by rw [hcons]; exact List.mem_cons_self), ?_⟩
    obtain ⟨more, hmore⟩ := hfront
    rw [← hmore, hcons]
    rfl

/-- Every entry of the health table has the text of an address, and every configured address is
valid. -/
theorem pickProxy_usable {s : NatServer} (hhealth : ∀ p ∈ s.proxyHealth, ∃ a, p.ip = inetNtop a)
    (hcfg : ∀ ip ∈ s.cfg.proxyIps, CfgFile.validIp ip = true) (env : Env) (draw : ℕ → ℕ) :
    Usable env s (pickProxy env draw s) := usable_of_texts hhealth hcfg env draw

/-- One healthy proxy that is also configured twice, and one that has been silent for too long. -/
def overlapping : NatServer :=
  { proxyHealth := [⟨inetNtop 0x7f000001, 0, 1, 0, 0, 0, 0⟩, ⟨inetNtop 0x0a000001, 0, 1, 0, 0, -31, 0⟩]
    cfg := { proxyIps := [inetNtop 0x7f000001, inetNtop 0x7f000001] } }

theorem pickProxy_usable_overlap : Usable {} overlapping (pickProxy {} id overlapping) := by
  have hhealth : ∀ p ∈ overlapping.proxyHealth, ∃ a, p.ip = inetNtop a := by
    intro p hp
    rcases List.mem_pair.mp hp with rfl | rfl <;> exact ⟨_, rfl⟩
  exact pickProxy_usable hhealth (by decide) {} id

end P2PServer.ProxyCandidates
