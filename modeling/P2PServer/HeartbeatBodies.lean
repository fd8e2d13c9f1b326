import P2PServer.ClientRun
import P2PServer.Gates

/-! The bodies of heartbeats. The server has two decoders for a request: the plain one goes by the
`extlen` field, the encrypted one by what is left of the datagram. -/
namespace P2PServer.HeartbeatBodies
open ByteStrings ProtoDef Net NatServer PacketCases

/-- `uuid || iv || cipher`; the key stream is that of the terminated uuid. -/
def sealedBody (secret uuid iv body : Bytes) : Bytes :=
  uuid ++ iv ++ Crypto.p2pStreamXor secret (uuid.take maxUuidLen ++ [0]) iv body

section
variable {secret uuid iv body : Bytes}

theorem sealedBody_length (secret body : Bytes) (hu : uuid.length = 33) (hiv : iv.length = 8) :
    (sealedBody secret uuid iv body).length = 41 + body.length := by
  simp only [sealedBody, List.length_append, hu, hiv, Crypto.p2pStreamXor_length]

theorem take_sealedBody (hu : uuid.length = 33) :
    (sealedBody secret uuid iv body).take maxUuidLen = uuid.take maxUuidLen := by
  rw [sealedBody, List.append_assoc, List.take_append_of_le_length]
  rw [hu]
  decide

theorem window_sealedBody (hu : uuid.length = 33) (hiv : iv.length = 8) :
    window (sealedBody secret uuid iv body) 33 8 = iv := by
  have d33 : (sealedBody secret uuid iv body).drop 33 = iv ++
      Crypto.p2pStreamXor secret (uuid.take maxUuidLen ++ [0]) iv body := by
    rw [sealedBody, List.append_assoc, List.drop_left' hu]
  exact window_of_drop d33 hiv

/-- What the server takes for the body: without a secret it does not decrypt. -/
def opened (secret uuid iv body : Bytes) : Bytes :=
  if secret = [] then Crypto.p2pStreamXor [] (uuid.take maxUuidLen ++ [0]) iv body else body

theorem heartbeatBody_sealedBody (hu : uuid.length = 33) (hiv : iv.length = 8) :
    heartbeatBody secret (sealedBody secret uuid iv body) = opened secret uuid iv body := by
  have hhead : (uuid ++ iv).length = 41 := by rw [List.length_append, hu, hiv]
  have hcipher : (sealedBody secret uuid iv body).drop 41 =
      Crypto.p2pStreamXor secret (uuid.take maxUuidLen ++ [0]) iv body := List.drop_left' hhead
  rw [heartbeatBody, hcipher, take_sealedBody hu, window_sealedBody hu hiv, opened]
  by_cases hsecret : secret = []
  · subst hsecret
    rfl
  · rw [if_neg (by simpa using hsecret), if_neg hsecret, Crypto.p2pStreamXor_p2pStreamXor]

theorem opened_length : (opened secret uuid iv body).length = body.length := by
  unfold opened
  split
  · exact Crypto.p2pStreamXor_length _ _ _ _
  · rfl

/-- The request fields and the extension text that a message hands to `handle_heartbeat`. -/
def requestOf (secret : Bytes) (msgId : UInt8) (p : Bytes) : Option (UuidReq × Bytes) :=
  (heartbeatOf secret msgId p).map fun r => (r.1, r.2.1)

/-- The extension text that the plain decoder takes. -/
def plainExt (body : Bytes) : Bytes :=
  let extlen := (UuidReq.read body).extlen.toNat
  if 0 < extlen ∧ extlen ≤ maxExtinfo ∧ uuidReqSize + extlen ≤ body.length then window body uuidReqSize extlen else []

/-- The extension text that the encrypted decoder takes. -/
def restExt (body : Bytes) : Bytes :=
  if body.length - uuidReqSize ≤ maxExtinfo then body.drop uuidReqSize else []

theorem requestOf_plain (hbody : uuidReqSize ≤ body.length) :
    requestOf secret msgHeartbeatReq body = some (UuidReq.read body, plainExt body) := by
  rw [requestOf, heartbeatOf, if_pos (.inl rfl), if_neg (by omega)]
  rfl

def withUuid (uuid body : Bytes) : UuidReq := { UuidReq.read body with uuidRaw := uuid.take maxUuidLen ++ [0] }

theorem heartbeatOf_sealed (hu : uuid.length = 33) (hiv : iv.length = 8) (hbody : uuidReqSize ≤ body.length) :
    heartbeatOf secret msgHeartbeatReqEnc (sealedBody secret uuid iv body) =
      some (withUuid uuid (opened secret uuid iv body), restExt (opened secret uuid iv body), some iv) := by
  have hlen : (sealedBody secret uuid iv body).length = 41 + body.length := sealedBody_length secret body hu hiv
  have hopen : (opened secret uuid iv body).length = body.length := opened_length
  have hsize : uuidReqSize = 43 := rfl
  have hrest : (sealedBody secret uuid iv body).length - 41 - uuidReqSize =
      (opened secret uuid iv body).length - uuidReqSize := by omega
  have hwindow : window (opened secret uuid iv body) uuidReqSize
      ((opened secret uuid iv body).length - uuidReqSize) = (opened secret uuid iv body).drop uuidReqSize := by
    rw [window, ← List.length_drop, List.take_length]
  rw [heartbeatOf, if_neg (by decide), if_pos rfl, if_neg (by omega)]
  dsimp only
  rw [encryptedReq, heartbeatBody_sealedBody hu hiv, take_sealedBody hu, hrest, hwindow, window_sealedBody hu hiv]
  rfl

theorem requestOf_sealed (hu : uuid.length = 33) (hiv : iv.length = 8) (hbody : uuidReqSize ≤ body.length) :
    requestOf secret msgHeartbeatReqEnc (sealedBody secret uuid iv body) =
      some (withUuid uuid (opened secret uuid iv body), restExt (opened secret uuid iv body)) := by
  rw [requestOf, heartbeatOf_sealed hu hiv hbody, Option.map_some]

/-- The number of bytes behind the request and its `extlen` field fit each other. -/
def Fits (body : Bytes) : Prop :=
  let extlen := (UuidReq.read body).extlen.toNat
  let trailing := body.length - uuidReqSize
  if trailing ≤ maxExtinfo then trailing = 0 ∨ extlen = trailing else extlen = 0 ∨ maxExtinfo < extlen

theorem plainExt_length (hbody : uuidReqSize ≤ body.length) : (plainExt body).length =
    if 0 < (UuidReq.read body).extlen.toNat ∧ (UuidReq.read body).extlen.toNat ≤ maxExtinfo ∧
      uuidReqSize + (UuidReq.read body).extlen.toNat ≤ body.length then (UuidReq.read body).extlen.toNat else 0 := by
  unfold plainExt
  dsimp only
  split
  next h =>
    rw [window, List.length_take, List.length_drop]
    omega
  · rfl

/-- The two decoders take texts of one length exactly if the body fits, and then they take one text. -/
theorem ext_length_iff (hbody : uuidReqSize ≤ body.length) :
    (restExt body).length = (plainExt body).length ↔ Fits body := by
  have hplain := plainExt_length hbody
  have hsize : uuidReqSize = 43 := rfl
  have hmax : maxExtinfo = 1024 := rfl
  unfold Fits
  dsimp only
  by_cases hshort : body.length - uuidReqSize ≤ maxExtinfo
  · have hrest : restExt body = body.drop uuidReqSize := if_pos hshort
    rw [if_pos hshort, hrest, List.length_drop, hplain]
    split <;> omega
  · have hrest : restExt body = [] := if_neg hshort
    rw [if_neg hshort, hrest, List.length_nil, hplain]
    split <;> omega

theorem ext_iff (hbody : uuidReqSize ≤ body.length) : restExt body = plainExt body ↔ Fits body := by
  refine ⟨fun h => (ext_length_iff hbody).mp (congrArg List.length h), fun h => ?_⟩
  have hlen := (ext_length_iff hbody).mpr h
  unfold restExt plainExt at hlen ⊢
  dsimp only at hlen ⊢
  split at hlen
  next hshort =>
    rw [if_pos hshort]
    split at hlen
    next htaken =>
      rw [window, List.length_take, List.length_drop] at hlen
      rw [if_pos htaken, window, List.take_of_length_le]
      rw [List.length_drop]
      omega
    next hnone =>
      rw [if_neg hnone, List.length_eq_zero_iff.mp hlen]
  next hlong =>
    rw [if_neg hlong]
    split at hlen
    next htaken =>
      rw [window, List.length_take, List.length_drop, List.length_nil] at hlen
      omega
    next hnone => rw [if_neg hnone]

def bareStream (uuid iv : Bytes) (n : ℕ) : Bytes :=
  Crypto.p2pStreamXor [] (uuid.take maxUuidLen ++ [0]) iv (List.replicate n 0)

/-- Zero wherever the encrypted decoder reads: behind the uuid, up to the end if that is not too far. -/
def Clear (uuid iv body : Bytes) : Prop :=
  ∀ i, 33 ≤ i → i < body.length → i < uuidReqSize ∨ body.length - uuidReqSize ≤ maxExtinfo →
    byteAt (bareStream uuid iv body.length) i = 0

theorem byteAt_opened (uuid iv : Bytes) {i : ℕ} (hi : i < body.length) :
    byteAt (opened [] uuid iv body) i = byteAt body i ^^^ byteAt (bareStream uuid iv body.length) i := by
  have hlen : (bareStream uuid iv body.length).length = body.length := by
    rw [bareStream, Crypto.p2pStreamXor_length, List.length_replicate]
  have hxor : opened [] uuid iv body = Crypto.xorBytes body (bareStream uuid iv body.length) :=
    (if_pos rfl).trans (Crypto.p2pStreamXor_eq_xorBytes [] (uuid.take maxUuidLen ++ [0]) iv body)
  have hi' : i < (bareStream uuid iv body.length).length := hlen.symm ▸ hi
  rw [hxor, byteAt, byteAt, byteAt, List.getD_eq_getElem _ _ hi, List.getD_eq_getElem _ _ hi', List.getD_eq_getElem]
  · exact List.getElem_zipWith
  · rw [Crypto.xorBytes, List.length_zipWith]
    omega

theorem byteAt_opened_iff (uuid iv : Bytes) {i : ℕ} (hi : i < body.length) :
    byteAt (opened [] uuid iv body) i = byteAt body i ↔ byteAt (bareStream uuid iv body.length) i = 0 := by
  rw [byteAt_opened uuid iv hi]
  constructor
  · intro h
    have hcancel := congrArg (byteAt body i ^^^ ·) h
    simpa [← UInt8.xor_assoc] using hcancel
  · intro h
    rw [h, UInt8.xor_zero]

/-- The fields behind the uuid are the ten bytes behind it. -/
theorem withUuid_eq_iff (hinner : uuid.take maxUuidLen = body.take maxUuidLen) (other : Bytes) :
    withUuid uuid other = UuidReq.read body ↔ ∀ i, 33 ≤ i → i < uuidReqSize → byteAt other i = byteAt body i := by
  have hfields : withUuid uuid other = UuidReq.read body ↔
      byteAt other 33 = byteAt body 33 ∧ byteAt other 34 = byteAt body 34 ∧ u16At other 35 = u16At body 35 ∧
        u32At other 37 = u32At body 37 ∧ u16At other 41 = u16At body 41 := by
    rw [withUuid, hinner, UuidReq.read, UuidReq.read, UuidReq.mk.injEq]
    exact and_iff_right rfl
  rw [hfields, u16At_eq_iff, u32At_eq_iff, u16At_eq_iff]
  have hsize : uuidReqSize = 43 := rfl
  constructor
  · rintro ⟨h33, h34, ⟨h35, h36⟩, ⟨h37, h38, h39, h40⟩, h41, h42⟩ i hlow hhigh
    rw [hsize] at hhigh
    interval_cases i <;> assumption
  · intro h
    exact ⟨h 33 (by decide) (by decide), h 34 (by decide) (by decide),
      ⟨h 35 (by decide) (by decide), h 36 (by decide) (by decide)⟩,
      ⟨h 37 (by decide) (by decide), h 38 (by decide) (by decide), h 39 (by decide) (by decide),
        h 40 (by decide) (by decide)⟩, h 41 (by decide) (by decide), h 42 (by decide) (by decide)⟩

/-- Two bodies of one length have one rest if they agree behind the request, unless the rest is too long. -/
theorem restExt_eq_iff {other : Bytes} (hlen : other.length = body.length) : restExt other = restExt body ↔
    (body.length - uuidReqSize ≤ maxExtinfo → ∀ i, uuidReqSize ≤ i → i < body.length →
      byteAt other i = byteAt body i) := by
  unfold restExt
  rw [hlen]
  split
  next hshort =>
    constructor
    · intro h _ i hlow hi
      have hdrop := congrArg (byteAt · (i - uuidReqSize)) h
      rwa [byteAt_drop, byteAt_drop, Nat.add_sub_cancel' hlow] at hdrop
    · intro h
      apply List.ext_getElem
      · rw [List.length_drop, List.length_drop, hlen]
      · intro k hk hk'
        have hbound : uuidReqSize + k < body.length := by
          rw [List.length_drop] at hk'
          omega
        have hbyte := h hshort (uuidReqSize + k) (Nat.le_add_right _ _) hbound
        rw [← byteAt_drop, ← byteAt_drop, byteAt, byteAt, List.getD_eq_getElem _ _ hk, List.getD_eq_getElem _ _ hk'] at hbyte
        exact hbyte
  next hlong => exact iff_of_true rfl fun hshort => absurd hshort hlong

theorem restExt_opened_length :
    (restExt (opened [] uuid iv body)).length = (restExt body).length := by
  have hlen : (opened [] uuid iv body).length = body.length := opened_length
  unfold restExt
  rw [hlen]
  split
  · rw [List.length_drop, List.length_drop, hlen]
  · rfl

/-- The cipher is taken for the body exactly if the body fits and the key stream is zero. -/
theorem bare_iff (hinner : uuid.take maxUuidLen = body.take maxUuidLen) (hbody : uuidReqSize ≤ body.length) :
    withUuid uuid (opened [] uuid iv body) = UuidReq.read body ∧ restExt (opened [] uuid iv body) = plainExt body ↔
      Fits body ∧ Clear uuid iv body := by
  have hlen : (opened [] uuid iv body).length = body.length := opened_length
  rw [withUuid_eq_iff hinner]
  constructor
  · rintro ⟨hfields, hext⟩
    have hfits : Fits body :=
      (ext_length_iff hbody).mp (restExt_opened_length.symm.trans (congrArg List.length hext))
    have hagree := (restExt_eq_iff hlen).mp (hext.trans ((ext_iff hbody).mpr hfits).symm)
    refine ⟨hfits, fun i hlow hi hread => (byteAt_opened_iff uuid iv hi).mp ?_⟩
    by_cases hfixed : i < uuidReqSize
    · exact hfields i hlow hfixed
    · exact hagree (hread.resolve_left hfixed) i (by omega) hi
  · rintro ⟨hfits, hclear⟩
    constructor
    · intro i hlow hhigh
      exact (byteAt_opened_iff uuid iv (by omega)).mpr (hclear i hlow (by omega) (.inl hhigh))
    · rw [← (ext_iff hbody).mpr hfits]
      refine (restExt_eq_iff hlen).mpr fun hshort i hlow hi => ?_
      have hsize : uuidReqSize = 43 := rfl
      exact (byteAt_opened_iff uuid iv hi).mpr (hclear i (by omega) hi (.inr hshort))

/-- The two decoders register the same exactly if `extlen` fits the bytes behind the request and, where
there is no secret, the key stream is zero. -/
theorem sealed_iff (hu : uuid.length = 33) (hiv : iv.length = 8)
    (hinner : uuid.take maxUuidLen = body.take maxUuidLen) (hbody : uuidReqSize ≤ body.length) :
    requestOf secret msgHeartbeatReqEnc (sealedBody secret uuid iv body) = requestOf secret msgHeartbeatReq body ↔
      Fits body ∧ (secret = [] → Clear uuid iv body) := by
  rw [requestOf_sealed hu hiv hbody, requestOf_plain hbody, Option.some.injEq, Prod.mk.injEq]
  by_cases hsecret : secret = []
  · subst hsecret
    rw [bare_iff hinner hbody]
    exact and_congr_right fun _ => ⟨fun h _ => h, fun h => h rfl⟩
  · have hsame : withUuid uuid body = UuidReq.read body := by
      rw [withUuid, hinner]
      rfl
    have hopen : opened secret uuid iv body = body := if_neg hsecret
    rw [hopen, hsame, ext_iff hbody, and_iff_right rfl]
    exact (and_iff_left fun h => absurd h hsecret).symm

end

/-- A request of the device `a` with this `extlen`, and what stands behind it. -/
def requestA (extlen : UInt8) (behind : Bytes) : Bytes :=
  uuidField [0x61] ++ [1, 0, 0, 0, 0, 0, 0, 1, 0, extlen] ++ behind

/-- An `extlen` of three and three bytes. -/
theorem sealed_described :
    requestOf [1] msgHeartbeatReqEnc
      (sealedBody [1] (uuidField [0x61]) (List.replicate 8 9) (requestA 3 [0x63, 0x61, 0x6d])) =
    requestOf [1] msgHeartbeatReq (requestA 3 [0x63, 0x61, 0x6d]) := by
  refine (sealed_iff (by decide) (by decide) (by decide) (by decide)).mpr ⟨?_, fun h => absurd h (by decide)⟩
  unfold Fits
  decide

/-- One more byte is extension text to one decoder only. -/
theorem sealed_differs : ¬∀ secret uuid iv body : Bytes, uuid.length = 33 → iv.length = 8 →
    uuid.take maxUuidLen = body.take maxUuidLen → uuidReqSize ≤ body.length →
      requestOf secret msgHeartbeatReqEnc (sealedBody secret uuid iv body) =
        requestOf secret msgHeartbeatReq body := by
  intro h
  have hsame := h [1] (uuidField [0x61]) (List.replicate 8 0) (requestA 0 [0]) (by decide) (by decide)
    (by decide) (by decide)
  rw [requestOf_sealed (by decide) (by decide) (by decide), requestOf_plain (by decide), Option.some.injEq,
    Prod.mk.injEq] at hsame
  exact absurd hsame.2 (by decide)

end P2PServer.HeartbeatBodies
