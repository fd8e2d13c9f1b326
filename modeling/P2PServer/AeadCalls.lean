import P2PServer.CryptoModes
import P2PServer.Net

/-! The calls of the authenticated encryption with their output arguments. -/
namespace P2PServer.Crypto
open ByteStrings Net

/-- The output arguments of `p2p_aead_decrypt` after the call. -/
structure DecryptOut where
  out : Bytes
  outLen : ℕ
  deriving DecidableEq, Repr

/-- `diff |= mac[i] ^ tag[i]` over the 16 bytes of a tag. -/
def tagDiff (mac tag : Bytes) : UInt8 :=
  (List.range 16).foldl (fun diff i => diff ||| (byteAt mac i ^^^ byteAt tag i)) 0

/-- True is the return value 0. -/
def p2pAeadDecryptCall (key nonce input : Bytes) (outCap : ℕ) (tag : Bytes) (o : DecryptOut) :
    Bool × DecryptOut :=
  if input.length > outCap then (false, o)
  else
    let macKey := hmacSha256 key aeadMacLabel
    if input.length > 4096 then (false, o)
    else
      let mac := hmacSha256 macKey (nonce.take 12 ++ input)
      if tagDiff mac tag ≠ 0 then (false, o)
      else (true, { out := overwrite o.out (aes256CtrXor key nonce input), outLen := input.length })

theorem foldl_or_eq_zero (f : ℕ → UInt8) (is : List ℕ) (d : UInt8) :
    is.foldl (fun diff i => diff ||| f i) d = 0 ↔ d = 0 ∧ ∀ i ∈ is, f i = 0 := by
  induction is generalizing d with
  | nil => simp
  | cons i is ih => simp [ih, and_assoc]

theorem tagDiff_eq_zero {mac tag : Bytes} (hmac : 16 ≤ mac.length) (htag : tag.length = 16) :
    tagDiff mac tag = 0 ↔ tag = mac.take 16 := by
  have hbytes : tagDiff mac tag = 0 ↔ ∀ i < 16, byteAt mac i = byteAt tag i := by
    simp [tagDiff, foldl_or_eq_zero]
  rw [hbytes]
  constructor
  · intro h
    refine List.ext_getElem (by simp [htag, hmac]) fun i hi hi' => ?_
    have hb := h i (by omega)
    have him : i < mac.length := by omega
    simpa [byteAt, List.getD_eq_getElem?_getD, hi, him] using hb.symm
  · intro h i hi
    have him : i < mac.length := by omega
    rw [h, byteAt, byteAt]
    simp [List.getD_eq_getElem?_getD, hi, him]

theorem overwrite_take (buf w : Bytes) : (overwrite buf w).take w.length = w := List.take_left' rfl

variable {key nonce : Bytes}

theorem p2pAeadDecryptCall_fits {c tag : Bytes} {cap : ℕ} (hcap : c.length ≤ cap) (hlen : c.length ≤ 4096)
    (htag : tag.length = 16) (o : DecryptOut) :
    p2pAeadDecryptCall key nonce c cap tag o = if tag = aeadTag key nonce c then
      (true, { out := overwrite o.out (aes256CtrXor key nonce c), outLen := c.length }) else (false, o) := by
  have hmac : 16 ≤ (hmacSha256 (hmacSha256 key aeadMacLabel) (nonce.take 12 ++ c)).length := by simp
  have hdiff := tagDiff_eq_zero hmac htag
  rw [p2pAeadDecryptCall, if_neg (Nat.not_lt.mpr hcap)]
  dsimp only
  rw [if_neg (Nat.not_lt.mpr hlen)]
  by_cases h : tag = aeadTag key nonce c
  · rw [if_pos h, if_neg (not_not.mpr (hdiff.mpr h))]
  · rw [if_neg h, if_pos fun hz => h (hdiff.mp hz)]

/-- The call gives back its output arguments where the decryption fails, and the plaintext
where it does not. -/
theorem p2pAeadDecryptCall_eq {c tag : Bytes} (cap : ℕ) (htag : tag.length = 16) (o : DecryptOut) :
    p2pAeadDecryptCall key nonce c cap tag o = match p2pAeadDecrypt key nonce c cap tag with
      | none => (false, o)
      | some plain => (true, { out := overwrite o.out plain, outLen := c.length }) := by
  by_cases hcap : c.length ≤ cap
  · by_cases hlen : c.length ≤ 4096
    · rw [p2pAeadDecryptCall_fits hcap hlen htag, p2pAeadDecrypt, if_neg (Nat.not_lt.mpr hcap),
        if_neg (Nat.not_lt.mpr hlen), List.take_of_length_le htag.le]
      by_cases h : tag = aeadTag key nonce c
      · simp [h]
      · simp [h, Ne.symm h]
    · simp [p2pAeadDecryptCall, p2pAeadDecrypt, Nat.lt_of_not_le hlen]
  · simp [p2pAeadDecryptCall, p2pAeadDecrypt, Nat.lt_of_not_le hcap]

theorem p2pAeadEncrypt_fits {p : Bytes} {outCap : ℕ} (hcap : p.length ≤ outCap) (hlen : p.length ≤ 4096)
    (o : AeadOut) : p2pAeadEncrypt key nonce p outCap o = (true,
      { out := overwrite o.out (aes256CtrXor key nonce p)
        outLen := p.length
        tag := aeadTag key nonce (aes256CtrXor key nonce p) }) := by
  rw [p2pAeadEncrypt, if_neg (Nat.not_lt.mpr hcap)]
  exact if_neg (Nat.not_lt.mpr hlen)

/-- What is encrypted is decrypted again, and a decryption succeeds exactly for the right tag and
else writes nothing. -/
theorem p2pAead_correct (key : Bytes) {nonce : Bytes} (hn : nonce.length = 12) :
    (∀ (p : Bytes) (outCap cap : ℕ) (o : AeadOut) (o' : DecryptOut), p.length ≤ 4096 → p.length ≤ outCap →
      p.length ≤ cap → ∃ r d, p2pAeadEncrypt key nonce p outCap o = (true, r) ∧
        p2pAeadDecryptCall key nonce (r.out.take r.outLen) cap r.tag o' = (true, d) ∧
        d.out.take d.outLen = p) ∧
    ∀ (c tag : Bytes) (cap : ℕ) (o : DecryptOut), tag.length = 16 → c.length ≤ 4096 → c.length ≤ cap →
      ((p2pAeadDecryptCall key nonce c cap tag o).1 = true ↔
        tag = (hmacSha256 (hmacSha256 key aeadMacLabel) (nonce ++ c)).take 16) ∧
      ((p2pAeadDecryptCall key nonce c cap tag o).1 = false →
        (p2pAeadDecryptCall key nonce c cap tag o).2 = o) := by
  refine ⟨fun p outCap cap o o' hlen hout hcap => ?_, fun c tag cap o htag hlen hcap => ?_⟩
  · have hcl := aes256CtrXor_length key nonce p
    have hout' : (overwrite o.out (aes256CtrXor key nonce p)).take p.length = aes256CtrXor key nonce p := by
      rw [← hcl, overwrite_take]
    refine ⟨_, ⟨overwrite o'.out p, p.length⟩, p2pAeadEncrypt_fits hout hlen o, ?_, overwrite_take _ _⟩
    dsimp only
    rw [hout', p2pAeadDecryptCall_fits (by omega) (by omega) (aeadTag_length ..), if_pos rfl,
      aes256CtrXor_aes256CtrXor, hcl]
  · have htag' : aeadTag key nonce c = (hmacSha256 (hmacSha256 key aeadMacLabel) (nonce ++ c)).take 16 := by
      rw [aeadTag, List.take_of_length_le hn.le]
    rw [p2pAeadDecryptCall_fits hcap hlen htag, ← htag']
    by_cases h : tag = aeadTag key nonce c
    · simp [h]
    · simp [h]

def keyK : Bytes := List.replicate 32 0x6b

def nonceN : Bytes := List.replicate 12 0x6e

theorem p2pAead_correct_byte : ∃ r d,
    p2pAeadEncrypt keyK nonceN [0x41] 1 ⟨[0], 0, []⟩ = (true, r) ∧
      p2pAeadDecryptCall keyK nonceN (r.out.take r.outLen) 1 r.tag ⟨[0], 0⟩ = (true, d) ∧
      d.out.take d.outLen = [0x41] :=
  (p2pAead_correct keyK (show nonceN.length = 12 from rfl)).1 [0x41] 1 1 ⟨[0], 0, []⟩ ⟨[0], 0⟩ (by decide)
    (by decide) (by decide)

end P2PServer.Crypto
