import P2PServer.CryptoAes
import P2PServer.CryptoHash
import P2PServer.KeyStreams

/-! The modes of `Crypto.cpp` over the AES block functions: CBC with PKCS7 padding,
counter mode, and authenticated encryption with an HMAC tag. -/
namespace P2PServer.Crypto
open ByteStrings

def toBlock (b : Bytes) : Block := Vector.ofFn fun i => b.getD i 0

def cbcEncryptBlocks (rk : RoundKeys) : ℕ → Block → Bytes → Bytes
  | 0, _, _ => []
  | n + 1, prev, data =>
    let cipher := aes256EncryptBlock rk (xorBlock (toBlock data) prev)
    cipher.toList ++ cbcEncryptBlocks rk n cipher (data.drop 16)

def cbcDecryptBlocks (rk : RoundKeys) : ℕ → Block → Bytes → Bytes
  | 0, _, _ => []
  | n + 1, prev, data =>
    let cipher := toBlock data
    (xorBlock (aes256DecryptBlock rk cipher) prev).toList ++ cbcDecryptBlocks rk n cipher (data.drop 16)

/-- The length of the PKCS7 padding, 1 to 16. -/
def padLength (n : ℕ) : ℕ := 16 - n % 16

def withPadding (input : Bytes) : Bytes :=
  input ++ List.replicate (padLength input.length) (UInt8.ofNat (padLength input.length))

/-- The bytes written to `out`; `none` is the return value -1. -/
def aes256CbcEncrypt (key iv input : Bytes) (outCap : ℕ) : Option Bytes :=
  let total := input.length + padLength input.length
  if total > outCap then none
  else some (cbcEncryptBlocks (aes256ExpandKey key) (total / 16) (toBlock iv) (withPadding input))

/-- The bytes written to `out`, padding included, and `out_len`. -/
def aes256CbcDecrypt (key iv input : Bytes) (outCap : ℕ) : Option (Bytes × ℕ) :=
  if input.length = 0 ∨ input.length % 16 ≠ 0 ∨ input.length > outCap then none
  else
    let out := cbcDecryptBlocks (aes256ExpandKey key) (input.length / 16) (toBlock iv) input
    let pad := out.getD (input.length - 1) 0
    if pad = 0 ∨ pad > 16 then none
    else if ((out.drop (input.length - pad.toNat)).any fun b => b ≠ pad) then none
    else some (out, input.length - pad.toNat)

def ctrBlock (nonce : Bytes) (counter : UInt32) : Block := toBlock (nonce.take 12 ++ be32 counter)

def ctrLoop (rk : RoundKeys) (nonce : Bytes) : ℕ → UInt32 → Bytes → Bytes
  | 0, _, data => data
  | fuel + 1, counter, data =>
    if data.isEmpty then []
    else
      let keystream := (aes256EncryptBlock rk (ctrBlock nonce counter)).toList
      let n := min data.length 16
      xorBytes (data.take n) keystream ++ ctrLoop rk nonce fuel (counter + 1) (data.drop n)

def aes256CtrXor (key nonce input : Bytes) : Bytes :=
  ctrLoop (aes256ExpandKey key) nonce input.length 0 input

/-- The text `aead-mac`. -/
def aeadMacLabel : Bytes := [0x61, 0x65, 0x61, 0x64, 0x2d, 0x6d, 0x61, 0x63]

/-- The first 16 bytes of the MAC over nonce and ciphertext. -/
def aeadTag (key nonce cipher : Bytes) : Bytes :=
  (hmacSha256 (hmacSha256 key aeadMacLabel) (nonce.take 12 ++ cipher)).take 16

theorem aeadTag_length (key nonce cipher : Bytes) : (aeadTag key nonce cipher).length = 16 := by
  simp [aeadTag]

/-- The output arguments of `p2p_aead_encrypt` after the call. -/
structure AeadOut where
  out : Bytes
  outLen : ℕ
  tag : Bytes
  deriving DecidableEq, Repr

/-- True is the return value 0. The size limit of the MAC buffer is checked only after
the ciphertext has been written. -/
def p2pAeadEncrypt (key nonce input : Bytes) (outCap : ℕ) (o : AeadOut) : Bool × AeadOut :=
  if input.length > outCap then (false, o)
  else
    let cipher := aes256CtrXor key nonce input
    let o := { o with out := overwrite o.out cipher, outLen := input.length }
    if input.length > 4096 then (false, o)
    else (true, { o with tag := aeadTag key nonce cipher })

/-- The plaintext; `none` is the return value -1, given before anything is written. -/
def p2pAeadDecrypt (key nonce input : Bytes) (outCap : ℕ) (tag : Bytes) : Option Bytes :=
  if input.length > outCap then none
  else if input.length > 4096 then none
  else if aeadTag key nonce input ≠ tag.take 16 then none
  else some (aes256CtrXor key nonce input)

theorem ctrLoop_eq (rk : RoundKeys) (nonce : Bytes) (fuel : ℕ) (counter : UInt32) (data : Bytes) :
    ctrLoop rk nonce fuel counter data = KeyStreams.combine (· ^^^ ·)
      (fun c => (aes256EncryptBlock rk (ctrBlock nonce c)).toList) (· + 1) 16 fuel counter data := by
  induction fuel generalizing counter data with
  | zero => rfl
  | succ fuel ih =>
    have htake : data.take (min data.length 16) = data.take 16 := List.take_eq_take_iff.mpr (by omega)
    have hdrop : data.drop (min data.length 16) = data.drop 16 := List.drop_eq_drop_iff.mpr (by omega)
    simp only [ctrLoop, KeyStreams.combine, xorBytes, htake, hdrop, ih]

/-- The counter is the offset, which grows by a whole digest as long as there are data left. -/
theorem streamXorLoop_eq (secret uuid iv : Bytes) (fuel off : ℕ) (data : Bytes) :
    streamXorLoop secret uuid iv fuel off data = KeyStreams.combine (· ^^^ ·)
      (streamBlock secret uuid iv) (· + digestLen) digestLen fuel off data := by
  induction fuel generalizing off data with
  | zero => rfl
  | succ fuel ih =>
    have htake : data.take (min data.length digestLen) = data.take digestLen :=
      List.take_eq_take_iff.mpr (by omega)
    have hdrop : data.drop (min data.length digestLen) = data.drop digestLen :=
      List.drop_eq_drop_iff.mpr (by omega)
    simp only [streamXorLoop, KeyStreams.combine, xorBytes, htake, hdrop]
    rcases Nat.le_total digestLen data.length with h | h
    · rw [min_eq_right h, ih]
    · rw [List.drop_eq_nil_of_le h, ih, KeyStreams.combine_nil, KeyStreams.combine_nil]

theorem xor_xor_self (a b : UInt8) : a ^^^ b ^^^ b = a := by simp

@[simp] theorem aes256CtrXor_length (key nonce input : Bytes) :
    (aes256CtrXor key nonce input).length = input.length := by
  rw [aes256CtrXor, ctrLoop_eq]
  exact KeyStreams.combine_length (fun c => by simp) _ _ _

theorem aes256CtrXor_aes256CtrXor (key nonce input : Bytes) :
    aes256CtrXor key nonce (aes256CtrXor key nonce input) = input := by
  rw [aes256CtrXor, aes256CtrXor_length, aes256CtrXor, ctrLoop_eq, ctrLoop_eq]
  exact KeyStreams.combine_combine xor_xor_self (fun c => by simp) _ _ _

@[simp] theorem streamBlock_length (secret uuid iv : Bytes) (off : ℕ) :
    (streamBlock secret uuid iv off).length = digestLen := hmacSha256_length _ _

@[simp] theorem p2pStreamXor_length (secret uuid iv data : Bytes) :
    (p2pStreamXor secret uuid iv data).length = data.length := by
  rw [p2pStreamXor, streamXorLoop_eq]
  exact KeyStreams.combine_length (fun off => by simp) _ _ _

theorem p2pStreamXor_p2pStreamXor (secret uuid iv data : Bytes) :
    p2pStreamXor secret uuid iv (p2pStreamXor secret uuid iv data) = data := by
  rw [p2pStreamXor, p2pStreamXor_length, p2pStreamXor, streamXorLoop_eq, streamXorLoop_eq]
  exact KeyStreams.combine_combine xor_xor_self (fun off => by simp) _ _ _

/-- The stream by itself is what zeros become. -/
theorem p2pStreamXor_eq_xorBytes (secret uuid iv data : Bytes) :
    p2pStreamXor secret uuid iv data =
      xorBytes data (p2pStreamXor secret uuid iv (List.replicate data.length 0)) := by
  rw [p2pStreamXor, p2pStreamXor, List.length_replicate, streamXorLoop_eq, streamXorLoop_eq]
  exact KeyStreams.combine_eq_zipWith (fun _ => UInt8.zero_xor) (fun _ => UInt8.xor_zero) (fun off => by simp) _ _ _

theorem cbcEncryptBlocks_length (rk : RoundKeys) (n : ℕ) (prev : Block) (data : Bytes) :
    (cbcEncryptBlocks rk n prev data).length = 16 * n := by
  induction n generalizing prev data with
  | zero => rfl
  | succ n ih =>
    rw [cbcEncryptBlocks, List.length_append, ih, Vector.length_toList]
    omega

theorem toBlock_append (b : Block) (rest : Bytes) : toBlock (b.toList ++ rest) = b := by
  ext i hi
  have hi' : i < b.toList.length := by simpa using hi
  simp [toBlock, List.getD_eq_getElem?_getD, List.getElem?_append_left hi',
    Vector.getElem?_eq_getElem hi]

theorem toBlock_toList {data : Bytes} (h : 16 ≤ data.length) :
    (toBlock data).toList = data.take 16 := by
  apply List.ext_getElem?
  intro i
  rcases Nat.lt_or_ge i 16 with hi | hi
  · have hd : i < data.length := by omega
    rw [List.getElem?_take, if_pos hi, List.getElem?_eq_getElem hd]
    simp [toBlock, hi, hd]
  · rw [List.getElem?_eq_none (by simpa using hi), List.getElem?_eq_none (by simp; omega)]

theorem xorBlock_xorBlock (a b : Block) : xorBlock (xorBlock a b) b = a := by
  ext i hi
  simp [xorBlock]

theorem cbcDecryptBlocks_encrypt (rk : RoundKeys) (n : ℕ) (prev : Block) (data : Bytes)
    (h : data.length = 16 * n) :
    cbcDecryptBlocks rk n prev (cbcEncryptBlocks rk n prev data) = data := by
  induction n generalizing prev data with
  | zero => simp [cbcDecryptBlocks, List.length_eq_zero_iff.mp h]
  | succ n ih =>
    have hdrop : (data.drop 16).length = 16 * n := by
      rw [List.length_drop]
      omega
    simp only [cbcEncryptBlocks, cbcDecryptBlocks]
    rw [toBlock_append, List.drop_left' (Vector.length_toList), aes256DecryptBlock_encryptBlock,
      xorBlock_xorBlock, ih _ _ hdrop, toBlock_toList (by omega), List.take_append_drop]

theorem withPadding_length (input : Bytes) :
    (withPadding input).length = input.length + padLength input.length := by
  simp [withPadding]

theorem padLength_pos (n : ℕ) : 0 < padLength n ∧ padLength n ≤ 16 := by
  rw [padLength]
  omega

theorem padLength_aligned (n : ℕ) : 16 * ((n + padLength n) / 16) = n + padLength n := by
  rw [padLength]
  omega

theorem aes256CbcDecrypt_encrypt (key iv input : Bytes) {outCap cap : ℕ} {cipher : Bytes}
    (h : aes256CbcEncrypt key iv input outCap = some cipher) (hcap : cipher.length ≤ cap) :
    cipher.length = input.length + padLength input.length ∧
      aes256CbcDecrypt key iv cipher cap = some (withPadding input, input.length) := by
  obtain ⟨hpos, hle⟩ := padLength_pos input.length
  have hal := padLength_aligned input.length
  rw [aes256CbcEncrypt] at h
  split at h
  · exact absurd h (by simp)
  cases h
  have hlen := cbcEncryptBlocks_length (aes256ExpandKey key)
    ((input.length + padLength input.length) / 16) (toBlock iv) (withPadding input)
  rw [hal] at hlen
  refine ⟨hlen, ?_⟩
  have hpad : (withPadding input).getD (input.length + padLength input.length - 1) 0 =
      UInt8.ofNat (padLength input.length) := by
    rw [List.getD_eq_getElem?_getD, withPadding, List.getElem?_append_right (by omega),
      List.getElem?_replicate, if_pos (by omega)]
    rfl
  have hnat : (UInt8.ofNat (padLength input.length)).toNat = padLength input.length := by
    rw [UInt8.toNat_ofNat']
    omega
  have hrange : ¬(UInt8.ofNat (padLength input.length) = 0 ∨
      UInt8.ofNat (padLength input.length) > 16) := by
    rw [← UInt8.toNat_inj, gt_iff_lt, UInt8.lt_iff_toNat_lt, hnat]
    simp
    omega
  have hdec : cbcDecryptBlocks (aes256ExpandKey key) ((input.length + padLength input.length) / 16)
      (toBlock iv) (cbcEncryptBlocks (aes256ExpandKey key)
        ((input.length + padLength input.length) / 16) (toBlock iv) (withPadding input)) =
      withPadding input :=
    cbcDecryptBlocks_encrypt _ _ _ _ (by rw [withPadding_length, hal])
  rw [aes256CbcDecrypt, if_neg (by omega)]
  simp only [hlen, hdec, hpad, hnat]
  rw [if_neg hrange, Nat.add_sub_cancel, if_neg]
  simp [withPadding]

end P2PServer.Crypto
