import P2PServer.CryptoModes

/-! The encrypted format that the license and the blacklist file share: a magic, a version, the
PBKDF2 iterations, salt, iv and the ciphertext of a text that starts with a header line. -/
namespace P2PServer.SealedFiles
open ByteStrings Crypto

def pbkdf2Iter : UInt32 := 10000

def sealedFile (magic salt iv cipher : Bytes) : Bytes :=
  magic ++ [1] ++ be32 pbkdf2Iter ++ salt ++ iv ++ cipher

/-- The text behind the header. The buffer is one byte longer than the ciphertext and the
sub-string has the length of the whole plaintext. -/
def openSealed (header pass raw : Bytes) : Option Bytes :=
  if raw.length < 4 + 1 + 4 + 16 + 16 + 16 then none
  else if pass.isEmpty then none
  else
    let iter := rd32 (raw.getD 5 0) (raw.getD 6 0) (raw.getD 7 0) (raw.getD 8 0)
    let salt := window raw 9 16
    let iv := window raw 25 16
    let cipher := raw.drop 41
    let key := pbkdf2HmacSha256 pass salt (if iter ≠ 0 then iter else pbkdf2Iter) 32
    match aes256CbcDecrypt key iv cipher (cipher.length + 1) with
    | none => none
    | some (out, plen) =>
      let plain := overwrite (List.replicate (cipher.length + 1) 0) out
      if plen < header.length ∨ plain.take header.length ≠ header then none
      else some (window plain header.length plen)

/-- What is read behind a text of `n` bytes: the padding, and the terminating zero of the buffer,
as far as the header was long. -/
def trailing (header : Bytes) (n : ℕ) : Bytes :=
  (List.replicate (padLength n) (UInt8.ofNat (padLength n)) ++ [0]).take header.length

/-- Encryption into a buffer of 16 more bytes has room for the padding. -/
theorem aes256CbcEncrypt_fits (key iv plain : Bytes) :
    ∃ cipher, aes256CbcEncrypt key iv plain (plain.length + 16) = some cipher := by
  have hle := (padLength_pos plain.length).2
  rw [aes256CbcEncrypt, if_neg (by omega)]
  exact ⟨_, rfl⟩

theorem sealedFile_iter {magic : Bytes} (hmagic : magic.length = 4) (salt iv cipher : Bytes) :
    rd32 ((sealedFile magic salt iv cipher).getD 5 0) ((sealedFile magic salt iv cipher).getD 6 0)
      ((sealedFile magic salt iv cipher).getD 7 0) ((sealedFile magic salt iv cipher).getD 8 0) =
      pbkdf2Iter := by
  obtain ⟨a, b, c, d, rfl⟩ : ∃ a b c d, magic = [a, b, c, d] := by
    match magic, hmagic with
    | [a, b, c, d], _ => exact ⟨a, b, c, d, rfl⟩
  change rd32 0 0 0x27 0x10 = pbkdf2Iter
  decide

section
variable {magic salt iv cipher : Bytes} (hmagic : magic.length = 4) (hsalt : salt.length = 16)
  (hiv : iv.length = 16)
include hmagic hsalt hiv

theorem sealedFile_length : (sealedFile magic salt iv cipher).length = 41 + cipher.length := by
  simp [sealedFile, hmagic, hsalt, hiv]
  omega

theorem sealedFile_fields : window (sealedFile magic salt iv cipher) 9 16 = salt ∧
    window (sealedFile magic salt iv cipher) 25 16 = iv ∧
    (sealedFile magic salt iv cipher).drop 41 = cipher := by
  have hfile : sealedFile magic salt iv cipher =
      (magic ++ [1] ++ be32 pbkdf2Iter) ++ (salt ++ (iv ++ cipher)) := by
    simp [sealedFile]
  have hhead : (magic ++ [1] ++ be32 pbkdf2Iter).length = 9 := by simp [hmagic]
  have hhead' : ((magic ++ [1] ++ be32 pbkdf2Iter) ++ salt).length = 25 := by simp [hmagic, hsalt]
  have hhead'' : (((magic ++ [1] ++ be32 pbkdf2Iter) ++ salt) ++ iv).length = 41 := by
    simp [hmagic, hsalt, hiv]
  rw [hfile]
  refine ⟨?_, ?_, ?_⟩
  · rw [window, List.drop_left' hhead, List.take_left' hsalt]
  · rw [window, ← List.append_assoc, List.drop_left' hhead', List.take_left' hiv]
  · rw [← List.append_assoc, ← List.append_assoc, List.drop_left' hhead'']

/-- A sealed text is read back, followed by what stands behind it in the buffer. -/
theorem openSealed_sealedFile {header pass : Bytes} (body : Bytes) (hpass : pass ≠ [])
    (hc : aes256CbcEncrypt (pbkdf2HmacSha256 pass salt pbkdf2Iter 32) iv (header ++ body)
      ((header ++ body).length + 16) = some cipher) :
    openSealed header pass (sealedFile magic salt iv cipher) =
      some (body ++ trailing header (header ++ body).length) := by
  generalize hplain : header ++ body = plain at hc
  obtain ⟨hclen, hdec⟩ := aes256CbcDecrypt_encrypt _ _ _ hc (Nat.le_succ cipher.length)
  have hfields : window (sealedFile magic salt iv cipher) 9 16 = salt ∧ _ ∧ _ :=
    sealedFile_fields hmagic hsalt hiv
  obtain ⟨hwsalt, hwiv, hwc⟩ := hfields
  have hblock : 16 ≤ cipher.length := by
    rw [hclen, padLength]
    omega
  have hraw : (sealedFile magic salt iv cipher).length = 41 + cipher.length :=
    sealedFile_length hmagic hsalt hiv
  have hbuf : overwrite (List.replicate (cipher.length + 1) 0) (withPadding plain) =
      withPadding plain ++ [0] := by
    rw [overwrite, withPadding_length, ← hclen, List.drop_replicate, Nat.add_sub_cancel_left]
    rfl
  have hhead : (withPadding plain ++ [0]).take header.length = header := by
    rw [withPadding, ← hplain, List.append_assoc, List.append_assoc, List.take_left]
  have hwin : window (withPadding plain ++ [0]) header.length plain.length =
      body ++ trailing header plain.length := by
    rw [withPadding, window, trailing]
    generalize padLength plain.length = pad
    rw [← hplain, List.append_assoc, List.append_assoc, List.drop_left, List.length_append,
      Nat.add_comm header.length, List.take_length_add_append]
  have hge : header.length ≤ plain.length := by
    simp [← hplain]
  rw [openSealed, if_neg (by omega), if_neg (by simpa using hpass)]
  simp only [hwsalt, hwiv, hwc, sealedFile_iter hmagic salt iv cipher, if_pos (by decide : pbkdf2Iter ≠ 0),
    hdec, hbuf, hhead, hwin]
  rw [if_neg (by simpa using hge)]

end

end P2PServer.SealedFiles
