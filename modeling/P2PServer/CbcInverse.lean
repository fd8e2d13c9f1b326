import P2PServer.CryptoModes

/-! CBC decryption is the exact partial inverse of encryption: what is encrypted is decrypted,
and what can be decrypted is the encryption of the result. -/
namespace P2PServer.Crypto
open ByteStrings

instance : Finite Block := by
  refine Finite.of_injective (fun (b : Block) (i : Fin 16) => b[i].toFin) fun a b h => ?_
  ext i hi
  exact congrArg UInt8.toNat (UInt8.toFin_inj.mp (congrFun h ⟨i, hi⟩))

/-- Encryption of a block undoes its decryption, since there are finitely many blocks. -/
theorem aes256EncryptBlock_decryptBlock (rk : RoundKeys) (b : Block) :
    aes256EncryptBlock rk (aes256DecryptBlock rk b) = b := by
  have hleft : Function.LeftInverse (aes256DecryptBlock rk) (aes256EncryptBlock rk) :=
    aes256DecryptBlock_encryptBlock rk
  have hsurj := Finite.surjective_of_injective hleft.injective
  exact hleft.rightInverse_of_surjective hsurj b

/-- The table of `inv_sbox` has no gap: the substitution is a permutation. -/
theorem sbox_invSbox (a : UInt8) : sbox (invSbox a) = a := by
  have hleft : Function.LeftInverse invSbox sbox := invSbox_sbox
  exact hleft.rightInverse_of_surjective (Finite.surjective_of_injective sbox_injective) a

theorem mixColumn_invMixColumn (c : Column) : mixColumn (invMixColumn c) = c := by
  have hleft : Function.LeftInverse invMixColumn mixColumn := invMixColumn_mixColumn
  exact hleft.rightInverse_of_surjective (Finite.surjective_of_injective hleft.injective) c

/-- The block functions are inverse to each other under any round keys, and so are the two
substitutions and the two matrices they use. -/
theorem aes256Block_inverse :
    (∀ (rk : RoundKeys) (b : Block), aes256DecryptBlock rk (aes256EncryptBlock rk b) = b ∧
      aes256EncryptBlock rk (aes256DecryptBlock rk b) = b) ∧
    (∀ a : UInt8, invSbox (sbox a) = a ∧ sbox (invSbox a) = a) ∧
    ∀ c : Column, invMixColumn (mixColumn c) = c ∧ mixColumn (invMixColumn c) = c := by
  refine ⟨fun rk b => ⟨?_, ?_⟩, fun a => ⟨?_, ?_⟩, fun c => ⟨?_, ?_⟩⟩
  · exact aes256DecryptBlock_encryptBlock rk b
  · exact aes256EncryptBlock_decryptBlock rk b
  · exact invSbox_sbox a
  · exact sbox_invSbox a
  · exact invMixColumn_mixColumn c
  · exact mixColumn_invMixColumn c

theorem cbcDecryptBlocks_length (rk : RoundKeys) (n : ℕ) (prev : Block) (data : Bytes) :
    (cbcDecryptBlocks rk n prev data).length = 16 * n := by
  induction n generalizing prev data with
  | zero => rfl
  | succ n ih =>
    rw [cbcDecryptBlocks, List.length_append, ih, Vector.length_toList]
    omega

theorem cbcEncryptBlocks_decrypt (rk : RoundKeys) (n : ℕ) (prev : Block) (data : Bytes)
    (h : data.length = 16 * n) :
    cbcEncryptBlocks rk n prev (cbcDecryptBlocks rk n prev data) = data := by
  induction n generalizing prev data with
  | zero => simp [cbcEncryptBlocks, List.length_eq_zero_iff.mp h]
  | succ n ih =>
    have hdrop : (data.drop 16).length = 16 * n := by
      rw [List.length_drop]
      omega
    simp only [cbcDecryptBlocks, cbcEncryptBlocks]
    rw [toBlock_append, List.drop_left' Vector.length_toList, xorBlock_xorBlock,
      aes256EncryptBlock_decryptBlock, ih _ _ hdrop, toBlock_toList (by omega), List.take_append_drop]

def plaintext (r : Bytes × ℕ) : Bytes := r.1.take r.2

theorem plaintext_withPadding (p : Bytes) : plaintext (withPadding p, p.length) = p := by
  simp [plaintext, withPadding]

/-- The checks on the padding accept only what `withPadding` writes. -/
theorem withPadding_take {out : Bytes} {pad : UInt8} (hlen : out.length % 16 = 0) (hpos : out.length ≠ 0)
    (hpad : ¬(pad = 0 ∨ pad > 16)) (hall : ∀ b ∈ out.drop (out.length - pad.toNat), b = pad) :
    withPadding (out.take (out.length - pad.toNat)) = out := by
  have hrange : 0 < pad.toNat ∧ pad.toNat ≤ 16 := by
    rw [not_or, ← UInt8.toNat_inj, gt_iff_lt, UInt8.lt_iff_toNat_lt] at hpad
    simp only [UInt8.reduceToNat] at hpad
    omega
  have htake : (out.take (out.length - pad.toNat)).length = out.length - pad.toNat := by simp
  have hpl : padLength (out.length - pad.toNat) = pad.toNat := by
    rw [padLength]
    omega
  have htail : out.drop (out.length - pad.toNat) = List.replicate pad.toNat pad := by
    refine List.eq_replicate_iff.mpr ⟨?_, hall⟩
    rw [List.length_drop]
    omega
  rw [withPadding, htake, hpl, UInt8.ofNat_toNat, ← htail, List.take_append_drop]

/-- A decryption that succeeds has checked the padding of the decrypted blocks. -/
theorem aes256CbcDecrypt_some {key iv c : Bytes} {cap : ℕ} {r : Bytes × ℕ}
    (h : aes256CbcDecrypt key iv c cap = some r) :
    c.length % 16 = 0 ∧ c.length ≠ 0 ∧
      withPadding (plaintext r) = cbcDecryptBlocks (aes256ExpandKey key) (c.length / 16) (toBlock iv) c := by
  unfold aes256CbcDecrypt at h
  split at h
  · cases h
  · rename_i hlen
    simp only [not_or, not_not] at hlen
    have hout := cbcDecryptBlocks_length (aes256ExpandKey key) (c.length / 16) (toBlock iv) c
    dsimp only at h
    generalize cbcDecryptBlocks (aes256ExpandKey key) (c.length / 16) (toBlock iv) c = out at h hout ⊢
    have hc : out.length = c.length := by omega
    rw [← hc] at h hlen
    split at h
    · cases h
    · rename_i hpad
      split at h
      · cases h
      · rename_i hall
        rw [← Option.some.inj h, plaintext, ← hc]
        exact ⟨hlen.2.1, hlen.1, withPadding_take hlen.2.1 hlen.1 hpad (by simpa using hall)⟩

theorem aes256CbcEncrypt_some {key iv p : Bytes} {outCap : ℕ} (h : p.length + padLength p.length ≤ outCap) :
    aes256CbcEncrypt key iv p outCap = some (cbcEncryptBlocks (aes256ExpandKey key)
      ((p.length + padLength p.length) / 16) (toBlock iv) (withPadding p)) := by
  rw [aes256CbcEncrypt]
  exact if_neg (Nat.not_lt.mpr h)

/-- With room for the output, a plaintext is encrypted and decrypted again, and a ciphertext that
is decrypted is the encryption of the result. -/
theorem aes256Cbc_inverse (key iv : Bytes) :
    (∀ p outCap cap, p.length + padLength p.length ≤ outCap → p.length + padLength p.length ≤ cap →
      ∃ c, aes256CbcEncrypt key iv p outCap = some c ∧
        (aes256CbcDecrypt key iv c cap).map plaintext = some p) ∧
    ∀ c cap outCap p, (aes256CbcDecrypt key iv c cap).map plaintext = some p → c.length ≤ outCap →
      aes256CbcEncrypt key iv p outCap = some c := by
  refine ⟨fun p outCap cap hout hcap => ?_, fun c cap outCap p h hout => ?_⟩
  · have henc := @aes256CbcEncrypt_some key iv p outCap hout
    have hlen := cbcEncryptBlocks_length (aes256ExpandKey key) ((p.length + padLength p.length) / 16)
      (toBlock iv) (withPadding p)
    rw [padLength_aligned] at hlen
    obtain ⟨-, hdec⟩ := aes256CbcDecrypt_encrypt key iv p henc (hlen.trans_le hcap)
    refine ⟨_, henc, ?_⟩
    rw [hdec, Option.map_some, plaintext_withPadding]
  · obtain ⟨r, hr, rfl⟩ := Option.map_eq_some_iff.mp h
    obtain ⟨hal, hpos, hpad⟩ := aes256CbcDecrypt_some hr
    have hlen : (plaintext r).length + padLength (plaintext r).length = c.length := by
      rw [← withPadding_length, hpad, cbcDecryptBlocks_length]
      omega
    rw [aes256CbcEncrypt_some (by omega), hpad, hlen, cbcEncryptBlocks_decrypt _ _ _ _ (by omega)]

end P2PServer.Crypto
