import P2PServer.MacStandards
import P2PServer.Sha256Standard

/-! The HMAC and the key derivation of `Crypto.cpp` are those of their standards over its
SHA-256. -/
namespace P2PServer.Crypto
open ByteStrings MacStandards

namespace Sha256Ctx

theorem standard_injective : Function.Injective HashState.standard := by
  rintro ⟨⟩ ⟨⟩ h
  simpa [HashState.standard] using h

theorem Fed.unique {c c' : Sha256Ctx} {m : Bytes} (h : Fed c m) (h' : Fed c' m) (ht : c.total = c'.total) :
    c = c' := by
  have hh : c.h = c'.h := standard_injective (h.hash.trans h'.hash.symm)
  have hb : c.buf = c'.buf := h.buf.trans h'.buf.symm
  cases c
  cases c'
  simp_all

/-- For messages of any length, two pieces are as good as one. -/
theorem update_update (a b : Bytes) : (update {} a).update b = update {} (a ++ b) := by
  refine ((fed_empty.update a).update b).unique ?_ ?_
  · exact (fed_empty.update (a ++ b))
  · rw [update_total, update_total, update_total, List.length_append, UInt64.ofNat_add, UInt64.add_assoc]

end Sha256Ctx

theorem sha256_length (m : Bytes) : (sha256 m).length = 32 := Sha256Ctx.final_length _

theorem xorOctets_replicate {k : Bytes} {n : ℕ} (h : k.length = n) (b : UInt8) :
    xorOctets k (List.replicate n b) = k.map (· ^^^ b) := by
  subst h
  induction k with
  | nil => rfl
  | cons a k ih => simpa [xorOctets, List.replicate_succ] using ih

theorem blockKey_length (key : Bytes) : (blockKey sha256 64 key).length = 64 := by
  have h : (if key.length > 64 then sha256 key else key).length ≤ 64 := by
    split
    · rw [sha256_length]
      decide
    · omega
  simp only [blockKey, List.length_append, List.length_replicate]
  omega

theorem hmacSha256_standard (key msg : Bytes) : hmacSha256 key msg = hmac sha256 64 key msg := by
  have hk : padded 64 (if key.length > 64 then sha256 key else key) = blockKey sha256 64 key := rfl
  have hlen := blockKey_length key
  have hinner : ((Sha256Ctx.update {} ((blockKey sha256 64 key).map (· ^^^ 0x36))).update msg).final =
      sha256 (xorOctets (blockKey sha256 64 key) (List.replicate 64 0x36) ++ msg) := by
    rw [Sha256Ctx.update_update, xorOctets_replicate hlen, sha256]
  unfold hmacSha256
  dsimp only
  rw [hk, hinner, Sha256Ctx.update_update, ← xorOctets_replicate hlen, hmac]
  rfl

theorem be32_INT {i : ℕ} (h : i < 2 ^ 32) : be32 (UInt32.ofNat i) = INT i := by
  have hnat : (UInt32.ofNat i).toNat = i := by
    rw [UInt32.toNat_ofNat']
    exact Nat.mod_eq_of_lt h
  rw [be32_eq, Fips180.be32, INT, hnat]

theorem xorBytes_take (a b : Bytes) (n : ℕ) : xorBytes (a.take n) (b.take n) = (xorOctets a b).take n := by
  rw [xorBytes, xorOctets, List.take_zipWith]

section
variable (pw salt : Bytes)

/-- The loop leaves the first bytes of the sum of the values. -/
theorem pbkdf2Iterate_standard (n k i j : ℕ) (t : Bytes) :
    pbkdf2Iterate pw n k (U (hmacSha256 pw) salt i j) (t.take n) =
      ((List.range' (j + 1) k).foldl (fun t j => xorOctets t (U (hmacSha256 pw) salt i j)) t).take n := by
  induction k generalizing j t with
  | zero => rfl
  | succ k ih =>
    rw [pbkdf2Iterate, List.range'_succ, List.foldl_cons, xorBytes_take]
    exact ih (j + 1) _

theorem pbkdf2Block_standard {i : ℕ} (hi : i < 2 ^ 32) (c n : ℕ) :
    pbkdf2Iterate pw n (c - 1) (hmacSha256 pw (salt ++ be32 (UInt32.ofNat i)))
        ((hmacSha256 pw (salt ++ be32 (UInt32.ofNat i))).take n) = (F (hmacSha256 pw) salt c i).take n := by
  rw [be32_INT hi]
  exact pbkdf2Iterate_standard pw salt n (c - 1) i 0 _

theorem pbkdf2Blocks_standard (c : ℕ) (fuel : ℕ) {i left : ℕ} (hfuel : left ≤ fuel)
    (hi : i + (left + 31) / 32 ≤ 2 ^ 32) : pbkdf2Blocks pw salt c fuel (UInt32.ofNat i) left =
      ((List.range' i ((left + 31) / 32)).map (F (hmacSha256 pw) salt c)).flatten.take left := by
  induction fuel generalizing i left with
  | zero =>
    obtain rfl := Nat.le_zero.mp hfuel
    rfl
  | succ fuel ih =>
    unfold pbkdf2Blocks
    split
    · rename_i hleft
      rw [hleft]
      rfl
    · rename_i hleft
      have hblocks : (left + 31) / 32 = (left - min left 32 + 31) / 32 + 1 := by omega
      have hlen : (F (hmacSha256 pw) salt c i).length = 32 := F_length (fun x => hmacSha256_length pw x) c i
      have hnext : UInt32.ofNat i + 1 = UInt32.ofNat (i + 1) := (UInt32.ofNat_add i 1).symm
      dsimp only
      rw [digestLen, pbkdf2Block_standard pw salt (by omega), hnext, ih (by omega) (by omega), hblocks, List.range'_succ,
        List.map_cons, List.flatten_cons, List.take_append, hlen]
      congr 1
      · rcases Nat.le_total left 32 with h | h
        · rw [min_eq_left h]
        · rw [min_eq_right h, List.take_of_length_le hlen.le, List.take_of_length_le (hlen.trans_le h)]
      · congr 1
        omega

end

/-- The functions are those of the standards, for any key, message, password, salt of at most 60
bytes, count and length; and a shorter output is the start of a longer one. -/
theorem keyedHash_standard (key msg : Bytes) {salt : Bytes} (hsalt : salt.length ≤ 60) {c : UInt32} (hc : 1 ≤ c)
    {m n : ℕ} (hmn : m ≤ n) (hn : n < 32 * (2 ^ 32 - 1)) :
    hmacSha256 key msg = hmac sha256 64 key msg ∧
      pbkdf2HmacSha256 key salt c n = pbkdf2 (hmac sha256 64 key) 32 salt c.toNat n ∧
      pbkdf2HmacSha256 key salt c m <+: pbkdf2HmacSha256 key salt c n := by
  have hprf : hmac sha256 64 key = hmacSha256 key := (funext (hmacSha256_standard key)).symm
  have hout {l : ℕ} (hl : l < 32 * (2 ^ 32 - 1)) :
      pbkdf2HmacSha256 key salt c l = pbkdf2 (hmacSha256 key) 32 salt c.toNat l := by
    have hc0 : c ≠ 0 := by
      rintro rfl
      exact absurd hc (by decide)
    rw [pbkdf2HmacSha256, if_neg hc0, if_neg (Nat.not_lt.mpr hsalt)]
    exact pbkdf2Blocks_standard key salt c.toNat l (i := 1) le_rfl (by omega)
  refine ⟨hmacSha256_standard key msg, ?_, ?_⟩
  · rw [hprf]
    exact hout hn
  · rw [hout (hmn.trans_lt hn), hout hn]
    exact pbkdf2_prefix (fun x => hmacSha256_length key x) (by decide) _ hmn

theorem keyedHash_standard_short : pbkdf2HmacSha256 [0x70] [1] 2 32 <+: pbkdf2HmacSha256 [0x70] [1] 2 48 :=
  (keyedHash_standard [0x70] [] (show ([1] : Bytes).length ≤ 60 by decide) (c := 2) (by decide) (m := 32) (n := 48) (by decide)
    (by decide)).2.2

end P2PServer.Crypto
