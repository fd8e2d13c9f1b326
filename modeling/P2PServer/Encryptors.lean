import P2PServer.CryptoModes
import P2PServer.Memory

/-! The encryptor classes of `Crypto.cpp`. Sizes are of type `size_t`, and differences of them
wrap around; the uuid is a string that is read as a field of 33 bytes. -/
namespace P2PServer.Crypto
open ByteStrings

/-- `a - b` on `size_t`. -/
def sizeSub (a b : ℕ) : ℕ := (a + 2 ^ 64 - b) % 2 ^ 64

/-- An object made by `create_encryptor`. -/
inductive Encryptor
  | xor (key uuid iv : Bytes)
  | aesCtr (key : Bytes)
  deriving DecidableEq, Repr

/-- What a call does: its return value is 0 or not, the writes to the output in their order, and
how many bytes it reads from the start of the uuid string. -/
structure Outcome where
  ok : Bool
  outLen : ℕ := 0
  writes : List (ℕ × Bytes) := []
  contextRead : ℕ := 0
  deriving DecidableEq, Repr

def Outcome.buffer (r : Outcome) (before : Memory) : Memory :=
  r.writes.foldl (fun m w => m.write w.1 w.2) before

def Outcome.produced (r : Outcome) (before : Memory) : Bytes := (r.buffer before).read 0 r.outLen

namespace Encryptor

/-- Both directions of `XorEncryptor`. `behind` is what lies behind the terminator of the
string. -/
def xorCall (key uuid iv : Bytes) (behind : Memory) (input : Bytes) (outCap : ℕ) : Outcome :=
  if input.length > outCap then { ok := false }
  else
    let field := (Memory.ofBytes (uuid ++ [0]) behind).read 0 33
    { ok := true
      outLen := input.length
      writes := [(0, input), (0, p2pStreamXor key field iv input)]
      contextRead := 33 }

/-- The limit of the MAC buffer is checked after the ciphertext has been written. -/
def aesEncrypt (key nonce input : Bytes) (outCap : ℕ) : Outcome :=
  if input.length > sizeSub outCap 28 then { ok := false }
  else if input.length > sizeSub outCap 12 then { ok := false }
  else
    let cipher := aes256CtrXor key nonce input
    if input.length > 4096 then { ok := false, outLen := input.length, writes := [(12, cipher)] }
    else
      { ok := true
        outLen := input.length + 28
        writes := [(12, cipher), (0, nonce), (12 + input.length, aeadTag key nonce cipher)] }

def aesDecrypt (key input : Bytes) (outCap : ℕ) : Outcome :=
  if input.length ≤ 28 then { ok := false }
  else
    let cipherLen := input.length - 28
    match p2pAeadDecrypt key (input.take 12) (window input 12 cipherLen) outCap
        (window input (12 + cipherLen) 16) with
    | none => { ok := false }
    | some plain => { ok := true, outLen := cipherLen, writes := [(0, plain)] }

def encrypt (behind : Memory) (nonce : Bytes) : Encryptor → Bytes → ℕ → Outcome
  | .xor key uuid iv => xorCall key uuid iv behind
  | .aesCtr key => aesEncrypt key nonce

def decrypt (behind : Memory) : Encryptor → Bytes → ℕ → Outcome
  | .xor key uuid iv => xorCall key uuid iv behind
  | .aesCtr key => aesDecrypt key

def needed : Encryptor → ℕ → ℕ
  | .xor _ _ _, n => n
  | .aesCtr _, n => n + 28

def contextSize : Encryptor → ℕ
  | .xor _ uuid _ => uuid.length + 1
  | .aesCtr _ => 0

/-- The uuid is a string of at most 32 characters. -/
def Proper : Encryptor → Prop
  | .xor _ uuid _ => uuid.length ≤ 32 ∧ 0 ∉ uuid
  | .aesCtr _ => True

/-- Where encryption succeeds it stays within the output and the string, and is undone by the
same encryptor with any other memory behind the string; where there is no room it fails. -/
structure Contract (e : Encryptor) (p : Bytes) (outCap : ℕ) : Prop where
  inside : ∀ behind nonce, nonce.length = 12 → (e.encrypt behind nonce p outCap).ok = true →
    (e.encrypt behind nonce p outCap).outLen ≤ outCap ∧
      (∀ w ∈ (e.encrypt behind nonce p outCap).writes, w.1 + w.2.length ≤ outCap) ∧
      (e.encrypt behind nonce p outCap).contextRead ≤ e.contextSize
  back : ∀ behind behind' before before' nonce cap, nonce.length = 12 →
    (e.encrypt behind nonce p outCap).ok = true → p.length ≤ cap →
    (e.decrypt behind' ((e.encrypt behind nonce p outCap).produced before) cap).ok = true ∧
      (e.decrypt behind' ((e.encrypt behind nonce p outCap).produced before) cap).produced before' = p
  room : ∀ behind nonce, nonce.length = 12 → outCap < e.needed p.length →
    (e.encrypt behind nonce p outCap).ok = false

/-- For the stream: no room, or a uuid that fills its field. For the authenticated encryption: room
for the frame and a plaintext that is not empty, or a plaintext that fails in spite of the wrapped
sizes. -/
def Met : Encryptor → Bytes → ℕ → Prop
  | .xor _ uuid _, p, outCap => outCap < p.length ∨ uuid.length = 32
  | .aesCtr _, p, outCap =>
    if 28 ≤ outCap then p ≠ [] else if 12 ≤ outCap then outCap < p.length + 12 else 4096 < p.length

end Encryptor

theorem Outcome.produced_single {data : Bytes} (before : Memory) (c : ℕ) :
    Outcome.produced ⟨true, data.length, [(0, data)], c⟩ before = data := by
  simp [Outcome.produced, Outcome.buffer]

namespace Encryptor

variable {key uuid iv : Bytes} {p : Bytes} {outCap : ℕ}

theorem xorCall_room (behind : Memory) (h : p.length ≤ outCap) : xorCall key uuid iv behind p outCap =
    { ok := true
      outLen := p.length
      writes := [(0, p), (0, p2pStreamXor key ((Memory.ofBytes (uuid ++ [0]) behind).read 0 33) iv p)]
      contextRead := 33 } := if_neg (Nat.not_lt.mpr h)

theorem xorCall_produced (behind before : Memory) (h : p.length ≤ outCap) :
    (xorCall key uuid iv behind p outCap).produced before =
      p2pStreamXor key ((Memory.ofBytes (uuid ++ [0]) behind).read 0 33) iv p := by
  rw [xorCall_room behind h, Outcome.produced, Outcome.buffer, List.foldl_cons, List.foldl_cons, List.foldl_nil]
  conv_lhs => rw [← p2pStreamXor_length key ((Memory.ofBytes (uuid ++ [0]) behind).read 0 33) iv p]
  exact Memory.read_write _ _ _

theorem field_full (h : uuid.length = 32) (behind : Memory) :
    (Memory.ofBytes (uuid ++ [0]) behind).read 0 33 = uuid ++ [0] := by
  have hlen : (uuid ++ [0]).length = 33 := by simp [h]
  rw [← hlen]
  exact Memory.read_ofBytes _ _

theorem xor_contract (key iv : Bytes) (huuid : uuid.length ≤ 32) :
    (xor key uuid iv).Contract p outCap ↔ (xor key uuid iv).Met p outCap := by
  constructor
  · intro h
    rcases Nat.lt_or_ge outCap p.length with hcap | hcap
    · exact .inl hcap
    · have hread := (h.inside (fun _ => 0) (List.replicate 12 0) rfl (by rw [encrypt, xorCall_room _ hcap])).2.2
      rw [encrypt, xorCall_room _ hcap, contextSize] at hread
      dsimp only at hread
      exact .inr (by omega)
  · rintro (hcap | hfull)
    · have hfail (behind : Memory) : xorCall key uuid iv behind p outCap = { ok := false } := if_pos hcap
      refine ⟨fun behind nonce _ hok => ?_, fun behind _ _ _ nonce _ _ hok => ?_, fun behind nonce _ _ => ?_⟩
      · simp [encrypt, hfail] at hok
      · simp [encrypt, hfail] at hok
      · simp [encrypt, hfail]
    · refine ⟨fun behind nonce _ hok => ?_, fun behind behind' before before' nonce cap _ hok hp => ?_,
        fun behind nonce _ hsmall => ?_⟩
      · have hcap : p.length ≤ outCap := by
          by_contra hc
          simp [encrypt, xorCall, Nat.lt_of_not_le hc] at hok
        rw [encrypt, xorCall_room _ hcap, contextSize]
        simp [hcap, hfull]
      · have hcap : p.length ≤ outCap := by
          by_contra hc
          simp [encrypt, xorCall, Nat.lt_of_not_le hc] at hok
        rw [encrypt, decrypt, xorCall_produced _ _ hcap, field_full hfull]
        have hlen := p2pStreamXor_length key (uuid ++ [0]) iv p
        refine ⟨by rw [xorCall_room _ (by omega)], ?_⟩
        rw [xorCall_produced _ _ (by omega), field_full hfull, p2pStreamXor_p2pStreamXor]
      · exact congrArg Outcome.ok (if_pos hsmall)

/-- The differences that wrap around are larger than any plaintext that passes the other limit. -/
theorem aesEncrypt_ok_iff (nonce : Bytes) (hcap : outCap < 2 ^ 64) :
    (aesEncrypt key nonce p outCap).ok = true ↔
      p.length ≤ 4096 ∧ (28 ≤ outCap → p.length + 28 ≤ outCap) ∧ (12 ≤ outCap → p.length + 12 ≤ outCap) := by
  have hsub (k : ℕ) (hk : k ≤ 28) (hlen : p.length ≤ 4096) :
      ¬p.length > sizeSub outCap k ↔ (k ≤ outCap → p.length + k ≤ outCap) := by
    unfold sizeSub
    omega
  unfold aesEncrypt
  by_cases hlen : p.length ≤ 4096
  · by_cases h28 : p.length > sizeSub outCap 28
    · have h := (hsub 28 le_rfl hlen).not.mp (not_not.mpr h28)
      simp [h28, hlen, h]
    · have h := (hsub 28 le_rfl hlen).mp h28
      by_cases h12 : p.length > sizeSub outCap 12
      · have h' := (hsub 12 (by decide) hlen).not.mp (not_not.mpr h12)
        simp [h28, h12, hlen, h']
      · have h' := (hsub 12 (by decide) hlen).mp h12
        simp only [h28, h12, Nat.not_lt.mpr hlen, hlen, if_false, true_and, true_iff]
        exact ⟨h, h'⟩
  · simp only [hlen, false_and, iff_false]
    split
    · simp
    · split
      · simp
      · simp [Nat.lt_of_not_le hlen]

theorem aesEncrypt_of_ok {nonce : Bytes} (h : (aesEncrypt key nonce p outCap).ok = true) :
    p.length ≤ 4096 ∧ aesEncrypt key nonce p outCap =
      { ok := true
        outLen := p.length + 28
        writes := [(12, aes256CtrXor key nonce p), (0, nonce),
          (12 + p.length, aeadTag key nonce (aes256CtrXor key nonce p))] } := by
  unfold aesEncrypt at h ⊢
  split at h
  · cases h
  · split at h
    · cases h
    · dsimp only at h ⊢
      split at h
      · cases h
      · rename_i h28 h12 hlen
        rw [if_neg h28, if_neg h12, if_neg hlen]
        exact ⟨Nat.le_of_not_lt hlen, rfl⟩

theorem aesEncrypt_produced {nonce : Bytes} (hn : nonce.length = 12) (before : Memory)
    (h : (aesEncrypt key nonce p outCap).ok = true) : (aesEncrypt key nonce p outCap).produced before =
      nonce ++ (aes256CtrXor key nonce p ++ aeadTag key nonce (aes256CtrXor key nonce p)) := by
  have hcl := aes256CtrXor_length key nonce p
  have htl := aeadTag_length key nonce (aes256CtrXor key nonce p)
  have hsplit : p.length + 28 = 12 + (p.length + 16) := by omega
  rw [(aesEncrypt_of_ok h).2, Outcome.produced, Outcome.buffer]
  simp only [List.foldl_cons, List.foldl_nil]
  generalize aes256CtrXor key nonce p = cipher at hcl htl ⊢
  generalize aeadTag key nonce cipher = tag at htl ⊢
  rw [hsplit, Memory.read_add, Memory.read_add, Nat.zero_add]
  congr 1
  · rw [Memory.read_write_apart (by omega), ← hn, Memory.read_write]
  · congr 1
    · rw [Memory.read_write_apart (by omega), Memory.read_write_apart (by omega), ← hcl, Memory.read_write]
    · rw [← htl, Memory.read_write]

theorem p2pAeadDecrypt_encrypted {nonce : Bytes} {cap : ℕ} (hlen : p.length ≤ 4096) (hcap : p.length ≤ cap) :
    p2pAeadDecrypt key nonce (aes256CtrXor key nonce p) cap (aeadTag key nonce (aes256CtrXor key nonce p)) =
      some p := by
  have htag := List.take_of_length_le (aeadTag_length key nonce (aes256CtrXor key nonce p)).le
  simp [p2pAeadDecrypt, htag, Nat.not_lt.mpr hcap, Nat.not_lt.mpr hlen, aes256CtrXor_aes256CtrXor]

theorem aesDecrypt_frame {nonce cipher tag : Bytes} (hn : nonce.length = 12) (ht : tag.length = 16)
    (hpos : cipher ≠ []) (cap : ℕ) : aesDecrypt key (nonce ++ (cipher ++ tag)) cap =
      match p2pAeadDecrypt key nonce cipher cap tag with
      | none => { ok := false }
      | some plain => { ok := true, outLen := cipher.length, writes := [(0, plain)] } := by
  have hlen : (nonce ++ (cipher ++ tag)).length = cipher.length + 28 := by
    simp only [List.length_append, hn, ht]
    omega
  have hcpos : 0 < cipher.length := List.length_pos_iff.mpr hpos
  have htag : (nonce ++ (cipher ++ tag)).drop (12 + cipher.length) = tag := by
    rw [← List.append_assoc]
    exact List.drop_left' (by simp [hn])
  rw [aesDecrypt, hlen, if_neg (by omega), Nat.add_sub_cancel]
  dsimp only
  rw [window, window, List.take_left' hn, List.drop_left' hn, List.take_left' rfl, htag, ← ht, List.take_length]

theorem aes_contract (key : Bytes) (hcap : outCap < 2 ^ 64) :
    (aesCtr key).Contract p outCap ↔ (aesCtr key).Met p outCap := by
  have hok (nonce : Bytes) : (aesEncrypt key nonce p outCap).ok = true ↔ _ := aesEncrypt_ok_iff nonce hcap
  have hn0 : (List.replicate 12 (0 : UInt8)).length = 12 := rfl
  unfold Met
  dsimp only
  constructor
  · intro h
    split
    · rename_i h28
      rintro rfl
      have hopen := (hok (List.replicate 12 0)).mpr ⟨by simp, by simp, by simp⟩
      have hback := (h.back (fun _ => 0) (fun _ => 0) (fun _ => 0) (fun _ => 0) _ 0 hn0 hopen (by simp)).1
      rw [encrypt, aesEncrypt_produced hn0 _ hopen, decrypt, aesDecrypt, if_pos] at hback
      · cases hback
      · simp [aeadTag_length]
    · rename_i h28
      have hno : ¬(aesEncrypt key (List.replicate 12 0) p outCap).ok = true := by
        intro hopen
        have hin := (h.inside (fun _ => 0) _ hn0 hopen).1
        rw [encrypt, (aesEncrypt_of_ok hopen).2] at hin
        dsimp only at hin
        omega
      rw [hok] at hno
      split <;> omega
  · intro hmet
    have hfits (nonce : Bytes) (hopen : (aesEncrypt key nonce p outCap).ok = true) :
        p ≠ [] ∧ p.length + 28 ≤ outCap := by
      obtain ⟨hlen, h28, h12⟩ := (hok nonce).mp hopen
      split at hmet
      · rename_i hle
        exact ⟨hmet, h28 hle⟩
      · split at hmet <;> omega
    refine ⟨fun behind nonce hn hopen => ?_, fun behind behind' before before' nonce cap hn hopen hp => ?_,
      fun behind nonce _ hsmall => ?_⟩
    · have hroom := (hfits nonce hopen).2
      rw [encrypt, (aesEncrypt_of_ok hopen).2]
      refine ⟨hroom, ?_, Nat.zero_le _⟩
      simp [aeadTag_length, hn]
      omega
    · have hlen := (aesEncrypt_of_ok hopen).1
      have hpos : aes256CtrXor key nonce p ≠ [] := by
        rw [← List.length_pos_iff, aes256CtrXor_length]
        exact List.length_pos_iff.mpr (hfits nonce hopen).1
      rw [encrypt, decrypt, aesEncrypt_produced hn _ hopen, aesDecrypt_frame hn (aeadTag_length ..) hpos,
        p2pAeadDecrypt_encrypted hlen hp, aes256CtrXor_length]
      exact ⟨rfl, Outcome.produced_single before' 0⟩
    · by_contra hopen
      rw [Bool.not_eq_false] at hopen
      have hroom := (hfits nonce hopen).2
      rw [needed] at hsmall
      omega

/-- Exactly under the condition an encryptor keeps its contract. -/
theorem contract_iff {e : Encryptor} (he : e.Proper) (p : Bytes) {outCap : ℕ} (hcap : outCap < 2 ^ 64) :
    e.Contract p outCap ↔ e.Met p outCap := by
  cases e with
  | xor key uuid iv => exact xor_contract key iv he.1
  | aesCtr key => exact aes_contract key hcap

def keyK : Bytes := List.replicate 32 0x6b

theorem contract_iff_byte : (aesCtr keyK).Contract [0x41] 29 :=
  (contract_iff (e := aesCtr keyK) trivial [0x41] (show 29 < 2 ^ 64 by decide)).mpr (by simp [Met])

/-- An empty plaintext is encrypted and not decrypted. -/
theorem contract_not_always :
    ¬∀ (e : Encryptor) (p : Bytes) (outCap : ℕ), e.Proper → outCap < 2 ^ 64 → e.Contract p outCap := by
  intro h
  have hmet := (aes_contract keyK (show 28 < 2 ^ 64 by decide)).mp (h (aesCtr keyK) [] 28 trivial (by decide))
  exact absurd rfl hmet

end Encryptor

end P2PServer.Crypto
