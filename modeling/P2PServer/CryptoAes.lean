import P2PServer.ByteStrings

/-! The AES-256 block functions of `Crypto.cpp`, with tables computed from the
arithmetic of GF(2^8) as the source builds them, and that they are inverse. -/
namespace P2PServer.Crypto
open ByteStrings

/-- One pass of the loop of `gmul` doubles `a` and halves `b`. -/
def gmulLoop : ℕ → UInt8 → UInt8 → UInt8 → UInt8
  | 0, _, _, r => r
  | n + 1, a, b, r =>
    let r := if b &&& 1 ≠ 0 then r ^^^ a else r
    let a' := if a &&& 0x80 ≠ 0 then (a <<< 1) ^^^ 0x1b else a <<< 1
    gmulLoop n a' (b >>> 1) r

def gmul (a b : UInt8) : UInt8 := gmulLoop 8 a b 0

def ginvLoop : ℕ → ℕ → UInt8 → UInt8 → UInt8
  | 0, _, res, _ => res
  | fuel + 1, e, res, base =>
    if e = 0 then res
    else ginvLoop fuel (e / 2) (if e % 2 = 1 then gmul res base else res) (gmul base base)

/-- `a` to the power 254. -/
def ginv (a : UInt8) : UInt8 := ginvLoop 8 254 1 a

def rotl8 (x : UInt8) (n : UInt8) : UInt8 := (x <<< n) ||| (x >>> (8 - n))

def sbox (i : UInt8) : UInt8 :=
  let x := if i = 0 then 0 else ginv i
  x ^^^ rotl8 x 1 ^^^ rotl8 x 2 ^^^ rotl8 x 3 ^^^ rotl8 x 4 ^^^ 0x63

/-- The table filled by `inv_sbox[s] = i` for `i` from 0 to 255. -/
def invSbox : UInt8 → UInt8 :=
  (List.range 256).foldl
    (fun t i => Function.update t (sbox (UInt8.ofNat i)) (UInt8.ofNat i)) fun _ => 0

def mul2 (b : UInt8) : UInt8 := gmul b 2
def mul3 (b : UInt8) : UInt8 := gmul b 3
def mul9 (b : UInt8) : UInt8 := gmul b 9
def mul11 (b : UInt8) : UInt8 := gmul b 11
def mul13 (b : UInt8) : UInt8 := gmul b 13
def mul14 (b : UInt8) : UInt8 := gmul b 14

abbrev Block := Vector UInt8 16

abbrev RoundKeys := Vector UInt32 60

def rcon : List UInt8 := [0, 0x01, 0x02, 0x04, 0x08, 0x10, 0x20, 0x40, 0x80, 0x1b, 0x36]

def subWord (t : UInt32) : UInt32 :=
  rd32 (sbox (t >>> 24).toUInt8) (sbox (t >>> 16).toUInt8) (sbox (t >>> 8).toUInt8)
    (sbox t.toUInt8)

def aes256ExpandKey (key : Bytes) : RoundKeys :=
  let first := (List.range 8).map fun i =>
    rd32 (key.getD (i * 4) 0) (key.getD (i * 4 + 1) 0) (key.getD (i * 4 + 2) 0)
      (key.getD (i * 4 + 3) 0)
  let words := (List.range' 8 52).foldl (fun (rk : List UInt32) i =>
    let t := rk.getD (i - 1) 0
    let t' :=
      if i % 8 = 0 then
        subWord ((t <<< 8) ||| (t >>> 24)) ^^^ ((rcon.getD (i / 8) 0).toUInt32 <<< 24)
      else if i % 8 = 4 then subWord t
      else t
    rk ++ [rk.getD (i - 8) 0 ^^^ t']) first
  Vector.ofFn fun i => words.getD i 0

def rkByte (rk : RoundKeys) (i : ℕ) : UInt8 :=
  ((rk[i / 4]?).getD 0 >>> UInt32.ofNat (24 - 8 * (i % 4))).toUInt8

def addRoundKey (rk : RoundKeys) (round : ℕ) (st : Block) : Block :=
  Vector.ofFn fun i => st[i] ^^^ rkByte rk (16 * round + i)

def xorBlock (a b : Block) : Block := Vector.ofFn fun i => a[i] ^^^ b[i]

def subBytes (st : Block) : Block := st.map sbox

def invSubBytes (st : Block) : Block := st.map invSbox

def shiftRows (st : Block) : Block :=
  #v[st[0], st[5], st[10], st[15], st[4], st[9], st[14], st[3],
    st[8], st[13], st[2], st[7], st[12], st[1], st[6], st[11]]

def invShiftRows (st : Block) : Block :=
  #v[st[0], st[13], st[10], st[7], st[4], st[1], st[14], st[11],
    st[8], st[5], st[2], st[15], st[12], st[9], st[6], st[3]]

abbrev Column := UInt8 × UInt8 × UInt8 × UInt8

def mixColumn : Column → Column
  | (a0, a1, a2, a3) =>
    (mul2 a0 ^^^ mul3 a1 ^^^ a2 ^^^ a3, a0 ^^^ mul2 a1 ^^^ mul3 a2 ^^^ a3,
      a0 ^^^ a1 ^^^ mul2 a2 ^^^ mul3 a3, mul3 a0 ^^^ a1 ^^^ a2 ^^^ mul2 a3)

def invMixColumn : Column → Column
  | (a0, a1, a2, a3) =>
    (mul14 a0 ^^^ mul11 a1 ^^^ mul13 a2 ^^^ mul9 a3, mul9 a0 ^^^ mul14 a1 ^^^ mul11 a2 ^^^ mul13 a3,
      mul13 a0 ^^^ mul9 a1 ^^^ mul14 a2 ^^^ mul11 a3, mul11 a0 ^^^ mul13 a1 ^^^ mul9 a2 ^^^ mul14 a3)

/-- `for (int c = 0; c < 4; c++)` over the columns of four consecutive bytes. -/
def onColumns (f : Column → Column) (t : Block) : Block :=
  let c0 := f (t[0], t[1], t[2], t[3])
  let c1 := f (t[4], t[5], t[6], t[7])
  let c2 := f (t[8], t[9], t[10], t[11])
  let c3 := f (t[12], t[13], t[14], t[15])
  #v[c0.1, c0.2.1, c0.2.2.1, c0.2.2.2, c1.1, c1.2.1, c1.2.2.1, c1.2.2.2,
    c2.1, c2.2.1, c2.2.2.1, c2.2.2.2, c3.1, c3.2.1, c3.2.2.1, c3.2.2.2]

def encryptRound (rk : RoundKeys) (st : Block) (round : ℕ) : Block :=
  addRoundKey rk round (onColumns mixColumn (shiftRows (subBytes st)))

def aes256EncryptBlock (rk : RoundKeys) (b : Block) : Block :=
  let st := (List.range' 1 13).foldl (encryptRound rk) (addRoundKey rk 0 b)
  addRoundKey rk 14 (shiftRows (subBytes st))

def decryptRound (rk : RoundKeys) (st : Block) (round : ℕ) : Block :=
  onColumns invMixColumn (addRoundKey rk round (invSubBytes (invShiftRows st)))

def aes256DecryptBlock (rk : RoundKeys) (b : Block) : Block :=
  let st := (List.range' 1 13).reverse.foldl (decryptRound rk) (addRoundKey rk 14 b)
  addRoundKey rk 0 (invSubBytes (invShiftRows st))

theorem forall_byte {P : UInt8 → Prop} (h : ∀ n : Fin 256, P (UInt8.ofNat n)) (b : UInt8) : P b := by
  have hb := h ⟨b.toNat, b.toNat_lt⟩
  rwa [UInt8.ofNat_toNat] at hb

def double (a : UInt8) : UInt8 := if a &&& 0x80 ≠ 0 then (a <<< 1) ^^^ 0x1b else a <<< 1

theorem double_eq (a : UInt8) :
    (a >>> 7 = 0 ∧ double a = a <<< 1) ∨ (a >>> 7 = 1 ∧ double a = (a <<< 1) ^^^ 0x1b) := by
  revert a
  apply forall_byte
  decide +kernel

theorem double_xor (a b : UInt8) : double (a ^^^ b) = double a ^^^ double b := by
  have hc : ∀ x y z : UInt8, (x ^^^ z) ^^^ y = x ^^^ y ^^^ z := fun x y z => by ac_rfl
  have hself : ∀ x y z : UInt8, x ^^^ y = x ^^^ z ^^^ (y ^^^ z) := fun x y z => by
    rw [UInt8.xor_assoc, UInt8.xor_comm y z, ← UInt8.xor_assoc z z y, UInt8.xor_self,
      UInt8.zero_xor]
  rcases double_eq a with ⟨ha, hda⟩ | ⟨ha, hda⟩ <;> rcases double_eq b with ⟨hb, hdb⟩ | ⟨hb, hdb⟩ <;>
    rcases double_eq (a ^^^ b) with ⟨hab, hdab⟩ | ⟨hab, hdab⟩ <;>
    rw [UInt8.shiftRight_xor, ha, hb] at hab <;>
    first
    | exact absurd hab (by decide)
    | rw [hda, hdb, hdab, UInt8.shiftLeft_xor]
  · rw [UInt8.xor_assoc]
  · rw [hc]
  · exact hself ..

theorem gmulLoop_xor (n : ℕ) (a a' b r r' : UInt8) :
    gmulLoop n (a ^^^ a') b (r ^^^ r') = gmulLoop n a b r ^^^ gmulLoop n a' b r' := by
  induction n generalizing a a' b r r' with
  | zero => rfl
  | succ n ih =>
    have hd : ∀ c : UInt8, (if c &&& 0x80 ≠ 0 then (c <<< 1) ^^^ 0x1b else c <<< 1) = double c :=
      fun c => rfl
    simp only [gmulLoop, hd, double_xor]
    split
    · rw [← ih]
      congr 1
      ac_rfl
    · exact ih ..

theorem gmul_xor (a a' b : UInt8) : gmul (a ^^^ a') b = gmul a b ^^^ gmul a' b :=
  gmulLoop_xor 8 a a' b 0 0

theorem mixColumn_identity (a : UInt8) :
    (mul14 (mul2 a) ^^^ mul11 a ^^^ mul13 a ^^^ mul9 (mul3 a) = a ∧
      mul14 (mul3 a) ^^^ mul11 (mul2 a) ^^^ mul13 a ^^^ mul9 a = 0) ∧
    mul14 a ^^^ mul11 (mul3 a) ^^^ mul13 (mul2 a) ^^^ mul9 a = 0 ∧
      mul14 a ^^^ mul11 a ^^^ mul13 (mul3 a) ^^^ mul9 (mul2 a) = 0 := by
  revert a
  apply forall_byte
  decide +kernel

/-- Passes on the numeral that `a` evaluates to, so that checking a table by
computation does not evaluate `a` again at every use. -/
def strict (a : UInt8) (k : UInt8 → UInt8) : UInt8 :=
  Nat.rec (k 0) (fun n _ => k (UInt8.ofNat (n + 1))) a.toNat

theorem strict_eq (a : UInt8) (k : UInt8 → UInt8) : strict a k = k a := by
  have h : ∀ n : ℕ, Nat.rec (k 0) (fun n _ => k (UInt8.ofNat (n + 1))) n = k (UInt8.ofNat n) := by
    intro n
    cases n <;> rfl
  rw [strict, h, UInt8.ofNat_toNat]

def ginvStrict : ℕ → ℕ → UInt8 → UInt8 → UInt8
  | 0, _, res, _ => res
  | fuel + 1, e, res, base =>
    if e = 0 then res
    else strict (if e % 2 = 1 then gmul res base else res) fun res' =>
      strict (gmul base base) fun base' => ginvStrict fuel (e / 2) res' base'

theorem ginvStrict_eq (fuel e : ℕ) (res base : UInt8) :
    ginvStrict fuel e res base = ginvLoop fuel e res base := by
  induction fuel generalizing e res base with
  | zero => rfl
  | succ fuel ih => simp only [ginvStrict, ginvLoop, strict_eq, ih]

theorem ginv_affine (a : UInt8) :
    (strict (if a = 0 then 0 else ginvStrict 8 254 1 a) fun x =>
      strict (x ^^^ rotl8 x 1 ^^^ rotl8 x 2 ^^^ rotl8 x 3 ^^^ rotl8 x 4 ^^^ 0x63) fun s =>
        strict (rotl8 s 1 ^^^ rotl8 s 3 ^^^ rotl8 s 6 ^^^ 5) fun y => ginvStrict 8 254 1 y) = a := by
  revert a
  apply forall_byte
  decide +kernel

theorem sbox_injective : Function.Injective sbox := by
  have h : Function.LeftInverse
      (fun s => ginv (rotl8 s 1 ^^^ rotl8 s 3 ^^^ rotl8 s 6 ^^^ 5)) sbox := by
    intro a
    have ha := ginv_affine a
    simp only [strict_eq, ginvStrict_eq] at ha
    exact ha
  exact h.injective

/-- A table filled for distinct keys can be read back at each of them. -/
theorem foldl_update_apply {α β γ : Type*} [DecidableEq β] {key : α → β}
    (hk : Function.Injective key) (val : α → γ) (l : List α) (t : β → γ) {a : α} (ha : a ∈ l) :
    l.foldl (fun t i => Function.update t (key i) (val i)) t (key a) = val a := by
  induction l using List.reverseRecOn with
  | nil => simp at ha
  | append_singleton l i ih =>
    rw [List.foldl_append, List.foldl_cons, List.foldl_nil]
    by_cases h : a = i
    · rw [h, Function.update_self]
    · rw [Function.update_of_ne (hk.ne h)]
      refine ih ?_
      simpa [h] using ha

theorem invSbox_sbox (a : UInt8) : invSbox (sbox a) = a := by
  have hmap : invSbox = ((List.range 256).map UInt8.ofNat).foldl
      (fun t i => Function.update t (sbox i) i) fun _ => 0 := by
    rw [List.foldl_map]
    rfl
  rw [hmap]
  refine foldl_update_apply sbox_injective id _ _ ?_
  exact List.mem_map.mpr ⟨a.toNat, List.mem_range.mpr a.toNat_lt, UInt8.ofNat_toNat⟩

theorem invSubBytes_subBytes (st : Block) : invSubBytes (subBytes st) = st := by
  ext i hi
  simp [invSubBytes, subBytes, invSbox_sbox]

theorem invShiftRows_shiftRows (st : Block) : invShiftRows (shiftRows st) = st := by
  ext i hi
  interval_cases i <;> rfl

theorem addRoundKey_addRoundKey (rk : RoundKeys) (round : ℕ) (st : Block) :
    addRoundKey rk round (addRoundKey rk round st) = st := by
  ext i hi
  simp [addRoundKey]

/-- The first row of the product of the two column matrices is that of the identity. -/
theorem invMix_row (x y z w : UInt8) :
    mul14 (mul2 x ^^^ mul3 y ^^^ z ^^^ w) ^^^ mul11 (x ^^^ mul2 y ^^^ mul3 z ^^^ w) ^^^
      mul13 (x ^^^ y ^^^ mul2 z ^^^ mul3 w) ^^^ mul9 (mul3 x ^^^ y ^^^ z ^^^ mul2 w) = x := by
  have h14 : ∀ a b, mul14 (a ^^^ b) = mul14 a ^^^ mul14 b := fun a b => gmul_xor a b 14
  have h13 : ∀ a b, mul13 (a ^^^ b) = mul13 a ^^^ mul13 b := fun a b => gmul_xor a b 13
  have h11 : ∀ a b, mul11 (a ^^^ b) = mul11 a ^^^ mul11 b := fun a b => gmul_xor a b 11
  have h9 : ∀ a b, mul9 (a ^^^ b) = mul9 a ^^^ mul9 b := fun a b => gmul_xor a b 9
  simp only [h14, h13, h11, h9]
  calc _ = (mul14 (mul2 x) ^^^ mul11 x ^^^ mul13 x ^^^ mul9 (mul3 x)) ^^^
        (mul14 (mul3 y) ^^^ mul11 (mul2 y) ^^^ mul13 y ^^^ mul9 y) ^^^
        (mul14 z ^^^ mul11 (mul3 z) ^^^ mul13 (mul2 z) ^^^ mul9 z) ^^^
        (mul14 w ^^^ mul11 w ^^^ mul13 (mul3 w) ^^^ mul9 (mul2 w)) := by ac_rfl
    _ = x := by
      rw [(mixColumn_identity x).1.1, (mixColumn_identity y).1.2, (mixColumn_identity z).2.1,
        (mixColumn_identity w).2.2]
      simp

theorem invMixColumn_mixColumn (c : Column) : invMixColumn (mixColumn c) = c := by
  obtain ⟨a0, a1, a2, a3⟩ := c
  have h0 := invMix_row a0 a1 a2 a3
  have h1 := invMix_row a1 a2 a3 a0
  have h2 := invMix_row a2 a3 a0 a1
  have h3 := invMix_row a3 a0 a1 a2
  have hleft : ∀ x y z : UInt8, x ^^^ (y ^^^ z) = y ^^^ (x ^^^ z) := fun x y z => by ac_rfl
  -- the matrices are circulant: every row is the first one with the column rotated
  simp only [UInt8.xor_assoc, UInt8.xor_comm, hleft] at h0 h1 h2 h3
  simp only [mixColumn, invMixColumn, UInt8.xor_assoc, UInt8.xor_comm, hleft, h0, h1, h2, h3]

theorem onColumns_leftInverse {f g : Column → Column} (h : Function.LeftInverse g f) :
    Function.LeftInverse (onColumns g) (onColumns f) := by
  intro t
  have hcomp : onColumns g (onColumns f t) = onColumns (g ∘ f) t := rfl
  rw [hcomp, h.comp_eq_id]
  ext i hi
  interval_cases i <;> rfl

theorem decryptRound_encryptRound (rk : RoundKeys) (round : ℕ) (st : Block) :
    decryptRound rk (shiftRows (subBytes (encryptRound rk st round))) round =
      shiftRows (subBytes st) := by
  rw [decryptRound, invShiftRows_shiftRows, invSubBytes_subBytes, encryptRound,
    addRoundKey_addRoundKey]
  exact onColumns_leftInverse invMixColumn_mixColumn _

theorem decryptRounds_encryptRounds (rk : RoundKeys) (rounds : List ℕ) (st : Block) :
    rounds.reverse.foldl (decryptRound rk) (shiftRows (subBytes (rounds.foldl (encryptRound rk) st)))
      = shiftRows (subBytes st) := by
  induction rounds using List.reverseRecOn with
  | nil => rfl
  | append_singleton rounds r ih =>
    rw [List.foldl_append, List.reverse_append, List.foldl_append]
    simp only [List.foldl_cons, List.foldl_nil, List.reverse_cons, List.reverse_nil, List.nil_append]
    rw [decryptRound_encryptRound, ih]

/-- Decryption of a block undoes its encryption, for any round keys. -/
theorem aes256DecryptBlock_encryptBlock (rk : RoundKeys) (b : Block) :
    aes256DecryptBlock rk (aes256EncryptBlock rk b) = b := by
  simp only [aes256DecryptBlock, aes256EncryptBlock]
  rw [addRoundKey_addRoundKey, decryptRounds_encryptRounds, invShiftRows_shiftRows,
    invSubBytes_subBytes, addRoundKey_addRoundKey]

end P2PServer.Crypto
