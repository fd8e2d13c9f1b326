import P2PServer.ProtoDef

/-! Addresses and the layout of packed messages: reading fields of a payload and
writing the fixed-size text fields. Numbers are kept in host order. -/
namespace P2PServer.Net
open ByteStrings

structure Addr where
  ip : UInt32
  port : UInt16
  deriving DecidableEq, Repr

def byteAt (p : Bytes) (i : ℕ) : UInt8 := p.getD i 0

def u16At (p : Bytes) (i : ℕ) : UInt16 := rd16 (byteAt p i) (byteAt p (i + 1))

def u32At (p : Bytes) (i : ℕ) : UInt32 :=
  rd32 (byteAt p i) (byteAt p (i + 1)) (byteAt p (i + 2)) (byteAt p (i + 3))

/-- The text in a field of `n` bytes. -/
def textAt (p : Bytes) (i n : ℕ) : Bytes := cstr (window p i n)

/-- A uuid field of 33 bytes whose last byte has been overwritten by zero. -/
def uuidAt (p : Bytes) (i : ℕ) : Bytes := textAt p i ProtoDef.maxUuidLen

/-- `strncpy(dst, uuid, MAX_UUID_LEN)` into a zeroed uuid field. -/
def uuidField (uuid : Bytes) : Bytes := field ProtoDef.maxUuidLen (ProtoDef.maxUuidLen + 1) uuid

@[simp] theorem uuidField_length (uuid : Bytes) : (uuidField uuid).length = 33 := by
  have h := List.length_take_le ProtoDef.maxUuidLen (cstr uuid)
  simp only [uuidField, field, List.length_append, List.length_replicate]
  simp only [ProtoDef.maxUuidLen] at h ⊢
  omega

theorem cstr_cstr (b : Bytes) : cstr (cstr b) = cstr b := by
  unfold cstr
  rw [List.takeWhile_takeWhile]
  congr 1
  funext x
  cases h : x != 0 <;> simp

theorem cstr_append_zero (s t : Bytes) : cstr (s ++ 0 :: t) = cstr s := by
  unfold cstr
  induction s with
  | nil => rfl
  | cons b s ih => simp only [List.cons_append, List.takeWhile_cons, ih]

theorem cstr_take_append_zero (s : Bytes) (n k : ℕ) :
    cstr ((cstr s).take n ++ List.replicate k 0) = (cstr s).take n := by
  have hpos : ∀ b ∈ (cstr s).take n, (b != 0) = true := by
    intro b hb
    have hs := List.mem_of_mem_take hb
    unfold cstr at hs
    exact List.mem_takeWhile_imp (p := fun x => x != 0) hs
  unfold cstr at hpos ⊢
  rw [List.takeWhile_append_of_pos hpos]
  cases k <;> simp [List.replicate_succ]

/-- The text of a written uuid field, whatever follows it. -/
theorem uuidAt_uuidField (uuid rest : Bytes) :
    uuidAt (uuidField uuid ++ rest) 0 = (cstr uuid).take ProtoDef.maxUuidLen := by
  have hn : ((cstr uuid).take ProtoDef.maxUuidLen).length ≤ ProtoDef.maxUuidLen :=
    List.length_take_le _ _
  simp only [uuidAt, textAt, window, uuidField, field, List.drop_zero, List.append_assoc]
  rw [List.take_append, List.take_of_length_le hn, List.take_append_of_le_length (by simp),
    List.take_replicate, cstr_take_append_zero]

theorem uuidField_take (uuid : Bytes) :
    uuidField ((cstr uuid).take ProtoDef.maxUuidLen) = uuidField uuid := by
  have h := cstr_take_append_zero uuid ProtoDef.maxUuidLen 0
  simp only [List.replicate_zero, List.append_nil] at h
  simp [uuidField, field, h]

def dot : UInt8 := 0x2e

def digit (n : ℕ) : UInt8 := UInt8.ofNat (0x30 + n % 10)

def decimalByte (b : UInt8) : Bytes :=
  let n := b.toNat
  if n < 10 then [digit n]
  else if n < 100 then [digit (n / 10), digit n]
  else [digit (n / 100), digit (n / 10), digit n]

def inetNtop (ip : UInt32) : Bytes := List.intercalate [dot] ((be32 ip).map decimalByte)

/-- `inet_ntop` into a zeroed field of `MAX_IP_LEN` bytes. -/
def ipField (ip : UInt32) : Bytes := padded ProtoDef.maxIpLen (inetNtop ip)

/-- `strncpy(dst, ip, MAX_IP_LEN - 1)` into a zeroed field. -/
def ipTextField (ip : Bytes) : Bytes := field (ProtoDef.maxIpLen - 1) ProtoDef.maxIpLen ip

/-- One character of `inet_pton`: the finished octets and the one being read. An octet
has no leading zero and is at most 255. -/
def ptonStep (st : Option (List ℕ × Option ℕ)) (ch : UInt8) : Option (List ℕ × Option ℕ) :=
  match st with
  | none => none
  | some (done, cur) =>
    if 0x30 ≤ ch ∧ ch ≤ 0x39 then
      let d := ch.toNat - 0x30
      match cur with
      | none => if done.length ≥ 4 then none else some (done, some d)
      | some n => if n = 0 ∨ n * 10 + d > 255 then none else some (done, some (n * 10 + d))
    else if ch = dot then
      match cur with
      | none => none
      | some n => if done.length ≥ 3 then none else some (done ++ [n], none)
    else none

def inetPton (text : Bytes) : Option UInt32 :=
  match (cstr text).foldl ptonStep (some ([], none)) with
  | some ([a, b, c], some d) =>
    some (UInt32.ofNat (a * 16777216 + b * 65536 + c * 256 + d))
  | _ => none

theorem digit_toNat (n : ℕ) : (digit n).toNat = 48 + n % 10 := by
  simp only [digit, UInt8.toNat_ofNat']
  omega

theorem ptonStep_digit (done : List ℕ) (cur : Option ℕ) (n : ℕ) :
    ptonStep (some (done, cur)) (digit n) = match cur with
      | none => if done.length ≥ 4 then none else some (done, some (n % 10))
      | some m => if m = 0 ∨ m * 10 + n % 10 > 255 then none
          else some (done, some (m * 10 + n % 10)) := by
  have hd := digit_toNat n
  have h1 : 0x30 ≤ digit n ∧ digit n ≤ 0x39 := by
    constructor <;> rw [UInt8.le_iff_toNat_le, hd]
    · exact Nat.le_add_right 48 _
    · have := Nat.mod_lt n (by decide : 10 > 0)
      change _ ≤ 57
      omega
  have h2 : (digit n).toNat - 0x30 = n % 10 := by omega
  simp only [ptonStep, if_pos h1, h2]

theorem ptonStep_dot {done : List ℕ} (h : done.length < 3) (n : ℕ) :
    ptonStep (some (done, some n)) dot = some (done ++ [n], none) := by
  have hd : ¬(0x30 ≤ dot ∧ dot ≤ 0x39) := by decide
  simp only [ptonStep, if_neg hd, if_true]
  rw [if_neg (by omega)]

theorem foldl_ptonStep_decimalByte {done : List ℕ} (h : done.length < 4) (b : UInt8) :
    (decimalByte b).foldl ptonStep (some (done, none)) = some (done, some b.toNat) := by
  have hb := b.toNat_lt
  have hd : ¬done.length ≥ 4 := by omega
  unfold decimalByte
  dsimp only
  by_cases h1 : b.toNat < 10
  · simp only [if_pos h1, List.foldl_cons, List.foldl_nil, ptonStep_digit, if_neg hd]
    rw [Nat.mod_eq_of_lt h1]
  · by_cases h2 : b.toNat < 100
    · simp only [if_neg h1, if_pos h2, List.foldl_cons, List.foldl_nil, ptonStep_digit, if_neg hd]
      rw [if_neg (by omega)]
      have hn : b.toNat / 10 % 10 * 10 + b.toNat % 10 = b.toNat := by omega
      rw [hn]
    · simp only [if_neg h1, if_neg h2, List.foldl_cons, List.foldl_nil, ptonStep_digit, if_neg hd]
      rw [if_neg (by omega), ptonStep_digit]
      dsimp only
      rw [if_neg (by omega)]
      have hn : (b.toNat / 100 % 10 * 10 + b.toNat / 10 % 10) * 10 + b.toNat % 10 = b.toNat := by omega
      rw [hn]

theorem decimalByte_digits {b x : UInt8} (h : x ∈ decimalByte b) : 48 ≤ x.toNat ∧ x.toNat ≤ 57 := by
  have hd : ∀ n, 48 ≤ (digit n).toNat ∧ (digit n).toNat ≤ 57 := by
    intro n
    rw [digit_toNat]
    omega
  unfold decimalByte at h
  dsimp only at h
  split at h
  · rw [List.mem_singleton] at h
    exact h ▸ hd _
  · split at h
    · simp only [List.mem_cons, List.not_mem_nil, or_false] at h
      rcases h with rfl | rfl <;> exact hd _
    · simp only [List.mem_cons, List.not_mem_nil, or_false] at h
      rcases h with rfl | rfl | rfl <;> exact hd _

theorem inetNtop_eq (ip : UInt32) :
    inetNtop ip = decimalByte (UInt8.ofNat (ip.toNat / 16777216)) ++ dot ::
      (decimalByte (UInt8.ofNat (ip.toNat / 65536)) ++ dot ::
        (decimalByte (UInt8.ofNat (ip.toNat / 256)) ++ dot :: decimalByte ip.toUInt8)) := by
  simp [inetNtop, be32, List.intercalate, List.intersperse]

theorem inetNtop_digits {ip : UInt32} {x : UInt8} (hx : x ∈ inetNtop ip) :
    x = dot ∨ (48 ≤ x.toNat ∧ x.toNat ≤ 57) := by
  rw [inetNtop_eq] at hx
  simp only [List.mem_append, List.mem_cons] at hx
  rcases hx with h | h | h | h | h | h | h
  · exact .inr (decimalByte_digits h)
  · exact .inl h
  · exact .inr (decimalByte_digits h)
  · exact .inl h
  · exact .inr (decimalByte_digits h)
  · exact .inl h
  · exact .inr (decimalByte_digits h)

theorem inetNtop_ne_zero {ip : UInt32} : ∀ x ∈ inetNtop ip, (x != 0) = true := by
  intro x hx
  rcases inetNtop_digits hx with rfl | hd
  · decide
  · have h0 : x ≠ 0 := by
      rintro rfl
      exact absurd hd.1 (by decide)
    simpa using h0

theorem cstr_inetNtop (ip : UInt32) (k : ℕ) :
    cstr (inetNtop ip ++ List.replicate k 0) = inetNtop ip := by
  unfold cstr
  rw [List.takeWhile_append_of_pos inetNtop_ne_zero]
  cases k <;> simp [List.replicate_succ]

/-- `inet_pton` reads what `inet_ntop` writes. -/
theorem inetPton_inetNtop (ip : UInt32) : inetPton (inetNtop ip) = some ip := by
  have hip := ip.toNat_lt
  have hc : cstr (inetNtop ip) = inetNtop ip := by
    have h := cstr_inetNtop ip 0
    rwa [List.replicate_zero, List.append_nil] at h
  unfold inetPton
  rw [hc, inetNtop_eq]
  simp only [List.foldl_append, List.foldl_cons]
  rw [foldl_ptonStep_decimalByte (by simp), ptonStep_dot (by simp),
    foldl_ptonStep_decimalByte (by simp), ptonStep_dot (by simp),
    foldl_ptonStep_decimalByte (by simp), ptonStep_dot (by simp),
    foldl_ptonStep_decimalByte (by simp)]
  simp only [List.nil_append, List.cons_append, Option.some.injEq]
  apply UInt32.toNat_inj.mp
  simp only [UInt32.toNat_ofNat', UInt8.toNat_ofNat', UInt32.toNat_toUInt8]
  omega

example : inetPton (inetNtop 0xC0A80107) = some 0xC0A80107 := by decide

def sockaddrFrom (ip : Bytes) (port : UInt16) : Option Addr := (inetPton ip).map fun i => ⟨i, port⟩

/-- `s_addr` as a little-endian machine holds it. -/
def Addr.sAddr (a : Addr) : UInt32 :=
  match be32 a.ip with
  | [b0, b1, b2, b3] => rd32 b3 b2 b1 b0
  | _ => 0

/-- The table key of the proxy. -/
def addrToU64 (a : Addr) : UInt64 := (a.sAddr.toUInt64 <<< 32) ||| a.port.toUInt64

/-- The table key of the client. -/
def addrKey (a : Addr) : UInt64 := (a.ip.toUInt64 <<< 16) ||| a.port.toUInt64

end P2PServer.Net

namespace P2PServer.Samples
open ByteStrings Net

def uuidA : Bytes := [0x61]
def uuidB : Bytes := [0x62]
def uuidU : Bytes := [0x75]
def uuidV : Bytes := [0x76]

def secretK : Bytes := [0x6b]

def host : Addr := ⟨0xC0A80107, 5000⟩

def addrA : Addr := ⟨0x0A000001, 5000⟩
def addrB : Addr := ⟨0x0A000002, 5000⟩
def addrC : Addr := ⟨0x0A000003, 5000⟩

def addr1 : Addr := ⟨0x0A000001, 9000⟩
def addr2 : Addr := ⟨0x0A000002, 9000⟩

end P2PServer.Samples
