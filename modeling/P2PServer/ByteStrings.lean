import Mathlib

/-! Byte strings as C programs handle them: big-endian integers, zero-padded text
fields and windows of a buffer. Casts to a narrower type wrap, as in C. -/
namespace ByteStrings

abbrev Bytes := List UInt8

/-- The bytes of a text as the source writes it. -/
def ascii (s : String) : Bytes := s.toList.map fun c => UInt8.ofNat c.toNat

def be16 (v : UInt16) : Bytes := [UInt8.ofNat (v.toNat / 256), v.toUInt8]

def rd16 (a b : UInt8) : UInt16 := UInt16.ofNat (a.toNat * 256 + b.toNat)

def be32 (v : UInt32) : Bytes :=
  [UInt8.ofNat (v.toNat / 16777216), UInt8.ofNat (v.toNat / 65536),
    UInt8.ofNat (v.toNat / 256), v.toUInt8]

def rd32 (a b c d : UInt8) : UInt32 :=
  UInt32.ofNat (a.toNat * 16777216 + b.toNat * 65536 + c.toNat * 256 + d.toNat)

@[simp] theorem be16_length (v : UInt16) : (be16 v).length = 2 := rfl

@[simp] theorem be32_length (v : UInt32) : (be32 v).length = 4 := rfl

@[simp] theorem rd16_be16 (v : UInt16) :
    rd16 (UInt8.ofNat (v.toNat / 256)) v.toUInt8 = v := by
  have h := v.toNat_lt
  apply UInt16.toNat_inj.mp
  simp only [rd16, UInt8.toNat_ofNat', UInt16.toNat_toUInt8, UInt16.toNat_ofNat']
  omega

theorem be16_rd16 (a b : UInt8) : be16 (rd16 a b) = [a, b] := by
  have ha := a.toNat_lt
  have hb := b.toNat_lt
  simp only [be16, rd16, List.cons.injEq, and_true]
  constructor <;> apply UInt8.toNat_inj.mp <;>
    simp only [UInt8.toNat_ofNat', UInt16.toNat_toUInt8, UInt16.toNat_ofNat'] <;> omega

@[simp] theorem rd32_be32 (v : UInt32) :
    rd32 (UInt8.ofNat (v.toNat / 16777216)) (UInt8.ofNat (v.toNat / 65536))
      (UInt8.ofNat (v.toNat / 256)) v.toUInt8 = v := by
  have h := v.toNat_lt
  apply UInt32.toNat_inj.mp
  simp only [rd32, UInt8.toNat_ofNat', UInt32.toNat_toUInt8, UInt32.toNat_ofNat']
  omega

theorem be32_rd32 (a b c d : UInt8) : be32 (rd32 a b c d) = [a, b, c, d] := by
  have ha := a.toNat_lt
  have hb := b.toNat_lt
  have hc := c.toNat_lt
  have hd := d.toNat_lt
  simp only [be32, rd32, List.cons.injEq, and_true]
  refine ⟨?_, ?_, ?_, ?_⟩ <;> apply UInt8.toNat_inj.mp <;>
    simp only [UInt8.toNat_ofNat', UInt32.toNat_toUInt8, UInt32.toNat_ofNat'] <;> omega

/-- The text of a C string: everything before the first NUL. -/
def cstr (b : Bytes) : Bytes := b.takeWhile (· != 0)

theorem takeWhile_ne_append {s t : Bytes} {c : UInt8} (h : c ∉ s) (ht : t = [] ∨ ∃ rest, t = c :: rest) :
    (s ++ t).takeWhile (· != c) = s := by
  rw [List.takeWhile_append_of_pos]
  · rcases ht with rfl | ⟨rest, rfl⟩ <;> simp
  · intro b hb
    have hne : b ≠ c := fun heq => h (heq ▸ hb)
    simp [hne]

theorem takeWhile_ne_cons {s : Bytes} {c : UInt8} (h : c ∉ s) (rest : Bytes) :
    (s ++ c :: rest).takeWhile (· != c) = s :=
  takeWhile_ne_append h (.inr ⟨rest, rfl⟩)

theorem takeWhile_ne_self {s : Bytes} {c : UInt8} (h : c ∉ s) : s.takeWhile (· != c) = s := by
  have happ := takeWhile_ne_append h (.inl rfl)
  rwa [List.append_nil] at happ

theorem cstr_eq_self {s : Bytes} (h : 0 ∉ s) : cstr s = s := takeWhile_ne_self h

/-- `strncpy(dst, s, n)` into a zeroed field of `size` bytes. -/
def field (n size : ℕ) (s : Bytes) : Bytes :=
  let t := (cstr s).take n
  t ++ List.replicate (size - t.length) 0

/-- `memcpy` of a whole string into a zeroed field of `size` bytes. -/
def padded (size : ℕ) (s : Bytes) : Bytes := s ++ List.replicate (size - s.length) 0

/-- The window of `n` bytes that starts at offset `i`. -/
def window (b : Bytes) (i n : ℕ) : Bytes := (b.drop i).take n

def overwrite (buf w : Bytes) : Bytes := w ++ buf.drop w.length

end ByteStrings
