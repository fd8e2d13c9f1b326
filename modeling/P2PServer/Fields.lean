import P2PServer.Net

/-! Reading the fields of a message: after other fields were written, and at a given offset
behind earlier ones. -/
namespace P2PServer.Net
open ByteStrings ProtoDef

theorem window_append_left {a : Bytes} (b : Bytes) {i n : ℕ} (h : i + n ≤ a.length) :
    window (a ++ b) i n = window a i n := by
  unfold window
  rw [List.drop_append_of_le_length (by omega), List.take_append_of_le_length]
  rw [List.length_drop]
  omega

theorem byteAt_append_left {a : Bytes} (b : Bytes) {i : ℕ} (h : i < a.length) :
    byteAt (a ++ b) i = byteAt a i := by
  unfold byteAt
  rw [List.getD_append _ _ _ _ h]

theorem byteAt_set_self {a : Bytes} {i : ℕ} (h : i < a.length) (v : UInt8) :
    byteAt (a.set i v) i = v := by
  simp [byteAt, h]

theorem byteAt_set_ne (a : Bytes) {i j : ℕ} (h : i ≠ j) (v : UInt8) :
    byteAt (a.set i v) j = byteAt a j := by
  simp [byteAt, List.getElem?_set_ne h]

theorem window_set (a : Bytes) {i n k : ℕ} (h : k < i ∨ i + n ≤ k) (v : UInt8) :
    window (a.set k v) i n = window a i n := by
  unfold window
  rcases h with h | h
  · rw [List.drop_set_of_lt h]
  · rw [List.drop_set, if_neg (by omega), List.take_set_of_le (by omega)]

theorem byteAt_drop (a : Bytes) (n i : ℕ) : byteAt (a.drop n) i = byteAt a (n + i) := by
  rw [byteAt, byteAt, List.getD_eq_getElem?_getD, List.getD_eq_getElem?_getD, List.getElem?_drop]

theorem byteAt_take {a : Bytes} {i n : ℕ} (h : i < n) : byteAt (a.take n) i = byteAt a i := by
  simp [byteAt, h]

theorem window_take (a : Bytes) {i n k : ℕ} (h : i + n ≤ k) :
    window (a.take k) i n = window a i n := by
  unfold window
  rw [List.drop_take, List.take_take, Nat.min_eq_left (by omega)]

theorem decimalByte_length (b : UInt8) : (decimalByte b).length ≤ 3 := by
  unfold decimalByte
  dsimp only
  split
  · simp
  · split <;> simp

theorem inetNtop_length (ip : UInt32) : (inetNtop ip).length ≤ 15 := by
  have h0 := decimalByte_length (UInt8.ofNat (ip.toNat / 16777216))
  have h1 := decimalByte_length (UInt8.ofNat (ip.toNat / 65536))
  have h2 := decimalByte_length (UInt8.ofNat (ip.toNat / 256))
  have h3 := decimalByte_length ip.toUInt8
  simp only [inetNtop, be32, List.map_cons, List.map_nil, List.intercalate, List.intersperse,
    List.flatten_cons, List.flatten_nil, List.length_append, List.length_cons, List.length_nil]
  omega

theorem ipField_length (ip : UInt32) : (ipField ip).length = 16 := by
  have h := inetNtop_length ip
  simp only [ipField, padded, List.length_append, List.length_replicate, maxIpLen]
  omega

theorem drop_past {w a b : Bytes} {i j : ℕ} (h : w.drop i = a ++ b) (hj : i + a.length = j) :
    w.drop j = b := by
  rw [← hj, ← List.drop_drop, h, List.drop_left]

theorem byteAt_of_drop {w b : Bytes} {v : UInt8} {i : ℕ} (h : w.drop i = v :: b) :
    byteAt w i = v := by
  have h0 : w[i]? = some v := by
    rw [← List.head?_drop, h, List.head?_cons]
  simp [byteAt, h0]

theorem window_of_drop {w a b : Bytes} {i n : ℕ} (h : w.drop i = a ++ b) (hn : a.length = n) :
    window w i n = a := by
  rw [window, h, List.take_left' hn]

theorem u16At_of_drop {w b : Bytes} {v : UInt16} {i : ℕ} (h : w.drop i = be16 v ++ b) :
    u16At w i = v := by
  have h1 : w.drop (i + 1) = v.toUInt8 :: b := drop_past (a := [_]) h rfl
  rw [u16At, byteAt_of_drop h, byteAt_of_drop h1, rd16_be16]

theorem u32At_of_drop {w b : Bytes} {v : UInt32} {i : ℕ} (h : w.drop i = be32 v ++ b) :
    u32At w i = v := by
  have h1 : w.drop (i + 1) = _ := drop_past (a := [_]) h rfl
  have h2 : w.drop (i + 2) = _ := drop_past (a := [_, _]) h rfl
  have h3 : w.drop (i + 3) = v.toUInt8 :: b := drop_past (a := [_, _, _]) h rfl
  rw [u32At, byteAt_of_drop h, byteAt_of_drop h1, byteAt_of_drop h2, byteAt_of_drop h3, rd32_be32]

theorem u16At_eq_iff {a b : Bytes} {i : ℕ} :
    u16At a i = u16At b i ↔ byteAt a i = byteAt b i ∧ byteAt a (i + 1) = byteAt b (i + 1) := by
  constructor
  · intro h
    have hbytes := congrArg be16 h
    rw [u16At, u16At, be16_rd16, be16_rd16] at hbytes
    simpa using hbytes
  · rintro ⟨h0, h1⟩
    rw [u16At, u16At, h0, h1]

theorem u32At_eq_iff {a b : Bytes} {i : ℕ} : u32At a i = u32At b i ↔
    byteAt a i = byteAt b i ∧ byteAt a (i + 1) = byteAt b (i + 1) ∧ byteAt a (i + 2) = byteAt b (i + 2) ∧
      byteAt a (i + 3) = byteAt b (i + 3) := by
  constructor
  · intro h
    have hbytes := congrArg be32 h
    rw [u32At, u32At, be32_rd32, be32_rd32] at hbytes
    simpa using hbytes
  · rintro ⟨h0, h1, h2, h3⟩
    rw [u32At, u32At, h0, h1, h2, h3]

theorem textAt_ipField {w b : Bytes} {ip : UInt32} {i : ℕ} (h : w.drop i = ipField ip ++ b) :
    textAt w i 16 = inetNtop ip := by
  rw [textAt, window_of_drop h (ipField_length ip), ipField, padded, cstr_inetNtop]

end P2PServer.Net
