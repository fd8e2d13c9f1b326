import P2PServer.ByteStrings

/-! The memory at a pointer: a function from offsets to bytes, for code that reads and writes
without regard to the size of a buffer. -/
namespace P2PServer
open ByteStrings

/-- The bytes from a pointer on. -/
abbrev Memory := ℕ → UInt8

namespace Memory

/-- A received datagram with what lies behind it in the buffer. -/
def ofBytes (data : Bytes) (behind : Memory) : Memory := fun i =>
  (data[i]?).getD (behind (i - data.length))

def offset (m : Memory) (k : ℕ) : Memory := fun i => m (k + i)

def read (m : Memory) (i n : ℕ) : Bytes := (List.range n).map fun k => m (i + k)

@[simp] theorem read_length (m : Memory) (i n : ℕ) : (read m i n).length = n := by simp [read]

theorem read_getElem? {m : Memory} {i n k : ℕ} (h : k < n) : (read m i n)[k]? = some (m (i + k)) := by
  simp [read, h]

theorem read_ofBytes (data : Bytes) (behind : Memory) :
    (ofBytes data behind).read 0 data.length = data := by
  apply List.ext_getElem?
  intro i
  rcases Nat.lt_or_ge i data.length with hi | hi
  · rw [read_getElem? hi, Nat.zero_add, ofBytes, List.getElem?_eq_getElem hi]
    rfl
  · rw [List.getElem?_eq_none (by simpa using hi), List.getElem?_eq_none hi]

theorem read_add (m : Memory) (i a b : ℕ) : m.read i (a + b) = m.read i a ++ m.read (i + a) b := by
  simp only [read, List.range_add, List.map_append, List.map_map, List.append_cancel_left_eq]
  refine List.map_congr_left fun k _ => ?_
  rw [Function.comp_apply, Nat.add_assoc]

theorem read_offset (m : Memory) (k i n : ℕ) : (m.offset k).read i n = m.read (k + i) n := by
  simp only [read, offset, Nat.add_assoc]

theorem window_read (m : Memory) {i n k j : ℕ} (h : k + j ≤ n) :
    window (m.read i n) k j = m.read (i + k) j := by
  obtain ⟨r, rfl⟩ := Nat.exists_eq_add_of_le h
  rw [window, Nat.add_assoc, read_add, List.drop_left' (read_length m i k), read_add,
    List.take_left' (read_length m (i + k) j)]

/-- `memcpy` to the offset `i`. -/
def write (m : Memory) (i : ℕ) (data : Bytes) : Memory := fun k =>
  if i ≤ k ∧ k < i + data.length then data.getD (k - i) 0 else m k

theorem read_ext {m m' : Memory} {i n : ℕ} (h : ∀ k < n, m (i + k) = m' (i + k)) : m.read i n = m'.read i n := by
  simp only [read]
  exact List.map_congr_left fun k hk => h k (List.mem_range.mp hk)

@[simp] theorem read_write (m : Memory) (i : ℕ) (data : Bytes) : (m.write i data).read i data.length = data := by
  refine List.ext_getElem? fun k => ?_
  rcases Nat.lt_or_ge k data.length with hk | hk
  · rw [read_getElem? hk, write, if_pos (by omega), Nat.add_sub_cancel_left]
    simp [List.getD_eq_getElem?_getD, hk]
  · rw [List.getElem?_eq_none (by simpa using hk), List.getElem?_eq_none hk]

theorem read_write_apart {m : Memory} {i j n : ℕ} {data : Bytes} (h : j + n ≤ i ∨ i + data.length ≤ j) :
    (m.write i data).read j n = m.read j n :=
  read_ext fun k hk => if_neg (by omega)

end Memory

end P2PServer
