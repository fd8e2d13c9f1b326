import Mathlib

/-! SHA-256 as FIPS 180-4 states it: the constants from the roots of primes, the functions on
words, the compression function and the digest of a padded message. -/
namespace Fips180

abbrev Word := UInt32

/-- The integer `k`-th root of `m`, bit by bit from the bit `n`. -/
def rootLoop (k m : ℕ) : ℕ → ℕ → ℕ
  | 0, r => r
  | n + 1, r => rootLoop k m n (if (r + 2 ^ n) ^ k ≤ m then r + 2 ^ n else r)

/-- The first 32 bits of the fractional part of the `k`-th root of `p`, for a root below 256. -/
def fracRoot (k p : ℕ) : Word := UInt32.ofNat (rootLoop k (p * 2 ^ (32 * k)) 40 0)

def primes : List ℕ := (List.range 312).filter fun n => 2 ≤ n && (List.range n).all fun d => d < 2 || n % d ≠ 0

def K (t : ℕ) : Word := fracRoot 3 (primes.getD t 0)

def ROTR (n : ℕ) (x : Word) : Word := ⟨x.toBitVec.rotateRight n⟩

def SHR (n : ℕ) (x : Word) : Word := ⟨x.toBitVec >>> n⟩

def Ch (x y z : Word) : Word := (x &&& y) ^^^ (~~~x &&& z)

def Maj (x y z : Word) : Word := (x &&& y) ^^^ (x &&& z) ^^^ (y &&& z)

def Sigma0 (x : Word) : Word := ROTR 2 x ^^^ ROTR 13 x ^^^ ROTR 22 x

def Sigma1 (x : Word) : Word := ROTR 6 x ^^^ ROTR 11 x ^^^ ROTR 25 x

def sigma0 (x : Word) : Word := ROTR 7 x ^^^ ROTR 18 x ^^^ SHR 3 x

def sigma1 (x : Word) : Word := ROTR 17 x ^^^ ROTR 19 x ^^^ SHR 10 x

structure State where
  a : Word
  b : Word
  c : Word
  d : Word
  e : Word
  f : Word
  g : Word
  h : Word
  deriving DecidableEq, Repr

def initial : State :=
  ⟨fracRoot 2 2, fracRoot 2 3, fracRoot 2 5, fracRoot 2 7, fracRoot 2 11, fracRoot 2 13, fracRoot 2 17,
    fracRoot 2 19⟩

/-- The word at index `t` of a block, high byte first. -/
def word (block : List UInt8) (t : ℕ) : Word :=
  UInt32.ofNat ((((block.getD (4 * t) 0).toNat * 256 + (block.getD (4 * t + 1) 0).toNat) * 256 +
    (block.getD (4 * t + 2) 0).toNat) * 256 + (block.getD (4 * t + 3) 0).toNat)

def W (M : ℕ → Word) (t : ℕ) : Word :=
  if t < 16 then M t else sigma1 (W M (t - 2)) + W M (t - 7) + sigma0 (W M (t - 15)) + W M (t - 16)

def step (k w : Word) (s : State) : State :=
  let T1 := s.h + Sigma1 s.e + Ch s.e s.f s.g + k + w
  let T2 := Sigma0 s.a + Maj s.a s.b s.c
  ⟨T1 + T2, s.a, s.b, s.c, s.d + T1, s.e, s.f, s.g⟩

def State.add (s t : State) : State :=
  ⟨s.a + t.a, s.b + t.b, s.c + t.c, s.d + t.d, s.e + t.e, s.f + t.f, s.g + t.g, s.h + t.h⟩

def compress (s : State) (block : List UInt8) : State :=
  s.add ((List.range 64).foldl (fun v t => step (K t) (W (word block) t) v) s)

/-- The number of zero bytes between the mark and the length. -/
def zeros (n : ℕ) : ℕ := (119 - n % 64) % 64

/-- A number as 64 bits, high byte first. -/
def be64 (n : ℕ) : List UInt8 := (List.range 8).map fun i => UInt8.ofNat (n / 256 ^ (7 - i))

def pad (msg : List UInt8) : List UInt8 :=
  msg ++ [0x80] ++ List.replicate (zeros msg.length) 0 ++ be64 (8 * msg.length)

/-- Folds the compression function over the first `n` blocks. -/
def fold : ℕ → State → List UInt8 → State
  | 0, s, _ => s
  | n + 1, s, l => fold n (compress s (l.take 64)) (l.drop 64)

def be32 (x : Word) : List UInt8 := (List.range 4).map fun i => UInt8.ofNat (x.toNat / 256 ^ (3 - i))

def State.bytes (s : State) : List UInt8 := ([s.a, s.b, s.c, s.d, s.e, s.f, s.g, s.h].map be32).flatten

def sha256 (msg : List UInt8) : List UInt8 :=
  (fold ((pad msg).length / 64) initial (pad msg)).bytes

/-- The loop keeps a lower bound of the root and halves the distance to an upper one. -/
theorem rootLoop_spec {k m : ℕ} (n : ℕ) {r : ℕ} (hlow : r ^ k ≤ m) (hhigh : m < (r + 2 ^ n) ^ k) :
    rootLoop k m n r ^ k ≤ m ∧ m < (rootLoop k m n r + 1) ^ k := by
  induction n generalizing r with
  | zero => exact ⟨hlow, hhigh⟩
  | succ n ih =>
    rw [rootLoop]
    split
    · rename_i h
      refine ih h ?_
      rwa [Nat.add_assoc, ← Nat.two_mul, ← Nat.pow_succ']
    · rename_i h
      exact ih hlow (Nat.lt_of_not_le h)

/-- The bits are those of the root. -/
theorem fracRoot_spec {k p : ℕ} (hk : k ≠ 0) (hp : p < 256 ^ k) :
    ∃ r, r ^ k ≤ p * 2 ^ (32 * k) ∧ p * 2 ^ (32 * k) < (r + 1) ^ k ∧ fracRoot k p = UInt32.ofNat r := by
  have hhigh : p * 2 ^ (32 * k) < (0 + 2 ^ 40) ^ k := by
    have hsplit : (0 + 2 ^ 40) ^ k = 256 ^ k * 2 ^ (32 * k) := by
      rw [Nat.zero_add, pow_mul, ← Nat.mul_pow]
      norm_num
    rw [hsplit]
    exact Nat.mul_lt_mul_of_pos_right hp (by positivity)
  obtain ⟨hlow, hup⟩ := rootLoop_spec 40 (by rw [zero_pow hk]; exact Nat.zero_le _) hhigh
  exact ⟨_, hlow, hup, rfl⟩

theorem mem_primes {n : ℕ} : n ∈ primes ↔ n < 312 ∧ n.Prime := by
  rw [primes, List.mem_filter, List.mem_range, Nat.prime_def_lt]
  refine and_congr_right fun _ => ?_
  simp only [Bool.and_eq_true, decide_eq_true_eq, List.all_eq_true, List.mem_range, Bool.or_eq_true]
  refine and_congr_right fun h2 => forall₂_congr fun d hd => ?_
  constructor
  · rintro (hsmall | hrest) hdvd
    · have hne : d ≠ 0 := by
        rintro rfl
        exact absurd (Nat.eq_zero_of_zero_dvd hdvd) (by omega)
      omega
    · exact absurd (Nat.mod_eq_zero_of_dvd hdvd) hrest
  · intro h
    by_cases hdvd : d ∣ n
    · exact .inl (by rw [h hdvd]; decide)
    · exact .inr fun hmod => hdvd (Nat.dvd_of_mod_eq_zero hmod)

theorem primes_length : primes.length = 64 := by decide +kernel

theorem pad_length (msg : List UInt8) : (pad msg).length % 64 = 0 := by
  simp only [pad, be64, zeros, List.length_append, List.length_cons, List.length_nil, List.length_replicate,
    List.length_map, List.length_range]
  omega

theorem fold_append (n : ℕ) (s : State) {l : List UInt8} (h : 64 * n ≤ l.length) (more : List UInt8) :
    fold n s (l ++ more) = fold n s l := by
  induction n generalizing s l with
  | zero => rfl
  | succ n ih =>
    rw [fold, fold, List.take_append_of_le_length (by omega), List.drop_append_of_le_length (by omega)]
    exact ih _ (by rw [List.length_drop]; omega)

theorem fold_succ (n : ℕ) (s : State) (l : List UInt8) :
    fold (n + 1) s l = compress (fold n s l) ((l.drop (64 * n)).take 64) := by
  induction n generalizing s l with
  | zero => rfl
  | succ n ih =>
    have hoff : 64 * (n + 1) = 64 + 64 * n := by omega
    rw [fold, ih, fold, List.drop_drop, hoff]

end Fips180
