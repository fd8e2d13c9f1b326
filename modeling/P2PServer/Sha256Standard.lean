import P2PServer.CryptoHash
import P2PServer.Fips180

/-! The streaming SHA-256 of `Crypto.cpp` computes the digest of the standard, however the message
is cut into pieces. -/
namespace P2PServer.Crypto
open ByteStrings

theorem roundConstants_eq : roundConstants = (List.range 64).map Fips180.K := by decide +kernel

theorem rotr_eq (x : UInt32) {n : ℕ} (h : 0 < n ∧ n < 32) : rotr x (UInt32.ofNat n) = Fips180.ROTR n x := by
  have hsub : (32 : UInt32) - UInt32.ofNat n = UInt32.ofNat (32 - n) := by
    rw [UInt32.ofNat_sub h.2.le]
    rfl
  have hmod : (32 - n) % 32 = 32 - n := by omega
  rw [rotr, Fips180.ROTR, ← UInt32.toBitVec_inj, hsub]
  simp [BitVec.rotateRight_def, Nat.mod_eq_of_lt h.2, hmod]

theorem rd32_getD (p : Bytes) (t : ℕ) :
    rd32 (p.getD (t * 4) 0) (p.getD (t * 4 + 1) 0) (p.getD (t * 4 + 2) 0) (p.getD (t * 4 + 3) 0) =
      Fips180.word p t := by
  rw [rd32, Fips180.word, Nat.mul_comm t 4]
  refine congrArg UInt32.ofNat ?_
  ring

theorem be32_eq (x : UInt32) : be32 x = Fips180.be32 x := by
  have h : x.toUInt8 = UInt8.ofNat (x.toNat / 256 ^ 0) := by
    rw [pow_zero, Nat.div_one]
    rfl
  rw [be32, h]
  rfl

theorem sigma0_eq (x : UInt32) : rotr x 7 ^^^ rotr x 18 ^^^ (x >>> 3) = Fips180.sigma0 x := by
  have h7 : rotr x 7 = Fips180.ROTR 7 x := rotr_eq x (by decide)
  have h18 : rotr x 18 = Fips180.ROTR 18 x := rotr_eq x (by decide)
  have h3 : x >>> 3 = Fips180.SHR 3 x := by simp [Fips180.SHR]
  rw [h7, h18, h3, Fips180.sigma0]

theorem sigma1_eq (x : UInt32) : rotr x 17 ^^^ rotr x 19 ^^^ (x >>> 10) = Fips180.sigma1 x := by
  have h17 : rotr x 17 = Fips180.ROTR 17 x := rotr_eq x (by decide)
  have h19 : rotr x 19 = Fips180.ROTR 19 x := rotr_eq x (by decide)
  have h10 : x >>> 10 = Fips180.SHR 10 x := by simp [Fips180.SHR]
  rw [h17, h19, h10, Fips180.sigma1]

theorem Sigma0_eq (x : UInt32) : rotr x 2 ^^^ rotr x 13 ^^^ rotr x 22 = Fips180.Sigma0 x := by
  have h2 : rotr x 2 = Fips180.ROTR 2 x := rotr_eq x (by decide)
  have h13 : rotr x 13 = Fips180.ROTR 13 x := rotr_eq x (by decide)
  have h22 : rotr x 22 = Fips180.ROTR 22 x := rotr_eq x (by decide)
  rw [h2, h13, h22, Fips180.Sigma0]

theorem Sigma1_eq (x : UInt32) : rotr x 6 ^^^ rotr x 11 ^^^ rotr x 25 = Fips180.Sigma1 x := by
  have h6 : rotr x 6 = Fips180.ROTR 6 x := rotr_eq x (by decide)
  have h11 : rotr x 11 = Fips180.ROTR 11 x := rotr_eq x (by decide)
  have h25 : rotr x 25 = Fips180.ROTR 25 x := rotr_eq x (by decide)
  rw [h6, h11, h25, Fips180.Sigma1]

def HashState.standard (s : HashState) : Fips180.State := ⟨s.h0, s.h1, s.h2, s.h3, s.h4, s.h5, s.h6, s.h7⟩

namespace Sha256Ctx

/-- One pass of the loop that extends the schedule. -/
def scheduleStep (w : List UInt32) (i : ℕ) : List UInt32 :=
  let w15 := w.getD (i - 15) 0
  let w2 := w.getD (i - 2) 0
  w ++ [w.getD (i - 16) 0 + (rotr w15 7 ^^^ rotr w15 18 ^^^ (w15 >>> 3)) + w.getD (i - 7) 0 +
    (rotr w2 17 ^^^ rotr w2 19 ^^^ (w2 >>> 10))]

theorem getD_map_range {f : ℕ → UInt32} {m i : ℕ} (h : i < m) : ((List.range m).map f).getD i 0 = f i := by
  simp [List.getD_eq_getElem?_getD, h]

theorem scheduleStep_standard (M : ℕ → UInt32) {m : ℕ} (h : 16 ≤ m) :
    scheduleStep ((List.range m).map (Fips180.W M)) m = (List.range (m + 1)).map (Fips180.W M) := by
  have hnext : Fips180.W M m = Fips180.sigma1 (Fips180.W M (m - 2)) + Fips180.W M (m - 7) +
      Fips180.sigma0 (Fips180.W M (m - 15)) + Fips180.W M (m - 16) := by
    rw [Fips180.W, if_neg (by omega)]
  unfold scheduleStep
  dsimp only
  rw [getD_map_range (by omega), getD_map_range (by omega), getD_map_range (by omega), getD_map_range (by omega),
    sigma0_eq, sigma1_eq, List.range_succ, List.map_append, List.map_singleton, hnext]
  refine congrArg (_ ++ [·]) ?_
  ac_rfl

theorem schedule_standard (p : Bytes) : schedule p = (List.range 64).map (Fips180.W (Fips180.word p)) := by
  have hfold (n : ℕ) : (List.range' 16 n).foldl scheduleStep ((List.range 16).map (Fips180.W (Fips180.word p))) =
      (List.range (16 + n)).map (Fips180.W (Fips180.word p)) := by
    induction n with
    | zero => rfl
    | succ n ih =>
      rw [List.range'_concat, List.foldl_append, ih, Nat.one_mul]
      exact scheduleStep_standard _ (by omega)
  have hfirst : ((List.range 16).map fun i => rd32 (p.getD (i * 4) 0) (p.getD (i * 4 + 1) 0) (p.getD (i * 4 + 2) 0)
      (p.getD (i * 4 + 3) 0)) = (List.range 16).map (Fips180.W (Fips180.word p)) := by
    refine List.map_congr_left fun t ht => ?_
    rw [rd32_getD, Fips180.W, if_pos (List.mem_range.mp ht)]
  have hstep : schedule p = (List.range' 16 48).foldl scheduleStep ((List.range 16).map fun i =>
      rd32 (p.getD (i * 4) 0) (p.getD (i * 4 + 1) 0) (p.getD (i * 4 + 2) 0) (p.getD (i * 4 + 3) 0)) := rfl
  rw [hstep, hfirst]
  exact hfold 48

theorem round_standard (v : HashState) (k w : UInt32) :
    (round v (k, w)).standard = Fips180.step k w v.standard := by
  simp only [round, HashState.standard, Fips180.step, Sigma0_eq, Sigma1_eq, Fips180.Ch, Fips180.Maj]

theorem block_standard (h : HashState) (p : Bytes) :
    (block h p).standard = Fips180.compress h.standard p := by
  have hfold (kws : List (UInt32 × UInt32)) (v : HashState) :
      (kws.foldl round v).standard = kws.foldl (fun v kw => Fips180.step kw.1 kw.2 v) v.standard := by
    induction kws generalizing v with
    | nil => rfl
    | cons kw kws ih => rw [List.foldl_cons, ih, List.foldl_cons, round_standard]
  have hzip : roundConstants.zip (schedule p) =
      (List.range 64).map fun t => (Fips180.K t, Fips180.W (Fips180.word p) t) := by
    rw [roundConstants_eq, schedule_standard, List.zip_map']
  have hrounds : ((roundConstants.zip (schedule p)).foldl round h).standard = (List.range 64).foldl
      (fun v t => Fips180.step (Fips180.K t) (Fips180.W (Fips180.word p) t) v) h.standard := by
    rw [hfold, hzip, List.foldl_map]
  rw [Fips180.compress, ← hrounds, block]
  generalize (roundConstants.zip (schedule p)).foldl round h = v
  rfl

/-- The context after the message `m` has gone in. -/
structure Fed (c : Sha256Ctx) (m : Bytes) : Prop where
  hash : c.h.standard = Fips180.fold (m.length / 64) Fips180.initial m
  buf : c.buf = m.drop (64 * (m.length / 64))

theorem fed_empty : Fed {} [] := ⟨by decide +kernel, rfl⟩

theorem Fed.buf_length {c : Sha256Ctx} {m : Bytes} (h : Fed c m) : c.buf.length = m.length % 64 := by
  rw [h.buf, List.length_drop]
  omega

/-- One pass of the loop takes the bytes up to the next full block. -/
theorem Fed.take {c : Sha256Ctx} {m piece : Bytes} (h : Fed c m) (hroom : piece.length ≤ 64 - c.buf.length) :
    Fed (if (c.buf ++ piece).length = 64 then { c with h := block c.h (c.buf ++ piece), buf := [] }
      else { c with buf := c.buf ++ piece }) (m ++ piece) := by
  have hlen := h.buf_length
  have hdrop : (m ++ piece).drop (64 * (m.length / 64)) = c.buf ++ piece := by
    rw [List.drop_append_of_le_length (by omega), ← h.buf]
  have hfold := Fips180.fold_append (m.length / 64) Fips180.initial (l := m) (by omega) piece
  rw [List.length_append]
  split
  · rename_i hfull
    have hq : (m ++ piece).length / 64 = m.length / 64 + 1 := by
      rw [List.length_append]
      omega
    refine ⟨?_, ?_⟩
    · rw [hq, Fips180.fold_succ, hfold, hdrop, List.take_of_length_le (by rw [List.length_append, hfull]), ← h.hash]
      exact block_standard _ _
    · rw [hq, List.drop_eq_nil_of_le (by rw [List.length_append]; omega)]
  · rename_i hfull
    have hq : (m ++ piece).length / 64 = m.length / 64 := by
      rw [List.length_append]
      omega
    refine ⟨?_, ?_⟩
    · rw [hq, hfold]
      exact h.hash
    · rw [hq, hdrop]

theorem updateLoop_total (fuel : ℕ) (c : Sha256Ctx) (data : Bytes) : (updateLoop fuel c data).total = c.total := by
  induction fuel generalizing c data with
  | zero => rfl
  | succ fuel ih =>
    unfold updateLoop
    split
    · rfl
    · dsimp only
      rw [ih]
      split <;> rfl

theorem Fed.updateLoop {fuel : ℕ} {c : Sha256Ctx} {m data : Bytes} (h : Fed c m) (hfuel : data.length ≤ fuel) :
    Fed (updateLoop fuel c data) (m ++ data) := by
  induction fuel generalizing c m data with
  | zero =>
    obtain rfl : data = [] := List.length_eq_zero_iff.mp (Nat.le_zero.mp hfuel)
    rw [List.append_nil]
    exact h
  | succ fuel ih =>
    unfold Sha256Ctx.updateLoop
    split
    · rename_i hempty
      rw [List.isEmpty_iff.mp hempty, List.append_nil]
      exact h
    · rename_i hempty
      have hpos : 0 < data.length := by
        rw [List.length_pos_iff]
        simpa using hempty
      have hbuf := h.buf_length
      have hroom : (data.take (min (64 - c.buf.length) data.length)).length ≤ 64 - c.buf.length := by simp
      have hleft : (data.drop (min (64 - c.buf.length) data.length)).length ≤ fuel := by
        rw [List.length_drop]
        omega
      have hrest := ih (h.take hroom) hleft
      rwa [List.append_assoc, List.take_append_drop] at hrest

theorem Fed.update {c : Sha256Ctx} {m : Bytes} (h : Fed c m) (data : Bytes) : Fed (c.update data) (m ++ data) :=
  Fed.updateLoop ⟨h.hash, h.buf⟩ le_rfl

theorem update_total (c : Sha256Ctx) (data : Bytes) :
    (c.update data).total = c.total + UInt64.ofNat data.length := updateLoop_total _ _ _

theorem fed_chunks {c : Sha256Ctx} {m : Bytes} (h : Fed c m) (chunks : List Bytes) :
    Fed (chunks.foldl update c) (m ++ chunks.flatten) := by
  induction chunks generalizing c m with
  | nil => simpa using h
  | cons data chunks ih =>
    have hrest := ih (h.update data)
    rwa [List.append_assoc] at hrest

theorem chunks_total (c : Sha256Ctx) (chunks : List Bytes) :
    (chunks.foldl update c).total = c.total + UInt64.ofNat chunks.flatten.length := by
  induction chunks generalizing c with
  | nil => simp
  | cons data chunks ih =>
    rw [List.foldl_cons, ih, update_total, List.flatten_cons, List.length_append, UInt64.ofNat_add, UInt64.add_assoc]

/-- The loop stops after `k` zeros, where `k` is the first number that leaves 56 bytes. -/
theorem Fed.padLoop {k fuel : ℕ} {c : Sha256Ctx} {m : Bytes} (h : Fed c m) (hk : (m.length + k) % 64 = 56)
    (hsmall : k < 64) (hfuel : k ≤ fuel) : Fed (padLoop fuel c) (m ++ List.replicate k 0) := by
  induction k generalizing fuel c m with
  | zero =>
    have hstop : Sha256Ctx.padLoop fuel c = c := by
      cases fuel with
      | zero => rfl
      | succ fuel => exact if_pos (h.buf_length.trans hk)
    rw [hstop, List.replicate_zero, List.append_nil]
    exact h
  | succ k ih =>
    obtain ⟨fuel, rfl⟩ : ∃ f, fuel = f + 1 := ⟨fuel - 1, by omega⟩
    have hgo : c.buf.length ≠ 56 := by
      rw [h.buf_length]
      omega
    have hrest := ih (h.update [0]) (by simp; omega) (by omega) (Nat.le_of_succ_le_succ hfuel)
    rw [List.append_assoc, List.singleton_append, ← List.replicate_succ] at hrest
    rw [Sha256Ctx.padLoop, if_neg hgo]
    exact hrest

theorem lengthBytes {total : UInt64} {n : ℕ} (ht : total = UInt64.ofNat n) (hn : n < 2 ^ 61) :
    ((List.range 8).map fun i => ((total * 8) >>> UInt64.ofNat (56 - i * 8)).toUInt8) = Fips180.be64 (8 * n) := by
  refine List.map_congr_left fun i hi => ?_
  have hi' := List.mem_range.mp hi
  have hbits : (total * 8).toNat = 8 * n := by
    rw [ht, UInt64.toNat_mul, UInt64.toNat_ofNat']
    simp only [UInt64.reduceToNat]
    omega
  have hexp : 56 - i * 8 = 8 * (7 - i) := by omega
  have hshift : (UInt64.ofNat (56 - i * 8)).toNat % 64 = 8 * (7 - i) := by
    rw [UInt64.toNat_ofNat', hexp]
    omega
  apply UInt8.toNat_inj.mp
  rw [UInt64.toNat_toUInt8, UInt64.toNat_shiftRight, hshift, hbits, UInt8.toNat_ofNat', Nat.shiftRight_eq_div_pow,
    pow_mul]
  rfl

theorem Fed.padded {c : Sha256Ctx} {m : Bytes} (h : Fed c m) :
    Fed (Sha256Ctx.padLoop 64 (c.update [0x80])) (m ++ [0x80] ++ List.replicate (Fips180.zeros m.length) 0) := by
  have hlen : (m ++ [0x80]).length = m.length + 1 := by simp
  refine (h.update [0x80]).padLoop ?_ ?_ ?_
  · rw [hlen, Fips180.zeros]
    omega
  · exact Nat.mod_lt _ (by decide)
  · exact (Nat.mod_lt _ (by decide)).le

theorem words_standard (s : HashState) : (s.words.map be32).flatten = s.standard.bytes := by
  simp only [HashState.words, List.map_cons, List.map_nil, be32_eq]
  rfl

theorem Fed.final {c : Sha256Ctx} {m : Bytes} (h : Fed c m) (htotal : c.total = UInt64.ofNat m.length)
    (hlen : m.length < 2 ^ 61) : c.final = Fips180.sha256 m := by
  have hall := h.padded.update (Fips180.be64 (8 * m.length))
  have hpad : m ++ [0x80] ++ List.replicate (Fips180.zeros m.length) 0 ++ Fips180.be64 (8 * m.length) =
      Fips180.pad m := rfl
  rw [hpad] at hall
  have hbytes := lengthBytes htotal hlen
  unfold Sha256Ctx.final
  dsimp only
  rw [hbytes, words_standard, hall.hash]
  rfl

/-- For any pieces, the digest is that of the standard for the whole message, and the loop of the
padding reaches its end. -/
theorem sha256_standard (chunks : List Bytes) (h : chunks.flatten.length < 2 ^ 61) :
    (chunks.foldl update {}).final = Fips180.sha256 chunks.flatten ∧
      (Sha256Ctx.padLoop 64 ((chunks.foldl update {}).update [0x80])).buf.length = 56 := by
  have hfed := fed_chunks fed_empty chunks
  rw [List.nil_append] at hfed
  refine ⟨hfed.final ?_ h, ?_⟩
  · rw [chunks_total]
    exact UInt64.zero_add _
  · have hlen : (chunks.flatten ++ [0x80] ++ List.replicate (Fips180.zeros chunks.flatten.length) 0).length =
        chunks.flatten.length + 1 + Fips180.zeros chunks.flatten.length := by
      simp only [List.length_append, List.length_replicate, List.length_singleton]
    rw [hfed.padded.buf_length, hlen, Fips180.zeros]
    omega

theorem sha256_standard_split : (([[0x61], [0x62, 0x63]] : List Bytes).foldl update {}).final =
    Fips180.sha256 [0x61, 0x62, 0x63] :=
  (sha256_standard [[0x61], [0x62, 0x63]] (by decide)).1

end Sha256Ctx

end P2PServer.Crypto
