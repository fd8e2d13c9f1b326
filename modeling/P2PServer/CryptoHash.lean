import P2PServer.ByteStrings

/-! SHA-256, HMAC and PBKDF2 as `Crypto.cpp` computes them, and the key stream that
encrypts heartbeats. -/
namespace P2PServer.Crypto
open ByteStrings

def digestLen : ℕ := 32

def roundConstants : List UInt32 :=
  [0x428a2f98, 0x71374491, 0xb5c0fbcf, 0xe9b5dba5, 0x3956c25b, 0x59f111f1,
    0x923f82a4, 0xab1c5ed5, 0xd807aa98, 0x12835b01, 0x243185be, 0x550c7dc3,
    0x72be5d74, 0x80deb1fe, 0x9bdc06a7, 0xc19bf174, 0xe49b69c1, 0xefbe4786,
    0x0fc19dc6, 0x240ca1cc, 0x2de92c6f, 0x4a7484aa, 0x5cb0a9dc, 0x76f988da,
    0x983e5152, 0xa831c66d, 0xb00327c8, 0xbf597fc7, 0xc6e00bf3, 0xd5a79147,
    0x06ca6351, 0x14292967, 0x27b70a85, 0x2e1b2138, 0x4d2c6dfc, 0x53380d13,
    0x650a7354, 0x766a0abb, 0x81c2c92e, 0x92722c85, 0xa2bfe8a1, 0xa81a664b,
    0xc24b8b70, 0xc76c51a3, 0xd192e819, 0xd6990624, 0xf40e3585, 0x106aa070,
    0x19a4c116, 0x1e376c08, 0x2748774c, 0x34b0bcb5, 0x391c0cb3, 0x4ed8aa4a,
    0x5b9cca4f, 0x682e6ff3, 0x748f82ee, 0x78a5636f, 0x84c87814, 0x8cc70208,
    0x90befffa, 0xa4506ceb, 0xbef9a3f7, 0xc67178f2]

def rotr (x : UInt32) (n : UInt32) : UInt32 := (x >>> n) ||| (x <<< (32 - n))

/-- The eight chaining words `h[0..7]`, also used for the working variables `a..hh`. -/
structure HashState where
  h0 : UInt32
  h1 : UInt32
  h2 : UInt32
  h3 : UInt32
  h4 : UInt32
  h5 : UInt32
  h6 : UInt32
  h7 : UInt32
  deriving DecidableEq, Repr

def HashState.words (s : HashState) : List UInt32 :=
  [s.h0, s.h1, s.h2, s.h3, s.h4, s.h5, s.h6, s.h7]

/-- `buf` holds the `buflen` bytes that wait for a full block. -/
structure Sha256Ctx where
  h : HashState := ⟨0x6a09e667, 0xbb67ae85, 0x3c6ef372, 0xa54ff53a,
    0x510e527f, 0x9b05688c, 0x1f83d9ab, 0x5be0cd19⟩
  total : UInt64 := 0
  buf : Bytes := []
  deriving DecidableEq, Repr

namespace Sha256Ctx

/-- The message schedule `w[0..63]`, grown by one word at a time. -/
def schedule (p : Bytes) : List UInt32 :=
  let first := (List.range 16).map fun i =>
    rd32 (p.getD (i * 4) 0) (p.getD (i * 4 + 1) 0) (p.getD (i * 4 + 2) 0) (p.getD (i * 4 + 3) 0)
  (List.range' 16 48).foldl (fun w i =>
    let w15 := w.getD (i - 15) 0
    let w2 := w.getD (i - 2) 0
    let s0 := rotr w15 7 ^^^ rotr w15 18 ^^^ (w15 >>> 3)
    let s1 := rotr w2 17 ^^^ rotr w2 19 ^^^ (w2 >>> 10)
    w ++ [w.getD (i - 16) 0 + s0 + w.getD (i - 7) 0 + s1]) first

/-- One pass of the compression loop on the working variables. -/
def round (v : HashState) (kw : UInt32 × UInt32) : HashState :=
  let S1 := rotr v.h4 6 ^^^ rotr v.h4 11 ^^^ rotr v.h4 25
  let ch := (v.h4 &&& v.h5) ^^^ (~~~v.h4 &&& v.h6)
  let t1 := v.h7 + S1 + ch + kw.1 + kw.2
  let S0 := rotr v.h0 2 ^^^ rotr v.h0 13 ^^^ rotr v.h0 22
  let maj := (v.h0 &&& v.h1) ^^^ (v.h0 &&& v.h2) ^^^ (v.h1 &&& v.h2)
  ⟨t1 + (S0 + maj), v.h0, v.h1, v.h2, v.h3 + t1, v.h4, v.h5, v.h6⟩

def block (h : HashState) (p : Bytes) : HashState :=
  let v := (roundConstants.zip (schedule p)).foldl round h
  ⟨h.h0 + v.h0, h.h1 + v.h1, h.h2 + v.h2, h.h3 + v.h3,
    h.h4 + v.h4, h.h5 + v.h5, h.h6 + v.h6, h.h7 + v.h7⟩

/-- `while (len > 0)`: every pass copies at least one byte. -/
def updateLoop : ℕ → Sha256Ctx → Bytes → Sha256Ctx
  | 0, c, _ => c
  | fuel + 1, c, data =>
    if data.isEmpty then c
    else
      let take := min (64 - c.buf.length) data.length
      let buf := c.buf ++ data.take take
      let c' := if buf.length = 64 then { c with h := block c.h buf, buf := [] }
        else { c with buf := buf }
      updateLoop fuel c' (data.drop take)

def update (c : Sha256Ctx) (data : Bytes) : Sha256Ctx :=
  updateLoop data.length { c with total := c.total + UInt64.ofNat data.length } data

/-- `while (buflen != 56) update(&zero, 1)`, which stops within one block. -/
def padLoop : ℕ → Sha256Ctx → Sha256Ctx
  | 0, c => c
  | fuel + 1, c => if c.buf.length = 56 then c else padLoop fuel (c.update [0])

def final (c : Sha256Ctx) : Bytes :=
  let bits := c.total * 8
  let c := padLoop 64 (c.update [0x80])
  let lenb := (List.range 8).map fun i => (bits >>> UInt64.ofNat (56 - i * 8)).toUInt8
  ((c.update lenb).h.words.map be32).flatten

end Sha256Ctx

def sha256 (data : Bytes) : Bytes := (Sha256Ctx.update {} data).final

def hmacSha256 (key msg : Bytes) : Bytes :=
  let k := padded 64 (if key.length > 64 then sha256 key else key)
  let ipad := k.map (· ^^^ 0x36)
  let opad := k.map (· ^^^ 0x5c)
  let ih := ((Sha256Ctx.update {} ipad).update msg).final
  ((Sha256Ctx.update {} opad).update ih).final

theorem Sha256Ctx.final_length (c : Sha256Ctx) : c.final.length = 32 := rfl

@[simp] theorem hmacSha256_length (key msg : Bytes) : (hmacSha256 key msg).length = 32 :=
  Sha256Ctx.final_length _

/-- `a[i] ^= b[i]` over the shorter of the two. -/
def xorBytes (a b : Bytes) : Bytes := a.zipWith (· ^^^ ·) b

/-- The key stream of `p2p_stream_xor` for the block at offset `off`. The uuid is the
33-byte buffer it points at. -/
def streamBlock (secret uuid iv : Bytes) (off : ℕ) : Bytes :=
  hmacSha256 secret (uuid.take 33 ++ iv.take 8 ++ [UInt8.ofNat (off / digestLen)])

def streamXorLoop (secret uuid iv : Bytes) : ℕ → ℕ → Bytes → Bytes
  | 0, _, data => data
  | fuel + 1, off, data =>
    if data.isEmpty then []
    else
      let n := min data.length digestLen
      xorBytes (data.take n) (streamBlock secret uuid iv off) ++
        streamXorLoop secret uuid iv fuel (off + n) (data.drop n)

def p2pStreamXor (secret uuid iv data : Bytes) : Bytes :=
  streamXorLoop secret uuid iv data.length 0 data

/-- The inner loop of PBKDF2: `iterations - 1` further passes. -/
def pbkdf2Iterate (pw : Bytes) (n : ℕ) : ℕ → Bytes → Bytes → Bytes
  | 0, _, out => out
  | k + 1, u, out =>
    let u' := hmacSha256 pw u
    pbkdf2Iterate pw n k u' (xorBytes out (u'.take n))

def pbkdf2Blocks (pw salt : Bytes) (iterations : ℕ) : ℕ → UInt32 → ℕ → Bytes
  | 0, _, _ => []
  | fuel + 1, block, left =>
    if left = 0 then []
    else
      let u := hmacSha256 pw (salt ++ be32 block)
      let n := min left digestLen
      pbkdf2Iterate pw n (iterations - 1) u (u.take n) ++
        pbkdf2Blocks pw salt iterations fuel (block + 1) (left - n)

def pbkdf2HmacSha256 (pw salt : Bytes) (iterations : UInt32) (outLen : ℕ) : Bytes :=
  let iterations := if iterations = 0 then 1 else iterations
  if salt.length > 60 then List.replicate outLen 0
  else pbkdf2Blocks pw salt iterations.toNat outLen 1 outLen

end P2PServer.Crypto
