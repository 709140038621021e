import MockServer.Text.Utf8

/-!
# SHA-256

The 256-bit digest of a byte list. The message is padded to blocks of sixteen words, and each
block is mixed into eight words of state in 64 rounds.
-/

namespace MockServer.Text.Digest

/-- The round constants: the first bits of the fractional parts of the cube roots of the first 64
primes. -/
def roundConstants : List UInt32 :=
  [0x428a2f98, 0x71374491, 0xb5c0fbcf, 0xe9b5dba5, 0x3956c25b, 0x59f111f1, 0x923f82a4, 0xab1c5ed5,
   0xd807aa98, 0x12835b01, 0x243185be, 0x550c7dc3, 0x72be5d74, 0x80deb1fe, 0x9bdc06a7, 0xc19bf174,
   0xe49b69c1, 0xefbe4786, 0x0fc19dc6, 0x240ca1cc, 0x2de92c6f, 0x4a7484aa, 0x5cb0a9dc, 0x76f988da,
   0x983e5152, 0xa831c66d, 0xb00327c8, 0xbf597fc7, 0xc6e00bf3, 0xd5a79147, 0x06ca6351, 0x14292967,
   0x27b70a85, 0x2e1b2138, 0x4d2c6dfc, 0x53380d13, 0x650a7354, 0x766a0abb, 0x81c2c92e, 0x92722c85,
   0xa2bfe8a1, 0xa81a664b, 0xc24b8b70, 0xc76c51a3, 0xd192e819, 0xd6990624, 0xf40e3585, 0x106aa070,
   0x19a4c116, 0x1e376c08, 0x2748774c, 0x34b0bcb5, 0x391c0cb3, 0x4ed8aa4a, 0x5b9cca4f, 0x682e6ff3,
   0x748f82ee, 0x78a5636f, 0x84c87814, 0x8cc70208, 0x90befffa, 0xa4506ceb, 0xbef9a3f7, 0xc67178f2]

/-- Eight words of state. -/
structure State where
  a : UInt32
  b : UInt32
  c : UInt32
  d : UInt32
  e : UInt32
  f : UInt32
  g : UInt32
  h : UInt32

/-- The state before the first block. -/
def State.start : State :=
  ⟨0x6a09e667, 0xbb67ae85, 0x3c6ef372, 0xa54ff53a, 0x510e527f, 0x9b05688c, 0x1f83d9ab, 0x5be0cd19⟩

/-- Rotation to the right. -/
def rotate (x : UInt32) (n : UInt32) : UInt32 :=
  (x >>> n) ||| (x <<< (32 - n))

/-- One round with its constant and its word of the schedule. -/
def State.round (s : State) (k w : UInt32) : State :=
  let s1 := rotate s.e 6 ^^^ rotate s.e 11 ^^^ rotate s.e 25
  let choice := (s.e &&& s.f) ^^^ ((~~~s.e) &&& s.g)
  let t1 := s.h + s1 + choice + k + w
  let s0 := rotate s.a 2 ^^^ rotate s.a 13 ^^^ rotate s.a 22
  let majority := (s.a &&& s.b) ^^^ (s.a &&& s.c) ^^^ (s.b &&& s.c)
  ⟨t1 + (s0 + majority), s.a, s.b, s.c, s.d + t1, s.e, s.f, s.g⟩

/-- The word-wise sum of two states. -/
def State.add (s t : State) : State :=
  ⟨s.a + t.a, s.b + t.b, s.c + t.c, s.d + t.d, s.e + t.e, s.f + t.f, s.g + t.g, s.h + t.h⟩

/-- The 64 words of the schedule of a block. -/
def schedule (block : Array UInt32) : Array UInt32 :=
  (List.range 48).foldl
    (fun w i ↦
      let x := w.getD (i + 1) 0
      let y := w.getD (i + 14) 0
      let s0 := rotate x 7 ^^^ rotate x 18 ^^^ (x >>> 3)
      let s1 := rotate y 17 ^^^ rotate y 19 ^^^ (y >>> 10)
      w.push (w.getD i 0 + s0 + w.getD (i + 9) 0 + s1))
    block

/-- The state after a block. -/
def State.absorb (s : State) (block : Array UInt32) : State :=
  s.add ((roundConstants.zip (schedule block).toList).foldl (fun s (k, w) ↦ s.round k w) s)

/-- A word from four bytes, the most significant first. -/
def word (a b c d : UInt8) : UInt32 :=
  (a.toUInt32 <<< 24) ||| (b.toUInt32 <<< 16) ||| (c.toUInt32 <<< 8) ||| d.toUInt32

/-- The bytes as words. -/
def words : Bytes → List UInt32
  | a :: b :: c :: d :: rest => word a b c d :: words rest
  | _ => []

/-- The message followed by a one bit, zeros, and its length in bits. -/
def padded (s : Bytes) : Bytes :=
  let n := s.length
  let zeros := (119 - n % 64) % 64
  let length := (List.range 8).reverse.map fun i ↦ UInt8.ofNat (8 * n / Nat.pow 256 i % 256)
  s ++ 0x80 :: (List.replicate zeros 0 ++ length)

/-- The state after all blocks of a list of words. -/
def absorbAll : Nat → State → List UInt32 → State
  | 0, s, _ => s
  | fuel + 1, s, ws =>
    if ws.isEmpty then s else absorbAll fuel (s.absorb (ws.take 16).toArray) (ws.drop 16)

/-- A word as eight hexadecimal digits. -/
def hexWord (x : UInt32) : List Char :=
  (List.range 8).reverse.map fun i ↦ Nat.digitChar (x.toNat / Nat.pow 16 i % 16)

/-- The digest of a byte list in lower case hexadecimal. -/
def hex (s : Bytes) : String :=
  let ws := words (padded s)
  let t := absorbAll ws.length State.start ws
  String.ofList ([t.a, t.b, t.c, t.d, t.e, t.f, t.g, t.h].flatMap hexWord)

end MockServer.Text.Digest
