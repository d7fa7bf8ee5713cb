import ReticulumFirmware.Nor.Bytes

/-!
# SHA-256

The hash function itself. Results hold for any function in its place; this definition is
for evaluating concrete images and records.
-/

namespace Nor.Sha2

/-- Rotate a 32-bit word to the right. -/
def rotr (n x : ℕ) : ℕ := (x >>> n) ||| ((x <<< (32 - n)) % 2 ^ 32)

/-- Each bit of `x` chooses between the bits of `y` and `z`. -/
def ch (x y z : ℕ) : ℕ := (x &&& y) ^^^ ((0xffffffff ^^^ x) &&& z)

/-- The bit that two of three agree on. -/
def maj (x y z : ℕ) : ℕ := (x &&& y) ^^^ (x &&& z) ^^^ (y &&& z)

/-- The mixing of the first word of a round. -/
def bigSigma0 (x : ℕ) : ℕ := rotr 2 x ^^^ rotr 13 x ^^^ rotr 22 x

/-- The mixing of the fifth word of a round. -/
def bigSigma1 (x : ℕ) : ℕ := rotr 6 x ^^^ rotr 11 x ^^^ rotr 25 x

/-- The mixing of an early word of the schedule. -/
def smallSigma0 (x : ℕ) : ℕ := rotr 7 x ^^^ rotr 18 x ^^^ (x >>> 3)

/-- The mixing of a late word of the schedule. -/
def smallSigma1 (x : ℕ) : ℕ := rotr 17 x ^^^ rotr 19 x ^^^ (x >>> 10)

/-- The round constants. -/
def roundConstants : List ℕ := [
  0x428a2f98, 0x71374491, 0xb5c0fbcf, 0xe9b5dba5, 0x3956c25b, 0x59f111f1, 0x923f82a4, 0xab1c5ed5,
  0xd807aa98, 0x12835b01, 0x243185be, 0x550c7dc3, 0x72be5d74, 0x80deb1fe, 0x9bdc06a7, 0xc19bf174,
  0xe49b69c1, 0xefbe4786, 0x0fc19dc6, 0x240ca1cc, 0x2de92c6f, 0x4a7484aa, 0x5cb0a9dc, 0x76f988da,
  0x983e5152, 0xa831c66d, 0xb00327c8, 0xbf597fc7, 0xc6e00bf3, 0xd5a79147, 0x06ca6351, 0x14292967,
  0x27b70a85, 0x2e1b2138, 0x4d2c6dfc, 0x53380d13, 0x650a7354, 0x766a0abb, 0x81c2c92e, 0x92722c85,
  0xa2bfe8a1, 0xa81a664b, 0xc24b8b70, 0xc76c51a3, 0xd192e819, 0xd6990624, 0xf40e3585, 0x106aa070,
  0x19a4c116, 0x1e376c08, 0x2748774c, 0x34b0bcb5, 0x391c0cb3, 0x4ed8aa4a, 0x5b9cca4f, 0x682e6ff3,
  0x748f82ee, 0x78a5636f, 0x84c87814, 0x8cc70208, 0x90befffa, 0xa4506ceb, 0xbef9a3f7, 0xc67178f2]

/-- The eight working words. -/
structure Words where
  a : ℕ
  b : ℕ
  c : ℕ
  d : ℕ
  e : ℕ
  f : ℕ
  g : ℕ
  h : ℕ

namespace Words

/-- The initial hash value. -/
def initial : Words :=
  ⟨0x6a09e667, 0xbb67ae85, 0x3c6ef372, 0xa54ff53a, 0x510e527f, 0x9b05688c, 0x1f83d9ab, 0x5be0cd19⟩

/-- One round with the sum of its constant and its schedule word. -/
def round (s : Words) (kw : ℕ) : Words :=
  let t₁ := s.h + bigSigma1 s.e + ch s.e s.f s.g + kw
  let t₂ := bigSigma0 s.a + maj s.a s.b s.c
  ⟨(t₁ + t₂) % 2 ^ 32, s.a, s.b, s.c, (s.d + t₁) % 2 ^ 32, s.e, s.f, s.g⟩

/-- Wordwise sum. -/
def add (s t : Words) : Words :=
  ⟨(s.a + t.a) % 2 ^ 32, (s.b + t.b) % 2 ^ 32, (s.c + t.c) % 2 ^ 32, (s.d + t.d) % 2 ^ 32,
    (s.e + t.e) % 2 ^ 32, (s.f + t.f) % 2 ^ 32, (s.g + t.g) % 2 ^ 32, (s.h + t.h) % 2 ^ 32⟩

/-- The words as bytes, most significant first. -/
def toBytes (s : Words) : List Byte :=
  [s.a, s.b, s.c, s.d, s.e, s.f, s.g, s.h].flatMap (beBytes 4)

end Words

/-- The schedule word after a window of sixteen. -/
def nextWord (window : List ℕ) : ℕ :=
  (smallSigma1 (window.getD 14 0) + window.getD 9 0 + smallSigma0 (window.getD 1 0) +
    window.getD 0 0) % 2 ^ 32

/-- One round for each constant, sliding the window of the schedule. -/
def rounds : List ℕ → List ℕ → Words → Words
  | [], _, s => s
  | k :: ks, window, s =>
    rounds ks (window.tail ++ [nextWord window]) (s.round (k + window.headD 0))

/-- The 32-bit words of a block. -/
def blockWords : List Byte → List ℕ
  | a :: b :: c :: d :: rest => beNat [a, b, c, d] :: blockWords rest
  | _ => []

/-- Absorb one block. -/
def compress (s : Words) (block : List Byte) : Words :=
  s.add (rounds roundConstants (blockWords block) s)

/-- The message with its padding and its length in bits. -/
def pad (bytes : List Byte) : List Byte :=
  bytes ++ [0x80] ++ List.replicate ((119 - bytes.length % 64) % 64) 0 ++
    beBytes 8 (8 * bytes.length)

/-- The first blocks of a padded message. -/
def blocks : ℕ → List Byte → List (List Byte)
  | 0, _ => []
  | n + 1, bytes => bytes.take 64 :: blocks n (bytes.drop 64)

end Nor.Sha2

namespace Nor

open Sha2

/-- The SHA-256 digest. -/
def sha256 : Sha256 := fun bytes =>
  copyArray 32 (((blocks ((pad bytes).length / 64) (pad bytes)).foldl compress .initial).toBytes)

example : (sha256 (ascii "abc")).toList.map BitVec.toNat =
    [186, 120, 22, 191, 143, 1, 207, 234, 65, 65, 64, 222, 93, 174, 34, 35,
      176, 3, 97, 163, 150, 23, 122, 156, 180, 16, 255, 97, 242, 0, 21, 173] := by decide +kernel

end Nor
