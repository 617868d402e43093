import Mathlib.Data.List.Basic

/-!
# SHA-256

FIPS 180-4 on lists of bytes. `sha256Hex` is the digest as lowercase hexadecimal text.
-/

namespace BalanceFrame.Library

namespace Sha256

/-- The first words of the fractional parts of the cube roots of the first 64 primes. -/
def roundConstants : List UInt32 :=
  [0x428a2f98, 0x71374491, 0xb5c0fbcf, 0xe9b5dba5, 0x3956c25b, 0x59f111f1, 0x923f82a4, 0xab1c5ed5,
   0xd807aa98, 0x12835b01, 0x243185be, 0x550c7dc3, 0x72be5d74, 0x80deb1fe, 0x9bdc06a7, 0xc19bf174,
   0xe49b69c1, 0xefbe4786, 0x0fc19dc6, 0x240ca1cc, 0x2de92c6f, 0x4a7484aa, 0x5cb0a9dc, 0x76f988da,
   0x983e5152, 0xa831c66d, 0xb00327c8, 0xbf597fc7, 0xc6e00bf3, 0xd5a79147, 0x06ca6351, 0x14292967,
   0x27b70a85, 0x2e1b2138, 0x4d2c6dfc, 0x53380d13, 0x650a7354, 0x766a0abb, 0x81c2c92e, 0x92722c85,
   0xa2bfe8a1, 0xa81a664b, 0xc24b8b70, 0xc76c51a3, 0xd192e819, 0xd6990624, 0xf40e3585, 0x106aa070,
   0x19a4c116, 0x1e376c08, 0x2748774c, 0x34b0bcb5, 0x391c0cb3, 0x4ed8aa4a, 0x5b9cca4f, 0x682e6ff3,
   0x748f82ee, 0x78a5636f, 0x84c87814, 0x8cc70208, 0x90befffa, 0xa4506ceb, 0xbef9a3f7, 0xc67178f2]

/-- The eight working variables. -/
structure State where
  a : UInt32
  b : UInt32
  c : UInt32
  d : UInt32
  e : UInt32
  f : UInt32
  g : UInt32
  h : UInt32

/-- The initial hash value. -/
def initial : State :=
  ⟨0x6a09e667, 0xbb67ae85, 0x3c6ef372, 0xa54ff53a, 0x510e527f, 0x9b05688c, 0x1f83d9ab, 0x5be0cd19⟩

/-- Rotate right. -/
def rotr (x : UInt32) (n : UInt32) : UInt32 := (x >>> n) ||| (x <<< (32 - n))

def sigma0 (x : UInt32) : UInt32 := rotr x 7 ^^^ rotr x 18 ^^^ (x >>> 3)

def sigma1 (x : UInt32) : UInt32 := rotr x 17 ^^^ rotr x 19 ^^^ (x >>> 10)

def bigSigma0 (x : UInt32) : UInt32 := rotr x 2 ^^^ rotr x 13 ^^^ rotr x 22

def bigSigma1 (x : UInt32) : UInt32 := rotr x 6 ^^^ rotr x 11 ^^^ rotr x 25

def ch (x y z : UInt32) : UInt32 := (x &&& y) ^^^ (~~~x &&& z)

def maj (x y z : UInt32) : UInt32 := (x &&& y) ^^^ (x &&& z) ^^^ (y &&& z)

/-- The message schedule, latest word first: `k` words more than `recent`. -/
def extend : Nat → List UInt32 → List UInt32
  | 0, recent => recent
  | k + 1, recent => extend k
      ((sigma1 (recent.getD 1 0) + recent.getD 6 0 + sigma0 (recent.getD 14 0) +
        recent.getD 15 0) :: recent)

/-- One round. -/
def round (s : State) (kw : UInt32 × UInt32) : State :=
  let t1 := s.h + bigSigma1 s.e + ch s.e s.f s.g + kw.1 + kw.2
  let t2 := bigSigma0 s.a + maj s.a s.b s.c
  ⟨t1 + t2, s.a, s.b, s.c, s.d + t1, s.e, s.f, s.g⟩

/-- One block of sixteen words. -/
def compress (s : State) (block : List UInt32) : State :=
  let t := (roundConstants.zip (extend 48 block.reverse).reverse).foldl round s
  ⟨s.a + t.a, s.b + t.b, s.c + t.c, s.d + t.d, s.e + t.e, s.f + t.f, s.g + t.g, s.h + t.h⟩

/-- Big-endian words. -/
def wordsOf : List UInt8 → List UInt32
  | a :: b :: c :: d :: rest =>
    ((a.toUInt32 <<< 24) ||| (b.toUInt32 <<< 16) ||| (c.toUInt32 <<< 8) ||| d.toUInt32) ::
      wordsOf rest
  | _ => []

/-- `k` blocks. -/
def blocks : Nat → State → List UInt32 → State
  | 0, s, _ => s
  | k + 1, s, words => blocks k (compress s (words.take 16)) (words.drop 16)

/-- The big-endian bytes of a 64-bit length. -/
def lengthBytes (n : Nat) : List UInt8 :=
  [56, 48, 40, 32, 24, 16, 8, 0].map fun shift => UInt8.ofNat (n >>> shift)

/-- The padded message. -/
def pad (message : List UInt8) : List UInt8 :=
  message ++ [0x80] ++ List.replicate ((119 - message.length % 64) % 64) 0 ++
    lengthBytes (8 * message.length)

/-- The digest as eight words. -/
def digest (message : List UInt8) : List UInt32 :=
  let words := wordsOf (pad message)
  let s := blocks (words.length / 16) initial words
  [s.a, s.b, s.c, s.d, s.e, s.f, s.g, s.h]

/-- A word as eight lowercase hexadecimal digits. -/
def hexWord (w : UInt32) : List Char :=
  [28, 24, 20, 16, 12, 8, 4, 0].map fun shift => Nat.digitChar ((w.toNat >>> shift) % 16)

end Sha256

/-- The digest in hexadecimal. -/
def sha256Hex (message : List UInt8) : String :=
  String.ofList ((Sha256.digest message).flatMap Sha256.hexWord)

/-- The digest of the message `abc`. -/
example : sha256Hex [0x61, 0x62, 0x63] =
    "ba7816bf8f01cfea414140de5dae2223b00361a396177a9cb410ff61f20015ad" := by
  decide +kernel

end BalanceFrame.Library
