import Mathlib

/-! # SHA-256

The digest of FIPS 180-4 over byte lists, with 32-bit words as naturals below
`2 ^ 32`. Everything is structural, so a digest of a concrete text evaluates.
-/

namespace Sha256

/-- Reduce to a 32-bit word. -/
def word (n : ℕ) : ℕ := n % 4294967296

def rotr (k x : ℕ) : ℕ := x >>> k ||| word (x <<< (32 - k))

def smallSigma0 (x : ℕ) : ℕ := rotr 7 x ^^^ rotr 18 x ^^^ x >>> 3
def smallSigma1 (x : ℕ) : ℕ := rotr 17 x ^^^ rotr 19 x ^^^ x >>> 10
def bigSigma0 (x : ℕ) : ℕ := rotr 2 x ^^^ rotr 13 x ^^^ rotr 22 x
def bigSigma1 (x : ℕ) : ℕ := rotr 6 x ^^^ rotr 11 x ^^^ rotr 25 x

def ch (x y z : ℕ) : ℕ := (x &&& y) ^^^ ((x ^^^ 0xffffffff) &&& z)
def maj (x y z : ℕ) : ℕ := (x &&& y) ^^^ (x &&& z) ^^^ (y &&& z)

def roundConstants : List ℕ := [
  0x428a2f98, 0x71374491, 0xb5c0fbcf, 0xe9b5dba5, 0x3956c25b, 0x59f111f1, 0x923f82a4, 0xab1c5ed5,
  0xd807aa98, 0x12835b01, 0x243185be, 0x550c7dc3, 0x72be5d74, 0x80deb1fe, 0x9bdc06a7, 0xc19bf174,
  0xe49b69c1, 0xefbe4786, 0x0fc19dc6, 0x240ca1cc, 0x2de92c6f, 0x4a7484aa, 0x5cb0a9dc, 0x76f988da,
  0x983e5152, 0xa831c66d, 0xb00327c8, 0xbf597fc7, 0xc6e00bf3, 0xd5a79147, 0x06ca6351, 0x14292967,
  0x27b70a85, 0x2e1b2138, 0x4d2c6dfc, 0x53380d13, 0x650a7354, 0x766a0abb, 0x81c2c92e, 0x92722c85,
  0xa2bfe8a1, 0xa81a664b, 0xc24b8b70, 0xc76c51a3, 0xd192e819, 0xd6990624, 0xf40e3585, 0x106aa070,
  0x19a4c116, 0x1e376c08, 0x2748774c, 0x34b0bcb5, 0x391c0cb3, 0x4ed8aa4a, 0x5b9cca4f, 0x682e6ff3,
  0x748f82ee, 0x78a5636f, 0x84c87814, 0x8cc70208, 0x90befffa, 0xa4506ceb, 0xbef9a3f7, 0xc67178f2]

/-- The eight working variables, and the running hash value. -/
structure Digest where
  a : ℕ
  b : ℕ
  c : ℕ
  d : ℕ
  e : ℕ
  f : ℕ
  g : ℕ
  h : ℕ

def initial : Digest :=
  ⟨0x6a09e667, 0xbb67ae85, 0x3c6ef372, 0xa54ff53a, 0x510e527f, 0x9b05688c, 0x1f83d9ab, 0x5be0cd19⟩

def round (s : Digest) (k w : ℕ) : Digest :=
  let t₁ := s.h + bigSigma1 s.e + ch s.e s.f s.g + k + w
  let t₂ := bigSigma0 s.a + maj s.a s.b s.c
  ⟨word (t₁ + t₂), s.a, s.b, s.c, word (s.d + t₁), s.e, s.f, s.g⟩

/-- `n` further words of the message schedule; the words so far come newest first. -/
def schedule : ℕ → List ℕ → List ℕ
  | 0, words => words
  | n + 1, words =>
      let next := word (words.getD 15 0 + smallSigma0 (words.getD 14 0) + words.getD 6 0 +
        smallSigma1 (words.getD 1 0))
      schedule n (next :: words)

def compress (s : Digest) (block : List ℕ) : Digest :=
  let words := (schedule 48 block.reverse).reverse
  let r := (roundConstants.zip words).foldl (fun s kw => round s kw.1 kw.2) s
  ⟨word (s.a + r.a), word (s.b + r.b), word (s.c + r.c), word (s.d + r.d),
    word (s.e + r.e), word (s.f + r.f), word (s.g + r.g), word (s.h + r.h)⟩

/-- The bytes with the padding: a one bit, zeros, and the length in bits. -/
def pad (bytes : List ℕ) : List ℕ :=
  let n := bytes.length
  bytes ++ 0x80 :: List.replicate ((119 - n % 64) % 64) 0 ++
    (List.range 8).reverse.map fun i => 8 * n / 256 ^ i % 256

def toWords : List ℕ → List ℕ
  | a :: b :: c :: d :: rest => (((a * 256 + b) * 256 + c) * 256 + d) :: toWords rest
  | _ => []

def absorb : ℕ → List ℕ → Digest → Digest
  | 0, _, s => s
  | n + 1, words, s => absorb n (words.drop 16) (compress s (words.take 16))

def digest (bytes : List ℕ) : Digest :=
  let words := toWords (pad bytes)
  absorb (words.length / 16) words initial

def hexDigit (n : ℕ) : Char := "0123456789abcdef".toList.getD n '0'

def wordHex (w : ℕ) : List Char := (List.range 8).reverse.map fun i => hexDigit (w / 16 ^ i % 16)

/-- `hashlib.sha256(bytes).hexdigest()`. -/
def hexdigest (bytes : List ℕ) : String :=
  let s := digest bytes
  String.ofList ([s.a, s.b, s.c, s.d, s.e, s.f, s.g, s.h].flatMap wordHex)

theorem length_hexdigest (bytes : List ℕ) : (hexdigest bytes).length = 64 := by
  simp [hexdigest, wordHex]

example : hexdigest [97, 98, 99] =
    "ba7816bf8f01cfea414140de5dae2223b00361a396177a9cb410ff61f20015ad" := by
  decide +kernel

end Sha256
