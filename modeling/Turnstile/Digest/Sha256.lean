import Turnstile.Text.Hex

/-!
# SHA-256

The 256-bit digest of a byte sequence (FIPS 180-4), and its text of sixty-four lower-case
hexadecimal digits (`hexDigest`).  The message schedule is a window of sixteen words: every round
uses the first, drops it and adds the word that is due sixteen rounds later, so the recurrence of
the standard is one line (`Window.next`).
-/

namespace Turnstile.Digest.Sha256

open Turnstile.Text

/-- The first thirty-two bits of the fractional parts of the cube roots of the first sixty-four
primes, one for each round. -/
def roundConstants : List UInt32 :=
  [0x428a2f98, 0x71374491, 0xb5c0fbcf, 0xe9b5dba5, 0x3956c25b, 0x59f111f1, 0x923f82a4, 0xab1c5ed5,
    0xd807aa98, 0x12835b01, 0x243185be, 0x550c7dc3, 0x72be5d74, 0x80deb1fe, 0x9bdc06a7, 0xc19bf174,
    0xe49b69c1, 0xefbe4786, 0x0fc19dc6, 0x240ca1cc, 0x2de92c6f, 0x4a7484aa, 0x5cb0a9dc, 0x76f988da,
    0x983e5152, 0xa831c66d, 0xb00327c8, 0xbf597fc7, 0xc6e00bf3, 0xd5a79147, 0x06ca6351, 0x14292967,
    0x27b70a85, 0x2e1b2138, 0x4d2c6dfc, 0x53380d13, 0x650a7354, 0x766a0abb, 0x81c2c92e, 0x92722c85,
    0xa2bfe8a1, 0xa81a664b, 0xc24b8b70, 0xc76c51a3, 0xd192e819, 0xd6990624, 0xf40e3585, 0x106aa070,
    0x19a4c116, 0x1e376c08, 0x2748774c, 0x34b0bcb5, 0x391c0cb3, 0x4ed8aa4a, 0x5b9cca4f, 0x682e6ff3,
    0x748f82ee, 0x78a5636f, 0x84c87814, 0x8cc70208, 0x90befffa, 0xa4506ceb, 0xbef9a3f7, 0xc67178f2]

/-- The eight words that a block changes. -/
structure Chain where
  a : UInt32
  b : UInt32
  c : UInt32
  d : UInt32
  e : UInt32
  f : UInt32
  g : UInt32
  h : UInt32
  deriving DecidableEq, Repr

/-- The first thirty-two bits of the fractional parts of the square roots of the first eight
primes. -/
def Chain.start : Chain :=
  ⟨0x6a09e667, 0xbb67ae85, 0x3c6ef372, 0xa54ff53a, 0x510e527f, 0x9b05688c, 0x1f83d9ab, 0x5be0cd19⟩

/-- The words added pairwise. -/
def Chain.add (x y : Chain) : Chain :=
  ⟨x.a + y.a, x.b + y.b, x.c + y.c, x.d + y.d, x.e + y.e, x.f + y.f, x.g + y.g, x.h + y.h⟩

/-- The words in order. -/
def Chain.words (x : Chain) : List UInt32 := [x.a, x.b, x.c, x.d, x.e, x.f, x.g, x.h]

/-- A word turned right by a number of bits. -/
def rotate (n : UInt32) (x : UInt32) : UInt32 := (x >>> n) ||| (x <<< (32 - n))

def smallSigma0 (x : UInt32) : UInt32 := rotate 7 x ^^^ rotate 18 x ^^^ (x >>> 3)

def smallSigma1 (x : UInt32) : UInt32 := rotate 17 x ^^^ rotate 19 x ^^^ (x >>> 10)

def bigSigma0 (x : UInt32) : UInt32 := rotate 2 x ^^^ rotate 13 x ^^^ rotate 22 x

def bigSigma1 (x : UInt32) : UInt32 := rotate 6 x ^^^ rotate 11 x ^^^ rotate 25 x

def choose (x y z : UInt32) : UInt32 := (x &&& y) ^^^ (~~~x &&& z)

def majority (x y z : UInt32) : UInt32 := (x &&& y) ^^^ (x &&& z) ^^^ (y &&& z)

/-- Sixteen consecutive words of the message schedule. -/
structure Window where
  words : Vector UInt32 16

namespace Window

/-- The word of the coming round. -/
def front (w : Window) : UInt32 := w.words[0]

/-- The word due sixteen rounds after the front. -/
def due (w : Window) : UInt32 :=
  smallSigma1 w.words[14] + w.words[9] + smallSigma0 w.words[1] + w.words[0]

/-- The window one round later. -/
def next (w : Window) : Window :=
  ⟨#v[w.words[1], w.words[2], w.words[3], w.words[4], w.words[5], w.words[6], w.words[7],
    w.words[8], w.words[9], w.words[10], w.words[11], w.words[12], w.words[13], w.words[14],
    w.words[15], w.due]⟩

end Window

/-- One round with its constant. -/
def round (s : Chain × Window) (constant : UInt32) : Chain × Window :=
  let x := s.1
  let t := x.h + bigSigma1 x.e + choose x.e x.f x.g + constant + s.2.front
  (⟨t + bigSigma0 x.a + majority x.a x.b x.c, x.a, x.b, x.c, x.d + t, x.e, x.f, x.g⟩, s.2.next)

/-- One block of sixteen words. -/
def compress (x : Chain) (block : Window) : Chain :=
  x.add (roundConstants.foldl round (x, block)).1

/-- Four bytes as a word, high byte first. -/
def wordOf (b₀ b₁ b₂ b₃ : UInt8) : UInt32 :=
  (b₀.toUInt32 <<< 24) ||| (b₁.toUInt32 <<< 16) ||| (b₂.toUInt32 <<< 8) ||| b₃.toUInt32

/-- The words of a byte sequence; bytes that fill no word are left out. -/
def wordsOf : List UInt8 → List UInt32
  | b₀ :: b₁ :: b₂ :: b₃ :: rest => wordOf b₀ b₁ b₂ b₃ :: wordsOf rest
  | _ => []

/-- The bytes of a word, high byte first. -/
def bytesOf (x : UInt32) : List UInt8 :=
  [(x >>> 24).toUInt8, (x >>> 16).toUInt8, (x >>> 8).toUInt8, x.toUInt8]

/-- The length of a message in bits, as eight bytes. -/
def lengthBytes (n : Nat) : List UInt8 :=
  (List.range 8).map fun i => UInt8.ofNat (8 * n / Nat.pow 256 (7 - i))

/-- What follows a message of `n` bytes: one bit, zeros, and the length, up to a whole block. -/
def padding (n : Nat) : List UInt8 :=
  0x80 :: List.replicate ((119 - n % 64) % 64) 0 ++ lengthBytes n

/-- A block being filled: the chain after the whole blocks, and the bytes since, last first. -/
structure Progress where
  chain : Chain
  bytes : List UInt8
  count : Nat

/-- One byte of a padded message. -/
def Progress.push (p : Progress) (b : UInt8) : Progress :=
  if p.count = 63 then
    let words := wordsOf (b :: p.bytes).reverse
    if h : words.toArray.size = 16 then ⟨compress p.chain ⟨⟨words.toArray, h⟩⟩, [], 0⟩
    else ⟨p.chain, [], 0⟩
  else ⟨p.chain, b :: p.bytes, p.count + 1⟩

/-- The digest of a message. -/
def digest (message : List UInt8) : List UInt8 :=
  let padded := message ++ padding message.length
  (padded.foldl Progress.push ⟨Chain.start, [], 0⟩).chain.words.flatMap bytesOf

/-- The digest in hexadecimal. -/
def hexDigest (message : List UInt8) : String := String.ofList (Hex.ofBytes (digest message))

theorem length_padded (message : List UInt8) :
    (message ++ padding message.length).length % 64 = 0 := by
  simp only [padding, lengthBytes, List.length_append, List.length_cons, List.length_replicate,
    List.length_map, List.length_range]
  omega

end Turnstile.Digest.Sha256
