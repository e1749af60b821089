/-!
# Content digests

The SHA-256 digest of a byte sequence.  The sequence is padded to whole blocks of sixteen words;
each block is stretched to sixty-four words, which are mixed one after another into eight running
words.
-/

namespace LiveExports.Digest

/-- The words mixed in with each round. -/
def roundConstants : List UInt32 :=
  [0x428a2f98, 0x71374491, 0xb5c0fbcf, 0xe9b5dba5, 0x3956c25b, 0x59f111f1, 0x923f82a4, 0xab1c5ed5,
   0xd807aa98, 0x12835b01, 0x243185be, 0x550c7dc3, 0x72be5d74, 0x80deb1fe, 0x9bdc06a7, 0xc19bf174,
   0xe49b69c1, 0xefbe4786, 0x0fc19dc6, 0x240ca1cc, 0x2de92c6f, 0x4a7484aa, 0x5cb0a9dc, 0x76f988da,
   0x983e5152, 0xa831c66d, 0xb00327c8, 0xbf597fc7, 0xc6e00bf3, 0xd5a79147, 0x06ca6351, 0x14292967,
   0x27b70a85, 0x2e1b2138, 0x4d2c6dfc, 0x53380d13, 0x650a7354, 0x766a0abb, 0x81c2c92e, 0x92722c85,
   0xa2bfe8a1, 0xa81a664b, 0xc24b8b70, 0xc76c51a3, 0xd192e819, 0xd6990624, 0xf40e3585, 0x106aa070,
   0x19a4c116, 0x1e376c08, 0x2748774c, 0x34b0bcb5, 0x391c0cb3, 0x4ed8aa4a, 0x5b9cca4f, 0x682e6ff3,
   0x748f82ee, 0x78a5636f, 0x84c87814, 0x8cc70208, 0x90befffa, 0xa4506ceb, 0xbef9a3f7, 0xc67178f2]

/-- The eight running words. -/
structure Words where
  a : UInt32
  b : UInt32
  c : UInt32
  d : UInt32
  e : UInt32
  f : UInt32
  g : UInt32
  h : UInt32

namespace Words

def initial : Words :=
  ⟨0x6a09e667, 0xbb67ae85, 0x3c6ef372, 0xa54ff53a, 0x510e527f, 0x9b05688c, 0x1f83d9ab, 0x5be0cd19⟩

def add (w v : Words) : Words :=
  ⟨w.a + v.a, w.b + v.b, w.c + v.c, w.d + v.d, w.e + v.e, w.f + v.f, w.g + v.g, w.h + v.h⟩

def toList (w : Words) : List UInt32 :=
  [w.a, w.b, w.c, w.d, w.e, w.f, w.g, w.h]

end Words

def rotateRight (word : UInt32) (count : UInt32) : UInt32 :=
  (word >>> count) ||| (word <<< (32 - count))

/-- Mixes one word of a block, and the constant of its round, into the running words. -/
def mix (w : Words) (constant word : UInt32) : Words :=
  let choice := (w.e &&& w.f) ^^^ ((~~~ w.e) &&& w.g)
  let majority := (w.a &&& w.b) ^^^ (w.a &&& w.c) ^^^ (w.b &&& w.c)
  let lower := rotateRight w.e 6 ^^^ rotateRight w.e 11 ^^^ rotateRight w.e 25
  let upper := rotateRight w.a 2 ^^^ rotateRight w.a 13 ^^^ rotateRight w.a 22
  let fresh := w.h + lower + choice + constant + word
  ⟨fresh + upper + majority, w.a, w.b, w.c, w.d + fresh, w.e, w.f, w.g⟩

/-- Adds `count` words to the words of a block, the latest word first. -/
def stretch : (count : Nat) → List UInt32 → List UInt32
  | 0, words => words
  | count + 1, words =>
    let near := words.getD 1 0
    let far := words.getD 14 0
    let nearPart := rotateRight near 17 ^^^ rotateRight near 19 ^^^ (near >>> 10)
    let farPart := rotateRight far 7 ^^^ rotateRight far 18 ^^^ (far >>> 3)
    stretch count ((nearPart + words.getD 6 0 + farPart + words.getD 15 0) :: words)

/-- The words of a byte sequence, four bytes to a word. -/
def wordsOf : List UInt8 → List UInt32
  | a :: b :: c :: d :: rest =>
    ((a.toUInt32 <<< 24) ||| (b.toUInt32 <<< 16) ||| (c.toUInt32 <<< 8) ||| d.toUInt32) ::
      wordsOf rest
  | _ => []

/-- Mixes a block of sixteen words into the running words. -/
def mixBlock (w : Words) (block : List UInt32) : Words :=
  let words := (stretch 48 block.reverse).reverse
  w.add ((roundConstants.zip words).foldl (fun w (constant, word) => mix w constant word) w)

/-- Mixes whole blocks, `count` of them, into the running words. -/
def mixBlocks : (count : Nat) → Words → List UInt32 → Words
  | 0, w, _ => w
  | count + 1, w, words => mixBlocks count (mixBlock w (words.take 16)) (words.drop 16)

/-- The bytes of a number, most significant first. -/
def bytesOf : (count : Nat) → Nat → List UInt8
  | 0, _ => []
  | count + 1, n => bytesOf count (n / 256) ++ [UInt8.ofNat (n % 256)]

/-- The bytes followed by a one bit, zeros and the length in bits, up to a whole block. -/
def pad (bytes : List UInt8) : List UInt8 :=
  let zeros := (119 - bytes.length % 64) % 64
  bytes ++ [0x80] ++ List.replicate zeros 0 ++ bytesOf 8 (8 * bytes.length)

/-- A byte as two digits in base sixteen. -/
def hexByte (byte : UInt8) : List Char :=
  [Nat.digitChar (byte.toNat / 16), Nat.digitChar (byte.toNat % 16)]

/-- The digest of a byte sequence, in base sixteen. -/
def ofBytes (bytes : List UInt8) : String :=
  let words := wordsOf (pad bytes)
  let final := mixBlocks (words.length / 16) Words.initial words
  String.ofList (final.toList.flatMap fun word => (bytesOf 4 word.toNat).flatMap hexByte)

end LiveExports.Digest
