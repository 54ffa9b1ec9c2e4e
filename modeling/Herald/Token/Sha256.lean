import Herald.Text.Digits

/-!
The SHA-256 digest of octets and the keyed digest built from it.
-/

namespace Herald.Token.Sha256

structure Words where
  a : UInt32
  b : UInt32
  c : UInt32
  d : UInt32
  e : UInt32
  f : UInt32
  g : UInt32
  h : UInt32
  deriving DecidableEq, Repr

def start : Words :=
  ⟨0x6a09e667, 0xbb67ae85, 0x3c6ef372, 0xa54ff53a, 0x510e527f, 0x9b05688c, 0x1f83d9ab, 0x5be0cd19⟩

def roundWords : List UInt32 :=
  [0x428a2f98, 0x71374491, 0xb5c0fbcf, 0xe9b5dba5, 0x3956c25b, 0x59f111f1, 0x923f82a4, 0xab1c5ed5,
    0xd807aa98, 0x12835b01, 0x243185be, 0x550c7dc3, 0x72be5d74, 0x80deb1fe, 0x9bdc06a7, 0xc19bf174,
    0xe49b69c1, 0xefbe4786, 0x0fc19dc6, 0x240ca1cc, 0x2de92c6f, 0x4a7484aa, 0x5cb0a9dc, 0x76f988da,
    0x983e5152, 0xa831c66d, 0xb00327c8, 0xbf597fc7, 0xc6e00bf3, 0xd5a79147, 0x06ca6351, 0x14292967,
    0x27b70a85, 0x2e1b2138, 0x4d2c6dfc, 0x53380d13, 0x650a7354, 0x766a0abb, 0x81c2c92e, 0x92722c85,
    0xa2bfe8a1, 0xa81a664b, 0xc24b8b70, 0xc76c51a3, 0xd192e819, 0xd6990624, 0xf40e3585, 0x106aa070,
    0x19a4c116, 0x1e376c08, 0x2748774c, 0x34b0bcb5, 0x391c0cb3, 0x4ed8aa4a, 0x5b9cca4f, 0x682e6ff3,
    0x748f82ee, 0x78a5636f, 0x84c87814, 0x8cc70208, 0x90befffa, 0xa4506ceb, 0xbef9a3f7, 0xc67178f2]

def rotate (word : UInt32) (places : UInt32) : UInt32 :=
  (word >>> places) ||| (word <<< (32 - places))

/-- The word that follows sixteen words of the schedule, the oldest first. -/
def extend (window : List UInt32) : UInt32 :=
  let word (index : Nat) : UInt32 := window.getD index 0
  let early := rotate (word 1) 7 ^^^ rotate (word 1) 18 ^^^ (word 1 >>> 3)
  let late := rotate (word 14) 17 ^^^ rotate (word 14) 19 ^^^ (word 14 >>> 10)
  late + word 9 + early + word 0

def round (words : Words) (constant scheduled : UInt32) : Words :=
  let mixed := rotate words.e 6 ^^^ rotate words.e 11 ^^^ rotate words.e 25
  let chosen := (words.e &&& words.f) ^^^ ((~~~ words.e) &&& words.g)
  let first := words.h + mixed + chosen + constant + scheduled
  let folded := rotate words.a 2 ^^^ rotate words.a 13 ^^^ rotate words.a 22
  let majority := (words.a &&& words.b) ^^^ (words.a &&& words.c) ^^^ (words.b &&& words.c)
  ⟨first + (folded + majority), words.a, words.b, words.c, words.d + first, words.e, words.f, words.g⟩

/-- One round per constant, with a window of sixteen words that moves along the schedule. -/
def rounds : List UInt32 → List UInt32 → Words → Words
  | [], _, words => words
  | constant :: rest, window, words =>
    rounds rest (window.drop 1 ++ [extend window]) (round words constant (window.headD 0))

def add (left right : Words) : Words :=
  ⟨left.a + right.a, left.b + right.b, left.c + right.c, left.d + right.d, left.e + right.e,
    left.f + right.f, left.g + right.g, left.h + right.h⟩

def wordsOf : List UInt8 → List UInt32
  | first :: second :: third :: fourth :: rest =>
    ((first.toUInt32 <<< 24) ||| (second.toUInt32 <<< 16) ||| (third.toUInt32 <<< 8)
      ||| fourth.toUInt32) :: wordsOf rest
  | _ => []

def octetsOf (word : UInt32) : List UInt8 :=
  [(word >>> 24).toUInt8, (word >>> 16).toUInt8, (word >>> 8).toUInt8, word.toUInt8]

def blockSize : Nat := 64

/-- The octets with a closing bit, zeros up to a block less a length, and the length in bits. -/
def padded (octets : List UInt8) : List UInt8 :=
  let zeros := (blockSize - (octets.length + 9) % blockSize) % blockSize
  let bits := octets.length * 8
  octets ++ 0x80 :: List.replicate zeros 0
    ++ (List.range 8).map fun place => UInt8.ofNat (bits / 256 ^ (7 - place))

def blocks : (count : Nat) → List UInt32 → Words → Words
  | 0, _, state => state
  | count + 1, words, state =>
    blocks count (words.drop 16) (add state (rounds roundWords (words.take 16) state))

def digest (octets : List UInt8) : List UInt8 :=
  let words := wordsOf (padded octets)
  let state := blocks (words.length / 16) words start
  [state.a, state.b, state.c, state.d, state.e, state.f, state.g, state.h].flatMap octetsOf

/-- A key of exactly one block: a longer one is digested first, and zeros fill it up. -/
def blockKey (key : List UInt8) : List UInt8 :=
  let key := if blockSize < key.length then digest key else key
  key ++ List.replicate (blockSize - key.length) 0

def keyed (key octets : List UInt8) : List UInt8 :=
  let key := blockKey key
  digest (key.map (· ^^^ 0x5c) ++ digest (key.map (· ^^^ 0x36) ++ octets))

end Herald.Token.Sha256
