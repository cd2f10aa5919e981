import Worktree.Evidence
/-
The digest itself, on words kept below `2 ^ 32`.

The message schedule is a window of sixteen words that moves on by one word in
each round. Every word is computed before it is passed on.
-/

namespace Worktree

namespace Sha256

def modulus : Nat := 2 ^ 32

def rotate (count word : Nat) : Nat :=
  (word >>> count ||| word <<< (32 - count)) % modulus

def complement (word : Nat) : Nat :=
  modulus - 1 - word

def roundConstants : List Nat :=
  [0x428a2f98, 0x71374491, 0xb5c0fbcf, 0xe9b5dba5, 0x3956c25b, 0x59f111f1, 0x923f82a4, 0xab1c5ed5,
   0xd807aa98, 0x12835b01, 0x243185be, 0x550c7dc3, 0x72be5d74, 0x80deb1fe, 0x9bdc06a7, 0xc19bf174,
   0xe49b69c1, 0xefbe4786, 0x0fc19dc6, 0x240ca1cc, 0x2de92c6f, 0x4a7484aa, 0x5cb0a9dc, 0x76f988da,
   0x983e5152, 0xa831c66d, 0xb00327c8, 0xbf597fc7, 0xc6e00bf3, 0xd5a79147, 0x06ca6351, 0x14292967,
   0x27b70a85, 0x2e1b2138, 0x4d2c6dfc, 0x53380d13, 0x650a7354, 0x766a0abb, 0x81c2c92e, 0x92722c85,
   0xa2bfe8a1, 0xa81a664b, 0xc24b8b70, 0xc76c51a3, 0xd192e819, 0xd6990624, 0xf40e3585, 0x106aa070,
   0x19a4c116, 0x1e376c08, 0x2748774c, 0x34b0bcb5, 0x391c0cb3, 0x4ed8aa4a, 0x5b9cca4f, 0x682e6ff3,
   0x748f82ee, 0x78a5636f, 0x84c87814, 0x8cc70208, 0x90befffa, 0xa4506ceb, 0xbef9a3f7, 0xc67178f2]

structure Working where
  a : Nat
  b : Nat
  c : Nat
  d : Nat
  e : Nat
  f : Nat
  g : Nat
  h : Nat

def initial : Working :=
  ⟨0x6a09e667, 0xbb67ae85, 0x3c6ef372, 0xa54ff53a, 0x510e527f, 0x9b05688c, 0x1f83d9ab, 0x5be0cd19⟩

def Working.add (first second : Working) : Working :=
  ⟨(first.a + second.a) % modulus, (first.b + second.b) % modulus,
   (first.c + second.c) % modulus, (first.d + second.d) % modulus,
   (first.e + second.e) % modulus, (first.f + second.f) % modulus,
   (first.g + second.g) % modulus, (first.h + second.h) % modulus⟩

/-- Computes the value before it is passed on. -/
def force {α : Type} (value : Nat) (next : Nat → α) : α :=
  match value with
  | 0 => next 0
  | less + 1 => next (less + 1)

def sigma (first second third word : Nat) : Nat :=
  rotate first word ^^^ rotate second word ^^^ rotate third word

def schedule (w0 w1 w9 w14 : Nat) : Nat :=
  (w0 + (rotate 7 w1 ^^^ rotate 18 w1 ^^^ w1 >>> 3) + w9 +
    (rotate 17 w14 ^^^ rotate 19 w14 ^^^ w14 >>> 10)) % modulus

def rounds : List Nat → (w0 w1 w2 w3 w4 w5 w6 w7 w8 w9 w10 w11 w12 w13 w14 w15 : Nat) →
    (a b c d e f g h : Nat) → Working
  | [], _, _, _, _, _, _, _, _, _, _, _, _, _, _, _, _, a, b, c, d, e, f, g, h =>
      ⟨a, b, c, d, e, f, g, h⟩
  | constant :: constants, w0, w1, w2, w3, w4, w5, w6, w7, w8, w9, w10, w11, w12, w13, w14, w15,
      a, b, c, d, e, f, g, h =>
      force (schedule w0 w1 w9 w14) fun word =>
      force (h + sigma 6 11 25 e + ((e &&& f) ^^^ (complement e &&& g)) + constant + w0) fun first =>
      force ((first + sigma 2 13 22 a + ((a &&& b) ^^^ (a &&& c) ^^^ (b &&& c))) % modulus)
        fun top =>
      force ((d + first) % modulus) fun middle =>
        rounds constants w1 w2 w3 w4 w5 w6 w7 w8 w9 w10 w11 w12 w13 w14 w15 word
          top a b c middle e f g

def wordOf (bytes : Bytes) : Nat :=
  bytes.foldl (fun word byte => word * 256 + byte.toNat) 0

/-- The words of one block of sixty-four bytes. -/
def wordsOf : Nat → Bytes → List Nat
  | 0, _ => []
  | count + 1, bytes => wordOf (bytes.take 4) :: wordsOf count (bytes.drop 4)

def compress (working : Working) (block : Bytes) : Working :=
  match wordsOf 16 block with
  | [w0, w1, w2, w3, w4, w5, w6, w7, w8, w9, w10, w11, w12, w13, w14, w15] =>
      force w0 fun w0 => force w1 fun w1 => force w2 fun w2 => force w3 fun w3 =>
      force w4 fun w4 => force w5 fun w5 => force w6 fun w6 => force w7 fun w7 =>
      force w8 fun w8 => force w9 fun w9 => force w10 fun w10 => force w11 fun w11 =>
      force w12 fun w12 => force w13 fun w13 => force w14 fun w14 => force w15 fun w15 =>
        working.add (rounds roundConstants w0 w1 w2 w3 w4 w5 w6 w7 w8 w9 w10 w11 w12 w13 w14 w15
          working.a working.b working.c working.d working.e working.f working.g working.h)
  | _ => working

def blocks : Nat → Bytes → Working → Working
  | 0, _, working => working
  | count + 1, bytes, working => blocks count (bytes.drop 64) (compress working (bytes.take 64))

def bigEndian (count value : Nat) : Bytes :=
  (List.range count).map fun index => UInt8.ofNat (value / 256 ^ (count - 1 - index) % 256)

/-- A one, zeros up to eight bytes before the end of a block, and the length. -/
def pad (message : Bytes) : Bytes :=
  message ++ 0x80 :: List.replicate ((119 - message.length % 64) % 64) 0 ++
    bigEndian 8 (8 * message.length)

def Working.words (working : Working) : List Nat :=
  [working.a, working.b, working.c, working.d, working.e, working.f, working.g, working.h]

def digest (message : Bytes) : Sha256Hash where
  bytes :=
    (blocks ((pad message).length / 64) (pad message) initial).words.flatMap (bigEndian 4)
  sized := rfl

example : (digest [97, 98, 99]).display =
    "ba7816bf8f01cfea414140de5dae2223b00361a396177a9cb410ff61f20015ad" := by decide +kernel

end Sha256

end Worktree
