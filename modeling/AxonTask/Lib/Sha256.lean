import AxonTask.Lib.Bytes

/-!
# SHA-256

The SHA-256 hash function as a computable function on byte strings: the message is padded
to blocks of 64 bytes, every block is compressed into eight 32-bit words, and the digest is
the big-endian bytes of these words.
-/

namespace AxonTask.Lib.Sha256

/-- The words of the computation. -/
abbrev Word := BitVec 32

/-- The round constants. -/
def roundConstants : List Word :=
  [0x428a2f98#32, 0x71374491#32, 0xb5c0fbcf#32, 0xe9b5dba5#32, 0x3956c25b#32, 0x59f111f1#32,
   0x923f82a4#32, 0xab1c5ed5#32, 0xd807aa98#32, 0x12835b01#32, 0x243185be#32, 0x550c7dc3#32,
   0x72be5d74#32, 0x80deb1fe#32, 0x9bdc06a7#32, 0xc19bf174#32, 0xe49b69c1#32, 0xefbe4786#32,
   0x0fc19dc6#32, 0x240ca1cc#32, 0x2de92c6f#32, 0x4a7484aa#32, 0x5cb0a9dc#32, 0x76f988da#32,
   0x983e5152#32, 0xa831c66d#32, 0xb00327c8#32, 0xbf597fc7#32, 0xc6e00bf3#32, 0xd5a79147#32,
   0x06ca6351#32, 0x14292967#32, 0x27b70a85#32, 0x2e1b2138#32, 0x4d2c6dfc#32, 0x53380d13#32,
   0x650a7354#32, 0x766a0abb#32, 0x81c2c92e#32, 0x92722c85#32, 0xa2bfe8a1#32, 0xa81a664b#32,
   0xc24b8b70#32, 0xc76c51a3#32, 0xd192e819#32, 0xd6990624#32, 0xf40e3585#32, 0x106aa070#32,
   0x19a4c116#32, 0x1e376c08#32, 0x2748774c#32, 0x34b0bcb5#32, 0x391c0cb3#32, 0x4ed8aa4a#32,
   0x5b9cca4f#32, 0x682e6ff3#32, 0x748f82ee#32, 0x78a5636f#32, 0x84c87814#32, 0x8cc70208#32,
   0x90befffa#32, 0xa4506ceb#32, 0xbef9a3f7#32, 0xc67178f2#32]

/-- The working variables, and the running hash value. -/
structure Regs where
  (a b c d e f g h : Word)

/-- The initial hash value. -/
def initial : Regs :=
  ⟨0x6a09e667#32, 0xbb67ae85#32, 0x3c6ef372#32, 0xa54ff53a#32,
   0x510e527f#32, 0x9b05688c#32, 0x1f83d9ab#32, 0x5be0cd19#32⟩

/-- One round, with the round constant `k` and the schedule word `w`. -/
def round (s : Regs) (k w : Word) : Regs :=
  let s₁ := s.e.rotateRight 6 ^^^ s.e.rotateRight 11 ^^^ s.e.rotateRight 25
  let ch := (s.e &&& s.f) ^^^ (~~~s.e &&& s.g)
  let t₁ := s.h + s₁ + ch + k + w
  let s₀ := s.a.rotateRight 2 ^^^ s.a.rotateRight 13 ^^^ s.a.rotateRight 22
  let maj := (s.a &&& s.b) ^^^ (s.a &&& s.c) ^^^ (s.b &&& s.c)
  ⟨t₁ + (s₀ + maj), s.a, s.b, s.c, s.d + t₁, s.e, s.f, s.g⟩

/-- The schedule word that enters the window of the last sixteen words `w`. -/
def nextWord (w : List Word) : Word :=
  let w₁ := w.getD 1 0
  let w₁₄ := w.getD 14 0
  let s₀ := w₁.rotateRight 7 ^^^ w₁.rotateRight 18 ^^^ (w₁ >>> 3)
  let s₁ := w₁₄.rotateRight 17 ^^^ w₁₄.rotateRight 19 ^^^ (w₁₄ >>> 10)
  w.getD 0 0 + s₀ + w.getD 9 0 + s₁

/-- The rounds for the given constants; `w` is the window of the schedule. -/
def rounds : List Word → List Word → Regs → Regs
  | [], _, s => s
  | k :: ks, w, s => rounds ks (w.tail ++ [nextWord w]) (round s k (w.getD 0 0))

/-- The big-endian words of a block. -/
def words : Bytes → List Word
  | a :: b :: c :: d :: l =>
    BitVec.ofNat 32 (a.toNat * 2 ^ 24 + b.toNat * 2 ^ 16 + c.toNat * 2 ^ 8 + d.toNat) :: words l
  | _ => []

/-- The compression of one block of 64 bytes. -/
def compress (s : Regs) (block : Bytes) : Regs :=
  let t := rounds roundConstants (words block) s
  ⟨s.a + t.a, s.b + t.b, s.c + t.c, s.d + t.d, s.e + t.e, s.f + t.f, s.g + t.g, s.h + t.h⟩

/-- The padded message: a one bit, zeros, and the length in bits as eight bytes. -/
def pad (m : Bytes) : Bytes :=
  m ++ [0x80] ++ List.replicate ((119 - m.length % 64) % 64) 0 ++ (leBytes 8 (8 * m.length)).reverse

/-- The compression of the first `n` blocks of a message. -/
def blocks : ℕ → Bytes → Regs → Regs
  | 0, _, s => s
  | n + 1, m, s => blocks n (m.drop 64) (compress s (m.take 64))

/-- The big-endian bytes of a word. -/
def wordBytes (w : Word) : Bytes := (leBytes 4 w.toNat).reverse

/-- The SHA-256 digest of a message. -/
def sha256 (m : Bytes) : Bytes :=
  let s := blocks ((pad m).length / 64) (pad m) initial
  [s.a, s.b, s.c, s.d, s.e, s.f, s.g, s.h].flatMap wordBytes

/-- A digest has 32 bytes. -/
lemma length_sha256 (m : Bytes) : (sha256 m).length = 32 := by
  simp [sha256, wordBytes]

/-- The digest of `abc`. -/
example : sha256 [97, 98, 99] =
    [0xba, 0x78, 0x16, 0xbf, 0x8f, 0x01, 0xcf, 0xea, 0x41, 0x41, 0x40, 0xde, 0x5d, 0xae, 0x22, 0x23,
      0xb0, 0x03, 0x61, 0xa3, 0x96, 0x17, 0x7a, 0x9c, 0xb4, 0x10, 0xff, 0x61, 0xf2, 0x00, 0x15,
      0xad] := by
  decide +kernel

end AxonTask.Lib.Sha256
