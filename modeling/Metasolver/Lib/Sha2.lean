import Mathlib.Data.Nat.NthRoot.Defs
import Mathlib.Data.Nat.Prime.Defs
import Metasolver.Lib.BlockHash

/-!
# The Secure Hash Standard

SHA-256 as FIPS 180-4 defines it, on messages of bytes.  The initial value and the
constants of the rounds are not listed but computed from the primes they come from:
the first 32 bits of the fractional parts of square and cube roots.

The standard defines the hash of messages of less than 2^64 bits.  `padding` writes
the length modulo 2^64, so `hash` is defined for longer messages, too.
-/

namespace Sha2

open BlockHash

abbrev Word := BitVec 32

/-- 512 bits. -/
abbrev Block := Vector UInt8 64

/-- A hash value, or the working variables of a round. -/
structure Words where
  a : Word
  b : Word
  c : Word
  d : Word
  e : Word
  f : Word
  g : Word
  h : Word
  deriving DecidableEq, Repr

def Words.add (s t : Words) : Words :=
  ⟨s.a + t.a, s.b + t.b, s.c + t.c, s.d + t.d, s.e + t.e, s.f + t.f, s.g + t.g, s.h + t.h⟩

def Words.toList (s : Words) : List Word := [s.a, s.b, s.c, s.d, s.e, s.f, s.g, s.h]

/-! ## Functions and constants (sections 4.1.2, 4.2.2 and 5.3.3) -/

def ch (x y z : Word) : Word := (x &&& y) ^^^ (~~~x &&& z)

def maj (x y z : Word) : Word := (x &&& y) ^^^ (x &&& z) ^^^ (y &&& z)

def bigSigma0 (x : Word) : Word := x.rotateRight 2 ^^^ x.rotateRight 13 ^^^ x.rotateRight 22

def bigSigma1 (x : Word) : Word := x.rotateRight 6 ^^^ x.rotateRight 11 ^^^ x.rotateRight 25

def smallSigma0 (x : Word) : Word := x.rotateRight 7 ^^^ x.rotateRight 18 ^^^ x >>> 3

def smallSigma1 (x : Word) : Word := x.rotateRight 17 ^^^ x.rotateRight 19 ^^^ x >>> 10

/-- The first 32 bits of the fractional part of the `k`-th root of `p`. -/
def rootBits (k p : Nat) : Word := BitVec.ofNat 32 (Nat.nthRoot k (p * 2 ^ (32 * k)))

/-- The first 64 primes. -/
def primes : List Nat := (List.range 312).filter fun p => Nat.Prime p

def roundConstant (t : Nat) : Word := rootBits 3 (primes.getD t 0)

def initialWord (i : Nat) : Word := rootBits 2 (primes.getD i 0)

def initial : Words :=
  ⟨initialWord 0, initialWord 1, initialWord 2, initialWord 3, initialWord 4, initialWord 5,
    initialWord 6, initialWord 7⟩

/-! ## Hash computation (section 6.2.2) -/

/-- Four bytes as a word, the most significant one first. -/
def bigEndian (b₀ b₁ b₂ b₃ : UInt8) : Word :=
  b₀.toBitVec ++ b₁.toBitVec ++ b₂.toBitVec ++ b₃.toBitVec

/-- The message schedule. -/
def schedule (m : Block) (t : Nat) : Word :=
  if h : t < 16 then bigEndian m[4 * t] m[4 * t + 1] m[4 * t + 2] m[4 * t + 3]
  else smallSigma1 (schedule m (t - 2)) + schedule m (t - 7) +
    smallSigma0 (schedule m (t - 15)) + schedule m (t - 16)

def round (s : Words) (k w : Word) : Words :=
  let t₁ := s.h + bigSigma1 s.e + ch s.e s.f s.g + k + w
  let t₂ := bigSigma0 s.a + maj s.a s.b s.c
  ⟨t₁ + t₂, s.a, s.b, s.c, s.d + t₁, s.e, s.f, s.g⟩

/-- The rounds up to round `t`. -/
def rounds (m : Block) (s : Words) (t : Nat) : Words :=
  (List.range t).foldl (fun s t => round s (roundConstant t) (schedule m t)) s

def compress (s : Words) (m : Block) : Words := s.add (rounds m s 64)

/-! ## Padding (section 5.1.1) -/

/-- The bytes of a word of `8 * n` bits, the most significant one first. -/
def bytes (n : Nat) (x : BitVec (8 * n)) : List UInt8 :=
  (List.range n).map fun i => ⟨x.extractLsb' (8 * (n - 1 - i)) 8⟩

/-- What is appended to a message of the given length: the bit 1, the least number of
    zeros after which 64 bits are left in a block, and the length in bits. -/
def padding (length : Nat) : List UInt8 :=
  0x80 :: (List.replicate ((119 - length % 64) % 64) 0 ++ bytes 8 (BitVec.ofNat 64 (8 * length)))

def hash (message : List UInt8) : Words :=
  (feed compress initial (message ++ padding message.length)).1

/-- The message digest. -/
def digest (message : List UInt8) : List UInt8 := (hash message).toList.flatMap (bytes 4)

theorem rounds_succ (m : Block) (s : Words) (t : Nat) :
    rounds m s (t + 1) = round (rounds m s t) (roundConstant t) (schedule m t) := by
  rw [rounds, List.range_succ, List.foldl_append]
  rfl

end Sha2
