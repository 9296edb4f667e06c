import Mathlib.Logic.Function.Iterate
import Metasolver.Lib.Sha2
import Metasolver.Messages

/-!
# `SHA256`

The hash function of the libraries (`sha256.cpp`), as `hash_cache::hash_file` uses it.
`uint32_t` and `uint64_t` are bit vectors and the two buffers are arrays of 64 bytes; an
access outside of them is undefined behaviour.  The machine is little-endian.

`m_buffer` is not initialized, and `processBuffer` has a second buffer on its stack that
is not either: what it holds at first is a parameter of the calls that use it.
-/

namespace Metasolver

open Sha2 (Word Block Words)

/-- The data members of `SHA256` (`sha256.h:73-85`). -/
structure Sha256 where
  numBytes : BitVec 64
  bufferSize : Nat
  buffer : Block
  hash : Words
  deriving DecidableEq, Repr

namespace Sha256

def seed : Words :=
  ⟨0x6a09e667, 0xbb67ae85, 0x3c6ef372, 0xa54ff53a, 0x510e527f, 0x9b05688c, 0x1f83d9ab,
    0x5be0cd19⟩

/-- `reset` (`sha256.cpp:38-68`).  The bytes of the buffer stay. -/
def reset (s : Sha256) : Sha256 := { s with numBytes := 0, bufferSize := 0, hash := seed }

/-! ## `processBlock` -/

def rotate (a : Word) (c : Nat) : Word := a >>> c ||| a <<< (32 - c)

def swap (x : Word) : Word :=
  x >>> 24 ||| (x >>> 8 &&& 0x0000FF00) ||| (x <<< 8 &&& 0x00FF0000) ||| x <<< 24

def f1 (e f g : Word) : Word :=
  let term1 := rotate e 6 ^^^ rotate e 11 ^^^ rotate e 25
  let term2 := (e &&& f) ^^^ (~~~e &&& g)
  term1 + term2

def f2 (a b c : Word) : Word :=
  let term1 := rotate a 2 ^^^ rotate a 13 ^^^ rotate a 22
  let term2 := ((a ||| b) &&& c) ||| (a &&& b)
  term1 + term2

/-- The constants in the lines of the rounds, in their order. -/
def constants : List Word :=
  [0x428a2f98, 0x71374491, 0xb5c0fbcf, 0xe9b5dba5, 0x3956c25b, 0x59f111f1, 0x923f82a4, 0xab1c5ed5,
    0xd807aa98, 0x12835b01, 0x243185be, 0x550c7dc3, 0x72be5d74, 0x80deb1fe, 0x9bdc06a7, 0xc19bf174,
    0xe49b69c1, 0xefbe4786, 0x0fc19dc6, 0x240ca1cc, 0x2de92c6f, 0x4a7484aa, 0x5cb0a9dc, 0x76f988da,
    0x983e5152, 0xa831c66d, 0xb00327c8, 0xbf597fc7, 0xc6e00bf3, 0xd5a79147, 0x06ca6351, 0x14292967,
    0x27b70a85, 0x2e1b2138, 0x4d2c6dfc, 0x53380d13, 0x650a7354, 0x766a0abb, 0x81c2c92e, 0x92722c85,
    0xa2bfe8a1, 0xa81a664b, 0xc24b8b70, 0xc76c51a3, 0xd192e819, 0xd6990624, 0xf40e3585, 0x106aa070,
    0x19a4c116, 0x1e376c08, 0x2748774c, 0x34b0bcb5, 0x391c0cb3, 0x4ed8aa4a, 0x5b9cca4f, 0x682e6ff3,
    0x748f82ee, 0x78a5636f, 0x84c87814, 0x8cc70208, 0x90befffa, 0xa4506ceb, 0xbef9a3f7, 0xc67178f2]

/-- `input[i]`: the byte with the lowest address is the least significant one. -/
def input (data : Block) (i : Fin 16) : Word :=
  data[4 * i.val + 3].toBitVec ++ data[4 * i.val + 2].toBitVec ++ data[4 * i.val + 1].toBitVec ++
    data[4 * i.val].toBitVec

/-- The words read from the data (`sha256.cpp:122-133`). -/
def inputWords (data : Block) : List Word := List.ofFn fun i => swap (input data i)

/-- One round of the loops that extend the words; `i` is the number of words so far. -/
def extendWord (words : List Word) : List Word :=
  let back (n : Nat) := words.getD (words.length - n) 0
  words ++ [back 16 + (rotate (back 15) 7 ^^^ rotate (back 15) 18 ^^^ back 15 >>> 3) + back 7 +
    (rotate (back 2) 17 ^^^ rotate (back 2) 19 ^^^ back 2 >>> 10)]

/-- The loop that extends the words by eight. -/
def extend (words : List Word) : List Word := extendWord^[8] words

/-- A line of the rounds, which changes the fourth and the eighth variable. -/
def line (a b c d e f g h k w : Word) : Word × Word :=
  let x := h + f1 e f g + k + w
  let y := f2 a b c
  (d + x, x + y)

/-- Eight lines (`sha256.cpp:137-145`, and seven times more with other constants and
    words).  Each line is the one before it with the variables turned by one. -/
def eightLines (words : List Word) (t : Nat) (s : Words) : Words :=
  let k (i : Nat) := constants.getD (t + i) 0
  let w (i : Nat) := words.getD (t + i) 0
  let ⟨a, b, c, d, e, f, g, h⟩ := s
  let (d, h) := line a b c d e f g h (k 0) (w 0)
  let (c, g) := line h a b c d e f g (k 1) (w 1)
  let (b, f) := line g h a b c d e f (k 2) (w 2)
  let (a, e) := line f g h a b c d e (k 3) (w 3)
  let (h, d) := line e f g h a b c d (k 4) (w 4)
  let (g, c) := line d e f g h a b c (k 5) (w 5)
  let (f, b) := line c d e f g h a b (k 6) (w 6)
  let (e, a) := line b c d e f g h a (k 7) (w 7)
  ⟨a, b, c, d, e, f, g, h⟩

/-- `processBlock` (`sha256.cpp:110-268`): the value of `m_hash` after it. -/
def processBlock (hash : Words) (data : Block) : Words :=
  let words := inputWords data
  let s := eightLines words 0 hash
  let s := eightLines words 8 s
  let words := extend words
  let s := eightLines words 16 s
  let words := extend words
  let s := eightLines words 24 s
  let words := extend words
  let s := eightLines words 32 s
  let words := extend words
  let s := eightLines words 40 s
  let words := extend words
  let s := eightLines words 48 s
  let words := extend words
  let s := eightLines words 56 s
  hash.add s

/-! ## `add` -/

/-- `block[i] = b`. -/
def writeAt (block : Block) (i : Nat) (b : UInt8) : Except Fault Block :=
  if h : i < 64 then .ok (block.set i b h) else .error .undefinedBehaviour

/-- `m_buffer[m_bufferSize++] = b`. -/
def pushByte (s : Sha256) (b : UInt8) : Except Fault Sha256 := do
  let buffer ← writeAt s.buffer s.bufferSize b
  return { s with buffer, bufferSize := s.bufferSize + 1 }

/-- The loop that fills the buffer; it returns the bytes that are left. -/
def fillBuffer (s : Sha256) : List UInt8 → Except Fault (Sha256 × List UInt8)
  | [] => .ok (s, [])
  | b :: data =>
      if s.bufferSize < 64 then do
        let s ← s.pushByte b
        s.fillBuffer data
      else .ok (s, b :: data)

/-- The loop over the full blocks. -/
def processBlocks (s : Sha256) (data : List UInt8) : Sha256 × List UInt8 :=
  if h : 64 ≤ data.length then
    { s with
      hash := processBlock s.hash (BlockHash.firstBlock data h)
      numBytes := s.numBytes + 64 }.processBlocks (data.drop 64)
  else (s, data)
termination_by data.length
decreasing_by
  rw [List.length_drop]
  omega

/-- The loop that keeps the remaining bytes. -/
def keepBytes (s : Sha256) : List UInt8 → Except Fault Sha256
  | [] => .ok s
  | b :: data => do
      let s ← s.pushByte b
      s.keepBytes data

/-- `if (m_bufferSize == BlockSize)` (`sha256.cpp:286-291`). -/
def flush (s : Sha256) : Sha256 :=
  if s.bufferSize = 64 then { s with
    hash := processBlock s.hash s.buffer
    numBytes := s.numBytes + 64
    bufferSize := 0 }
  else s

/-- `add` (`sha256.cpp:271-312`). -/
def add (s : Sha256) (data : List UInt8) : Except Fault Sha256 := do
  let (s, data) ← if 0 < s.bufferSize then s.fillBuffer data else pure (s, data)
  let s := s.flush
  if data = [] then return s
  let (s, data) := s.processBlocks data
  s.keepBytes data

/-! ## `getHash` -/

def paddedLength (bufferSize : Nat) : Nat :=
  let paddedLength := bufferSize * 8 + 1
  let lower11Bits := paddedLength &&& 511
  let paddedLength :=
    if lower11Bits ≤ 448 then paddedLength + (448 - lower11Bits)
    else paddedLength + (512 + 448 - lower11Bits)
  paddedLength / 8

/-- The loops that write zeros, from an index on. -/
def writeZeros (block : Block) (i : Nat) : Nat → Except Fault Block
  | 0 => .ok block
  | n + 1 => do
      let block ← writeAt block i 0
      writeZeros block (i + 1) n

/-- The assignments through `addLength`. -/
def writeBytes (block : Block) (i : Nat) : List UInt8 → Except Fault Block
  | [] => .ok block
  | b :: bytes => do
      let block ← writeAt block i b
      writeBytes block (i + 1) bytes

/-- `(unsigned char)((x >> shift) & 0xFF)`. -/
def byteOf {n : Nat} (x : BitVec n) (shift : Nat) : UInt8 :=
  ⟨(x >>> shift &&& 0xFF).setWidth 8⟩

def lengthBytes (msgBits : BitVec 64) : List UInt8 :=
  [56, 48, 40, 32, 24, 16, 8, 0].map (byteOf msgBits)

/-- `processBuffer` (`sha256.cpp:315-378`). -/
def processBuffer (s : Sha256) (extra : Block) : Except Fault Sha256 := do
  let paddedLength := paddedLength s.bufferSize
  let (buffer, extra) ←
    if s.bufferSize < 64 then do
      let buffer ← writeAt s.buffer s.bufferSize 128
      pure (buffer, extra)
    else do
      let extra ← writeAt extra 0 128
      pure (s.buffer, extra)
  let buffer ← writeZeros buffer (s.bufferSize + 1) (64 - (s.bufferSize + 1))
  let i := max (s.bufferSize + 1) 64
  let extra ← writeZeros extra (i - 64) (paddedLength - i)
  let msgBits := 8 * (s.numBytes + BitVec.ofNat 64 s.bufferSize)
  let (buffer, extra) ←
    if paddedLength < 64 then do
      let buffer ← writeBytes buffer paddedLength (lengthBytes msgBits)
      pure (buffer, extra)
    else do
      let extra ← writeBytes extra (paddedLength - 64) (lengthBytes msgBits)
      pure (buffer, extra)
  let hash := processBlock s.hash buffer
  -- flowed over into a second block?
  let hash := if 64 < paddedLength then processBlock hash extra else hash
  return { s with buffer, hash }

/-- `getHash` to 32 bytes (`sha256.cpp:402-424`).  The old value of `m_hash` is put back,
    the buffer keeps the padding. -/
def getHashBytes (s : Sha256) (extra : Block) : Except Fault (List UInt8 × Sha256) := do
  let processed ← s.processBuffer extra
  let bytes := processed.hash.toList.flatMap fun x => [24, 16, 8, 0].map (byteOf x)
  return (bytes, { processed with hash := s.hash })

def dec2hex (i : Nat) : Char :=
  ['0', '1', '2', '3', '4', '5', '6', '7', '8', '9', 'a', 'b', 'c', 'd', 'e', 'f'].getD i '0'

/-- `getHash` to a string (`sha256.cpp:381-399`). -/
def getHash (s : Sha256) (extra : Block) : Except Fault (String × Sha256) := do
  let (rawHash, s) ← s.getHashBytes extra
  let result := rawHash.flatMap fun (b : UInt8) =>
    [dec2hex ((b >>> 4 &&& 15).toNat), dec2hex ((b &&& 15).toNat)]
  return (String.ofList result, s)

/-- `operator()` (`sha256.cpp:427-442`). -/
def call (s : Sha256) (data : List UInt8) (extra : Block) : Except Fault (String × Sha256) := do
  let s ← s.reset.add data
  s.getHash extra

end Sha256

end Metasolver
