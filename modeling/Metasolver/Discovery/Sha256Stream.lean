import Metasolver.Discovery.Sha256Block
import Metasolver.Lib.Dealing
import Metasolver.Lib.Except
import Metasolver.Lib.Hex

/-!
# The hash of a stream

An object of class `SHA256` stands for the message it has been given since it was reset
(`Holds`): all full blocks of the message are in `m_hash`, the rest is in the buffer.
`add` goes on with the message however it is cut into pieces, and `getHash` writes the
padding behind the rest but gives the object back as it was.

So the members are called in any order and any number of times, every hash that is
returned is the SHA-256 digest of the message so far, in lower-case hexadecimal digits,
and no access leaves the two buffers (`run_answers`).
-/

namespace Metasolver

open Sha2 BlockHash Dealing

namespace Sha256

/-- The bytes that wait for more. -/
def pending (s : Sha256) : List UInt8 := s.buffer.toList.take s.bufferSize

/-- What the object has taken in. -/
structure Holds (s : Sha256) (message : List UInt8) : Prop where
  small : s.bufferSize < 64
  fed : feed compress initial message = (s.hash, s.pending)
  counted : s.numBytes + BitVec.ofNat 64 s.bufferSize = BitVec.ofNat 64 message.length

/-- `t` has `l` more in its buffer than `s`. -/
structure Buffered (s t : Sha256) (l : List UInt8) : Prop where
  pending : t.pending = s.pending ++ l
  size : t.bufferSize = s.bufferSize + l.length
  hash : t.hash = s.hash
  numBytes : t.numBytes = s.numBytes

variable {s t : Sha256} {message data : List UInt8} {i : Nat}

@[simp] theorem length_toList (block : Block) : block.toList.length = 64 := by simp

theorem length_pending (h : s.bufferSize ≤ 64) : s.pending.length = s.bufferSize := by
  rw [pending, List.length_take, length_toList, Nat.min_eq_left h]

/-! ## Writes -/

theorem writeAt_ok (block : Block) (b : UInt8) (h : i < 64) :
    ∃ block', writeAt block i b = .ok block' ∧ block'.toList = block.toList.set i b := by
  rw [writeAt, dif_pos h]
  exact ⟨_, rfl, Vector.toList_set h⟩

theorem writeBytes_ok (block : Block) (l : List UInt8) (h : i + l.length ≤ 64) :
    ∃ block', writeBytes block i l = .ok block' ∧
      block'.toList = overwrite block.toList i l := by
  induction l generalizing block i with
  | nil => exact ⟨block, rfl, overwrite_nil.symm⟩
  | cons b l ih =>
      rw [List.length_cons] at h
      obtain ⟨first, wrote, is⟩ := writeAt_ok block b (by omega : i < 64)
      obtain ⟨rest, wrote', is'⟩ := ih first (by omega : i + 1 + l.length ≤ 64)
      refine ⟨rest, ?_, ?_⟩
      · rw [writeBytes, wrote]
        exact wrote'
      · rw [is', is, overwrite_set (by rw [length_toList]; omega)]

theorem writeZeros_eq (block : Block) (i n : Nat) :
    writeZeros block i n = writeBytes block i (List.replicate n 0) := by
  induction n generalizing block i with
  | zero => rfl
  | succ n ih => simp only [writeZeros, List.replicate_succ, writeBytes, ih]

/-! ## `add` -/

namespace Buffered

theorem refl (s : Sha256) : Buffered s s [] := ⟨(List.append_nil _).symm, rfl, rfl, rfl⟩

theorem trans {u : Sha256} {l l' : List UInt8} (h : Buffered s t l) (h' : Buffered t u l') :
    Buffered s u (l ++ l') where
  pending := by rw [h'.pending, h.pending, List.append_assoc]
  size := by rw [h'.size, h.size, List.length_append, Nat.add_assoc]
  hash := h'.hash.trans h.hash
  numBytes := h'.numBytes.trans h.numBytes

end Buffered

theorem pushByte_ok (b : UInt8) (h : s.bufferSize < 64) :
    ∃ t, s.pushByte b = .ok t ∧ Buffered s t [b] := by
  obtain ⟨buffer, wrote, is⟩ := writeAt_ok s.buffer b h
  refine ⟨{ s with buffer, bufferSize := s.bufferSize + 1 }, ?_, ?_, rfl, rfl, rfl⟩
  · rw [pushByte, wrote]
    rfl
  · have inside : s.bufferSize ≤ s.buffer.toList.length := by
      rw [length_toList]
      omega
    have inside' : s.bufferSize < s.buffer.toList.length := by
      rwa [length_toList]
    have one : buffer.toList = overwrite s.buffer.toList s.bufferSize [b] := by
      rw [is, ← overwrite_set inside', overwrite_nil]
    change buffer.toList.take (s.bufferSize + 1) = s.pending ++ [b]
    rw [one]
    exact take_overwrite (l := [b]) inside

theorem keepBytes_ok (data : List UInt8) (h : s.bufferSize + data.length ≤ 64) :
    ∃ t, s.keepBytes data = .ok t ∧ Buffered s t data := by
  induction data generalizing s with
  | nil => exact ⟨s, rfl, .refl s⟩
  | cons b data ih =>
      rw [List.length_cons] at h
      obtain ⟨t, pushed, first⟩ := pushByte_ok b (by omega : s.bufferSize < 64)
      have size : t.bufferSize = s.bufferSize + 1 := first.size
      obtain ⟨u, kept, rest⟩ := ih (s := t) (by omega)
      refine ⟨u, ?_, first.trans rest⟩
      rw [keepBytes, pushed]
      exact kept

/-- The buffer is filled as far as the data go. -/
theorem fillBuffer_ok (data : List UInt8) (h : s.bufferSize ≤ 64) :
    ∃ t n, s.fillBuffer data = .ok (t, data.drop n) ∧ Buffered s t (data.take n) ∧
      t.bufferSize ≤ 64 ∧ (t.bufferSize < 64 → data.drop n = []) := by
  induction data generalizing s with
  | nil => exact ⟨s, 0, rfl, .refl s, h, fun _ => rfl⟩
  | cons b data ih =>
      rw [fillBuffer]
      split_ifs with room
      · obtain ⟨t, pushed, first⟩ := pushByte_ok b room
        have size : t.bufferSize = s.bufferSize + 1 := first.size
        obtain ⟨u, n, filled, rest, small, all⟩ := ih (s := t) (by omega)
        refine ⟨u, n + 1, ?_, first.trans rest, small, all⟩
        rw [pushed]
        exact filled
      · exact ⟨s, 0, rfl, .refl s, h, fun small => absurd small room⟩

/-- `t` has taken in `data` after what `s` has taken in. -/
structure Took (s t : Sha256) (data : List UInt8) : Prop where
  small : t.bufferSize < 64
  fed : feed compress s.hash (s.pending ++ data) = (t.hash, t.pending)
  counted : t.numBytes + BitVec.ofNat 64 t.bufferSize =
    s.numBytes + BitVec.ofNat 64 (s.bufferSize + data.length)

theorem Holds.took (holds : Holds s message) (took : Took s t data) :
    Holds t (message ++ data) where
  small := took.small
  fed := by rw [feed_append, holds.fed, took.fed]
  counted := by
    rw [took.counted, BitVec.ofNat_add, ← BitVec.add_assoc, holds.counted, List.length_append,
      BitVec.ofNat_add]

/-- The full blocks of the data go into the hash. -/
theorem processBlocks_eq (s : Sha256) (data : List UInt8) :
    ∃ t, s.processBlocks data = (t, (feed compress s.hash data).2) ∧
      t.hash = (feed compress s.hash data).1 ∧ t.bufferSize = s.bufferSize ∧
      t.numBytes + BitVec.ofNat 64 (feed compress s.hash data).2.length =
        s.numBytes + BitVec.ofNat 64 data.length := by
  fun_induction processBlocks s data with
  | case1 s data h ih =>
      obtain ⟨t, processed, hash, size, counted⟩ := ih
      rw [feed_of_le h, ← processBlock_eq]
      refine ⟨t, processed, hash, size, counted.trans ?_⟩
      have length : data.length = 64 + (data.drop 64).length := by
        rw [List.length_drop]
        omega
      rw [length, BitVec.ofNat_add, ← BitVec.add_assoc]
      rfl
  | case2 s data h =>
      rw [feed_of_lt (Nat.not_le.mp h)]
      exact ⟨s, rfl, rfl, rfl, rfl⟩

/-- The second half of `add`, which starts with an empty buffer. -/
theorem add_blocks (data : List UInt8) (empty : s.bufferSize = 0) :
    ∃ t, (s.processBlocks data).1.keepBytes (s.processBlocks data).2 = .ok t ∧ Took s t data := by
  obtain ⟨t, processed, hash, size, counted⟩ := processBlocks_eq s data
  have rest : (feed compress s.hash data).2.length < 64 := length_feed_lt _ _
  obtain ⟨u, kept, buffered⟩ := keepBytes_ok (s := t) (feed compress s.hash data).2
    (by omega)
  have nothing : s.pending = [] := by rw [pending, empty, List.take_zero]
  have nothing' : t.pending = [] := by rw [pending, size, empty, List.take_zero]
  rw [processed]
  refine ⟨u, kept, ?_, ?_, ?_⟩
  · rw [buffered.size]
    omega
  · rw [nothing, List.nil_append, buffered.pending, nothing', List.nil_append, buffered.hash, hash]
  · rw [buffered.numBytes, buffered.size, size, empty, Nat.zero_add, Nat.zero_add, counted]

theorem add_of_filled {rest : List UInt8}
    (filled : (if 0 < s.bufferSize then s.fillBuffer data else pure (s, data)) = .ok (t, rest)) :
    s.add data = if rest = [] then .ok t.flush
      else (t.flush.processBlocks rest).1.keepBytes (t.flush.processBlocks rest).2 := by
  rw [add]
  by_cases waiting : 0 < s.bufferSize
  · rw [if_pos waiting] at filled ⊢
    rw [filled]
    rfl
  · rw [if_neg waiting] at filled ⊢
    cases filled
    rfl

/-- With an empty buffer the loops may run on no data as well. -/
theorem add_of_empty {rest : List UInt8} (empty : t.flush.bufferSize = 0)
    (filled : (if 0 < s.bufferSize then s.fillBuffer data else pure (s, data)) = .ok (t, rest)) :
    ∃ u, s.add data = .ok u ∧ Took t.flush u rest := by
  obtain ⟨u, added, took⟩ := add_blocks rest empty
  refine ⟨u, ?_, took⟩
  rw [add_of_filled filled]
  split_ifs with nothing
  · rw [← added, nothing, processBlocks]
    rfl
  · exact added

/-- `add` takes in the data and writes into the buffer only. -/
theorem add_ok (data : List UInt8) (h : s.bufferSize < 64) :
    ∃ t, s.add data = .ok t ∧ Took s t data := by
  by_cases empty : s.bufferSize = 0
  · have unflushed : s.flush = s := by rw [flush, if_neg (by omega)]
    have filled : (if 0 < s.bufferSize then s.fillBuffer data else pure (s, data)) =
        .ok (s, data) := if_neg (by omega)
    rw [← unflushed] at empty
    have added := add_of_empty empty filled
    rwa [unflushed] at added
  · obtain ⟨t, n, filled, buffered, small, all⟩ := fillBuffer_ok data (Nat.le_of_lt h)
    have filled' : (if 0 < s.bufferSize then s.fillBuffer data else pure (s, data)) =
        .ok (t, data.drop n) := by rw [if_pos (by omega), filled]
    have cut : data.take n ++ data.drop n = data := List.take_append_drop n data
    by_cases full : t.bufferSize = 64
    · have flushed : t.flush = { t with
          hash := compress s.hash t.buffer, numBytes := s.numBytes + 64, bufferSize := 0 } := by
        rw [flush, if_pos full, processBlock_eq, buffered.hash, buffered.numBytes]
      have whole : s.pending ++ data.take n = t.buffer.toList := by
        rw [← buffered.pending, pending, full, List.take_of_length_le (by rw [length_toList])]
      have used : s.bufferSize + (data.take n).length = 64 := by rw [← buffered.size, full]
      obtain ⟨u, added, took⟩ := add_of_empty (by rw [flushed]) filled'
      refine ⟨u, added, took.small, ?_, ?_⟩
      · have cut' : s.pending ++ data = t.buffer.toList ++ data.drop n := by
          rw [← whole, List.append_assoc, cut]
        rw [← took.fed, cut', feed_block, flushed]
        rfl
      · have length : s.bufferSize + data.length = 64 + (data.drop n).length := by
          rw [← used, ← cut, List.length_append, cut]
          omega
        rw [took.counted, flushed, length]
        change s.numBytes + 64 + BitVec.ofNat 64 (0 + (data.drop n).length) = _
        rw [Nat.zero_add, BitVec.ofNat_add, BitVec.add_assoc]
        rfl
    · have rest : data.drop n = [] := all (by omega)
      rw [rest, List.append_nil] at cut
      have unflushed : t.flush = t := by rw [flush, if_neg full]
      refine ⟨t, ?_, by omega, ?_, ?_⟩
      · rw [add_of_filled filled', if_pos rest, unflushed]
      · rw [cut] at buffered
        have short : (s.pending ++ data).length < 64 := by
          rw [List.length_append, length_pending (Nat.le_of_lt h), ← buffered.size]
          omega
        rw [feed_of_lt short, buffered.pending, buffered.hash]
      · rw [cut] at buffered
        rw [buffered.numBytes, buffered.size]

/-! ## `getHash` -/

theorem paddedLength_eq {n : Nat} (h : n < 64) :
    paddedLength n = if n ≤ 55 then 56 else 120 := by
  have each : ∀ n : Fin 64, paddedLength n = if n.val ≤ 55 then 56 else 120 := by decide
  exact each ⟨n, h⟩

theorem byteOf_eq {n : Nat} (x : BitVec n) (shift : Nat) (wide : 8 ≤ n) :
    byteOf x shift = ⟨x.extractLsb' shift 8⟩ := by
  rw [byteOf]
  congr 1
  apply BitVec.eq_of_getLsbD_eq
  intro i h
  have mask : (0xFF : BitVec n).getLsbD i = true := by
    have bit : ∀ i : Fin 8, (255).testBit i = true := by decide
    have inside : i < n := by omega
    change (BitVec.ofNat n 255).getLsbD i = true
    rw [BitVec.getLsbD_ofNat, bit ⟨i, h⟩, decide_eq_true inside]
    rfl
  rw [BitVec.getLsbD_setWidth, BitVec.getLsbD_and, BitVec.getLsbD_ushiftRight, mask,
    BitVec.getLsbD_extractLsb', Bool.and_true]

theorem lengthBytes_eq (msgBits : BitVec 64) : lengthBytes msgBits = bytes 8 msgBits := by
  have each : byteOf msgBits = fun shift => ⟨msgBits.extractLsb' shift 8⟩ :=
    funext fun shift => byteOf_eq msgBits shift (by decide)
  rw [lengthBytes, each]
  rfl

/-- The rest of the message and its padding, after the full blocks of the message. -/
def lastBytes (s : Sha256) : List UInt8 :=
  s.pending ++ 128 :: (List.replicate ((119 - s.bufferSize) % 64) 0 ++
    lengthBytes (8 * (s.numBytes + BitVec.ofNat 64 s.bufferSize)))

/-- The byte 128 and the zeros behind it, to the end of the buffer. -/
theorem mark_ok (h : s.bufferSize < 64) :
    ∃ marked block, writeAt s.buffer s.bufferSize 128 = .ok marked ∧
      writeZeros marked (s.bufferSize + 1) (64 - (s.bufferSize + 1)) = .ok block ∧
      block.toList = s.pending ++ 128 :: List.replicate (63 - s.bufferSize) 0 := by
  obtain ⟨marked, marks, is⟩ := writeAt_ok s.buffer 128 h
  have zeros : (List.replicate (64 - (s.bufferSize + 1)) (0 : UInt8)).length =
      63 - s.bufferSize := by
    rw [List.length_replicate]
    omega
  obtain ⟨block, wrote, is'⟩ := writeBytes_ok (i := s.bufferSize + 1) marked
    (List.replicate (64 - (s.bufferSize + 1)) 0) (by omega)
  refine ⟨marked, block, marks, by rw [writeZeros_eq, wrote], ?_⟩
  have full : s.bufferSize +
      (128 :: List.replicate (64 - (s.bufferSize + 1)) (0 : UInt8)).length =
        s.buffer.toList.length := by
    rw [List.length_cons, zeros, length_toList]
    omega
  rw [is', is, overwrite_set (by rw [length_toList]; exact h), overwrite_of_length full]
  congr 3
  omega

/-- The length of the message is written to the end of a block. -/
theorem writeLength_ok (block : Block) (msgBits : BitVec 64) {l rest : List UInt8}
    (length : l.length = 56) (is : block.toList = l ++ rest) :
    ∃ last, writeBytes block 56 (lengthBytes msgBits) = .ok last ∧
      last.toList = l ++ lengthBytes msgBits := by
  obtain ⟨last, wrote, is'⟩ := writeBytes_ok (i := 56) block (lengthBytes msgBits) (by rfl)
  refine ⟨last, wrote, ?_⟩
  rw [is', overwrite_of_length (by rw [length_toList]; rfl), is, List.take_left' length]

/-- The padding fits into the buffer. -/
theorem processBuffer_one (short : s.bufferSize ≤ 55) (extra : Block) :
    ∃ last, s.processBuffer extra =
        .ok { s with buffer := last, hash := processBlock s.hash last } ∧
      last.toList = s.lastBytes := by
  have h : s.bufferSize < 64 := by omega
  obtain ⟨marked, block, marks, fills, is⟩ := mark_ok h
  have zeros : 63 - s.bufferSize = 55 - s.bufferSize + 8 := by omega
  have zeros' : (119 - s.bufferSize) % 64 = 55 - s.bufferSize := by omega
  rw [zeros, ← List.replicate_append_replicate, ← List.cons_append, ← List.append_assoc] at is
  have length : (s.pending ++ 128 :: List.replicate (55 - s.bufferSize) 0).length = 56 := by
    rw [List.length_append, List.length_cons, List.length_replicate,
      length_pending (Nat.le_of_lt h)]
    omega
  obtain ⟨last, wrote, is'⟩ := writeLength_ok block
    (8 * (s.numBytes + BitVec.ofNat 64 s.bufferSize)) length is
  have padded : paddedLength s.bufferSize = 56 := by rw [paddedLength_eq h, if_pos short]
  refine ⟨last, ?_, ?_⟩
  · have behind : max (s.bufferSize + 1) 64 = 64 := by omega
    have untouched : writeZeros extra (64 - 64) (56 - 64) = .ok extra := rfl
    simp only [processBuffer, padded, if_pos h, marks, behind, untouched, bind, Except.bind, pure,
      Except.pure, fills, if_pos (by decide : 56 < 64), wrote, if_neg (by decide : ¬64 < 56)]
  · rw [is', lastBytes, zeros', List.append_assoc]
    rfl

/-- The padding flows over into a second block. -/
theorem processBuffer_two (h : s.bufferSize < 64) (long : 55 < s.bufferSize) (extra : Block) :
    ∃ block last, s.processBuffer extra = .ok { s with
        buffer := block, hash := processBlock (processBlock s.hash block) last } ∧
      block.toList.take s.bufferSize = s.pending ∧
      block.toList ++ last.toList = s.lastBytes := by
  obtain ⟨marked, block, marks, fills, is⟩ := mark_ok h
  obtain ⟨blank, clears, blanks⟩ := writeBytes_ok (i := 0) extra (List.replicate 56 0) (by decide)
  rw [← writeZeros_eq] at clears
  rw [overwrite_zero] at blanks
  obtain ⟨last, wrote, is'⟩ := writeLength_ok blank
    (8 * (s.numBytes + BitVec.ofNat 64 s.bufferSize)) (List.length_replicate) blanks
  have padded : paddedLength s.bufferSize = 120 := by
    rw [paddedLength_eq h, if_neg (Nat.not_le.mpr long)]
  have zeros : (119 - s.bufferSize) % 64 = 63 - s.bufferSize + 56 := by omega
  refine ⟨block, last, ?_, ?_, ?_⟩
  · have behind : max (s.bufferSize + 1) 64 = 64 := by omega
    simp only [processBuffer, padded, if_pos h, marks, behind, bind, Except.bind, pure,
      Except.pure, fills, if_neg (by decide : ¬120 < 64), if_pos (by decide : 64 < 120)]
    rw [clears]
    simp only [wrote]
  · rw [is, List.take_left' (length_pending (Nat.le_of_lt h))]
  · rw [is, is', lastBytes, zeros, ← List.replicate_append_replicate]
    simp only [List.append_assoc, List.cons_append]

/-- `processBuffer` takes in the last bytes.  What has been pending is so still. -/
theorem processBuffer_ok (h : s.bufferSize < 64) (extra : Block) :
    ∃ t, s.processBuffer extra = .ok t ∧ t.bufferSize = s.bufferSize ∧
      t.numBytes = s.numBytes ∧ t.pending = s.pending ∧
      t.hash = (feed compress s.hash s.lastBytes).1 := by
  by_cases short : s.bufferSize ≤ 55
  · obtain ⟨last, processed, is⟩ := processBuffer_one short extra
    refine ⟨_, processed, rfl, rfl, ?_, ?_⟩
    · change last.toList.take s.bufferSize = s.pending
      rw [is, lastBytes, List.take_left' (length_pending (Nat.le_of_lt h))]
    · rw [← is, feed_toList, processBlock_eq]
  · obtain ⟨block, last, processed, kept, is⟩ := processBuffer_two h (Nat.not_le.mp short) extra
    refine ⟨_, processed, rfl, rfl, kept, ?_⟩
    rw [← is, feed_block, feed_toList, processBlock_eq, processBlock_eq]

/-- The last bytes end the padded message. -/
theorem Holds.hash_eq (holds : Holds s message) :
    (feed compress s.hash s.lastBytes).1 = Sha2.hash message := by
  have fed : (feed compress initial message).2.length = message.length % 64 :=
    length_feed initial message
  have rest : s.bufferSize = message.length % 64 := by
    rw [← fed, holds.fed, length_pending (Nat.le_of_lt holds.small)]
  have last : s.lastBytes = s.pending ++ padding message.length := by
    rw [lastBytes, holds.counted, lengthBytes_eq, padding, ← rest, BitVec.ofNat_mul]
    rfl
  rw [Sha2.hash, feed_append, holds.fed, last]

theorem wordBytes_eq (x : Word) : [24, 16, 8, 0].map (byteOf x) = bytes 4 x := by
  have each : byteOf x = fun shift => ⟨x.extractLsb' shift 8⟩ :=
    funext fun shift => byteOf_eq x shift (by decide)
  rw [each]
  rfl

theorem hexText_eq (rawHash : List UInt8) :
    (rawHash.flatMap fun (b : UInt8) =>
      [dec2hex ((b >>> 4 &&& 15).toNat), dec2hex ((b &&& 15).toNat)]) = Hex.chars rawHash := by
  refine List.flatMap_congr fun b _ => ?_
  have low : (b &&& 15).toNat = b.toNat % 16 := by
    rw [UInt8.toNat_and]
    exact Nat.and_two_pow_sub_one_eq_mod b.toNat 4
  have high : (b >>> 4 &&& 15).toNat = b.toNat / 16 := by
    have half : b.toNat / 16 < 16 := by
      have := b.toNat_lt
      omega
    rw [UInt8.toNat_and, UInt8.toNat_shiftRight, Nat.shiftRight_eq_div_pow]
    exact (Nat.and_two_pow_sub_one_eq_mod (b.toNat / 16) 4).trans (Nat.mod_eq_of_lt half)
  rw [low, high]
  rfl

/-- The text of a digest. -/
def hexDigest (message : List UInt8) : String := String.ofList (Hex.chars (digest message))

/-- `getHash` tells the digest of the message and goes on with the same message. -/
theorem getHash_ok (holds : Holds s message) (extra : Block) :
    ∃ t, s.getHash extra = .ok (hexDigest message, t) ∧ Holds t message := by
  obtain ⟨processed, ok, size, numBytes, pending, hash⟩ := processBuffer_ok holds.small extra
  rw [holds.hash_eq] at hash
  refine ⟨{ processed with hash := s.hash }, ?_, ?_, ?_, ?_⟩
  · have bytes : (processed.hash.toList.flatMap fun x => [24, 16, 8, 0].map (byteOf x)) =
        digest message := by
      rw [hash, digest]
      exact List.flatMap_congr fun x _ => wordBytes_eq x
    rw [getHash, getHashBytes, ok]
    change Except.ok (String.ofList ((processed.hash.toList.flatMap fun x =>
      [24, 16, 8, 0].map (byteOf x)).flatMap _), _) = _
    rw [hexText_eq, bytes, hexDigest]
  · rw [size]
    exact holds.small
  · rw [holds.fed]
    exact congrArg (Prod.mk s.hash) pending.symm
  · rw [numBytes, size, holds.counted]

theorem reset_holds (s : Sha256) : Holds s.reset [] where
  small := Nat.zero_lt_succ 63
  fed := by
    rw [feed_nil, pending]
    exact congrArg (·, []) seed_eq.symm
  counted := by rfl

/-! ## Runs -/

/-- A call of a member function. -/
inductive Call where
  | reset
  | add (data : List UInt8)
  | getHash (extra : Block)
  /-- `operator()`, with a memory block or a string. -/
  | call (data : List UInt8) (extra : Block)
  deriving Repr

/-- What the call returns, and the object after it. -/
def perform (s : Sha256) : Call → Except Fault (Option String × Sha256)
  | .reset => .ok (none, s.reset)
  | .add data => do return (none, ← s.add data)
  | .getHash extra => do
      let (hash, s) ← s.getHash extra
      return (some hash, s)
  | .call data extra => do
      let (hash, s) ← s.call data extra
      return (some hash, s)

/-- What the calls return. -/
def run (s : Sha256) : List Call → Except Fault (List (Option String))
  | [] => .ok []
  | c :: calls => do
      let (hash, s) ← s.perform c
      let hashes ← s.run calls
      return hash :: hashes

namespace Call

/-- The message after a call, when it was `message` before. -/
def known (message : List UInt8) : Call → List UInt8
  | .reset => []
  | .add data => message ++ data
  | .getHash _ => message
  | .call data _ => data

/-- The digest that a call asks for. -/
def answer (message : List UInt8) : Call → Option String
  | .getHash _ => some (hexDigest message)
  | .call data _ => some (hexDigest data)
  | _ => none

/-- The digests that calls ask for. -/
def answers (message : List UInt8) : List Call → List (Option String)
  | [] => []
  | c :: calls => c.answer message :: answers (c.known message) calls

end Call

theorem perform_ok (holds : Holds s message) (c : Call) :
    ∃ t, s.perform c = .ok (c.answer message, t) ∧ Holds t (c.known message) := by
  cases c with
  | reset => exact ⟨_, rfl, reset_holds s⟩
  | add data =>
      obtain ⟨t, ok, took⟩ := add_ok data holds.small
      refine ⟨t, ?_, holds.took took⟩
      rw [perform, ok]
      rfl
  | getHash extra =>
      obtain ⟨t, ok, holds'⟩ := getHash_ok holds extra
      refine ⟨t, ?_, holds'⟩
      rw [perform, ok]
      rfl
  | call data extra =>
      obtain ⟨t, ok, took⟩ := add_ok data (reset_holds s).small
      have holds' : Holds t data := (reset_holds s).took took
      obtain ⟨u, ok', holds''⟩ := getHash_ok holds' extra
      refine ⟨u, ?_, holds''⟩
      rw [perform, call, ok]
      change (t.getHash extra >>= _) = _
      rw [ok']
      rfl

theorem run_ok (holds : Holds s message) (calls : List Call) :
    s.run calls = .ok (Call.answers message calls) := by
  induction calls generalizing s message with
  | nil => rfl
  | cons c calls ih =>
      obtain ⟨t, ok, holds'⟩ := perform_ok holds c
      rw [run, ok]
      change (t.run calls >>= _) = _
      rw [ih holds']
      rfl

end Sha256

/-- However the members of an object are called after its construction, every hash that is
    returned is the SHA-256 digest of the message given to it since the last reset, and
    no access leaves the buffers, whatever these hold at first. -/
theorem Sha256.run_answers (blank : Sha256) (calls : List Sha256.Call) :
    blank.reset.run calls = .ok (Sha256.Call.answers [] calls) :=
  Sha256.run_ok (Sha256.reset_holds blank) calls

end Metasolver
