import Mathlib.Data.List.Basic

/-!
# Values written as frames

A value is written as one or more frames, and the reader finds out from the frames
themselves how many of them belong to the value.  It is enough that reading back one
value leaves exactly what follows it (`Format.read_write`): then a queue into which
values are put and from which they are read stays aligned, however putting and reading
interleave.
-/

namespace Framing

variable {φ α : Type}

structure Format (φ α : Type) where
  write : α → List φ
  read : List φ → Option (α × List φ)
  /-- The values that may be written. -/
  Fits : α → Prop
  read_write : ∀ a rest, Fits a → read (write a ++ rest) = some (a, rest)
  read_nil : read [] = none

/-- A queue of frames, with the values put into it and the values read from it so far. -/
structure Channel (φ α : Type) where
  queue : List φ
  put : List α
  got : List α

namespace Channel

def empty : Channel φ α := ⟨[], [], []⟩

/-- All frames of `a` arrive. -/
def push (c : Channel φ α) (frames : List φ) (a : α) : Channel φ α where
  queue := c.queue ++ frames
  put := c.put ++ [a]
  got := c.got

/-- One value is read, if that is possible. -/
def pull (c : Channel φ α) (read : List φ → Option (α × List φ)) : Option (Channel φ α) :=
  (read c.queue).map fun (a, rest) => { c with queue := rest, got := c.got ++ [a] }

/-- What has been read is what was put first, and the queue holds exactly the rest. -/
def Waiting (format : Format φ α) (c : Channel φ α) (waiting : List α) : Prop :=
  c.put = c.got ++ waiting ∧ c.queue = waiting.flatMap format.write ∧
    ∀ a ∈ waiting, format.Fits a

def Aligned (format : Format φ α) (c : Channel φ α) : Prop := ∃ waiting, Waiting format c waiting

variable {format : Format φ α} {c d : Channel φ α} {a : α} {waiting : List α}

theorem aligned_empty : Aligned format (empty : Channel φ α) :=
  ⟨[], rfl, rfl, fun _ member => absurd member List.not_mem_nil⟩

theorem Aligned.push (aligned : Aligned format c) (fits : format.Fits a) :
    Aligned format (c.push (format.write a) a) := by
  obtain ⟨waiting, put, queue, all⟩ := aligned
  refine ⟨waiting ++ [a], ?_, ?_, fun b member => ?_⟩
  · rw [Channel.push, put, List.append_assoc]
  · rw [Channel.push, queue, List.flatMap_append, List.flatMap_singleton]
  · rcases List.mem_append.mp member with old | new
    · exact all b old
    · rw [List.mem_singleton.mp new]
      exact fits

/-- The oldest value is read whole, and nothing of the next one. -/
theorem Waiting.read (h : Waiting format c (a :: waiting)) :
    format.read c.queue = some (a, waiting.flatMap format.write) := by
  obtain ⟨-, queue, fits⟩ := h
  rw [queue, List.flatMap_cons]
  exact format.read_write a _ (fits a List.mem_cons_self)

theorem Aligned.pull (aligned : Aligned format c) (h : c.pull format.read = some d) :
    Aligned format d ∧ d.put = c.put ∧
      ∃ a, d.got = c.got ++ [a] ∧ c.put[c.got.length]? = some a := by
  obtain ⟨waiting, waits⟩ := aligned
  cases waiting with
  | nil =>
      obtain ⟨-, queue, -⟩ := waits
      rw [Channel.pull, queue, List.flatMap_nil, format.read_nil] at h
      cases h
  | cons a waiting =>
      rw [Channel.pull, waits.read] at h
      obtain rfl := Option.some.inj h
      obtain ⟨put, -, fits⟩ := waits
      refine ⟨⟨waiting, ?_, rfl, fun b member => fits b (List.mem_cons_of_mem a member)⟩, rfl, a,
        rfl, ?_⟩
      · rw [put, List.append_assoc]
        rfl
      · rw [put, List.getElem?_append_right (Nat.le_refl _), Nat.sub_self]
        rfl

end Channel

end Framing
