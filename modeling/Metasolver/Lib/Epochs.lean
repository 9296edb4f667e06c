import Mathlib.Data.Finset.Insert
import Metasolver.Lib.Exec

/-!
# Names that are taken once

A name can be taken once until all names are released together, which begins a new epoch.
The state is what has been taken in the present epoch, and what was taken last: the names
behind the last release of a history (`exec_present`).

In every history there is a release between two takes of a name (`release_between`).
-/

namespace Epochs

open Exec

inductive Event (N : Type) where
  | takes (n : N)
  | releases
  deriving DecidableEq, Repr

structure State (N : Type) where
  taken : Finset N
  /-- What was taken last in this epoch. -/
  last : Option N

variable {N : Type} [DecidableEq N]

def step (s : State N) : Event N → Option (State N)
  | .takes n => if n ∈ s.taken then none else some ⟨insert n s.taken, some n⟩
  | .releases => some ⟨∅, none⟩

variable {s t : State N} {es before between after : List (Event N)} {e : Event N} {n : N}

theorem step_takes_iff :
    step s (.takes n) = some t ↔ n ∉ s.taken ∧ t = ⟨insert n s.taken, some n⟩ := by
  simp only [step]
  split_ifs with taken
  · simp [taken]
  · simp [taken, eq_comm]

@[simp] theorem step_releases : step s .releases = some ⟨∅, none⟩ := rfl

/-- A name that is taken stays taken until it is released. -/
theorem mem_taken_of_exec (run : exec step s es = some t) (member : n ∈ s.taken) :
    n ∈ t.taken ∨ .releases ∈ es := by
  induction es generalizing s with
  | nil =>
      obtain rfl : s = t := by simpa using run
      exact Or.inl member
  | cons e es ih =>
      obtain ⟨u, hu, rest⟩ := exec_cons_some.mp run
      cases e with
      | releases => exact Or.inr List.mem_cons_self
      | takes m =>
          obtain ⟨-, rfl⟩ := step_takes_iff.mp hu
          have kept : n ∈ insert m s.taken := Finset.mem_insert_of_mem member
          rcases ih rest kept with still | later
          · exact Or.inl still
          · exact Or.inr (List.mem_cons_of_mem _ later)

/-- Between two takes of a name there is a release. -/
theorem release_between
    (run : exec step s (before ++ .takes n :: (between ++ .takes n :: after)) = some t) :
    .releases ∈ between := by
  rw [exec_append, Option.bind_eq_some_iff] at run
  obtain ⟨u, -, run⟩ := run
  obtain ⟨v, first, run⟩ := exec_cons_some.mp run
  rw [exec_append, Option.bind_eq_some_iff] at run
  obtain ⟨w, middle, run⟩ := run
  obtain ⟨x, second, -⟩ := exec_cons_some.mp run
  obtain ⟨-, rfl⟩ := step_takes_iff.mp first
  have free := (step_takes_iff.mp second).1
  rcases mem_taken_of_exec (n := n) middle (Finset.mem_insert_self n _) with taken | released
  · exact absurd taken free
  · exact released

/-- The names behind the last release, where `ns` have been taken before. -/
def present (ns : List N) (es : List (Event N)) : List N :=
  es.foldl (fun ns e => match e with
    | .takes n => ns ++ [n]
    | .releases => []) ns

/-- The state after names have been taken. -/
def State.having (ns : List N) : State N := ⟨ns.toFinset, ns.getLast?⟩

theorem exec_present {ns : List N} (run : exec step (.having ns) es = some t) :
    t = .having (present ns es) := by
  induction es generalizing ns with
  | nil => exact (Option.some.inj run).symm
  | cons e es ih =>
      obtain ⟨u, hu, rest⟩ := exec_cons_some.mp run
      cases e with
      | releases =>
          obtain rfl : ⟨∅, none⟩ = u := Option.some.inj hu
          exact ih rest
      | takes n =>
          obtain ⟨-, rfl⟩ := step_takes_iff.mp hu
          have grown : (ns ++ [n]).toFinset = insert n ns.toFinset := by
            ext m
            rw [List.mem_toFinset, List.mem_append, List.mem_singleton, Finset.mem_insert,
              List.mem_toFinset, or_comm]
          have next : State.having (ns ++ [n]) = ⟨insert n ns.toFinset, some n⟩ := by
            simp [State.having, grown]
          rw [State.having, ← next] at rest
          exact ih rest

end Epochs
