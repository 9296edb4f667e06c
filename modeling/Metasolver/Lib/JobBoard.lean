import Mathlib.Data.Set.Insert
import Mathlib.Logic.Function.Basic

/-!
# Job boards

What a dispatcher of jobs is for, without saying how it works.  Clients post jobs,
workers come and go, and the dispatcher gives each job to a worker.  A client has at
most one job on the board, a job is with at most one worker and a worker has at most
one job, and only workers that are present work: the fields of `Board` say so, so
every operation keeps it.

`Run` is a history of a board by what can be seen of it.  A worker that departs
leaves its job on the board, to be given to another.  `Greedy` says that no worker is
idle while a job waits; a greedy board with a worker on it never comes to rest before
every job is finished (`Greedy.job_eq_none`).
-/

namespace JobBoard

variable {ι ω δ : Type}

/-- The workers present, the jobs posted and not finished, and who works on what. -/
structure Board (ι ω δ : Type) where
  crew : Set ω
  job : ι → Option δ
  worksOn : ω → Option ι
  present : ∀ {w i}, worksOn w = some i → w ∈ crew
  posted : ∀ {w i}, worksOn w = some i → job i ≠ none
  alone : ∀ {v w i}, worksOn v = some i → worksOn w = some i → v = w

/-- What can be seen of a board. -/
inductive Act (ι ω δ : Type) where
  | arrive (w : ω)
  | depart (w : ω)
  | post (i : ι) (d : δ)
  | assign (w : ω) (d : δ)
  | finish (i : ι)

namespace Board

variable {b : Board ι ω δ} {v w : ω} {i j : ι} {d : δ}

def empty : Board ι ω δ where
  crew := ∅
  job _ := none
  worksOn _ := none
  present h := by cases h
  posted h := by cases h
  alone h := by cases h

def Idle (b : Board ι ω δ) (w : ω) : Prop := w ∈ b.crew ∧ b.worksOn w = none

def Waiting (b : Board ι ω δ) (i : ι) : Prop := b.job i ≠ none ∧ ∀ w, b.worksOn w ≠ some i

def arrive (b : Board ι ω δ) (w : ω) : Board ι ω δ :=
  { b with
    crew := insert w b.crew
    present := fun h => Set.mem_insert_of_mem w (b.present h) }

section Operations

variable [DecidableEq ω]

/-- Whoever works on something after `w` has stopped did so before. -/
theorem worksOn_of_stop (h : Function.update b.worksOn w none v = some i) :
    v ≠ w ∧ b.worksOn v = some i := by
  by_cases same : v = w
  · subst same
    rw [Function.update_self] at h
    cases h
  · rw [Function.update_of_ne same] at h
    exact ⟨same, h⟩

/-- Whoever works on something after `w` has taken `i` is `w`, or did so before. -/
theorem worksOn_of_take (h : Function.update b.worksOn w (some i) v = some j) :
    (v = w ∧ j = i) ∨ b.worksOn v = some j := by
  by_cases same : v = w
  · subst same
    rw [Function.update_self, Option.some.injEq] at h
    exact Or.inl ⟨rfl, h.symm⟩
  · rw [Function.update_of_ne same] at h
    exact Or.inr h

def depart (b : Board ι ω δ) (w : ω) : Board ι ω δ where
  crew := b.crew \ {w}
  job := b.job
  worksOn := Function.update b.worksOn w none
  present h := ⟨b.present (worksOn_of_stop h).2, (worksOn_of_stop h).1⟩
  posted h := b.posted (worksOn_of_stop h).2
  alone h h' := b.alone (worksOn_of_stop h).2 (worksOn_of_stop h').2

def assign (b : Board ι ω δ) (w : ω) (i : ι) (idle : b.Idle w) (waiting : b.Waiting i) :
    Board ι ω δ where
  crew := b.crew
  job := b.job
  worksOn := Function.update b.worksOn w (some i)
  present := by
    intro v j h
    rcases worksOn_of_take h with ⟨rfl, -⟩ | before
    · exact idle.1
    · exact b.present before
  posted := by
    intro v j h
    rcases worksOn_of_take h with ⟨-, rfl⟩ | before
    · exact waiting.1
    · exact b.posted before
  alone := by
    intro v v' j h h'
    rcases worksOn_of_take h with ⟨rfl, rfl⟩ | before
    · rcases worksOn_of_take h' with ⟨rfl, -⟩ | before'
      · rfl
      · exact absurd before' (waiting.2 v')
    · rcases worksOn_of_take h' with ⟨rfl, rfl⟩ | before'
      · exact absurd before (waiting.2 v)
      · exact b.alone before before'

variable [DecidableEq ι]

def post (b : Board ι ω δ) (i : ι) (d : δ) : Board ι ω δ :=
  { b with
    job := Function.update b.job i (some d)
    posted := by
      intro w j h
      by_cases same : j = i
      · subst same
        simp
      · rw [Function.update_of_ne same]
        exact b.posted h }

def finish (b : Board ι ω δ) (w : ω) (i : ι) (working : b.worksOn w = some i) :
    Board ι ω δ where
  crew := b.crew
  job := Function.update b.job i none
  worksOn := Function.update b.worksOn w none
  present h := b.present (worksOn_of_stop h).2
  posted := by
    intro v j h
    obtain ⟨other, h⟩ := worksOn_of_stop h
    have same : j ≠ i := by
      rintro rfl
      exact other (b.alone h working)
    rw [Function.update_of_ne same]
    exact b.posted h
  alone h h' := b.alone (worksOn_of_stop h).2 (worksOn_of_stop h').2

/-- What may happen on a board. -/
inductive Step : Board ι ω δ → Act ι ω δ → Board ι ω δ → Prop
  | arrive (b : Board ι ω δ) (w : ω) (away : w ∉ b.crew) : Step b (.arrive w) (b.arrive w)
  | depart (b : Board ι ω δ) (w : ω) (here : w ∈ b.crew) : Step b (.depart w) (b.depart w)
  | post (b : Board ι ω δ) (i : ι) (d : δ) (closed : b.job i = none) :
      Step b (.post i d) (b.post i d)
  | assign (b : Board ι ω δ) (w : ω) (i : ι) (d : δ) (idle : b.Idle w) (waiting : b.Waiting i)
      (its : b.job i = some d) : Step b (.assign w d) (b.assign w i idle waiting)
  | finish (b : Board ι ω δ) (w : ω) (i : ι) (working : b.worksOn w = some i) :
      Step b (.finish i) (b.finish w i working)

/-- The board reached from `b` by what was seen, oldest first. -/
inductive Run (b : Board ι ω δ) : List (Act ι ω δ) → Board ι ω δ → Prop
  | nil : Run b [] b
  | snoc {l : List (Act ι ω δ)} {a : Act ι ω δ} {c c' : Board ι ω δ} (before : Run b l c)
      (last : Step c a c') : Run b (l ++ [a]) c'

/-- Each beginning of a history is one. -/
theorem Run.of_append {l m : List (Act ι ω δ)} {c : Board ι ω δ} (run : Run b (l ++ m) c) :
    ∃ c', Run b l c' := by
  generalize whole : l ++ m = k at run
  induction run generalizing m with
  | nil =>
      obtain ⟨rfl, -⟩ := List.append_eq_nil_iff.mp whole
      exact ⟨b, .nil⟩
  | snoc before last ih =>
      rcases List.eq_nil_or_concat m with rfl | ⟨m', a, rfl⟩
      · rw [List.append_nil] at whole
        subst whole
        exact ⟨_, .snoc before last⟩
      · rw [List.concat_eq_append, ← List.append_assoc] at whole
        exact ih (List.append_inj_left' whole rfl)

end Operations

/-- No worker is idle while a job waits. -/
def Greedy (b : Board ι ω δ) : Prop := ∀ w i, b.Idle w → ¬b.Waiting i

/-- If there are a worker and a job, somebody is at work. -/
theorem Greedy.some_working (greedy : Greedy b) (here : w ∈ b.crew) (posted : b.job i ≠ none) :
    ∃ v j, b.worksOn v = some j := by
  cases works : b.worksOn w with
  | some j => exact ⟨w, j, works⟩
  | none =>
      by_contra nobody
      apply greedy w i ⟨here, works⟩
      exact ⟨posted, fun v busy => nobody ⟨v, i, busy⟩⟩

/-- When everybody present is idle, every job is finished. -/
theorem Greedy.job_eq_none (greedy : Greedy b) (here : w ∈ b.crew)
    (rest : ∀ v, b.worksOn v = none) (i : ι) : b.job i = none := by
  by_contra posted
  obtain ⟨v, j, working⟩ := greedy.some_working here posted
  rw [rest v] at working
  cases working

end Board

end JobBoard
