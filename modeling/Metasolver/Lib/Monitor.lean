import Mathlib.Algebra.Order.BigOperators.Group.Finset
import Mathlib.Logic.Function.Basic
import Metasolver.Lib.Potential

/-!
# Monitors with a condition variable

Data under a mutex, any number of threads, and one condition variable.  A call either changes
the data and, if it `notifies`, wakes all sleepers once it has let go of the mutex, or it
waits until a goal is met.  A thread that waits tests its goal under the mutex; to fall asleep
and to let go of the mutex is one step.  It may wake up without a cause, and it has to get the
mutex before it tests its goal again.

Three things are proved of every run.  A goal that was met when the thread tested it is still
met when the thread lets go of the mutex, and no sleeper is forgotten: if its goal is met,
someone is about to notify (`Sound`).  When no thread can go on by itself, those in a call
are asleep and their goals are not met (`AtRest.phase_eq`).  And the threads always come to
rest: how many steps they make is bounded by the number of calls and of false alarms
(`steps_le`).

What is asked of the calls is that one which does not notify meets no goal
(`Interface.silent`).
-/

namespace Monitor

variable {T D Op Goal : Type}

/-- What the calls do to the data, which of them notify, and when a goal is met. -/
structure Interface (D Op Goal : Type) where
  run : D → Op → D
  notifies : Op → Bool
  met : Goal → D → Bool
  silent : ∀ d op goal, notifies op = false → met goal (run d op) = true → met goal d = true

inductive Call (Op Goal : Type) where
  | change (op : Op)
  | await (goal : Goal)
  deriving DecidableEq, Repr

/-- Where a thread is. -/
inductive Phase (Op Goal : Type) where
  | outside
  /-- Before it has the mutex. -/
  | entering (call : Call Op Goal)
  /-- With the mutex, before the change or the test. -/
  | inside (call : Call Op Goal)
  /-- With the mutex, after the change or the test. -/
  | leaving (call : Call Op Goal)
  | asleep (goal : Goal)
  /-- Without the mutex, before it notifies. -/
  | notifying
  deriving DecidableEq, Repr

structure State (T D Op Goal : Type) where
  data : D
  owner : Option T
  phase : T → Phase Op Goal

def start (d : D) : State T D Op Goal := ⟨d, none, fun _ => .outside⟩

inductive Event (T Op Goal : Type) where
  | calls (t : T) (call : Call Op Goal)
  | locks (t : T)
  | runs (t : T)
  | unlocks (t : T)
  | notifies (t : T)
  /-- Without a cause. -/
  | wakes (t : T)
  deriving DecidableEq, Repr

namespace Phase

/-- A sleeper that is woken wants the mutex back. -/
def woken : Phase Op Goal → Phase Op Goal
  | .asleep goal => .entering (.await goal)
  | p => p

def owns : Phase Op Goal → Bool
  | .inside _ => true
  | .leaving _ => true
  | _ => false

@[simp] theorem owns_woken (p : Phase Op Goal) : p.woken.owns = p.owns := by
  cases p <;> rfl

theorem woken_ne_asleep (p : Phase Op Goal) (goal : Goal) : p.woken ≠ .asleep goal := by
  cases p <;> simp [woken]

theorem woken_eq_leaving {p : Phase Op Goal} {call : Call Op Goal}
    (h : p.woken = .leaving call) : p = .leaving call := by
  cases p <;> simp_all [woken]

end Phase

namespace Interface

variable (m : Interface D Op Goal)

/-- Where a thread is once it has let go of the mutex. -/
def after : Call Op Goal → Phase Op Goal
  | .change op => if m.notifies op then .notifying else .outside
  | .await _ => .outside

/-- The thread is going to notify. -/
def Announces : Phase Op Goal → Prop
  | .notifying => True
  | .leaving (.change op) => m.notifies op = true
  | _ => False

theorem after_ne_asleep (call : Call Op Goal) (goal : Goal) : m.after call ≠ .asleep goal := by
  cases call with
  | change op =>
      simp only [after]
      split <;> simp
  | await g => simp [after]

theorem owns_after (call : Call Op Goal) : (m.after call).owns = false := by
  cases call with
  | change op =>
      simp only [after]
      split <;> rfl
  | await g => rfl

/-- Who is going to notify does so after it has let go of the mutex. -/
theorem announces_after {call : Call Op Goal} (announces : m.Announces (.leaving call)) :
    m.Announces (m.after call) := by
  cases call with
  | change op =>
      have notifies : m.notifies op = true := announces
      simp [after, notifies, Announces]
  | await g => exact announces.elim

variable [DecidableEq T]

def step (s : State T D Op Goal) : Event T Op Goal → Option (State T D Op Goal)
  | .calls t call =>
      match s.phase t with
      | .outside => some { s with phase := Function.update s.phase t (.entering call) }
      | _ => none
  | .locks t =>
      match s.owner, s.phase t with
      | none, .entering call =>
          some { s with owner := some t, phase := Function.update s.phase t (.inside call) }
      | _, _ => none
  | .runs t =>
      match s.phase t with
      | .inside (.change op) => some { s with
          data := m.run s.data op
          phase := Function.update s.phase t (.leaving (.change op)) }
      | .inside (.await goal) =>
          if m.met goal s.data then
            some { s with phase := Function.update s.phase t (.leaving (.await goal)) }
          else
            some { s with owner := none, phase := Function.update s.phase t (.asleep goal) }
      | _ => none
  | .unlocks t =>
      match s.phase t with
      | .leaving call =>
          some { s with owner := none, phase := Function.update s.phase t (m.after call) }
      | _ => none
  | .notifies t =>
      match s.phase t with
      | .notifying => some { s with
          phase := Function.update (fun u => (s.phase u).woken) t .outside }
      | _ => none
  | .wakes t =>
      match s.phase t with
      | .asleep goal => some { s with phase := Function.update s.phase t (.entering (.await goal)) }
      | _ => none

/-- Everything a step can be. -/
inductive Stepped (s : State T D Op Goal) : Event T Op Goal → State T D Op Goal → Prop
  | calls (t : T) (call : Call Op Goal) (idle : s.phase t = .outside) :
      Stepped s (.calls t call) { s with phase := Function.update s.phase t (.entering call) }
  | locks (t : T) (call : Call Op Goal) (free : s.owner = none)
      (wants : s.phase t = .entering call) :
      Stepped s (.locks t)
        { s with owner := some t, phase := Function.update s.phase t (.inside call) }
  | changes (t : T) (op : Op) (within : s.phase t = .inside (.change op)) :
      Stepped s (.runs t) { s with
        data := m.run s.data op
        phase := Function.update s.phase t (.leaving (.change op)) }
  | passes (t : T) (goal : Goal) (within : s.phase t = .inside (.await goal))
      (met : m.met goal s.data = true) :
      Stepped s (.runs t)
        { s with phase := Function.update s.phase t (.leaving (.await goal)) }
  | sleeps (t : T) (goal : Goal) (within : s.phase t = .inside (.await goal))
      (unmet : m.met goal s.data = false) :
      Stepped s (.runs t)
        { s with owner := none, phase := Function.update s.phase t (.asleep goal) }
  | unlocks (t : T) (call : Call Op Goal) (done : s.phase t = .leaving call) :
      Stepped s (.unlocks t)
        { s with owner := none, phase := Function.update s.phase t (m.after call) }
  | notifies (t : T) (about : s.phase t = .notifying) :
      Stepped s (.notifies t)
        { s with phase := Function.update (fun u => (s.phase u).woken) t .outside }
  | wakes (t : T) (goal : Goal) (sleeps : s.phase t = .asleep goal) :
      Stepped s (.wakes t)
        { s with phase := Function.update s.phase t (.entering (.await goal)) }

variable {m} {s s' : State T D Op Goal} {e : Event T Op Goal}

theorem step_cases (h : m.step s e = some s') : m.Stepped s e s' := by
  cases e with
  | calls t call =>
      simp only [step] at h
      split at h
      case h_1 idle => cases h; exact .calls t call idle
      case h_2 => cases h
  | locks t =>
      simp only [step] at h
      split at h
      case h_1 call free wants => cases h; exact .locks t call free wants
      case h_2 => cases h
  | runs t =>
      simp only [step] at h
      split at h
      case h_1 op within => cases h; exact .changes t op within
      case h_2 goal within =>
        split_ifs at h with met
        · cases h; exact .passes t goal within met
        · cases h; exact .sleeps t goal within (Bool.eq_false_iff.mpr met)
      case h_3 => cases h
  | unlocks t =>
      simp only [step] at h
      split at h
      case h_1 call done => cases h; exact .unlocks t call done
      case h_2 => cases h
  | notifies t =>
      simp only [step] at h
      split at h
      case h_1 about => cases h; exact .notifies t about
      case h_2 => cases h
  | wakes t =>
      simp only [step] at h
      split at h
      case h_1 goal sleeps => cases h; exact .wakes t goal sleeps
      case h_2 => cases h

end Interface

/-! ## What holds of every run -/

section Sound

variable (m : Interface D Op Goal)

/-- Who owns the mutex, what a thread has tested, and that no sleeper is forgotten. -/
structure Sound (s : State T D Op Goal) : Prop where
  owner : ∀ t, (s.phase t).owns = true ↔ s.owner = some t
  met : ∀ t goal, s.phase t = .leaving (.await goal) → m.met goal s.data = true
  awaited : ∀ t goal, s.phase t = .asleep goal → m.met goal s.data = true →
    ∃ u, m.Announces (s.phase u)

theorem Sound.start (d : D) : Sound m (start d : State T D Op Goal) where
  owner _ := by simp [Monitor.start, Phase.owns]
  met _ _ h := by cases h
  awaited _ _ h := by cases h

variable {m} {s s' : State T D Op Goal} {e : Event T Op Goal} {t : T} {p : Phase Op Goal}

/-- Two threads that own the mutex are one. -/
theorem Sound.unique {u : T} (sound : Sound m s) (ht : (s.phase t).owns = true)
    (hu : (s.phase u).owns = true) : u = t := by
  have first := (sound.owner t).mp ht
  have second := (sound.owner u).mp hu
  exact Option.some.inj (second.symm.trans first)

variable [DecidableEq T]

/-- A thread goes on, and keeps the mutex or stays without it. -/
theorem Sound.owner_same (sound : Sound m s) (same : p.owns = (s.phase t).owns) :
    ∀ u, (Function.update s.phase t p u).owns = true ↔ s.owner = some u := by
  intro u
  by_cases h : u = t
  · subst h
    rw [Function.update_self, same]
    exact sound.owner u
  · rw [Function.update_of_ne h]
    exact sound.owner u

/-- A thread lets go of the mutex. -/
theorem Sound.owner_released (sound : Sound m s) (owned : (s.phase t).owns = true)
    (gone : p.owns = false) :
    ∀ u, (Function.update s.phase t p u).owns = true ↔ (none : Option T) = some u := by
  intro u
  by_cases h : u = t
  · subst h
    rw [Function.update_self, gone]
    simp
  · rw [Function.update_of_ne h]
    constructor
    · intro owns
      exact absurd (sound.unique owned owns) h
    · simp

/-- A thread goes on that was not going to notify, and the data stay as they are. -/
theorem Sound.awaited_same (sound : Sound m s) (silent : ¬ m.Announces (s.phase t))
    (awake : ∀ goal, p ≠ .asleep goal) :
    ∀ u goal, Function.update s.phase t p u = .asleep goal → m.met goal s.data = true →
      ∃ v, m.Announces (Function.update s.phase t p v) := by
  intro u goal sleeps met
  by_cases h : u = t
  · subst h
    rw [Function.update_self] at sleeps
    exact absurd sleeps (awake goal)
  · rw [Function.update_of_ne h] at sleeps
    obtain ⟨v, announces⟩ := sound.awaited u goal sleeps met
    have other : v ≠ t := by
      rintro rfl
      exact silent announces
    exact ⟨v, by rwa [Function.update_of_ne other]⟩

/-- A thread goes on that has nothing tested. -/
theorem Sound.met_same (sound : Sound m s) (busy : ∀ goal, p ≠ .leaving (.await goal)) :
    ∀ u goal, Function.update s.phase t p u = .leaving (.await goal) →
      m.met goal s.data = true := by
  intro u goal leaves
  by_cases h : u = t
  · subst h
    rw [Function.update_self] at leaves
    exact absurd leaves (busy goal)
  · rw [Function.update_of_ne h] at leaves
    exact sound.met u goal leaves

/-- A change under the mutex: no other thread has tested, and who has met a goal notifies. -/
theorem Sound.changes {op : Op} (sound : Sound m s) (within : s.phase t = .inside (.change op)) :
    Sound m { s with
      data := m.run s.data op
      phase := Function.update s.phase t (.leaving (.change op)) } where
  owner := sound.owner_same (by rw [within]; rfl)
  met u goal leaves := by
    have owned : (s.phase t).owns = true := by rw [within]; rfl
    by_cases h : u = t
    · subst h
      simp at leaves
    · simp only [Function.update_of_ne h] at leaves
      have other : (s.phase u).owns = true := by rw [leaves]; rfl
      exact absurd (sound.unique owned other) h
  awaited u goal sleeps met := by
    cases notifies : m.notifies op with
    | true =>
        refine ⟨t, ?_⟩
        simp only [Function.update_self]
        exact notifies
    | false =>
        have before := m.silent s.data op goal notifies met
        have quiet : ¬ m.Announces (s.phase t) := by
          rw [within]
          exact id
        exact sound.awaited_same quiet (by simp) u goal sleeps before

theorem Sound.step (sound : Sound m s) (h : m.step s e = some s') : Sound m s' := by
  cases Interface.step_cases h with
  | calls t call idle =>
      refine ⟨sound.owner_same (by rw [idle]; rfl), sound.met_same (by simp),
        sound.awaited_same ?_ (by simp)⟩
      rw [idle]
      exact id
  | locks t call free wants =>
      refine ⟨?_, sound.met_same (by simp), sound.awaited_same ?_ (by simp)⟩
      · intro u
        by_cases same : u = t
        · subst same
          simp [Phase.owns]
        · have nobody : (s.phase u).owns = true ↔ False := by
            rw [sound.owner u, free]
            simp
          simp [Function.update_of_ne same, nobody, Ne.symm same]
      · rw [wants]
        exact id
  | changes t op within => exact sound.changes within
  | passes t goal within met =>
      refine ⟨sound.owner_same (by rw [within]; rfl), ?_, sound.awaited_same ?_ (by simp)⟩
      · intro u goal' leaves
        by_cases same : u = t
        · subst same
          obtain rfl : goal = goal' := by simpa using leaves
          exact met
        · simp only [Function.update_of_ne same] at leaves
          exact sound.met u goal' leaves
      · rw [within]
        exact id
  | sleeps t goal within unmet =>
      refine ⟨sound.owner_released (by rw [within]; rfl) rfl, sound.met_same (by simp), ?_⟩
      intro u goal' sleeps met
      by_cases same : u = t
      · subst same
        obtain rfl : goal = goal' := by simpa using sleeps
        exact absurd (unmet.symm.trans met) Bool.false_ne_true
      · simp only [Function.update_of_ne same] at sleeps
        obtain ⟨v, announces⟩ := sound.awaited u goal' sleeps met
        have other : v ≠ t := by
          rintro rfl
          rw [within] at announces
          exact announces
        exact ⟨v, by simpa only [Function.update_of_ne other] using announces⟩
  | unlocks t call done =>
      refine ⟨sound.owner_released (by rw [done]; rfl) (m.owns_after call), ?_, ?_⟩
      · apply sound.met_same
        intro goal after
        have owns : (m.after call).owns = true := by rw [after]; rfl
        exact absurd ((m.owns_after call).symm.trans owns) Bool.false_ne_true
      · intro u goal sleeps met
        by_cases same : u = t
        · subst same
          simp only [Function.update_self] at sleeps
          exact absurd sleeps (m.after_ne_asleep call goal)
        · simp only [Function.update_of_ne same] at sleeps
          obtain ⟨v, announces⟩ := sound.awaited u goal sleeps met
          -- who unlocks the mutex to notify is still going to
          by_cases own : v = t
          · subst own
            rw [done] at announces
            exact ⟨v, by simpa using m.announces_after announces⟩
          · exact ⟨v, by simpa only [Function.update_of_ne own] using announces⟩
  | notifies t about =>
      refine ⟨?_, ?_, ?_⟩
      · intro u
        by_cases same : u = t
        · subst same
          have without : (s.phase u).owns = true ↔ False := by
            rw [about]
            simp [Phase.owns]
          rw [← sound.owner u, without]
          simp [Phase.owns]
        · simp [Function.update_of_ne same, sound.owner u]
      · intro u goal leaves
        by_cases same : u = t
        · subst same
          simp at leaves
        · simp only [Function.update_of_ne same] at leaves
          exact sound.met u goal (Phase.woken_eq_leaving leaves)
      · intro u goal sleeps
        by_cases same : u = t
        · subst same
          simp at sleeps
        · simp only [Function.update_of_ne same] at sleeps
          exact absurd sleeps (Phase.woken_ne_asleep _ goal)
  | wakes t goal sleeps =>
      refine ⟨sound.owner_same (by rw [sleeps]; rfl), sound.met_same (by simp),
        sound.awaited_same ?_ (by simp)⟩
      rw [sleeps]
      exact id

/-! ## At rest -/

/-- What a thread does by itself, once it has called. -/
def Event.internal : Event T Op Goal → Bool
  | .calls _ _ => false
  | .wakes _ => false
  | _ => true

/-- No thread can go on by itself. -/
def AtRest (m : Interface D Op Goal) (s : State T D Op Goal) : Prop :=
  ∀ e : Event T Op Goal, e.internal = true → m.step s e = none

/-- Nobody has the mutex. -/
theorem AtRest.free (atRest : AtRest m s) (sound : Sound m s) : s.owner = none := by
  cases owner : s.owner with
  | none => rfl
  | some t =>
      have owns := (sound.owner t).mpr owner
      have runs := atRest (.runs t) rfl
      have unlocks := atRest (.unlocks t) rfl
      cases phase : s.phase t with
      | inside call =>
          cases call with
          | change op => simp [Interface.step, phase] at runs
          | await goal =>
              simp only [Interface.step, phase] at runs
              split at runs <;> cases runs
      | leaving call => simp [Interface.step, phase] at unlocks
      | _ => rw [phase] at owns; cases owns

/-- At rest a thread is in no call, or asleep with a goal that is not met. -/
theorem AtRest.phase_eq (atRest : AtRest m s) (sound : Sound m s) (t : T) :
    s.phase t = .outside ∨ ∃ goal, s.phase t = .asleep goal ∧ m.met goal s.data = false := by
  have free := atRest.free sound
  have nobody : ∀ u, (s.phase u).owns ≠ true := by
    intro u owns
    rw [sound.owner u, free] at owns
    cases owns
  have quiet : ∀ u, s.phase u ≠ .notifying := by
    intro u about
    have notifies := atRest (.notifies u) rfl
    simp [Interface.step, about] at notifies
  cases phase : s.phase t with
  | outside => exact Or.inl rfl
  | entering call =>
      have locks := atRest (.locks t) rfl
      simp [Interface.step, free, phase] at locks
  | inside call => exact absurd (by rw [phase]; rfl) (nobody t)
  | leaving call => exact absurd (by rw [phase]; rfl) (nobody t)
  | notifying => exact absurd phase (quiet t)
  | asleep goal =>
      refine Or.inr ⟨goal, rfl, ?_⟩
      by_contra met
      rw [Bool.not_eq_false] at met
      obtain ⟨u, announces⟩ := sound.awaited t goal phase met
      cases other : s.phase u with
      | notifying => exact quiet u other
      | leaving call => exact nobody u (by rw [other]; rfl)
      | _ => rw [other] at announces; exact announces

/-! ## The threads come to rest -/

/-- The steps a thread has still to make, and those of the sleepers that it wakes, if there are
    `n` threads. -/
def Phase.due (n : Nat) : Phase Op Goal → Nat
  | .outside => 0
  | .entering (.change _) => 4 + 3 * n
  | .inside (.change _) => 3 + 3 * n
  | .leaving (.change _) => 2 + 3 * n
  | .notifying => 1 + 3 * n
  | .entering (.await _) => 3
  | .inside (.await _) => 2
  | .leaving (.await _) => 1
  | .asleep _ => 0

namespace Event

def gain (e : Event T Op Goal) : Nat := if e.internal then 1 else 0

def price (n : Nat) : Event T Op Goal → Nat
  | .calls _ _ => 4 + 3 * n
  | .wakes _ => 3
  | _ => 0

def thread : Event T Op Goal → T
  | .calls t _ => t
  | .locks t => t
  | .runs t => t
  | .unlocks t => t
  | .notifies t => t
  | .wakes t => t

end Event

theorem Phase.due_woken (n : Nat) (p : Phase Op Goal) : p.woken.due n ≤ p.due n + 3 := by
  cases p with
  | asleep goal => exact Nat.le_refl 3
  | _ => exact Nat.le_add_right _ 3

theorem Interface.due_after (n : Nat) (call : Call Op Goal) :
    (m.after call).due n + 1 ≤ (Phase.leaving call).due n := by
  cases call with
  | change op =>
      cases notifies : m.notifies op with
      | true =>
          simp only [Interface.after, notifies, if_true, Phase.due]
          omega
      | false =>
          simp only [Interface.after, notifies, Bool.false_eq_true, if_false, Phase.due]
          omega
  | await goal => exact Nat.le_refl 1

open scoped BigOperators

/-- What all threads with a name have still to do. -/
def State.due (names : Finset T) (s : State T D Op Goal) : Nat :=
  ∑ t ∈ names, (s.phase t).due names.card

omit [DecidableEq T] in
/-- All sleepers are woken. -/
theorem sum_due_woken (names : Finset T) (phase : T → Phase Op Goal) :
    ∑ t ∈ names, (phase t).woken.due names.card ≤
      ∑ t ∈ names, (phase t).due names.card + 3 * names.card := by
  calc ∑ t ∈ names, (phase t).woken.due names.card
    _ ≤ ∑ t ∈ names, ((phase t).due names.card + 3) :=
        Finset.sum_le_sum fun t _ => Phase.due_woken _ _
    _ = ∑ t ∈ names, (phase t).due names.card + 3 * names.card := by
        rw [Finset.sum_add_distrib, Finset.sum_const, Nat.nsmul_eq_mul, Nat.mul_comm]

/-- One thread goes on, and its step is paid for. -/
theorem State.due_replaced {names : Finset T} {gain price : Nat}
    (phase : s'.phase = Function.update s.phase t p) (member : t ∈ names)
    (paid : p.due names.card + gain ≤ (s.phase t).due names.card + price) :
    s'.due names + gain ≤ s.due names + price := by
  have changed : ∑ u ∈ names, (Function.update s.phase t p u).due names.card +
      (s.phase t).due names.card = ∑ u ∈ names, (s.phase u).due names.card + p.due names.card :=
    Potential.sum_update (Phase.due names.card) member
  rw [State.due, State.due, phase]
  omega

/-- The step lemma: a step is paid for by what is due, or by its price. -/
theorem State.due_step {names : Finset T} (named : e.thread ∈ names) (h : m.step s e = some s') :
    s'.due names + e.gain ≤ s.due names + e.price names.card := by
  cases Interface.step_cases h with
  | calls t call idle =>
      refine State.due_replaced rfl named ?_
      rw [idle]
      cases call with
      | change op => show 4 + 3 * names.card + 0 ≤ 0 + (4 + 3 * names.card); omega
      | await goal => show 3 + 0 ≤ 0 + (4 + 3 * names.card); omega
  | locks t call free wants =>
      refine State.due_replaced rfl named ?_
      rw [wants]
      cases call with
      | change op => show 3 + 3 * names.card + 1 ≤ 4 + 3 * names.card + 0; omega
      | await goal => exact Nat.le_refl 3
  | changes t op within =>
      refine State.due_replaced rfl named ?_
      rw [within]
      show 2 + 3 * names.card + 1 ≤ 3 + 3 * names.card + 0
      omega
  | passes t goal within met =>
      refine State.due_replaced rfl named ?_
      rw [within]
      exact Nat.le_refl 2
  | sleeps t goal within unmet =>
      refine State.due_replaced rfl named ?_
      rw [within]
      exact Nat.le_succ 1
  | unlocks t call done =>
      refine State.due_replaced rfl named ?_
      rw [done]
      exact Interface.due_after names.card call
  | notifies t about =>
      have changed : ∑ u ∈ names, (Function.update (fun u => (s.phase u).woken) t .outside u).due
          names.card + (s.phase t).woken.due names.card =
          ∑ u ∈ names, (s.phase u).woken.due names.card + 0 :=
        Potential.sum_update (Phase.due names.card) named
      have woken := sum_due_woken names s.phase
      have own : (s.phase t).woken.due names.card = 1 + 3 * names.card := by
        rw [about]
        rfl
      show ∑ u ∈ names, (Function.update (fun u => (s.phase u).woken) t .outside u).due
        names.card + 1 ≤ ∑ u ∈ names, (s.phase u).due names.card + 0
      omega
  | wakes t goal sleeps =>
      refine State.due_replaced rfl named ?_
      rw [sleeps]
      exact Nat.le_refl 3

/-- In every run the threads make at most so many steps. -/
theorem steps_le {d : D} {es : List (Event T Op Goal)} (names : Finset T)
    (named : ∀ e ∈ es, e.thread ∈ names) (run : Exec.exec m.step (start d) es = some s) :
    (es.map Event.gain).sum ≤ (es.map (Event.price names.card)).sum := by
  have paid : s.due names + (es.map Event.gain).sum ≤
      (start d : State T D Op Goal).due names + (es.map (Event.price names.card)).sum :=
    Potential.exec_paid (fun _ _ _ member h => State.due_step (named _ member) h) run
  have nothing : (start d : State T D Op Goal).due names = 0 :=
    Finset.sum_eq_zero fun _ _ => rfl
  omega

end Sound

end Monitor
