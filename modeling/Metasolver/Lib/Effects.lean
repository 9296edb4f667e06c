import Mathlib.Logic.Relation
import Mathlib.Tactic.SplitIfs

/-!
# Programs that act by given effects

A program with state and exceptions (`EStateM`) acts by an effect relation `R` if each of
its runs, whether it returns or throws, is a chain of `R` steps.  `Acts R x s Q` says this
of the run of `x` from `s`, and that a value it returns fulfils `Q`.  There is one rule
for each way to build a program, and `Acts.invariant`: what every effect preserves, the
program preserves on every path.  `Returns x s` says that the run of `x` from `s` throws
nothing.
-/

namespace Effects

variable {ε σ α β : Type}

/-- The state in which a run ends. -/
def final : EStateM.Result ε σ α → σ
  | .ok _ s => s
  | .error _ s => s

@[simp] theorem final_ok (a : α) (s : σ) : final (.ok a s : EStateM.Result ε σ α) = s := rfl

@[simp] theorem final_error (e : ε) (s : σ) :
    final (.error e s : EStateM.Result ε σ α) = s := rfl

/-- A value is returned as `f` makes it from the value of the program. -/
theorem run_map_ok {x : EStateM ε σ α} {f : α → β} {s t : σ} {b : β}
    (returned : (do return f (← x)).run s = .ok b t) : ∃ a, x.run s = .ok a t ∧ f a = b := by
  rw [EStateM.run_bind] at returned
  cases first : x.run s with
  | ok a u =>
      rw [first] at returned
      cases returned
      exact ⟨a, rfl, rfl⟩
  | error e u =>
      rw [first] at returned
      cases returned

/-- Nothing is restored before the handler runs. -/
theorem run_tryCatch (x : EStateM ε σ α) (h : ε → EStateM ε σ α) (s : σ) :
    (MonadExcept.tryCatch x h : EStateM ε σ α).run s = match x.run s with
      | .ok a t => .ok a t
      | .error e t => (h e).run t := by
  have unfolded : (MonadExcept.tryCatch x h : EStateM ε σ α).run s = EStateM.tryCatch x h s := rfl
  have applied : x.run s = x s := rfl
  rw [unfolded, applied]
  delta EStateM.tryCatch
  cases x s <;> rfl

structure Acts (R : σ → σ → Prop) (x : EStateM ε σ α) (s : σ) (Q : α → σ → Prop) : Prop where
  steps : Relation.ReflTransGen R s (final (x.run s))
  returns : ∀ a t, x.run s = .ok a t → Q a t

namespace Acts

variable {R R' : σ → σ → Prop} {x : EStateM ε σ α} {s : σ} {P : α → σ → Prop}
  {f : α → EStateM ε σ β} {Q : β → σ → Prop}

theorem pure {a : α} (h : P a s) : Acts R (Pure.pure a : EStateM ε σ α) s P where
  steps := .refl
  returns b t run := by
    cases run
    exact h

theorem throw {e : ε} : Acts R (MonadExcept.throw e : EStateM ε σ α) s P where
  steps := .refl
  returns b t run := by cases run

/-- The rest of the program starts where the first part has returned. -/
theorem bind (first : Acts R x s P) (rest : ∀ a t, P a t → Acts R (f a) t Q) :
    Acts R (x >>= f) s Q := by
  constructor
  · rw [EStateM.run_bind]
    have chain := first.steps
    cases run : x.run s with
    | error e t =>
        rw [run] at chain
        exact chain
    | ok a t =>
        rw [run] at chain
        exact chain.trans (rest a t (first.returns a t run)).steps
  · intro b u run
    rw [EStateM.run_bind] at run
    cases first_run : x.run s with
    | error e t =>
        rw [first_run] at run
        cases run
    | ok a t =>
        rw [first_run] at run
        exact (rest a t (first.returns a t first_run)).returns b u run

theorem get : Acts R (MonadState.get : EStateM ε σ σ) s fun a t => a = s ∧ t = s where
  steps := .refl
  returns a t run := by
    cases run
    exact ⟨rfl, rfl⟩

theorem get_bind {f : σ → EStateM ε σ β} (rest : Acts R (f s) s Q) :
    Acts R (MonadState.get >>= f) s Q := by
  refine get.bind ?_
  rintro _ _ ⟨rfl, rfl⟩
  exact rest

/-- A program whose run is known to return. -/
theorem of_run_ok {a : α} {t : σ} (run : x.run s = .ok a t)
    (chain : Relation.ReflTransGen R s t) (h : P a t) : Acts R x s P := by
  refine ⟨?_, ?_⟩
  · rw [run]
    exact chain
  · intro b u run'
    cases run.symm.trans run'
    exact h

/-- A program whose run is known to throw. -/
theorem of_run_error {e : ε} {t : σ} (run : x.run s = .error e t)
    (chain : Relation.ReflTransGen R s t) : Acts R x s P := by
  refine ⟨?_, ?_⟩
  · rw [run]
    exact chain
  · intro b u run'
    cases run.symm.trans run'

/-- One effect. -/
theorem modify {change : σ → σ} {Q : Unit → σ → Prop} (effect : R s (change s))
    (h : Q () (change s)) :
    Acts R (MonadState.modifyGet fun t => ((), change t) : EStateM ε σ Unit) s Q where
  steps := .single effect
  returns a t run := by
    cases run
    exact h

theorem weaken (acts : Acts R x s P) {Q : α → σ → Prop} (weaker : ∀ a t, P a t → Q a t) :
    Acts R x s Q where
  steps := acts.steps
  returns a t run := weaker a t (acts.returns a t run)

/-- More effects are allowed. -/
theorem mono (acts : Acts R x s P) (wider : ∀ t u, R t u → R' t u) : Acts R' x s P where
  steps := Relation.ReflTransGen.mono wider _ _ acts.steps
  returns := acts.returns

/-- A handler starts where the program has thrown. -/
theorem tryCatch {h : ε → EStateM ε σ α} (first : Acts R x s P)
    (handler : ∀ e t, x.run s = .error e t → Acts R (h e) t P) :
    Acts R (MonadExcept.tryCatch x h) s P := by
  have run := run_tryCatch x h s
  have chain := first.steps
  cases thrown : x.run s with
  | ok a t =>
      rw [thrown] at run chain
      refine ⟨?_, fun b u run' => ?_⟩
      · rw [run]
        exact chain
      · rw [run] at run'
        cases run'
        exact first.returns _ _ thrown
  | error e t =>
      rw [thrown] at run chain
      have rest := handler e t thrown
      refine ⟨?_, fun b u run' => ?_⟩
      · rw [run]
        exact chain.trans rest.steps
      · rw [run] at run'
        exact rest.returns b u run'

/-- The invariant rule: what every effect preserves holds in the end. -/
theorem invariant (acts : Acts R x s P) {I : σ → Prop} (preserved : ∀ t u, R t u → I t → I u)
    (start : I s) : I (final (x.run s)) := by
  have chain := acts.steps
  generalize final (x.run s) = t at chain
  induction chain with
  | refl => exact start
  | tail _ step ih => exact preserved _ _ step ih

end Acts

/-- A program that throws nothing. -/
def Returns (x : EStateM ε σ α) (s : σ) : Prop := ∃ a t, x.run s = .ok a t

namespace Returns

variable {x : EStateM ε σ α} {f : α → EStateM ε σ β} {s t : σ} {a : α}

theorem pure : Returns (Pure.pure a : EStateM ε σ α) s := ⟨a, s, rfl⟩

theorem bind_of_run (first : x.run s = .ok a t) (rest : Returns (f a) t) :
    Returns (x >>= f) s := by
  obtain ⟨b, u, run⟩ := rest
  refine ⟨b, u, ?_⟩
  rw [EStateM.run_bind, first]
  exact run

theorem bind (first : Returns x s) (rest : ∀ a t, Returns (f a) t) : Returns (x >>= f) s := by
  obtain ⟨a, t, run⟩ := first
  exact bind_of_run run (rest a t)

theorem get_bind {f : σ → EStateM ε σ β} (rest : Returns (f s) s) :
    Returns (MonadState.get >>= f) s := bind_of_run rfl rest

end Returns

/-- A program that either throws or returns, by a condition on where it starts. -/
theorem returns_iff {x : EStateM ε σ α} {c : Prop} [Decidable c] {e : ε} {a : α} {s t u : σ}
    (run : x.run s = if c then .error e u else .ok a t) : Returns x s ↔ ¬c := by
  rw [Returns, run]
  split_ifs with throws
  · simp [throws]
  · simp [throws]

end Effects
