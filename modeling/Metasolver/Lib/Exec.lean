import Mathlib.Data.List.Basic

/-!
# Runs of a partial step function

A machine is a function `step : σ → ε → Option σ`; `none` means that the event
is not possible in that state.  `exec` runs a list of events, `Along` says that a
condition on state and event holds at every step of that run.  The induction
over a run is done once, in `exec_invariant` (what every guarded step preserves
holds at the end) and in `exec_until` (if every guarded step is possible, so is the
run, up to a first final step).  Since every prefix of a run is a run, a statement
about the last state of all runs is a statement about every state that is ever
reached.
-/

namespace Exec

variable {σ ε : Type}

/-- The state reached from `s` through the events, if each of them is possible. -/
def exec (step : σ → ε → Option σ) : σ → List ε → Option σ
  | s, [] => some s
  | s, e :: es => (step s e).bind fun t => exec step t es

/-- `P` holds at every step of the run of `es` from `s`. -/
def Along (step : σ → ε → Option σ) (P : σ → ε → Prop) : σ → List ε → Prop
  | _, [] => True
  | s, e :: es => P s e ∧ match step s e with
    | none => True
    | some t => Along step P t es

instance decidableAlong (step : σ → ε → Option σ) (P : σ → ε → Prop)
    [∀ s e, Decidable (P s e)] : ∀ s es, Decidable (Along step P s es)
  | _, [] => isTrue trivial
  | s, e :: es =>
      have : Decidable (match step s e with
          | none => True
          | some t => Along step P t es) :=
        match step s e with
        | none => isTrue trivial
        | some t => decidableAlong step P t es
      inferInstanceAs (Decidable (_ ∧ _))

variable {step : σ → ε → Option σ} {P Q : σ → ε → Prop} {s t u : σ} {e : ε} {es fs : List ε}

@[simp] theorem exec_nil : exec step s [] = some s := rfl

theorem exec_cons : exec step s (e :: es) = (step s e).bind fun t => exec step t es := rfl

theorem exec_cons_some :
    exec step s (e :: es) = some u ↔ ∃ t, step s e = some t ∧ exec step t es = some u := by
  simp [exec_cons, Option.bind_eq_some_iff]

theorem exec_append :
    exec step s (es ++ fs) = (exec step s es).bind fun t => exec step t fs := by
  induction es generalizing s with
  | nil => rfl
  | cons e es ih =>
      simp only [List.cons_append, exec_cons, Option.bind_assoc]
      congr 1
      funext t
      exact ih

theorem exec_snoc :
    exec step s (es ++ [e]) = some u ↔ ∃ t, exec step s es = some t ∧ step t e = some u := by
  simp [exec_append, exec_cons, Option.bind_eq_some_iff]

@[simp] theorem along_nil : Along step P s [] := trivial

theorem along_cons_some (h : step s e = some t) :
    Along step P s (e :: es) ↔ P s e ∧ Along step P t es := by
  simp [Along, h]

theorem along_append (h : exec step s es = some t) :
    Along step P s (es ++ fs) ↔ Along step P s es ∧ Along step P t fs := by
  induction es generalizing s with
  | nil =>
      obtain rfl : s = t := by simpa using h
      exact (and_iff_right along_nil).symm
  | cons e es ih =>
      obtain ⟨r, hr, hrest⟩ := exec_cons_some.mp h
      rw [List.cons_append, along_cons_some hr, along_cons_some hr, ih hrest, and_assoc]

theorem along_snoc (h : exec step s es = some t) :
    Along step P s (es ++ [e]) ↔ Along step P s es ∧ P t e := by
  rw [along_append h, Along, and_iff_left_of_imp (a := P t e)]
  intro
  split <;> trivial

/-- What every step fulfils, every run fulfils. -/
theorem along_of_forall (all : ∀ s e, P s e) (es : List ε) : Along step P s es := by
  induction es generalizing s with
  | nil => trivial
  | cons e es ih =>
      refine ⟨all s e, ?_⟩
      split
      case h_1 => trivial
      case h_2 t _ => exact ih

theorem along_mono (himp : ∀ s e, P s e → Q s e) (h : Along step P s es) :
    Along step Q s es := by
  induction es generalizing s with
  | nil => trivial
  | cons e es ih =>
      cases hs : step s e with
      | none => simpa [Along, hs] using himp s e h.1
      | some t =>
          rw [along_cons_some hs] at h ⊢
          exact ⟨himp s e h.1, ih h.2⟩

/-- Every event of a run is one of its list. -/
theorem along_mem (es : List ε) : Along step (fun _ e => e ∈ es) s es := by
  induction es generalizing s with
  | nil => trivial
  | cons e es ih =>
      refine ⟨List.mem_cons_self, ?_⟩
      split
      case h_1 => trivial
      case h_2 t _ => exact along_mono (fun _ _ member => List.mem_cons_of_mem e member) ih

theorem along_and (hp : Along step P s es) (hq : Along step Q s es) :
    Along step (fun s e => P s e ∧ Q s e) s es := by
  induction es generalizing s with
  | nil => trivial
  | cons e es ih =>
      cases hs : step s e with
      | none => simpa [Along, hs] using And.intro hp.1 hq.1
      | some t =>
          rw [along_cons_some hs] at hp hq ⊢
          exact ⟨⟨hp.1, hq.1⟩, ih hp.2 hq.2⟩

/-- The invariant rule: what each step that meets its guard preserves, a whole
    run that meets the guard preserves. -/
theorem exec_invariant {I : σ → Prop}
    (preserved : ∀ s e t, I s → P s e → step s e = some t → I t)
    (start : I s) (guarded : Along step P s es) (run : exec step s es = some t) : I t := by
  induction es generalizing s with
  | nil =>
      obtain rfl : s = t := by simpa using run
      exact start
  | cons e es ih =>
      obtain ⟨r, hr, hrest⟩ := exec_cons_some.mp run
      rw [along_cons_some hr] at guarded
      exact ih (preserved s e r start guarded.1 hr) guarded.2 hrest

/-- The invariant rule for steps without a guard. -/
theorem exec_invariant_of_step {I : σ → Prop}
    (preserved : ∀ s e t, I s → step s e = some t → I t)
    (start : I s) (run : exec step s es = some t) : I t := by
  have unguarded : Along step (fun _ _ => True) s es := along_of_forall (fun _ _ => trivial) es
  exact exec_invariant (fun s e t hs _ => preserved s e t hs) start unguarded run

/-- If every guarded step adds to a history what its event is worth, the history of a run is
    that of its events. -/
theorem exec_history {τ : Type} {I : σ → Prop} {f : σ → List τ} {g : ε → Option τ}
    (records : ∀ s e t, I s → P s e → step s e = some t →
      I t ∧ f t = f s ++ (g e).toList)
    (start : I s) (guarded : Along step P s es) (run : exec step s es = some t) :
    f t = f s ++ es.filterMap g := by
  induction es generalizing s with
  | nil =>
      obtain rfl : s = t := by simpa using run
      exact (List.append_nil _).symm
  | cons e es ih =>
      obtain ⟨r, hr, hrest⟩ := exec_cons_some.mp run
      rw [along_cons_some hr] at guarded
      obtain ⟨kept, added⟩ := records s e r start guarded.1 hr
      rw [ih kept guarded.2 hrest, added, List.append_assoc]
      cases worth : g e with
      | none => rw [List.filterMap_cons_none worth]; rfl
      | some x => rw [List.filterMap_cons_some worth]; rfl

/-- A run without a step of one kind, or the last such step with what comes before and after
    it. -/
theorem exec_last (Q : σ → ε → Prop) (run : exec step s es = some u) :
    Along step (fun s e => ¬Q s e) s es ∨
      ∃ before e after r t, es = before ++ e :: after ∧ exec step s before = some r ∧ Q r e ∧
        step r e = some t ∧ exec step t after = some u ∧
        Along step (fun s e => ¬Q s e) t after := by
  induction es generalizing s with
  | nil => exact Or.inl trivial
  | cons e es ih =>
      obtain ⟨t, now, rest⟩ := exec_cons_some.mp run
      rcases ih rest with without | ⟨before, d, after, r, v, rfl, leads, kind, step_, more, last⟩
      · by_cases here : Q s e
        · exact Or.inr ⟨[], e, es, s, t, rfl, rfl, here, now, rest, without⟩
        · exact Or.inl ((along_cons_some now).mpr ⟨here, without⟩)
      · exact Or.inr ⟨e :: before, d, after, r, v, rfl, exec_cons_some.mpr ⟨t, now, leads⟩, kind,
          step_, more, last⟩

/-- A translation of states and events that commutes with the steps commutes with the
    runs. -/
theorem exec_map {τ δ : Type} {step' : τ → δ → Option τ} {φ : σ → τ} {ψ : ε → δ}
    (commutes : ∀ s e, step' (φ s) (ψ e) = (step s e).map φ) :
    exec step' (φ s) (es.map ψ) = (exec step s es).map φ := by
  induction es generalizing s with
  | nil => rfl
  | cons e es ih =>
      rw [List.map_cons, exec_cons, exec_cons, commutes]
      cases step s e with
      | none => rfl
      | some t => exact ih

/-- If each guarded step is possible and preserves the invariant or is final, then a
    guarded run either goes through with the invariant or reaches a first final step. -/
theorem exec_until {I : σ → Prop} {F : ε → σ → Prop}
    (progress : ∀ s e, I s → P s e → ∃ t, step s e = some t ∧ (I t ∨ F e t))
    (start : I s) (guarded : Along step P s es) :
    (∃ t, exec step s es = some t ∧ I t) ∨
      ∃ before e after t, es = before ++ e :: after ∧
        exec step s (before ++ [e]) = some t ∧ F e t := by
  induction es generalizing s with
  | nil => exact Or.inl ⟨s, rfl, start⟩
  | cons e es ih =>
      obtain ⟨r, hr, kept | final⟩ := progress s e start guarded.1
      · rw [along_cons_some hr] at guarded
        rcases ih kept guarded.2 with ⟨t, rest, ht⟩ | ⟨before, d, after, t, rfl, rest, ht⟩
        · exact Or.inl ⟨t, exec_cons_some.mpr ⟨r, hr, rest⟩, ht⟩
        · exact Or.inr ⟨e :: before, d, after, t, rfl, exec_cons_some.mpr ⟨r, hr, rest⟩, ht⟩
      · exact Or.inr ⟨[], e, es, r, rfl, exec_cons_some.mpr ⟨r, hr, rfl⟩, final⟩

/-- If each guarded step is possible and preserves the invariant, every guarded run
    is possible to its end. -/
theorem exec_total {I : σ → Prop}
    (progress : ∀ s e, I s → P s e → ∃ t, step s e = some t ∧ I t)
    (start : I s) (guarded : Along step P s es) : ∃ t, exec step s es = some t ∧ I t := by
  have goesOn : ∀ s e, I s → P s e → ∃ t, step s e = some t ∧ (I t ∨ False) := by
    intro s e hs ok
    obtain ⟨t, ht, kept⟩ := progress s e hs ok
    exact ⟨t, ht, Or.inl kept⟩
  rcases exec_until (F := fun _ _ => False) goesOn start guarded with
    whole | ⟨_, _, _, _, _, _, impossible⟩
  · exact whole
  · exact impossible.elim

end Exec
