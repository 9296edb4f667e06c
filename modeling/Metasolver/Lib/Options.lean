import Mathlib.Data.List.Basic
import Metasolver.Lib.Except

/-!
# Options on a command line

A command line is a list of words.  An option is a switch, which stands alone, or it takes
the next word for its value, whatever that word is.  `parse` reads the words one after the
other into a record, up to the first word that names no option.

What is read is what was meant: the words of a list of arguments are read as that list
(`parse_render`), and a command line that is read to its end consists of the words of exactly
one list of arguments (`parse_eq_ok_iff`, `render_injective`).  Whatever else can happen is
listed in `Reading`.
-/

namespace Options

/-- The options `S ⊕ V` by their names, and what they do to a record. -/
structure Language (S V τ ε : Type) where
  name : S ⊕ V → String
  read : String → Option (S ⊕ V)
  read_iff : ∀ a o, read a = some o ↔ name o = a
  set : S → τ → τ
  assign : V → String → τ → Except ε τ
  /-- What is thrown when the value of an option is missing. -/
  missing : V → ε

variable {S V τ ε : Type}

inductive Arg (S V : Type) where
  | switch (s : S)
  | valued (v : V) (value : String)
  deriving DecidableEq, Repr

namespace Language

variable (L : Language S V τ ε) {t u : τ} {args args' : List (Arg S V)}
  {argv rest : List String} {a : String}

/-- The record, and the word at which the reading has stopped, if it has. -/
def parse : List String → τ → Except ε (τ × Option String)
  | [], t => .ok (t, none)
  | a :: rest, t =>
      match L.read a with
      | none => .ok (t, some a)
      | some (.inl s) => parse rest (L.set s t)
      | some (.inr v) =>
          match rest with
          | [] => .error (L.missing v)
          | value :: rest => do parse rest (← L.assign v value t)

/-- The words of an argument. -/
def render : Arg S V → List String
  | .switch s => [L.name (.inl s)]
  | .valued v value => [L.name (.inr v), value]

def apply (t : τ) : Arg S V → Except ε τ
  | .switch s => .ok (L.set s t)
  | .valued v value => L.assign v value t

/-- The record after a list of arguments. -/
def applyAll (t : τ) (args : List (Arg S V)) : Except ε τ := args.foldlM L.apply t

theorem read_name (o : S ⊕ V) : L.read (L.name o) = some o := (L.read_iff _ o).mpr rfl

theorem applyAll_cons (arg : Arg S V) :
    L.applyAll t (arg :: args) = (L.apply t arg).bind fun u => L.applyAll u args := rfl

theorem applyAll_snoc (arg : Arg S V) :
    L.applyAll t (args ++ [arg]) = (L.applyAll t args).bind fun u => L.apply u arg := by
  simp only [applyAll, List.foldlM_append]
  congr 1
  funext u
  exact bind_pure (L.apply u arg)

/-- The words of one argument are read as that argument. -/
theorem parse_render_append (arg : Arg S V) :
    L.parse (L.render arg ++ rest) t = (L.apply t arg).bind fun u => L.parse rest u := by
  cases arg with
  | switch s =>
      rw [render, List.singleton_append, parse, read_name]
      rfl
  | valued v value =>
      rw [render, List.cons_append, List.singleton_append, parse, read_name]
      rfl

theorem parse_flatMap_append (args : List (Arg S V)) (rest : List String) (t : τ) :
    L.parse (args.flatMap L.render ++ rest) t =
      (L.applyAll t args).bind fun u => L.parse rest u := by
  induction args generalizing t with
  | nil => rfl
  | cons arg args ih =>
      rw [List.flatMap_cons, List.append_assoc, parse_render_append, applyAll_cons]
      cases L.apply t arg with
      | error e => rfl
      | ok u => exact ih u

/-- The words of a list of arguments are read as that list. -/
theorem parse_render (meant : L.applyAll t args = .ok u) :
    L.parse (args.flatMap L.render) t = .ok (u, none) := by
  have whole := L.parse_flatMap_append args [] t
  rw [List.append_nil, meant] at whole
  exact whole

/-- How a command line is read: arguments that can be applied, and then nothing, a word that
    is no option, an option without its value, or an option whose value is refused. -/
inductive Reading (t : τ) : List String → Except ε (τ × Option String) → Prop
  | whole (args : List (Arg S V)) (u : τ) : L.applyAll t args = .ok u →
      Reading t (args.flatMap L.render) (.ok (u, none))
  | unknown (args : List (Arg S V)) (u : τ) (a : String) (rest : List String) :
      L.applyAll t args = .ok u → L.read a = none →
      Reading t (args.flatMap L.render ++ a :: rest) (.ok (u, some a))
  | missing (args : List (Arg S V)) (u : τ) (v : V) : L.applyAll t args = .ok u →
      Reading t (args.flatMap L.render ++ [L.name (.inr v)]) (.error (L.missing v))
  | refused (args : List (Arg S V)) (u : τ) (v : V) (value : String) (rest : List String)
      (e : ε) : L.applyAll t args = .ok u → L.assign v value u = .error e →
      Reading t (args.flatMap L.render ++ L.name (.inr v) :: value :: rest) (.error e)

variable {L}

/-- An argument in front of what is read. -/
theorem Reading.cons {r : Except ε (τ × Option String)} (arg : Arg S V)
    (applied : L.apply t arg = .ok u) (reading : L.Reading u argv r) :
    L.Reading t (L.render arg ++ argv) r := by
  have next : ∀ {args w}, L.applyAll u args = .ok w → L.applyAll t (arg :: args) = .ok w := by
    intro args w meant
    rw [applyAll_cons, applied]
    exact meant
  cases reading with
  | whole args w meant =>
      rw [← List.flatMap_cons]
      exact .whole _ w (next meant)
  | unknown args w a rest meant other =>
      rw [← List.append_assoc, ← List.flatMap_cons]
      exact .unknown _ w a rest (next meant) other
  | missing args w v meant =>
      rw [← List.append_assoc, ← List.flatMap_cons]
      exact .missing _ w v (next meant)
  | refused args w v value rest e meant refuses =>
      rw [← List.append_assoc, ← List.flatMap_cons]
      exact .refused _ w v value rest e (next meant) refuses

/-- Every command line is read in one of these ways. -/
theorem reading_parse (argv : List String) (t : τ) : L.Reading t argv (L.parse argv t) := by
  fun_induction parse L argv t with
  | case1 t => exact .whole [] t rfl
  | case2 a rest t other => exact .unknown [] t a rest rfl other
  | case3 a rest t s known ih =>
      obtain rfl := (L.read_iff _ _).mp known
      exact Reading.cons (.switch s) rfl ih
  | case4 a t v known =>
      obtain rfl := (L.read_iff _ _).mp known
      exact .missing [] t v rfl
  | case5 a t v known value rest ih =>
      obtain rfl := (L.read_iff _ _).mp known
      cases assigned : L.assign v value t with
      | error e => exact .refused [] t v value rest e rfl assigned
      | ok u => exact Reading.cons (.valued v value) assigned (ih u)

/-- A command line is read to its end exactly if it consists of arguments that can be
    applied. -/
theorem parse_eq_ok_iff :
    L.parse argv t = .ok (u, none) ↔ ∃ args, argv = args.flatMap L.render ∧
      L.applyAll t args = .ok u := by
  constructor
  · intro read
    have reading := L.reading_parse argv t
    rw [read] at reading
    cases reading with
    | whole args _ meant => exact ⟨args, rfl, meant⟩
  · rintro ⟨args, rfl, meant⟩
    exact L.parse_render meant

/-- Reading throws exactly if, behind arguments that can be applied, there is an option
    without its value, or with one that is refused. -/
theorem parse_eq_error_iff {e : ε} :
    L.parse argv t = .error e ↔ ∃ args u, L.applyAll t args = .ok u ∧
      ((∃ v, argv = args.flatMap L.render ++ [L.name (.inr v)] ∧ e = L.missing v) ∨
        ∃ v value rest, argv = args.flatMap L.render ++ L.name (.inr v) :: value :: rest ∧
          L.assign v value u = .error e) := by
  constructor
  · intro threw
    have reading := L.reading_parse argv t
    rw [threw] at reading
    cases reading with
    | missing args u v meant => exact ⟨args, u, meant, Or.inl ⟨v, rfl, rfl⟩⟩
    | refused args u v value rest e meant refuses =>
        exact ⟨args, u, meant, Or.inr ⟨v, value, rest, rfl, refuses⟩⟩
  · rintro ⟨args, u, meant, ⟨v, rfl, rfl⟩ | ⟨v, value, rest, rfl, refuses⟩⟩
    · rw [parse_flatMap_append, meant, Except.bind, parse, read_name]
    · rw [parse_flatMap_append, meant, Except.bind, parse, read_name]
      simp only [refuses]
      rfl

/-- The options of `L`, with the arguments themselves for the record. -/
def recorder (L : Language S V τ ε) : Language S V (List (Arg S V)) ε where
  name := L.name
  read := L.read
  read_iff := L.read_iff
  set s args := args ++ [.switch s]
  assign v value args := .ok (args ++ [.valued v value])
  missing := L.missing

theorem applyAll_recorder (args' args : List (Arg S V)) :
    L.recorder.applyAll args' args = .ok (args' ++ args) := by
  induction args generalizing args' with
  | nil => rw [List.append_nil]; rfl
  | cons arg args ih =>
      have one : L.recorder.apply args' arg = .ok (args' ++ [arg]) := by cases arg <;> rfl
      have rest := ih (args' ++ [arg])
      rw [List.append_assoc] at rest
      rw [applyAll_cons, one]
      exact rest

theorem render_recorder (arg : Arg S V) : L.recorder.render arg = L.render arg := by
  cases arg <;> rfl

/-- Different arguments are different words. -/
theorem render_injective (same : args.flatMap L.render = args'.flatMap L.render) :
    args = args' := by
  have reads : ∀ args : List (Arg S V),
      L.recorder.parse (args.flatMap L.render) [] = .ok (args, none) := by
    intro args
    have meant := L.recorder.parse_render (applyAll_recorder [] args)
    rwa [funext render_recorder, List.nil_append] at meant
  have both := reads args
  rw [same, reads args'] at both
  exact (Prod.mk.inj (Except.ok.inj both)).1.symm

end Language

end Options
