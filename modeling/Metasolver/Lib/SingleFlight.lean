import Mathlib.Data.List.Basic

/-!
# One question at a time

A client asks a question only when it has got the answer to the one before.  However long the
question and the answer are on their way, and however many others do the same, the client
can tell whose answer it gets by counting: the answers come in the order of the questions
(`Flight.own_answer`).  The histories and what is on its way always fit together, which is
part of a `Flight`.
-/

namespace SingleFlight

variable {Q A : Type}

/-- What is on its way. -/
inductive Slot (Q A : Type) where
  | idle
  | asked (q : Q)
  | answered (q : Q) (a : A)

namespace Slot

/-- The question that has not been answered. -/
def question : Slot Q A → List Q
  | .idle => []
  | .asked q => [q]
  | .answered _ _ => []

/-- The answer that has not been returned to the client. -/
def answer : Slot Q A → List (Q × A)
  | .idle => []
  | .asked _ => []
  | .answered q a => [(q, a)]

end Slot

structure Flight (Q A : Type) where
  slot : Slot Q A
  asked : List Q
  answered : List (Q × A)
  returned : List (Q × A)
  asked_eq : asked = answered.map Prod.fst ++ slot.question
  answered_eq : answered = returned ++ slot.answer

namespace Flight

def start : Flight Q A := ⟨.idle, [], [], [], rfl, rfl⟩

variable {q : Q} {a : A}

def ask (f : Flight Q A) (idle : f.slot = .idle) (q : Q) : Flight Q A where
  slot := .asked q
  asked := f.asked ++ [q]
  answered := f.answered
  returned := f.returned
  asked_eq := by
    have before := f.asked_eq
    rw [idle, Slot.question, List.append_nil] at before
    rw [before]
    rfl
  answered_eq := by
    have before := f.answered_eq
    rw [idle] at before
    exact before

def reply (f : Flight Q A) (waits : f.slot = .asked q) (a : A) : Flight Q A where
  slot := .answered q a
  asked := f.asked
  answered := f.answered ++ [(q, a)]
  returned := f.returned
  asked_eq := by
    have before := f.asked_eq
    rw [waits, Slot.question] at before
    rw [before, Slot.question, List.append_nil, List.map_append]
    rfl
  answered_eq := by
    have before := f.answered_eq
    rw [waits, Slot.answer, List.append_nil] at before
    rw [before]
    rfl

def complete (f : Flight Q A) (waits : f.slot = .answered q a) : Flight Q A where
  slot := .idle
  asked := f.asked
  answered := f.answered
  returned := f.returned ++ [(q, a)]
  asked_eq := by
    have before := f.asked_eq
    rw [waits] at before
    exact before
  answered_eq := by
    have before := f.answered_eq
    rw [waits] at before
    rw [before]
    exact (List.append_nil _).symm

theorem getElem?_append {α : Type} {l l' : List α} {x : α} {k : Nat} (h : l[k]? = some x) :
    (l ++ l')[k]? = some x := by
  have below : k < l.length := (List.getElem?_eq_some_iff.mp h).1
  rw [List.getElem?_append_left below, h]

variable (f : Flight Q A)

/-- Each answer that has been returned is the one given to the question of the same
    number. -/
theorem own_answer {k : Nat} (got : f.returned[k]? = some (q, a)) :
    f.answered[k]? = some (q, a) ∧ f.asked[k]? = some q := by
  have answered : f.answered[k]? = some (q, a) := by
    rw [f.answered_eq]
    exact getElem?_append got
  refine ⟨answered, ?_⟩
  have name : (f.answered.map Prod.fst)[k]? = some q := by
    rw [List.getElem?_map, answered]
    rfl
  rw [f.asked_eq]
  exact getElem?_append name

theorem length_answered : f.answered.length ≤ f.asked.length := by
  rw [f.asked_eq, List.length_append, List.length_map]
  exact Nat.le_add_right _ _

/-- At most one question has no answer that has been returned. -/
theorem length_asked : f.asked.length ≤ f.returned.length + 1 := by
  rw [f.asked_eq, f.answered_eq]
  cases f.slot <;> simp [Slot.question, Slot.answer]

end Flight

end SingleFlight
