import Mathlib.Data.List.Induction

/-!
# Histories

A history is a list that grows at its end.  `EachAfter ok l` says that every
element of `l` was acceptable after the elements before it: `ok` sees the prefix
and the element.
-/

namespace History

variable {α : Type} {ok : List α → α → Prop} {l pre post : List α} {a : α}

inductive EachAfter (ok : List α → α → Prop) : List α → Prop
  | nil : EachAfter ok []
  | snoc (l : List α) (a : α) : EachAfter ok l → ok l a → EachAfter ok (l ++ [a])

theorem eachAfter_snoc : EachAfter ok (l ++ [a]) ↔ EachAfter ok l ∧ ok l a := by
  constructor
  · intro h
    generalize whole : l ++ [a] = l' at h
    cases h with
    | nil => simp at whole
    | snoc k b before last =>
        obtain ⟨rfl, same⟩ := List.append_inj' whole rfl
        obtain rfl : a = b := by simpa using same
        exact ⟨before, last⟩
  · rintro ⟨before, last⟩
    exact .snoc l a before last

/-- What a history says about the element at any place in it. -/
theorem EachAfter.at_split (h : EachAfter ok (pre ++ a :: post)) : ok pre a := by
  induction post using List.reverseRecOn with
  | nil => exact (eachAfter_snoc.mp h).2
  | append_singleton post b ih =>
      rw [← List.cons_append, ← List.append_assoc, eachAfter_snoc] at h
      exact ih h.1

end History
