import Mathlib.Data.List.Perm.Basic

/-!
# Sorting by a comparison

`std::sort` takes a comparison that says which of two elements comes first.  It promises an
order only if the comparison is a strict weak order of the elements (`StrictWeak`), and it
leaves open how equal elements are placed, so a sort is any function with this promise
(`Sorter`).  `Sorter.insertion` is one.
-/

namespace Sorting

variable {α : Type} {less : α → α → Bool} {a : α} {xs : List α}

/-- The comparison is a strict weak order of the elements. -/
structure StrictWeak (less : α → α → Bool) (xs : List α) : Prop where
  asymm : ∀ a ∈ xs, ∀ b ∈ xs, less a b = true → less b a = false
  cotrans : ∀ a ∈ xs, ∀ b ∈ xs, ∀ c ∈ xs, less a c = true → less a b = true ∨ less b c = true

/-- No element comes after one that it is less than. -/
def Sorted (less : α → α → Bool) (xs : List α) : Prop := xs.Pairwise fun a b => less b a = false

/-- A sort: it keeps the elements, and it orders them if the comparison can be an order. -/
structure Sorter (α : Type) where
  sort : (less : α → α → Bool) → List α → List α
  perm : ∀ less xs, (sort less xs).Perm xs
  sorted : ∀ less xs, StrictWeak less xs → Sorted less (sort less xs)

theorem StrictWeak.subset {ys : List α} (weak : StrictWeak less xs) (sub : ys ⊆ xs) :
    StrictWeak less ys where
  asymm a ha b hb := weak.asymm a (sub ha) b (sub hb)
  cotrans a ha b hb c hc := weak.cotrans a (sub ha) b (sub hb) c (sub hc)

/-! ## Insertion sort -/

def insertBy (less : α → α → Bool) (a : α) : List α → List α
  | [] => [a]
  | b :: xs => if less b a then b :: insertBy less a xs else a :: b :: xs

def insertionSort (less : α → α → Bool) : List α → List α
  | [] => []
  | a :: xs => insertBy less a (insertionSort less xs)

theorem insertBy_perm : (insertBy less a xs).Perm (a :: xs) := by
  induction xs with
  | nil => exact .refl _
  | cons b xs ih =>
      rw [insertBy]
      split
      · exact (ih.cons b).trans (.swap a b xs)
      · exact .refl _

theorem insertionSort_perm (less : α → α → Bool) (xs : List α) :
    (insertionSort less xs).Perm xs := by
  induction xs with
  | nil => exact .refl _
  | cons a xs ih => exact insertBy_perm.trans (ih.cons a)

theorem sorted_insertBy (weak : StrictWeak less (a :: xs)) (sorted : Sorted less xs) :
    Sorted less (insertBy less a xs) := by
  induction xs with
  | nil => exact List.pairwise_singleton _ a
  | cons b xs ih =>
      have sub : a :: xs ⊆ a :: b :: xs := List.cons_subset_cons a (List.subset_cons_self b xs)
      obtain ⟨first, rest⟩ := List.pairwise_cons.mp sorted
      have a_mem : a ∈ a :: b :: xs := List.mem_cons_self
      have b_mem : b ∈ a :: b :: xs := List.mem_cons_of_mem a List.mem_cons_self
      rw [insertBy]
      split
      case isTrue before =>
        refine List.pairwise_cons.mpr ⟨?_, ih (weak.subset sub) rest⟩
        intro c member
        rcases List.mem_cons.mp (insertBy_perm.subset member) with same | member
        · subst same
          exact weak.asymm b b_mem c a_mem before
        · exact first c member
      case isFalse after =>
        refine List.pairwise_cons.mpr ⟨?_, sorted⟩
        intro c member
        rcases List.mem_cons.mp member with same | member
        · subst same
          exact Bool.eq_false_iff.mpr after
        · -- what is less than `a` is less than `b`, or `b` is less than `a`
          have c_mem : c ∈ a :: b :: xs := sub (List.mem_cons_of_mem a member)
          by_contra less_a
          rcases weak.cotrans c c_mem b b_mem a a_mem ((Bool.not_eq_false _).mp less_a) with
            less_b | b_less
          · exact Bool.eq_false_iff.mp (first c member) less_b
          · exact after b_less

theorem sorted_insertionSort (less : α → α → Bool) (xs : List α) (weak : StrictWeak less xs) :
    Sorted less (insertionSort less xs) := by
  induction xs with
  | nil => exact List.Pairwise.nil
  | cons a xs ih =>
      have rest := ih (weak.subset (List.subset_cons_self a xs))
      refine sorted_insertBy (weak.subset ?_) rest
      exact List.cons_subset_cons a (insertionSort_perm less xs).subset

def Sorter.insertion : Sorter α where
  sort := insertionSort
  perm := insertionSort_perm
  sorted := sorted_insertionSort

end Sorting
