import Mathlib.Order.Bounds.Basic

/-!
# A running maximum

A loop that keeps the best element so far next to its value.  An element whose value
equals the best one replaces it, so of several best elements the last is found.  If
no value is below the one the loop starts with, the element found is one of the
list and its value is the greatest, whatever the order of the list.
-/

namespace RunningMax

variable {α β : Type} [LinearOrder β] {f : α → β} {best : β × α} {a b : α} {l : List α}

/-- `a` replaces the best element so far unless its value is smaller. -/
def keepBest (f : α → β) (best : β × α) (a : α) : β × α :=
  if best.1 ≤ f a then (f a, a) else best

theorem keepBest_of_le (h : best.1 ≤ f a) : keepBest f best a = (f a, a) := if_pos h

theorem keepBest_eq_or : keepBest f best a = (f a, a) ∨ keepBest f best a = best := by
  unfold keepBest
  split_ifs
  · exact Or.inl rfl
  · exact Or.inr rfl

theorem le_keepBest : best.1 ≤ (keepBest f best a).1 := by
  unfold keepBest
  split_ifs with h
  · exact h
  · exact le_refl _

theorem value_le_keepBest : f a ≤ (keepBest f best a).1 := by
  unfold keepBest
  split_ifs with h
  · exact le_refl _
  · exact (not_le.mp h).le

/-- The value kept never decreases. -/
theorem le_foldl (f : α → β) (best : β × α) (l : List α) :
    best.1 ≤ (l.foldl (keepBest f) best).1 := by
  induction l generalizing best with
  | nil => exact le_refl _
  | cons a l ih =>
      rw [List.foldl_cons]
      exact le_keepBest.trans (ih _)

theorem value_le_foldl (member : a ∈ l) : f a ≤ (l.foldl (keepBest f) best).1 := by
  induction l generalizing best with
  | nil => cases member
  | cons b l ih =>
      rw [List.foldl_cons]
      rcases List.mem_cons.mp member with rfl | later
      · exact value_le_keepBest.trans (le_foldl _ _ _)
      · exact ih later

theorem foldl_eq_or :
    l.foldl (keepBest f) best = best ∨ ∃ a ∈ l, l.foldl (keepBest f) best = (f a, a) := by
  induction l generalizing best with
  | nil => exact Or.inl rfl
  | cons b l ih =>
      rw [List.foldl_cons]
      rcases @ih (keepBest f best b) with same | ⟨a, member, found⟩
      · rw [same]
        rcases @keepBest_eq_or _ _ _ f best b with new | old
        · exact Or.inr ⟨b, List.mem_cons_self, new⟩
        · exact Or.inl old
      · exact Or.inr ⟨a, List.mem_cons_of_mem b member, found⟩

/-- If no value is below the one at the start, an element of the list is found. -/
theorem foldl_found (nonempty : l ≠ []) (low : ∀ a ∈ l, best.1 ≤ f a) :
    ∃ a ∈ l, l.foldl (keepBest f) best = (f a, a) := by
  cases l with
  | nil => exact absurd rfl nonempty
  | cons a l =>
      rw [List.foldl_cons, keepBest_of_le (low a List.mem_cons_self)]
      rcases @foldl_eq_or _ _ _ f (f a, a) l with same | ⟨b, member, found⟩
      · exact ⟨a, List.mem_cons_self, same⟩
      · exact ⟨b, List.mem_cons_of_mem a member, found⟩

/-- And its value is the greatest. -/
theorem isGreatest_foldl (nonempty : l ≠ []) (low : ∀ a ∈ l, best.1 ≤ f a) :
    (l.foldl (keepBest f) best).2 ∈ l ∧
      f (l.foldl (keepBest f) best).2 = (l.foldl (keepBest f) best).1 ∧
      IsGreatest (Set.image f {a | a ∈ l}) (l.foldl (keepBest f) best).1 := by
  obtain ⟨a, member, found⟩ := foldl_found nonempty low
  have upper : ∀ b ∈ l, f b ≤ f a := by
    intro b inside
    have le := @value_le_foldl _ _ _ f best b l inside
    rwa [found] at le
  rw [found]
  refine ⟨member, rfl, ⟨a, member, rfl⟩, ?_⟩
  intro value attained
  obtain ⟨b, inside, rfl⟩ := attained
  exact upper b inside

end RunningMax
