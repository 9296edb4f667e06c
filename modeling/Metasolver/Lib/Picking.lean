import Mathlib.Data.List.Nodup
import Mathlib.Data.List.Forall2
import Mathlib.Data.List.Range

/-!
# Picking by index

`pick l idx` are the elements of `l` at the indexes `idx`, in that order.  Picking commutes
with what is done to all elements, and distinct indexes pick distinct slots.

The slots of a list of lists are the pairs of a list and a place in it; there is one for
each element of the flattened list (`forall₂_slots`).
-/

namespace Picking

variable {α γ : Type} {l : List α} {idx : List Nat} {N : Nat}

/-- The elements at the indexes; an index outside of the list picks nothing. -/
def pick (l : List α) (idx : List Nat) : List α := idx.filterMap fun k => l[k]?

@[simp] theorem pick_nil : pick l [] = [] := rfl

theorem pick_cons {a : α} {k : Nat} (found : l[k]? = some a) :
    pick l (k :: idx) = a :: pick l idx :=
  List.filterMap_cons_some found

theorem mem_pick {a : α} : a ∈ pick l idx ↔ ∃ k ∈ idx, l[k]? = some a := List.mem_filterMap

/-- Indexes inside of the list pick one element each. -/
theorem mapM_getElem? (inside : ∀ k ∈ idx, k < l.length) :
    idx.mapM (fun k => l[k]?) = some (pick l idx) := by
  induction idx with
  | nil => rfl
  | cons k idx ih =>
      have found := List.getElem?_eq_getElem (inside k List.mem_cons_self)
      have rest := ih fun j member => inside j (List.mem_cons_of_mem k member)
      rw [List.mapM_cons, found, rest, pick_cons found]
      rfl

/-- A loop whose every round has a result. -/
theorem mapM_of_forall {δ : Type} {f : α → Option γ} {g : δ → γ} {Q : α → δ → Prop}
    (each : ∀ a ∈ l, ∃ d, f a = some (g d) ∧ Q a d) :
    ∃ ds, l.mapM f = some (ds.map g) ∧ List.Forall₂ Q l ds := by
  induction l with
  | nil => exact ⟨[], rfl, .nil⟩
  | cons a l ih =>
      obtain ⟨d, round, holds⟩ := each a List.mem_cons_self
      obtain ⟨ds, rest, all⟩ := ih fun c member => each c (List.mem_cons_of_mem a member)
      refine ⟨d :: ds, ?_, .cons holds all⟩
      rw [List.mapM_cons, round, rest]
      rfl

theorem forall_of_forall₂ {P : γ → Prop} {l' : List γ} (h : List.Forall₂ (fun _ b => P b) l l') :
    ∀ b ∈ l', P b := by
  induction h with
  | nil => nofun
  | cons first _ ih => exact List.forall_mem_cons.mpr ⟨first, ih⟩

theorem exists_getElem? {k : Nat} (inside : k < l.length) : ∃ a, l[k]? = some a :=
  ⟨_, List.getElem?_eq_getElem inside⟩

theorem map_getElem?_range (l : List α) :
    (List.range l.length).map (fun k => l[k]?) = l.map some := by
  refine List.ext_getElem (by simp) fun k inside _ => ?_
  have inside : k < l.length := by simpa using inside
  simp [inside]

theorem map_getElem? (inside : ∀ k ∈ idx, k < l.length) :
    idx.map (fun k => l[k]?) = (pick l idx).map some := by
  induction idx with
  | nil => rfl
  | cons k idx ih =>
      obtain ⟨a, found⟩ := exists_getElem? (inside k List.mem_cons_self)
      have rest := ih fun j member => inside j (List.mem_cons_of_mem k member)
      rw [List.map_cons, found, rest, pick_cons found, List.map_cons]

theorem length_pick (inside : ∀ k ∈ idx, k < l.length) : (pick l idx).length = idx.length := by
  induction idx with
  | nil => rfl
  | cons k idx ih =>
      rw [pick_cons (List.getElem?_eq_getElem (inside k List.mem_cons_self)), List.length_cons,
        List.length_cons, ih fun j member => inside j (List.mem_cons_of_mem k member)]

theorem pick_map (f : α → γ) : pick (l.map f) idx = (pick l idx).map f := by
  simp only [pick, List.map_filterMap, List.getElem?_map]

/-- Two lists that match place by place are picked from alike. -/
theorem forall₂_pick {R : α → γ → Prop} {l' : List γ} (h : List.Forall₂ R l l') :
    List.Forall₂ R (pick l idx) (pick l' idx) := by
  induction idx with
  | nil => exact .nil
  | cons k idx ih =>
      by_cases inside : k < l.length
      · have inside' : k < l'.length := h.length_eq ▸ inside
        rw [pick_cons (List.getElem?_eq_getElem inside),
          pick_cons (List.getElem?_eq_getElem inside')]
        exact .cons (h.get inside inside') ih
      · have outside' : ¬k < l'.length := h.length_eq ▸ inside
        have none_ : l[k]? = none := List.getElem?_eq_none (Nat.le_of_not_lt inside)
        have none' : l'[k]? = none := List.getElem?_eq_none (Nat.le_of_not_lt outside')
        rw [pick, pick, List.filterMap_cons_none none_, List.filterMap_cons_none none']
        exact ih

/-- One element is replaced by another with the same counterpart. -/
theorem forall₂_set {R : α → γ → Prop} {l' : List γ} (h : List.Forall₂ R l l') {k : Nat} {b b' : γ}
    (found : l'[k]? = some b) (same : ∀ a ∈ l, R a b → R a b') :
    List.Forall₂ R l (l'.set k b') := by
  induction h generalizing k with
  | nil => cases found
  | cons first rest ih =>
      cases k with
      | zero =>
          obtain rfl := Option.some.inj found
          exact .cons (same _ List.mem_cons_self first) rest
      | succ k =>
          exact .cons first (ih found fun a member => same a (List.mem_cons_of_mem _ member))

theorem nodup_pick (distinct : l.Nodup) (indexes : idx.Nodup) : (pick l idx).Nodup := by
  apply indexes.filterMap
  intro k j a first second
  have inside := (List.getElem?_eq_some_iff.mp first).1
  exact (List.getElem?_inj inside distinct).mp (first.trans second.symm)

theorem pairwise_pick {S : Nat → Nat → Prop} {R : α → α → Prop} (indexes : idx.Pairwise S)
    (implies : ∀ k j a b, S k j → l[k]? = some a → l[j]? = some b → R a b) :
    (pick l idx).Pairwise R := by
  refine List.pairwise_filterMap.mpr (indexes.imp ?_)
  intro k j related a first b second
  exact implies k j a b related first second

/-! ## The first of an order -/

/-- In a sorted list the elements after a cut are related to the ones before it. -/
theorem pairwise_take_drop {R : α → α → Prop} {a b : α} (sorted : l.Pairwise R)
    (before : a ∈ l.take N) (after : b ∈ l.drop N) : R a b := by
  rw [← List.take_append_drop N l] at sorted
  exact (List.pairwise_append.mp sorted).2.2 a before b after

/-- The first of an order of all indexes are distinct indexes of the list. -/
theorem first_of_perm {n : Nat} (perm : idx.Perm (List.range n)) :
    (idx.take N).length = min N n ∧ (idx.take N).Nodup ∧ ∀ k ∈ idx.take N, k < n := by
  have length : idx.length = n := perm.length_eq.trans (List.length_range)
  have distinct : idx.Nodup := perm.nodup_iff.mpr List.nodup_range
  refine ⟨by rw [List.length_take, length], distinct.sublist (List.take_sublist N idx), ?_⟩
  intro k member
  exact List.mem_range.mp (perm.subset (List.mem_of_mem_take member))

/-! ## Slots of a list of lists -/

/-- The element in the slot, if there is one. -/
def entry (ls : List (List α)) (slot : Nat × Nat) : Option α := ls[slot.1]?.bind (·[slot.2]?)

/-- The slots of the lists, which are counted from `i` on. -/
def slotsFrom (i : Nat) : List (List α) → List (Nat × Nat)
  | [] => []
  | l :: ls => (List.range l.length).map (fun j => (i, j)) ++ slotsFrom (i + 1) ls

def slots (ls : List (List α)) : List (Nat × Nat) := slotsFrom 0 ls

theorem le_of_mem_slotsFrom {ls : List (List α)} {i : Nat} {slot : Nat × Nat}
    (member : slot ∈ slotsFrom i ls) : i ≤ slot.1 := by
  induction ls generalizing i with
  | nil => cases member
  | cons l ls ih =>
      rcases List.mem_append.mp member with here | later
      · obtain ⟨j, -, rfl⟩ := List.mem_map.mp here
        exact le_refl i
      · exact Nat.le_of_succ_le (ih later)

theorem nodup_slotsFrom {ls : List (List α)} {i : Nat} : (slotsFrom i ls).Nodup := by
  induction ls generalizing i with
  | nil => exact List.nodup_nil
  | cons l ls ih =>
      refine List.nodup_append.mpr ⟨?_, ih, ?_⟩
      · exact List.nodup_range.map fun j k same => (Prod.mk.inj same).2
      · intro slot here other later same
        obtain ⟨j, -, rfl⟩ := List.mem_map.mp here
        subst same
        exact Nat.not_succ_le_self i (le_of_mem_slotsFrom later)

theorem nodup_slots {ls : List (List α)} : (slots ls).Nodup := nodup_slotsFrom

/-- The elements of a list in their places. -/
theorem forall₂_range (l : List α) :
    List.Forall₂ (fun j a => l[j]? = some a) (List.range l.length) l := by
  rw [List.forall₂_iff_get]
  refine ⟨List.length_range, fun j before inside => ?_⟩
  rw [List.get_eq_getElem, List.getElem_range, List.get_eq_getElem, List.getElem?_eq_getElem]

theorem forall₂_slotsFrom {ls : List (List α)} (i : Nat) :
    List.Forall₂ (fun slot a => entry ls (slot.1 - i, slot.2) = some a) (slotsFrom i ls)
      ls.flatten := by
  induction ls generalizing i with
  | nil => exact .nil
  | cons l ls ih =>
      refine List.rel_append ?_ ?_
      · rw [List.forall₂_map_left_iff]
        refine (forall₂_range l).imp fun j a found => ?_
        rw [entry, Nat.sub_self]
        exact found
      · have later : List.Forall₂ (fun slot a => slot ∈ slotsFrom (i + 1) ls ∧
            entry ls (slot.1 - (i + 1), slot.2) = some a) (slotsFrom (i + 1) ls) ls.flatten :=
          (List.forall₂_and_left _ _).mpr ⟨fun slot member => member, ih (i + 1)⟩
        refine later.imp ?_
        rintro slot a ⟨member, found⟩
        have before := le_of_mem_slotsFrom member
        obtain ⟨k, shift⟩ : ∃ k, slot.1 - i = k + 1 := ⟨slot.1 - i - 1, by omega⟩
        have same : slot.1 - (i + 1) = k := by omega
        rw [same] at found
        rw [shift]
        exact found

theorem mem_slotsFrom {ls : List (List α)} {i k j : Nat} {a : α}
    (found : entry ls (k, j) = some a) : (i + k, j) ∈ slotsFrom i ls := by
  induction ls generalizing i k with
  | nil => cases found
  | cons l ls ih =>
      refine List.mem_append.mpr ?_
      cases k with
      | zero =>
          have inside : j < l.length := (List.getElem?_eq_some_iff.mp found).1
          exact Or.inl (List.mem_map.mpr ⟨j, List.mem_range.mpr inside, rfl⟩)
      | succ k =>
          have later : (i + 1 + k, j) ∈ slotsFrom (i + 1) ls := ih found
          rw [Nat.add_right_comm] at later
          exact Or.inr later

/-- Every place that holds an element is a slot. -/
theorem mem_slots {ls : List (List α)} {slot : Nat × Nat} {a : α}
    (found : entry ls slot = some a) : slot ∈ slots ls := by
  have member : (0 + slot.1, slot.2) ∈ slotsFrom 0 ls := mem_slotsFrom found
  rwa [Nat.zero_add] at member

/-- One slot for each element of the flattened list. -/
theorem forall₂_slots (ls : List (List α)) :
    List.Forall₂ (fun slot a => entry ls slot = some a) (slots ls) ls.flatten :=
  forall₂_slotsFrom 0

end Picking
