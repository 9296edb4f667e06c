import Mathlib.Data.List.Basic

/-!
# A journal that is written out behind the changes

A value is changed in memory and written to a store now and then.  Its journal has the
entries that have been written out (`kept`) and those that exist in memory only
(`pending`).  `flush` writes all of them, `lose` is what a crash does.  Entries are never
reordered or repeated: those of a journal are a sublist of what has been added.
-/

namespace WriteBehind

structure Journal (ι : Type) where
  kept : List ι
  pending : List ι
  deriving DecidableEq

namespace Journal

variable {ι κ : Type} {j : Journal ι} {i : ι}

def start : Journal ι := ⟨[], []⟩

/-- All entries, in the order in which they were added. -/
def entries (j : Journal ι) : List ι := j.kept ++ j.pending

def add (j : Journal ι) (i : ι) : Journal ι := { j with pending := j.pending ++ [i] }

def flush (j : Journal ι) : Journal ι := ⟨j.entries, []⟩

def lose (j : Journal ι) : Journal ι := { j with pending := [] }

@[simp] theorem entries_start : (start : Journal ι).entries = [] := rfl

@[simp] theorem entries_add : (j.add i).entries = j.entries ++ [i] :=
  (List.append_assoc _ _ _).symm

@[simp] theorem entries_flush : j.flush.entries = j.entries := List.append_nil _

@[simp] theorem entries_lose : j.lose.entries = j.kept := List.append_nil _

@[simp] theorem kept_add : (j.add i).kept = j.kept := rfl

@[simp] theorem kept_flush : j.flush.kept = j.entries := rfl

@[simp] theorem kept_lose : j.lose.kept = j.kept := rfl

@[simp] theorem pending_flush : j.flush.pending = [] := rfl

@[simp] theorem pending_lose : j.lose.pending = [] := rfl

@[simp] theorem length_pending_add : (j.add i).pending.length = j.pending.length + 1 :=
  List.length_append

/-- What has been written out is a part of the whole. -/
theorem kept_part : j.kept <+: j.entries := List.prefix_append _ _

theorem entries_eq_kept (nothing : j.pending = []) : j.entries = j.kept := by
  rw [entries, nothing, List.append_nil]

/-- A crash adds nothing. -/
theorem sublist_lose {f : ι → Option κ} {all : List κ}
    (sub : (j.entries.filterMap f).Sublist all) : (j.lose.entries.filterMap f).Sublist all := by
  rw [entries_lose]
  exact ((kept_part.sublist).filterMap f).trans sub

/-- An entry is added behind the others. -/
theorem sublist_add {f : ι → Option κ} {all more : List κ}
    (sub : (j.entries.filterMap f).Sublist all) (added : (f i).toList.Sublist more) :
    ((j.add i).entries.filterMap f).Sublist (all ++ more) := by
  rw [entries_add, List.filterMap_append]
  refine sub.append ?_
  cases worth : f i with
  | none => rw [List.filterMap_cons_none worth]; exact List.nil_sublist _
  | some x =>
      rw [worth] at added
      rw [List.filterMap_cons_some worth]
      exact added

end Journal

end WriteBehind
