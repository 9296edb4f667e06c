import Mathlib.Data.List.Perm.Basic
import Mathlib.Data.List.Nodup

/-!
# Numbered tickets

A book of tickets: each ticket is issued with a number of its own, stays open for a while,
and is then settled with an entry or voided.  No ticket is in two places of the book, which
is part of the book.
-/

namespace Tickets

structure Ticket (α : Type) where
  number : Nat
  content : α
  deriving DecidableEq, Repr

structure Book (α γ : Type) where
  next : Nat
  outstanding : List (Ticket α)
  settled : List (Ticket α × γ)
  voided : List (Ticket α)
  distinct : ((settled.map Prod.fst ++ voided ++ outstanding).map Ticket.number).Nodup
  below : ∀ t ∈ settled.map Prod.fst ++ voided ++ outstanding, t.number < next

namespace Book

variable {α γ : Type}

/-- Every ticket that has been issued. -/
def issued (b : Book α γ) : List (Ticket α) := b.settled.map Prod.fst ++ b.voided ++ b.outstanding

def empty : Book α γ where
  next := 0
  outstanding := []
  settled := []
  voided := []
  distinct := List.nodup_nil
  below t member := by cases member

/-- The outstanding tickets with a content selected by `p`. -/
def select (b : Book α γ) (p : α → Bool) : List (Ticket α) :=
  b.outstanding.filter fun t => p t.content

/-- The other ones. -/
def others (b : Book α γ) (p : α → Bool) : List (Ticket α) :=
  b.outstanding.filter fun t => !p t.content

theorem perm_select (b : Book α γ) (p : α → Bool) :
    (b.select p ++ b.others p).Perm b.outstanding :=
  List.filter_append_perm (fun t : Ticket α => p t.content) b.outstanding

def issue (b : Book α γ) (content : α) : Book α γ where
  next := b.next + 1
  outstanding := b.outstanding ++ [⟨b.next, content⟩]
  settled := b.settled
  voided := b.voided
  distinct := by
    rw [← List.append_assoc, List.map_append, List.nodup_append]
    refine ⟨b.distinct, List.nodup_singleton _, ?_⟩
    rintro n old m new rfl
    obtain ⟨t, member, rfl⟩ := List.mem_map.mp old
    have smaller := b.below t member
    obtain same : t.number = b.next := List.mem_singleton.mp new
    exact absurd same (Nat.ne_of_lt smaller)
  below t member := by
    rw [← List.append_assoc, List.mem_append] at member
    rcases member with old | new
    · exact Nat.lt_succ_of_lt (b.below t old)
    · obtain rfl := List.mem_singleton.mp new
      exact Nat.lt_succ_self b.next

theorem perm_settle (b : Book α γ) (p : α → Bool) (entry : γ) :
    ((b.settled ++ (b.select p).map fun t => (t, entry)).map Prod.fst ++ b.voided ++
      b.others p).Perm b.issued := by
  have settled : (b.settled ++ (b.select p).map fun t => (t, entry)).map Prod.fst =
      b.settled.map Prod.fst ++ b.select p := by
    rw [List.map_append, List.map_map]
    exact congrArg (b.settled.map Prod.fst ++ ·) (List.map_id _)
  rw [settled, issued, List.append_assoc, List.append_assoc, List.append_assoc]
  refine List.Perm.append_left _ ?_
  have moved : (b.select p ++ (b.voided ++ b.others p)).Perm
      (b.voided ++ (b.select p ++ b.others p)) := List.perm_append_comm_assoc _ _ _
  exact moved.trans ((b.perm_select p).append_left _)

/-- All outstanding tickets selected by `p` are settled with one entry. -/
def settle (b : Book α γ) (p : α → Bool) (entry : γ) : Book α γ where
  next := b.next
  outstanding := b.others p
  settled := b.settled ++ (b.select p).map fun t => (t, entry)
  voided := b.voided
  distinct := ((b.perm_settle p entry).map Ticket.number).nodup_iff.mpr b.distinct
  below t member := b.below t ((b.perm_settle p entry).mem_iff.mp member)

theorem perm_void (b : Book α γ) (p : α → Bool) :
    (b.settled.map Prod.fst ++ (b.voided ++ b.select p) ++ b.others p).Perm b.issued := by
  rw [issued, List.append_assoc, List.append_assoc, List.append_assoc]
  exact ((b.perm_select p).append_left _).append_left _

/-- All outstanding tickets selected by `p` are voided. -/
def void (b : Book α γ) (p : α → Bool) : Book α γ where
  next := b.next
  outstanding := b.others p
  settled := b.settled
  voided := b.voided ++ b.select p
  distinct := ((b.perm_void p).map Ticket.number).nodup_iff.mpr b.distinct
  below t member := b.below t ((b.perm_void p).mem_iff.mp member)

/-- No ticket is settled twice. -/
theorem nodup_settled (b : Book α γ) : (b.settled.map fun s => s.1.number).Nodup := by
  have distinct := b.distinct
  rw [List.append_assoc, List.map_append, List.nodup_append, List.map_map] at distinct
  exact distinct.1

/-- A ticket that has been voided is never settled. -/
theorem ne_of_voided (b : Book α γ) {t : Ticket α} (voided : t ∈ b.voided) :
    ∀ s ∈ b.settled, s.1.number ≠ t.number := by
  intro s settled
  have distinct := b.distinct
  rw [List.append_assoc, List.map_append, List.nodup_append] at distinct
  refine distinct.2.2 _ (List.mem_map_of_mem (List.mem_map_of_mem settled)) _ ?_
  exact List.mem_map_of_mem (List.mem_append_left _ voided)

/-! ## What is outstanding after one operation -/

variable {b : Book α γ} {p q : α → Bool} {content : α} {entry : γ}

theorem select_issue : (b.issue content).select q =
    b.select q ++ if q content then [⟨b.next, content⟩] else [] := by
  rw [select, issue, List.filter_append, select]
  cases selected : q content <;> simp [selected]

theorem select_others_of_imp (all : ∀ a, q a = true → p a = true) :
    (b.others p).filter (fun t => q t.content) = [] := by
  rw [others, List.filter_filter, List.filter_eq_nil_iff]
  intro t _ both
  rw [Bool.and_eq_true, Bool.not_eq_true'] at both
  exact absurd (all _ both.1) (by rw [both.2]; decide)

theorem select_others_of_disjoint (apart : ∀ a, q a = true → p a = false) :
    (b.others p).filter (fun t => q t.content) = b.select q := by
  rw [others, List.filter_filter, select]
  refine List.filter_congr fun t _ => ?_
  cases selected : q t.content with
  | false => rfl
  | true => rw [apart _ selected]; rfl

end Book

end Tickets
