import Metasolver.Lib.History
import Metasolver.Lib.UnorderedMap

/-!
# Requests and replies

A conversation is a list of calls and replies of any number of parties, oldest
first.  A party has at most one call open at a time, in a `Proper` conversation:
it calls only when its last call has been answered and is answered only when it
has called.  `pending` is the set of open calls, and in a proper conversation the
calls of a party are its replies plus the one that may still be open.

A server that spreads its open calls over several places keeps the *ledger*
equation: the places together hold exactly `bag (pending l)`.  Because the keys
of a map are distinct, the equation alone says that every open call is in one
place only (`nodup_of_bag`).
-/

namespace RequestReply

variable {ι δ : Type} [DecidableEq ι]

inductive Event (ι δ : Type) where
  | call (i : ι) (d : δ)
  | reply (i : ι)

def advance (open_ : UnorderedMap ι δ) : Event ι δ → UnorderedMap ι δ
  | .call i d => open_.insert i d
  | .reply i => open_.erase i

/-- The calls that have not been answered, with their data. -/
def pending (l : List (Event ι δ)) : UnorderedMap ι δ := l.foldl advance ∅

def isCallOf (i : ι) : Event ι δ → Bool
  | .call j _ => j = i
  | .reply _ => false

def isReplyTo (i : ι) : Event ι δ → Bool
  | .call _ _ => false
  | .reply j => j = i

def calls (l : List (Event ι δ)) (i : ι) : Nat := l.countP (isCallOf i)

def replies (l : List (Event ι δ)) (i : ι) : Nat := l.countP (isReplyTo i)

/-- The event is allowed when these calls are open. -/
def Allowed (open_ : UnorderedMap ι δ) : Event ι δ → Prop
  | .call i _ => i ∉ open_
  | .reply i => i ∈ open_

/-- Every event of the conversation was allowed when it happened. -/
abbrev Proper (l : List (Event ι δ)) : Prop :=
  History.EachAfter (fun before e => Allowed (pending before) e) l

variable {l : List (Event ι δ)} {e : Event ι δ} {i : ι} {d : δ}

@[simp] theorem pending_nil : pending ([] : List (Event ι δ)) = ∅ := rfl

theorem pending_snoc : pending (l ++ [e]) = advance (pending l) e := by
  simp [pending]

/-- A party has called as often as it was answered, plus once if a call is open. -/
theorem balanced (proper : Proper l) (i : ι) :
    calls l i = replies l i + if i ∈ pending l then 1 else 0 := by
  induction proper with
  | nil => simp [calls, replies, Finmap.notMem_empty]
  | snoc l e _ allowed ih =>
      rw [pending_snoc, calls, replies, List.countP_append, List.countP_append]
      change calls l i + _ = replies l i + _ + _
      rw [ih]
      cases e with
      | call j d =>
          by_cases same : i = j
          · subst same
            have closed : i ∉ pending l := allowed
            simp [isCallOf, isReplyTo, advance, closed, Finmap.mem_insert]
          · simp [isCallOf, isReplyTo, advance, Finmap.mem_insert, same, Ne.symm same]
      | reply j =>
          by_cases same : i = j
          · subst same
            have opened : i ∈ pending l := allowed
            simp [isCallOf, isReplyTo, advance, opened, Finmap.mem_erase]
          · simp [isCallOf, isReplyTo, advance, Finmap.mem_erase, same, Ne.symm same]

/-! ## The ledger of a server -/

variable {m : UnorderedMap ι δ} {places : Multiset (ι × δ)}

omit [DecidableEq ι] in
/-- The keys of the ledger are distinct. -/
theorem nodup_of_bag (ledger : UnorderedMap.bag m = places) :
    (places.map Prod.fst).Nodup := by
  rw [← ledger, UnorderedMap.map_fst_bag]
  exact m.keys.nodup

/-- What the ledger holds is open, with the data of the call. -/
theorem lookup_of_ledger (ledger : UnorderedMap.bag m = places) (h : (i, d) ∈ places) :
    m.lookup i = some d := by
  rwa [← ledger, UnorderedMap.mem_bag] at h

/-- What is open is in the ledger. -/
theorem mem_ledger (ledger : UnorderedMap.bag m = places) (h : m.lookup i = some d) :
    (i, d) ∈ places := by
  rwa [← ledger, UnorderedMap.mem_bag]

/-- A new call enters the ledger. -/
theorem ledger_call (ledger : UnorderedMap.bag m = places) (closed : i ∉ m) :
    UnorderedMap.bag (m.insert i d) = (i, d) ::ₘ places := by
  rw [UnorderedMap.bag_insert closed, ledger]

/-- The answered call leaves it. -/
theorem ledger_reply (ledger : UnorderedMap.bag m = (i, d) ::ₘ places) :
    UnorderedMap.bag (m.erase i) = places := by
  have opened := lookup_of_ledger ledger (Multiset.mem_cons_self (i, d) places)
  rw [UnorderedMap.bag_erase opened, Multiset.cons_inj_right] at ledger
  exact ledger

end RequestReply
