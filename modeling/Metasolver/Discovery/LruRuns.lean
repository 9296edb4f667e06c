import Metasolver.Discovery.LruCache
import Metasolver.Lib.Exec

/-!
# Runs of `lru_cache`

Any sequence of calls on a new cache.  Each call is simulated by `RecencyList.step`, with the
same reply, so the cache is a list of entries in the order of use (`lruCache_refines`).  A
`get` that throws has looked for the key before anything else and leaves the cache as it was.
-/

namespace Metasolver

open Exec RecencyList

namespace LruCache

variable {K V : Type} [DecidableEq K] {c : LruCache K V}

/-- One call and its reply; nothing if the call is undefined. -/
def perform (c : LruCache K V) : Op K V → Option (Reply V × LruCache K V)
  | .put k v =>
      match c.put k v with
      | .ok c' => some (.done, c')
      | .error _ => none
  | .get k =>
      match c.get k with
      | .ok (v, c') => some (.value v, c')
      | .error (.exception _) => some (.absent, c)
      | .error .undefinedBehaviour => none
  | .contains k => some (.answer (c.contains k), c)
  | .erase k =>
      match c.erase k with
      | .ok c' => some (.done, c')
      | .error _ => none
  | .clear => some (.done, c.clear)

/-- A call, its reply written down. -/
def performNext (s : List (Op K V × Reply V) × LruCache K V) (op : Op K V) :
    Option (List (Op K V × Reply V) × LruCache K V) :=
  (s.2.perform op).map fun r => (s.1 ++ [(op, r.1)], r.2)

/-- Every call is defined, and does what the call on the list of entries does. -/
theorem Valid.perform (valid : c.Valid) (op : Op K V) :
    ∃ c', ∃ valid' : c'.Valid,
      c.perform op = some ((RecencyList.step c.cap valid.entries op).1, c') ∧ c'.cap = c.cap ∧
      valid'.entries = (RecencyList.step c.cap valid.entries op).2 := by
  have bounded : valid.entries.entries.length ≤ c.cap :=
    (List.length_map _).trans_le valid.bounded
  cases op with
  | put k v =>
      obtain ⟨c', valid', stored, cap, entries⟩ := valid.put k v
      refine ⟨c', valid', ?_, cap, ?_⟩
      · rw [step_put valid.pos bounded, LruCache.perform, stored]
      · rw [step_put valid.pos bounded, entries]
  | get k =>
      by_cases present : k ∈ c.itemsMap
      · obtain ⟨v, c', valid', got, value, cap, entries⟩ := valid.get_of_mem present
        refine ⟨c', valid', ?_, cap, ?_⟩
        · rw [step_get_of_lookup value, LruCache.perform, got]
        · rw [step_get_of_lookup value, entries]
      · have absent : valid.entries.lookup k = none :=
          AList.lookup_eq_none.mpr (mt valid.mem_entries.mp present)
        refine ⟨c, valid, ?_, rfl, ?_⟩
        · simp only [LruCache.perform, get_of_notMem present, RecencyList.step, absent]
        · simp only [RecencyList.step, absent]
  | contains k =>
      refine ⟨c, valid, ?_, rfl, rfl⟩
      simp only [LruCache.perform, LruCache.contains, RecencyList.step, valid.mem_entries]
  | erase k =>
      obtain ⟨c', valid', erased, cap, entries⟩ := valid.erase k
      exact ⟨c', valid', by simp only [LruCache.perform, erased, RecencyList.step], cap, entries⟩
  | clear =>
      obtain ⟨valid', entries⟩ := valid.clear
      exact ⟨c.clear, valid', rfl, rfl, entries⟩

theorem exec_performNext {cap : Nat} (pos : 0 < cap) (ops : List (Op K V)) :
    ∃ c, ∃ valid : c.Valid, exec performNext ([], { cap }) ops = some ((run cap ops).1, c) ∧
      c.cap = cap ∧ valid.entries = (run cap ops).2 := by
  induction ops using List.reverseRecOn with
  | nil => exact ⟨{ cap }, valid_start pos, rfl, rfl, rfl⟩
  | append_singleton ops op ih =>
      obtain ⟨c, valid, reached, rfl, entries⟩ := ih
      obtain ⟨c', valid', performed, same, entries'⟩ := valid.perform op
      refine ⟨c', valid', exec_snoc.mpr ⟨_, reached, ?_⟩, same, ?_⟩
      · rw [performNext, performed, run_snoc, after, ← entries]
        rfl
      · rw [entries', run_snoc, after, ← entries]

/-- The keys of the map are those of the list, and to follow an iterator leads to the node
    of its key. -/
theorem Valid.iterators (valid : c.Valid) :
    (∀ k, k ∈ c.itemsMap ↔ k ∈ c.items.map ListNode.key) ∧
      ∀ k a, c.itemsMap.lookup k = some a → ∃ n ∈ c.items, c.deref a = .ok n ∧ n.key = k := by
  constructor
  · intro k
    rw [← valid.mem_entries, AList.mem_keys, ← keys_map_entry]
    rfl
  · intro k a found
    obtain ⟨l₁, n, l₂, split, key, address⟩ := valid.split found
    refine ⟨n, ?_, address ▸ valid.deref split, key⟩
    rw [split]
    exact List.mem_append_right l₁ List.mem_cons_self

end LruCache

/-- A cache of any capacity, after any sequence of calls, has replied as the list of entries
    does and holds its entries, each once and at most as many as its capacity; map and list
    agree.  If nothing has been erased, it holds the keys touched most recently, and what
    `get` has found was put last. -/
theorem lruCache_refines {K V : Type} [DecidableEq K] (cap : Nat) (ops : List (Op K V))
    (pos : 1 ≤ cap) :
    ∃ c, ∃ valid : c.Valid,
      exec LruCache.performNext ([], { cap }) ops = some ((run cap ops).1, c) ∧
      valid.entries = (run cap ops).2 ∧ valid.entries.entries.length ≤ cap ∧
      (∀ k, k ∈ c.itemsMap ↔ k ∈ c.items.map ListNode.key) ∧
      (∀ k a, c.itemsMap.lookup k = some a → ∃ n ∈ c.items, c.deref a = .ok n ∧ n.key = k) ∧
      ((∀ op ∈ ops, keeps op = true) →
        (∀ k, c.contains k = true ↔
          k ∈ ((touches (run cap ops).1).dedup.reverse).take cap) ∧
        valid.entries.keys = ((touches (run cap ops).1).dedup.reverse).take cap ∧
        History.EachAfter Current (run cap ops).1) := by
  obtain ⟨c, valid, reached, same, entries⟩ := LruCache.exec_performNext pos ops
  obtain ⟨keys, iterators⟩ := valid.iterators
  refine ⟨c, valid, reached, entries, ?_, keys, iterators, fun kept => ?_⟩
  · rw [← same]
    exact (List.length_map _).trans_le valid.bounded
  · obtain ⟨recent, current⟩ := run_recent pos kept
    have order : valid.entries.keys = ((touches (run cap ops).1).dedup.reverse).take cap := by
      rw [entries]
      exact recent.keys
    refine ⟨fun k => ?_, order, current⟩
    rw [LruCache.contains, decide_eq_true_iff, ← valid.mem_entries, AList.mem_keys, order]

/-- Two entries at most, and three keys touched. -/
def threeKeys : List (Op String Nat) :=
  [.put "a" 1, .put "b" 2, .get "a", .put "c" 3, .get "b"]

theorem lruCache_refines_three_keys :
    ∃ c, ∃ valid : c.Valid,
      exec LruCache.performNext ([], { cap := 2 }) threeKeys = some ((run 2 threeKeys).1, c) ∧
      valid.entries.keys = ["c", "a"] := by
  obtain ⟨c, valid, reached, -, -, -, -, recent⟩ :=
    lruCache_refines 2 threeKeys (by decide)
  exact ⟨c, valid, reached, (recent (by decide)).2.1⟩

end Metasolver
