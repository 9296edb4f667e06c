import Mathlib.Algebra.BigOperators.Group.Multiset.Basic
import Mathlib.Data.Finmap
import Mathlib.Data.List.Sort
import Mathlib.Data.Finset.Sort

/-!
# `unordered_map` and `unordered_set`

An unordered map is a finite map without order (`Finmap`), an unordered set a
`Finset`.  What the C++ containers add is an iteration order that the program
cannot predict: `IterationOrder` is such an order, one enumeration for every
content, and `begin` is its first element.  Code that calls `begin()` takes an
order as an argument, so a theorem for all orders covers every choice a container
can make.

`bag` forgets the keyed structure of a map and keeps its entries as a multiset.
Moving an entry from one map to another is then an equation between sums.
-/

/-- `std::unordered_map<K, V>`. -/
abbrev UnorderedMap (K V : Type) := Finmap (fun _ : K => V)

/-- An order in which the elements of each finite set are visited. -/
structure IterationOrder (α : Type) where
  toList : Finset α → List α
  nodup : ∀ s, (toList s).Nodup
  mem_toList : ∀ s a, a ∈ toList s ↔ a ∈ s

namespace IterationOrder

variable {α : Type}

/-- `*container.begin()`, or nothing on an empty container. -/
def begin (order : IterationOrder α) (s : Finset α) : Option α := (order.toList s).head?

theorem mem_of_begin {order : IterationOrder α} {s : Finset α} {a : α}
    (h : order.begin s = some a) : a ∈ s :=
  (order.mem_toList s a).mp (List.mem_of_head? h)

theorem toList_ne_nil (order : IterationOrder α) {s : Finset α} (nonempty : s.Nonempty) :
    order.toList s ≠ [] := by
  intro empty
  obtain ⟨a, member⟩ := nonempty
  rw [← order.mem_toList, empty] at member
  cases member

theorem begin_eq_none {order : IterationOrder α} {s : Finset α} :
    order.begin s = none ↔ s = ∅ := by
  rw [begin, List.head?_eq_none_iff, List.eq_nil_iff_forall_not_mem,
    Finset.eq_empty_iff_forall_notMem]
  exact forall_congr' fun a => not_congr (order.mem_toList s a)

/-- The enumeration in ascending order. -/
def ascending [LinearOrder α] : IterationOrder α where
  toList s := Quot.liftOn s.1 (fun l => l.insertionSort (· ≤ ·)) fun l₁ l₂ h =>
    have sorted : (l₁.insertionSort (· ≤ ·)).Perm (l₂.insertionSort (· ≤ ·)) :=
      (List.perm_insertionSort _ l₁).trans (h.trans (List.perm_insertionSort _ l₂).symm)
    sorted.eq_of_pairwise' (List.pairwise_insertionSort _ l₁) (List.pairwise_insertionSort _ l₂)
  nodup := by
    rintro ⟨⟨l⟩, hl⟩
    exact (List.perm_insertionSort _ l).nodup_iff.mpr hl
  mem_toList := by
    rintro ⟨⟨l⟩, hl⟩ a
    exact (List.perm_insertionSort _ l).mem_iff

end IterationOrder

namespace UnorderedMap

variable {K V : Type} [DecidableEq K] {m : UnorderedMap K V} {k k' : K} {v : V}

/-- `emplace`: an entry that is already there is kept. -/
def emplace (k : K) (v : V) (m : UnorderedMap K V) : UnorderedMap K V :=
  if k ∈ m then m else m.insert k v

/-- `*map.begin()` in the given iteration order of the keys. -/
def begin (order : IterationOrder K) (m : UnorderedMap K V) : Option (K × V) :=
  (order.begin m.keys).bind fun k => (m.lookup k).map fun v => (k, v)

theorem emplace_of_mem (h : k ∈ m) : emplace k v m = m := if_pos h

theorem emplace_of_notMem (h : k ∉ m) : emplace k v m = m.insert k v := if_neg h

theorem mem_emplace : k' ∈ emplace k v m ↔ k' = k ∨ k' ∈ m := by
  by_cases h : k ∈ m
  · rw [emplace_of_mem h]
    constructor
    · exact Or.inr
    · rintro (rfl | h')
      · exact h
      · exact h'
  · rw [emplace_of_notMem h, Finmap.mem_insert]

theorem keys_emplace : (emplace k v m).keys = insert k m.keys := by
  ext k'
  rw [Finmap.mem_keys, mem_emplace, Finset.mem_insert, Finmap.mem_keys]

theorem keys_insert_of_mem (h : k ∈ m) : (m.insert k v).keys = m.keys := by
  ext k'
  rw [Finmap.mem_keys, Finmap.mem_insert, Finmap.mem_keys]
  constructor
  · rintro (rfl | other)
    · exact h
    · exact other
  · exact Or.inr

theorem lookup_emplace_self : (emplace k v m).lookup k = some ((m.lookup k).getD v) := by
  cases found : m.lookup k with
  | none =>
      rw [emplace_of_notMem (Finmap.lookup_eq_none.mp found), Finmap.lookup_insert]
      rfl
  | some old =>
      rw [emplace_of_mem (Finmap.mem_of_lookup_eq_some found), found]
      rfl

theorem lookup_emplace_of_ne (other : k' ≠ k) : (emplace k v m).lookup k' = m.lookup k' := by
  by_cases present : k ∈ m
  · rw [emplace_of_mem present]
  · rw [emplace_of_notMem present, Finmap.lookup_insert_of_ne _ other]

theorem keys_eq_empty : m.keys = ∅ ↔ m = ∅ := by
  constructor
  · intro h
    apply Finmap.ext_lookup
    intro k
    rw [Finmap.lookup_empty, Finmap.lookup_eq_none, ← Finmap.mem_keys, h]
    exact Finset.notMem_empty k
  · rintro rfl
    exact Finmap.keys_empty

theorem lookup_of_begin {order : IterationOrder K} {p : K × V} (h : begin order m = some p) :
    m.lookup p.1 = some p.2 := by
  simp only [begin, Option.bind_eq_some_iff, Option.map_eq_some_iff] at h
  obtain ⟨k, -, v, hv, rfl⟩ := h
  exact hv

theorem begin_eq_none {order : IterationOrder K} : begin order m = none ↔ m = ∅ := by
  rw [← keys_eq_empty, ← @IterationOrder.begin_eq_none _ order]
  simp only [begin, Option.bind_eq_none_iff, Option.map_eq_none_iff]
  constructor
  · intro h
    cases hb : order.begin m.keys with
    | none => rfl
    | some k =>
        have hk := IterationOrder.mem_of_begin hb
        rw [Finmap.mem_keys] at hk
        exact absurd hk (Finmap.lookup_eq_none.mp (h k hb))
  · intro h k hk
    rw [h] at hk
    cases hk

theorem erase_of_lookup_none (h : m.lookup k = none) : m.erase k = m := by
  apply Finmap.ext_lookup
  intro a
  by_cases same : a = k
  · subst same
    rw [Finmap.lookup_erase, h]
  · rw [Finmap.lookup_erase_ne same]

theorem erase_insert_self : (m.insert k v).erase k = m.erase k := by
  apply Finmap.ext_lookup
  intro a
  by_cases same : a = k
  · subst same
    rw [Finmap.lookup_erase, Finmap.lookup_erase]
  · rw [Finmap.lookup_erase_ne same, Finmap.lookup_erase_ne same, Finmap.lookup_insert_of_ne _ same]

/-! ## The entries as a multiset -/

/-- The entries of a map. -/
def bag (m : UnorderedMap K V) : Multiset (K × V) := m.entries.map fun e => (e.1, e.2)

omit [DecidableEq K] in
@[simp] theorem bag_empty : bag (∅ : UnorderedMap K V) = 0 := rfl

theorem mem_bag : (k, v) ∈ bag m ↔ m.lookup k = some v := by
  rw [Finmap.lookup_eq_some_iff]
  simp [bag, Sigma.exists]

theorem bag_insert (h : k ∉ m) : bag (m.insert k v) = (k, v) ::ₘ bag m := by
  rw [bag, Finmap.entries_insert_of_notMem h, Multiset.map_cons, bag]

theorem insert_erase_self (h : m.lookup k = some v) : (m.erase k).insert k v = m := by
  apply Finmap.ext_lookup
  intro a
  by_cases ha : a = k
  · subst ha
    rw [Finmap.lookup_insert, h]
  · rw [Finmap.lookup_insert_of_ne _ ha, Finmap.lookup_erase_ne ha]

theorem insert_eq_self : m.insert k v = m ↔ m.lookup k = some v := by
  constructor
  · intro same
    rw [← same, Finmap.lookup_insert]
  · intro found
    nth_rewrite 1 [← insert_erase_self found]
    rw [Finmap.insert_insert, insert_erase_self found]

theorem bag_erase (h : m.lookup k = some v) : bag m = (k, v) ::ₘ bag (m.erase k) := by
  rw [← bag_insert Finmap.notMem_erase_self, insert_erase_self h]

/-- A value that grows, from `init` if there was none, makes a sum over all of them grow as
    much. -/
theorem sum_bag_insert {M : Type} [AddCommMonoid M] {f : V → M} {init : V} {x : M}
    (nothing : f init = 0) (grown : f v = f ((m.lookup k).getD init) + x) :
    ((bag (m.insert k v)).map fun p => f p.2).sum = ((bag m).map fun p => f p.2).sum + x := by
  cases found : m.lookup k with
  | none =>
      rw [found, Option.getD_none, nothing, zero_add] at grown
      rw [bag_insert (Finmap.lookup_eq_none.mp found), Multiset.map_cons, Multiset.sum_cons,
        grown, add_comm]
  | some old =>
      rw [found, Option.getD_some] at grown
      have same : m.insert k v = (m.erase k).insert k v := by
        apply Finmap.ext_lookup
        intro a
        by_cases ha : a = k
        · subst ha
          rw [Finmap.lookup_insert, Finmap.lookup_insert]
        · rw [Finmap.lookup_insert_of_ne _ ha, Finmap.lookup_insert_of_ne _ ha,
            Finmap.lookup_erase_ne ha]
      rw [same, bag_insert Finmap.notMem_erase_self, bag_erase found, Multiset.map_cons,
        Multiset.map_cons, Multiset.sum_cons, Multiset.sum_cons, grown, add_right_comm]

omit [DecidableEq K] in
theorem map_fst_bag : (bag m).map Prod.fst = m.keys.val := by
  induction m using Finmap.induction_on with
  | H a => simp [bag, Finmap.keys, Multiset.keys, Function.comp_def]

/-! ## Mapping the values -/

section MapValues

variable {W : Type}

/-- The map with `f` applied to every value. -/
def mapValues (f : V → W) (m : UnorderedMap K V) : UnorderedMap K W where
  entries := m.entries.map fun e => ⟨e.1, f e.2⟩
  nodupKeys := by
    have distinct := Multiset.nodup_keys.mpr m.nodupKeys
    rw [← Multiset.nodup_keys]
    simpa only [Multiset.keys, Multiset.map_map, Function.comp_def] using distinct

variable {f : V → W}

theorem lookup_mapValues : (mapValues f m).lookup k = (m.lookup k).map f := by
  cases found : m.lookup k with
  | none =>
      have absent : k ∉ m := Finmap.lookup_eq_none.mp found
      rw [Option.map_none, Finmap.lookup_eq_none]
      intro member
      apply absent
      simpa [Finmap.mem_def, mapValues, Multiset.keys] using member
  | some v =>
      have present := Finmap.lookup_eq_some_iff.mp found
      rw [Option.map_some, Finmap.lookup_eq_some_iff]
      exact Multiset.mem_map.mpr ⟨⟨k, v⟩, present, rfl⟩

end MapValues

end UnorderedMap
