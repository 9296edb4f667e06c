import Metasolver.Lib.RecencyList
import Metasolver.Lib.UnorderedMap
import Metasolver.Lib.Except
import Metasolver.Messages

/-!
# `lru_cache`

The list of items and the map of iterators into it (`lru_cache.h`).  An iterator is the
address of a list node, so that `_items_map` can go wrong the way it can in C++: to
follow an iterator whose node is gone is undefined, and so is `back()` on an empty list.

`Valid` says that the map and the list agree.  The operations keep it, are defined, and
do to the entries what the operations of `RecencyList` do.  `Lru` carries the proof;
its operations are total, and `lookup` is all that a user of the cache needs to know.

Keys are `std::string` in the code; here they are of any type with decidable equality.
-/

namespace Metasolver

/-- A node of `std::list<std::pair<std::string, T>>`. -/
structure ListNode (K V : Type) where
  address : Nat
  key : K
  value : V
  deriving DecidableEq, Repr

/-- The data members of `lru_cache`; `allocated` is the next address that is free. -/
structure LruCache (K V : Type) where
  cap : Nat
  items : List (ListNode K V) := []
  itemsMap : UnorderedMap K Nat := ∅
  allocated : Nat := 0

namespace LruCache

variable {K V : Type} [DecidableEq K]

/-- `contains` (`lru_cache.h:22-25`). -/
def contains (c : LruCache K V) (key : K) : Bool := decide (key ∈ c.itemsMap)

/-- The node an iterator points to. -/
def deref (c : LruCache K V) (it : Nat) : Except Fault (ListNode K V) :=
  match c.items.find? fun n => n.address = it with
  | none => .error .undefinedBehaviour
  | some n => .ok n

/-- `_items.splice(_items.begin(), _items, it)`. -/
def splice (c : LruCache K V) (it : Nat) : Except Fault (LruCache K V) := do
  let n ← c.deref it
  return { c with items := n :: c.items.eraseP fun m => m.address = it }

/-- `it->second = value`. -/
def assign (c : LruCache K V) (it : Nat) (value : V) : Except Fault (LruCache K V) := do
  let n ← c.deref it
  return { c with items := c.items.map fun m =>
    if m.address = n.address then { m with value := value } else m }

/-- `_items_map.erase(_items.back().first); _items.pop_back()`. -/
def popBack (c : LruCache K V) : Except Fault (LruCache K V) :=
  match c.items.getLast? with
  | none => .error .undefinedBehaviour
  | some old => .ok { c with
      itemsMap := c.itemsMap.erase old.key
      items := c.items.dropLast }

/-- `_items.emplace_front(key, value); _items_map[key] = _items.begin()`. -/
def emplaceFront (c : LruCache K V) (key : K) (value : V) : LruCache K V :=
  { c with
    items := ⟨c.allocated, key, value⟩ :: c.items
    itemsMap := c.itemsMap.insert key c.allocated
    allocated := c.allocated + 1 }

/-- `get` (`lru_cache.h:27-38`). -/
def get (c : LruCache K V) (key : K) : Except Fault (V × LruCache K V) :=
  match c.itemsMap.lookup key with
  | none => .error (.exception .outOfRange)
  | some it => do
      let c ← c.splice it
      let n ← c.deref it
      return (n.value, c)

/-- `put` (`lru_cache.h:40-63`). -/
def put (c : LruCache K V) (key : K) (value : V) : Except Fault (LruCache K V) :=
  match c.itemsMap.lookup key with
  | some it => do
      let c ← c.assign it value
      c.splice it
  | none => do
      let c ← if c.cap ≤ c.items.length then c.popBack else pure c
      return c.emplaceFront key value

/-- `erase` (`lru_cache.h:65-73`). -/
def erase (c : LruCache K V) (key : K) : Except Fault (LruCache K V) :=
  match c.itemsMap.lookup key with
  | none => .ok c
  | some it => do
      let n ← c.deref it
      return { c with
        items := c.items.eraseP fun m => m.address = n.address
        itemsMap := c.itemsMap.erase key }

/-- `clear` (`lru_cache.h:75-79`). -/
def clear (c : LruCache K V) : LruCache K V := { c with items := [], itemsMap := ∅ }

/-! ## The map and the list agree -/

structure Valid (c : LruCache K V) : Prop where
  pos : 0 < c.cap
  bounded : c.items.length ≤ c.cap
  keys : (c.items.map ListNode.key).Nodup
  addresses : (c.items.map ListNode.address).Nodup
  fresh : ∀ n ∈ c.items, n.address < c.allocated
  indexed : ∀ k a, c.itemsMap.lookup k = some a ↔ ∃ n ∈ c.items, n.key = k ∧ n.address = a

def entry (n : ListNode K V) : Σ _ : K, V := ⟨n.key, n.value⟩

omit [DecidableEq K] in
theorem keys_map_entry (items : List (ListNode K V)) :
    (items.map entry).keys = items.map ListNode.key := by
  simp [List.keys, entry, Function.comp_def]

variable {c c' : LruCache K V} {k : K} {v : V} {a : Nat} {n : ListNode K V}
  {items l₁ l₂ : List (ListNode K V)}

/-- The entries, most recently used first. -/
def Valid.entries (valid : c.Valid) : AList fun _ : K => V :=
  ⟨c.items.map entry, by rw [List.NodupKeys, keys_map_entry]; exact valid.keys⟩

/-! The list around the node an iterator points to. -/

omit [DecidableEq K] in
theorem ne_of_split (distinct : ((l₁ ++ n :: l₂).map ListNode.address).Nodup) :
    ∀ m ∈ l₁, m.address ≠ n.address := by
  intro m member same
  rw [List.map_append, List.map_cons, List.nodup_append] at distinct
  have apart := distinct.2.2 m.address (List.mem_map_of_mem member) n.address List.mem_cons_self
  exact apart same

omit [DecidableEq K] in
theorem find?_split (distinct : ((l₁ ++ n :: l₂).map ListNode.address).Nodup) :
    (l₁ ++ n :: l₂).find? (fun m => m.address = n.address) = some n := by
  have none_before : l₁.find? (fun m => decide (m.address = n.address)) = none := by
    rw [List.find?_eq_none]
    intro m member
    simpa using ne_of_split distinct m member
  rw [List.find?_append, none_before, List.find?_cons_of_pos (by simp)]
  rfl

omit [DecidableEq K] in
theorem eraseP_split (distinct : ((l₁ ++ n :: l₂).map ListNode.address).Nodup) :
    (l₁ ++ n :: l₂).eraseP (fun m => m.address = n.address) = l₁ ++ l₂ := by
  rw [List.eraseP_append_right _ (by simpa using ne_of_split distinct),
    List.eraseP_cons_of_pos (by simp)]

/-- The erasure of a key from the entries takes the same node out. -/
theorem kerase_split (distinct : ((l₁ ++ n :: l₂).map ListNode.key).Nodup) :
    List.kerase n.key ((l₁ ++ n :: l₂).map entry) = (l₁ ++ l₂).map entry := by
  have before : n.key ∉ (l₁.map entry).keys := by
    rw [keys_map_entry]
    intro member
    rw [List.map_append, List.map_cons, List.nodup_append] at distinct
    exact distinct.2.2 n.key member n.key List.mem_cons_self rfl
  have here : List.kerase n.key (entry n :: l₂.map entry) = l₂.map entry :=
    List.kerase_cons_eq rfl
  rw [List.map_append, List.kerase_append_right before, List.map_cons, here, List.map_append]

theorem Valid.split (valid : c.Valid) (found : c.itemsMap.lookup k = some a) :
    ∃ l₁ n l₂, c.items = l₁ ++ n :: l₂ ∧ n.key = k ∧ n.address = a := by
  obtain ⟨n, member, key, address⟩ := (valid.indexed k a).mp found
  obtain ⟨l₁, l₂, split⟩ := List.append_of_mem member
  exact ⟨l₁, n, l₂, split, key, address⟩

theorem Valid.deref (valid : c.Valid) (split : c.items = l₁ ++ n :: l₂) :
    c.deref n.address = .ok n := by
  have distinct := valid.addresses
  rw [split] at distinct
  rw [LruCache.deref, split, find?_split distinct]

theorem Valid.splice (valid : c.Valid) (split : c.items = l₁ ++ n :: l₂) :
    c.splice n.address = .ok { c with items := n :: (l₁ ++ l₂) } := by
  have distinct := valid.addresses
  rw [split] at distinct
  rw [LruCache.splice, valid.deref split, split]
  simp [bind, Except.bind, pure, Except.pure, eraseP_split distinct]

/-- Neither the order of the nodes matters nor the values in them. -/
theorem Valid.congr (valid : c.Valid)
    (same : (items.map fun n => (n.key, n.address)).Perm
      (c.items.map fun n => (n.key, n.address))) : Valid { c with items := items } := by
  have keys : (items.map ListNode.key).Perm (c.items.map ListNode.key) := by
    simpa only [List.map_map, Function.comp_def] using same.map Prod.fst
  have addresses : (items.map ListNode.address).Perm (c.items.map ListNode.address) := by
    simpa only [List.map_map, Function.comp_def] using same.map Prod.snd
  have slots : ∀ k a, (∃ n ∈ items, n.key = k ∧ n.address = a) ↔
      ∃ n ∈ c.items, n.key = k ∧ n.address = a := by
    intro k a
    simpa only [List.mem_map, Prod.mk.injEq] using same.mem_iff (a := (k, a))
  refine ⟨valid.pos, ?_, keys.nodup_iff.mpr valid.keys, addresses.nodup_iff.mpr valid.addresses,
    ?_, ?_⟩
  · have length := same.length_eq
    rw [List.length_map, List.length_map] at length
    exact length.trans_le valid.bounded
  · intro n member
    obtain ⟨m, old, -, address⟩ := (slots n.key n.address).mp ⟨n, member, rfl, rfl⟩
    exact address ▸ valid.fresh m old
  · intro k a
    rw [valid.indexed k a, slots k a]

/-! ## The operations -/

theorem Valid.lookup_entries (valid : c.Valid) :
    valid.entries.lookup k = some v ↔ ∃ n ∈ c.items, n.key = k ∧ n.value = v := by
  rw [← Option.mem_def, AList.mem_lookup_iff]
  simp only [Valid.entries, List.mem_map, entry]
  constructor
  · rintro ⟨n, member, same⟩
    cases same
    exact ⟨n, member, rfl, rfl⟩
  · rintro ⟨n, member, rfl, rfl⟩
    exact ⟨n, member, rfl⟩

theorem Valid.mem_entries (valid : c.Valid) : k ∈ valid.entries ↔ k ∈ c.itemsMap := by
  rw [← AList.lookup_isSome, ← Finmap.lookup_isSome, Option.isSome_iff_exists,
    Option.isSome_iff_exists]
  simp only [valid.lookup_entries, valid.indexed]
  constructor
  · rintro ⟨-, n, member, key, -⟩
    exact ⟨n.address, n, member, key, rfl⟩
  · rintro ⟨-, n, member, key, -⟩
    exact ⟨n.value, n, member, key, rfl⟩

/-- `get` moves the entry to the front and returns its value. -/
theorem Valid.get_of_mem (valid : c.Valid) (present : k ∈ c.itemsMap) :
    ∃ v c', ∃ valid' : c'.Valid, c.get k = .ok (v, c') ∧ valid.entries.lookup k = some v ∧
      c'.cap = c.cap ∧ valid'.entries = RecencyList.touch k valid.entries := by
  obtain ⟨a, found⟩ := Finmap.mem_iff.mp present
  obtain ⟨l₁, n, l₂, split, rfl, rfl⟩ := valid.split found
  have valid' : Valid { c with items := n :: (l₁ ++ l₂) } := by
    refine valid.congr ?_
    rw [split]
    exact List.perm_middle.symm.map _
  have value : valid.entries.lookup n.key = some n.value := by
    rw [valid.lookup_entries, split]
    exact ⟨n, by simp, rfl, rfl⟩
  refine ⟨n.value, _, valid', ?_, value, rfl, ?_⟩
  · have again : LruCache.deref _ n.address = .ok n :=
      valid'.deref (List.nil_append (n :: (l₁ ++ l₂))).symm
    simp [LruCache.get, found, valid.splice split, again, bind, Except.bind, pure, Except.pure]
  · have distinct := valid.keys
    rw [split] at distinct
    apply AList.ext
    rw [RecencyList.touch, value]
    simp only [AList.entries_insert, Valid.entries, split, kerase_split distinct]
    rfl

theorem get_of_notMem (absent : k ∉ c.itemsMap) : c.get k = .error (.exception .outOfRange) := by
  rw [LruCache.get, Finmap.lookup_eq_none.mpr absent]

omit [DecidableEq K] in
/-- An assignment through the iterator changes that node only. -/
theorem map_split (distinct : ((l₁ ++ n :: l₂).map ListNode.address).Nodup) :
    ((l₁ ++ n :: l₂).map fun m => if m.address = n.address then { m with value := v } else m) =
      l₁ ++ { n with value := v } :: l₂ := by
  have before := ne_of_split distinct
  have after : ∀ m ∈ l₂, m.address ≠ n.address := by
    intro m member same
    rw [List.map_append, List.map_cons, List.nodup_append] at distinct
    have apart := (List.nodup_cons.mp distinct.2.1).1
    exact apart (same ▸ List.mem_map_of_mem member)
  rw [List.map_append, List.map_cons, if_pos rfl]
  congr 1
  · exact (List.map_congr_left fun m member => if_neg (before m member)).trans (List.map_id' l₁)
  · congr 1
    exact (List.map_congr_left fun m member => if_neg (after m member)).trans (List.map_id' l₂)

theorem Valid.assign (valid : c.Valid) (split : c.items = l₁ ++ n :: l₂) :
    c.assign n.address v = .ok { c with items := l₁ ++ { n with value := v } :: l₂ } ∧
      Valid { c with items := l₁ ++ { n with value := v } :: l₂ } := by
  have distinct := valid.addresses
  rw [split] at distinct
  constructor
  · rw [LruCache.assign, valid.deref split, split]
    simp [bind, Except.bind, pure, Except.pure, map_split distinct]
  · refine valid.congr ?_
    rw [split, List.map_append, List.map_append]
    exact List.Perm.refl _

theorem Valid.popBack (valid : c.Valid) (full : c.cap ≤ c.items.length) :
    ∃ c', c.popBack = .ok c' ∧ c'.items = c.items.dropLast ∧ c'.cap = c.cap ∧
      c'.items.length < c.cap ∧ c'.Valid ∧ ∀ k, k ∉ c.itemsMap → k ∉ c'.itemsMap := by
  have nonempty : c.items ≠ [] := by
    intro empty
    have pos := valid.pos
    rw [empty, List.length_nil] at full
    omega
  obtain ⟨init, old, split⟩ := (List.eq_nil_or_concat c.items).resolve_left nonempty
  rw [List.concat_eq_append] at split
  have keys := valid.keys
  have addresses := valid.addresses
  have bounded := valid.bounded
  rw [split] at keys addresses bounded
  rw [List.map_append, List.nodup_append] at keys addresses
  rw [List.length_append, List.length_singleton] at bounded
  refine ⟨{ c with itemsMap := c.itemsMap.erase old.key, items := init }, ?_, ?_, rfl, ?_, ?_, ?_⟩
  · rw [LruCache.popBack, split, List.getLast?_append, List.dropLast_concat]
    rfl
  · rw [split, List.dropLast_concat]
  · exact bounded
  · refine ⟨valid.pos, by simpa using Nat.le_of_succ_le bounded, keys.1, addresses.1, ?_, ?_⟩
    · intro n member
      apply valid.fresh n
      rw [split]
      exact List.mem_append_left _ member
    · intro k a
      by_cases same : k = old.key
      · subst same
        rw [Finmap.lookup_erase]
        constructor
        · intro found
          cases found
        · rintro ⟨n, member, key, -⟩
          exact absurd key (keys.2.2 _ (List.mem_map_of_mem member) _ (by simp))
      · rw [Finmap.lookup_erase_ne same, valid.indexed k a, split]
        constructor
        · rintro ⟨n, member, key, address⟩
          rcases List.mem_append.mp member with inside | last
          · exact ⟨n, inside, key, address⟩
          · rw [List.mem_singleton] at last
            subst last
            exact absurd key.symm same
        · rintro ⟨n, member, rest⟩
          exact ⟨n, List.mem_append_left _ member, rest⟩
  · intro k absent member
    rw [Finmap.mem_erase] at member
    exact absent member.2

theorem Valid.emplaceFront (valid : c.Valid) (room : c.items.length < c.cap)
    (absent : k ∉ c.itemsMap) : (c.emplaceFront k v).Valid := by
  have newKey : k ∉ c.items.map ListNode.key := by
    rintro member
    obtain ⟨n, inside, rfl⟩ := List.mem_map.mp member
    have found := (valid.indexed n.key n.address).mpr ⟨n, inside, rfl, rfl⟩
    exact absent (Finmap.mem_iff.mpr ⟨_, found⟩)
  have newAddress : c.allocated ∉ c.items.map ListNode.address := by
    intro member
    obtain ⟨n, inside, same⟩ := List.mem_map.mp member
    exact absurd same (Nat.ne_of_lt (valid.fresh n inside))
  refine ⟨valid.pos, room, List.nodup_cons.mpr ⟨newKey, valid.keys⟩,
    List.nodup_cons.mpr ⟨newAddress, valid.addresses⟩, ?_, ?_⟩
  · intro n member
    rcases List.mem_cons.mp member with rfl | inside
    · exact Nat.lt_succ_self c.allocated
    · exact Nat.lt_succ_of_lt (valid.fresh n inside)
  · intro k' a
    rw [LruCache.emplaceFront]
    by_cases same : k' = k
    · subst same
      rw [Finmap.lookup_insert]
      constructor
      · intro found
        cases found
        exact ⟨_, List.mem_cons_self, rfl, rfl⟩
      · rintro ⟨n, member, key, address⟩
        rcases List.mem_cons.mp member with rfl | inside
        · exact congrArg some address
        · exact absurd (List.mem_map.mpr ⟨n, inside, key⟩) newKey
    · rw [Finmap.lookup_insert_of_ne _ same, valid.indexed k' a]
      constructor
      · rintro ⟨n, member, rest⟩
        exact ⟨n, List.mem_cons_of_mem _ member, rest⟩
      · rintro ⟨n, member, key, address⟩
        rcases List.mem_cons.mp member with rfl | inside
        · exact absurd key.symm same
        · exact ⟨n, inside, key, address⟩

/-- `put` is `put` of the entries: the key comes to the front with the new value, and of
    too many entries the last is dropped. -/
theorem Valid.put (valid : c.Valid) (k : K) (v : V) :
    ∃ c', ∃ valid' : c'.Valid, c.put k v = .ok c' ∧ c'.cap = c.cap ∧
      valid'.entries = RecencyList.put c.cap k v valid.entries := by
  cases found : c.itemsMap.lookup k with
  | some a =>
      obtain ⟨l₁, n, l₂, split, rfl, rfl⟩ := valid.split found
      obtain ⟨assigned, valid₁⟩ := valid.assign (v := v) split
      have spliced := valid₁.splice (n := { n with value := v }) rfl
      have valid₂ : Valid { c with items := { n with value := v } :: (l₁ ++ l₂) } :=
        valid₁.congr (List.perm_middle.symm.map _)
      have distinct := valid.keys
      rw [split] at distinct
      refine ⟨_, valid₂, ?_, rfl, ?_⟩
      · simp only [LruCache.put, found, assigned, bind, Except.bind]
        exact spliced
      · have inserted : valid₂.entries = valid.entries.insert n.key v := by
          apply AList.ext
          simp only [AList.entries_insert, Valid.entries, split, kerase_split distinct]
          rfl
        rw [RecencyList.put, ← inserted, RecencyList.keepFirst_of_length_le]
        exact (List.length_map _).trans_le valid₂.bounded
  | none =>
      have absent : k ∉ c.itemsMap := Finmap.lookup_eq_none.mp found
      have inserted : (valid.entries.insert k v).entries = ⟨k, v⟩ :: c.items.map entry :=
        AList.entries_insert_of_notMem (mt valid.mem_entries.mp absent)
      by_cases full : c.cap ≤ c.items.length
      · obtain ⟨c₁, popped, items, cap, room, valid₁, fewer⟩ := valid.popBack full
        have valid₂ := valid₁.emplaceFront (v := v) (cap ▸ room) (fewer k absent)
        refine ⟨_, valid₂, ?_, cap, ?_⟩
        · simp [LruCache.put, found, full, popped, bind, Except.bind, pure, Except.pure]
        · have pos := valid.pos
          have exact_length : c.items.length = c.cap := Nat.le_antisymm valid.bounded full
          apply AList.ext
          rw [RecencyList.entries_put, inserted]
          obtain ⟨m, length⟩ : ∃ m, c.cap = m + 1 := ⟨c.cap - 1, by omega⟩
          rw [length, List.take_succ_cons, ← List.map_take]
          have last : c.items.take m = c.items.dropLast := by
            rw [List.dropLast_eq_take, exact_length, length]
            rfl
          rw [last, ← items]
          rfl
      · have room : c.items.length < c.cap := Nat.lt_of_not_le full
        have valid₂ := valid.emplaceFront (v := v) room absent
        refine ⟨_, valid₂, ?_, rfl, ?_⟩
        · simp [LruCache.put, found, full, bind, Except.bind, pure, Except.pure]
        · have enough : (valid.entries.insert k v).entries.length ≤ c.cap := by
            rw [inserted, List.length_cons, List.length_map]
            exact room
          rw [RecencyList.put, RecencyList.keepFirst_of_length_le enough]
          exact AList.ext inserted.symm

/-- `erase` removes exactly the entry of the key. -/
theorem Valid.erase (valid : c.Valid) (k : K) :
    ∃ c', ∃ valid' : c'.Valid, c.erase k = .ok c' ∧ c'.cap = c.cap ∧
      valid'.entries = valid.entries.erase k := by
  cases found : c.itemsMap.lookup k with
  | none =>
      have absent : k ∉ valid.entries :=
        mt valid.mem_entries.mp (Finmap.lookup_eq_none.mp found)
      refine ⟨c, valid, by rw [LruCache.erase, found], rfl, AList.ext ?_⟩
      exact (List.kerase_of_notMem_keys absent).symm
  | some a =>
      obtain ⟨l₁, n, l₂, split, rfl, rfl⟩ := valid.split found
      have keys := valid.keys
      have addresses := valid.addresses
      have bounded := valid.bounded
      have fresh := valid.fresh
      have indexed := valid.indexed
      rw [split] at keys addresses bounded fresh indexed
      have fewer : (l₁ ++ l₂).Sublist (l₁ ++ n :: l₂) :=
        (List.sublist_cons_self n l₂).append_left l₁
      have gone : n.key ∉ (l₁ ++ l₂).map ListNode.key := by
        have moved : ((l₁ ++ n :: l₂).map ListNode.key).Perm
            ((n :: (l₁ ++ l₂)).map ListNode.key) := List.perm_middle.map _
        exact (List.nodup_cons.mp (moved.nodup_iff.mp keys)).1
      have valid' : Valid { c with
          items := l₁ ++ l₂
          itemsMap := c.itemsMap.erase n.key } := by
        refine ⟨valid.pos, fewer.length_le.trans bounded, keys.sublist (fewer.map _),
          addresses.sublist (fewer.map _), fun m member => fresh m (fewer.subset member), ?_⟩
        intro k a
        by_cases same : k = n.key
        · subst same
          rw [Finmap.lookup_erase]
          constructor
          · intro none_
            cases none_
          · rintro ⟨m, member, key, -⟩
            exact absurd (List.mem_map.mpr ⟨m, member, key⟩) gone
        · rw [Finmap.lookup_erase_ne same, indexed k a]
          constructor
          · rintro ⟨m, member, key, address⟩
            refine ⟨m, ?_, key, address⟩
            rw [List.mem_append, List.mem_cons] at member
            rw [List.mem_append]
            rcases member with left | rfl | right
            · exact Or.inl left
            · exact absurd key.symm same
            · exact Or.inr right
          · rintro ⟨m, member, rest⟩
            exact ⟨m, fewer.subset member, rest⟩
      refine ⟨_, valid', ?_, rfl, ?_⟩
      · rw [LruCache.erase, found]
        simp [valid.deref split, split, eraseP_split addresses, bind, Except.bind, pure,
          Except.pure]
      · apply AList.ext
        have without := kerase_split keys
        rw [← split] at without
        exact without.symm

theorem Valid.of_get {c : LruCache K V} (valid : c.Valid) (got : c.get k = .ok (v, c')) :
    c'.Valid := by
  by_cases present : k ∈ c.itemsMap
  · obtain ⟨v', c'', valid', got', -⟩ := valid.get_of_mem present
    cases got.symm.trans got'
    exact valid'
  · rw [get_of_notMem present] at got
    cases got

theorem Valid.of_put (valid : c.Valid) (stored : c.put k v = .ok c') : c'.Valid := by
  obtain ⟨c'', valid', stored', -⟩ := valid.put k v
  cases stored.symm.trans stored'
  exact valid'

theorem Valid.put_ne_error {f : Fault} (valid : c.Valid) (stored : c.put k v = .error f) :
    False := by
  obtain ⟨c', -, stored', -⟩ := valid.put k v
  cases stored.symm.trans stored'

theorem Valid.of_erase (valid : c.Valid) (erased : c.erase k = .ok c') : c'.Valid := by
  obtain ⟨c'', valid', erased', -⟩ := valid.erase k
  cases erased.symm.trans erased'
  exact valid'

theorem Valid.erase_ne_error {f : Fault} (valid : c.Valid) (erased : c.erase k = .error f) :
    False := by
  obtain ⟨c', -, erased', -⟩ := valid.erase k
  cases erased.symm.trans erased'

theorem Valid.clear (valid : c.Valid) : ∃ valid' : c.clear.Valid, valid'.entries = ∅ := by
  have valid' : c.clear.Valid := by
    refine ⟨valid.pos, Nat.zero_le _, List.nodup_nil, List.nodup_nil, ?_, ?_⟩
    · intro n member
      cases member
    · intro k a
      simp [LruCache.clear]
  exact ⟨valid', rfl⟩

theorem valid_start {cap : Nat} (pos : 0 < cap) : Valid ({ cap := cap } : LruCache K V) where
  pos := pos
  bounded := Nat.zero_le cap
  keys := List.nodup_nil
  addresses := List.nodup_nil
  fresh n member := by cases member
  indexed k a := by simp

end LruCache

/-! ## Caches that are valid -/

/-- A cache whose map and list agree. -/
structure Lru (K V : Type) [DecidableEq K] where
  cache : LruCache K V
  valid : cache.Valid

namespace Lru

variable {K V : Type} [DecidableEq K] {c c' : Lru K V} {k k' : K} {v v' : V}

def start (cap : Nat) (pos : 0 < cap) : Lru K V := ⟨{ cap := cap }, LruCache.valid_start pos⟩

/-- The value stored for `k`.  To ask does not count as a use. -/
def lookup (c : Lru K V) (k : K) : Option V := c.valid.entries.lookup k

def contains (c : Lru K V) (k : K) : Bool := c.cache.contains k

def get (c : Lru K V) (k : K) : Except Exn (V × Lru K V) :=
  match got : c.cache.get k with
  | .ok (v, c') => .ok (v, ⟨c', c.valid.of_get got⟩)
  | .error _ => .error .outOfRange

def put (c : Lru K V) (k : K) (v : V) : Lru K V :=
  match stored : c.cache.put k v with
  | .ok c' => ⟨c', c.valid.of_put stored⟩
  | .error _ => (c.valid.put_ne_error stored).elim

def erase (c : Lru K V) (k : K) : Lru K V :=
  match erased : c.cache.erase k with
  | .ok c' => ⟨c', c.valid.of_erase erased⟩
  | .error _ => (c.valid.erase_ne_error erased).elim

def clear (c : Lru K V) : Lru K V := ⟨c.cache.clear, c.valid.clear.choose⟩

theorem contains_iff : c.contains k = true ↔ ∃ v, c.lookup k = some v := by
  rw [contains, LruCache.contains, decide_eq_true_iff, ← c.valid.mem_entries,
    ← AList.lookup_isSome, Option.isSome_iff_exists]
  rfl

theorem contains_eq_false : c.contains k = false ↔ c.lookup k = none := by
  rw [Bool.eq_false_iff, Ne, contains_iff, Option.eq_none_iff_forall_ne_some, not_exists]

@[simp] theorem lookup_start {cap : Nat} {pos : 0 < cap} :
    (start cap pos : Lru K V).lookup k = none := rfl

/-- A stored value is returned, and `get` changes no value. -/
theorem get_of_lookup (found : c.lookup k = some v) :
    ∃ c', c.get k = .ok (v, c') ∧ ∀ k', c'.lookup k' = c.lookup k' := by
  have present : k ∈ c.cache.itemsMap := by
    rw [← c.valid.mem_entries, ← AList.lookup_isSome, Option.isSome_iff_exists]
    exact ⟨v, found⟩
  obtain ⟨v', c', valid', got, value, -, entries⟩ := c.valid.get_of_mem present
  obtain rfl : v = v' := Option.some.inj (found.symm.trans value)
  refine ⟨⟨c', valid'⟩, ?_, ?_⟩
  · unfold get
    split
    case h_1 v'' c'' got' =>
      cases got.symm.trans got'
      rfl
    case h_2 f got' => cases got.symm.trans got'
  · intro k'
    rw [lookup, entries, RecencyList.lookup_touch]
    rfl

theorem entries_put : (c.put k v).valid.entries =
    RecencyList.put c.cache.cap k v c.valid.entries := by
  obtain ⟨c', valid', stored, -, entries⟩ := c.valid.put k v
  have same : c.put k v = ⟨c', valid'⟩ := by
    unfold put
    split
    case h_1 c'' stored' =>
      cases stored.symm.trans stored'
      rfl
    case h_2 f stored' => cases stored.symm.trans stored'
  rw [same]
  exact entries

theorem entries_erase : (c.erase k).valid.entries = c.valid.entries.erase k := by
  obtain ⟨c', valid', erased, -, entries⟩ := c.valid.erase k
  have same : c.erase k = ⟨c', valid'⟩ := by
    unfold erase
    split
    case h_1 c'' erased' =>
      cases erased.symm.trans erased'
      rfl
    case h_2 f erased' => cases erased.symm.trans erased'
  rw [same]
  exact entries

@[simp] theorem lookup_put_self : (c.put k v).lookup k = some v := by
  rw [lookup, entries_put]
  exact RecencyList.lookup_put_self c.valid.pos

theorem lookup_put_of_ne (other : k' ≠ k) (h : (c.put k v).lookup k' = some v') :
    c.lookup k' = some v' := by
  rw [lookup, entries_put] at h
  exact RecencyList.lookup_put_of_ne other h

@[simp] theorem lookup_erase_self : (c.erase k).lookup k = none := by
  rw [lookup, entries_erase]
  exact AList.lookup_erase k _

theorem lookup_erase_of_ne (other : k' ≠ k) : (c.erase k).lookup k' = c.lookup k' := by
  rw [lookup, entries_erase]
  exact AList.lookup_erase_ne other

@[simp] theorem lookup_clear : c.clear.lookup k = none := rfl

end Lru

end Metasolver
