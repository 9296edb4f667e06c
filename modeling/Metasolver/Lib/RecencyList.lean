import Mathlib.Data.List.AList
import Mathlib.Data.List.Dedup
import Metasolver.Lib.History

/-!
# Entries in the order of use

A list of entries with distinct keys, the most recently used first, is an `AList`:
its `insert` puts an entry in front.  `touch` moves an entry there, and `put` also drops
what has not been used for longest once there are more than `cap` entries.

`step` is a cache that offers these operations, with a reply for each.  `Recent` says what its
keys are after a history without erasures: the `cap` distinct keys touched most recently,
which `List.dedup` lists in the order of their last occurrence, the oldest first.
-/

namespace RecencyList

variable {K V : Type} [DecidableEq K] {cap : Nat} {k k' : K} {v : V}
  {l : AList fun _ : K => V}

/-- The first `n` entries. -/
def keepFirst (n : Nat) (l : AList fun _ : K => V) : AList fun _ : K => V :=
  ⟨l.entries.take n, l.nodupKeys.sublist (List.take_sublist n l.entries)⟩

/-- The entry of `k`, if there is one, becomes the most recently used. -/
def touch (k : K) (l : AList fun _ : K => V) : AList fun _ : K => V :=
  match l.lookup k with
  | none => l
  | some v => l.insert k v

def put (cap : Nat) (k : K) (v : V) (l : AList fun _ : K => V) : AList fun _ : K => V :=
  keepFirst cap (l.insert k v)

theorem entries_put : (put cap k v l).entries = (l.insert k v).entries.take cap := rfl

omit [DecidableEq K] in
theorem keepFirst_of_length_le (bounded : l.entries.length ≤ cap) : keepFirst cap l = l :=
  AList.ext (List.take_of_length_le bounded)

theorem lookup_keepFirst (h : (keepFirst cap l).lookup k = some v) : l.lookup k = some v := by
  rw [← Option.mem_def, AList.mem_lookup_iff] at h ⊢
  exact List.mem_of_mem_take h

@[simp] theorem lookup_touch : (touch k l).lookup k' = l.lookup k' := by
  unfold touch
  cases found : l.lookup k with
  | none => rfl
  | some v =>
      by_cases same : k' = k
      · subst same
        rw [AList.lookup_insert, found]
      · exact AList.lookup_insert_ne same

theorem lookup_put_self (pos : 0 < cap) : (put cap k v l).lookup k = some v := by
  obtain ⟨n, rfl⟩ : ∃ n, cap = n + 1 := ⟨cap - 1, by omega⟩
  have front : (⟨k, v⟩ : Σ _ : K, V) ∈ (l.insert k v).entries.take (n + 1) := by
    rw [AList.entries_insert, List.take_succ_cons]
    exact List.mem_cons_self
  exact AList.mem_lookup_iff.mpr front

/-- What `put` leaves of the other entries was there before. -/
theorem lookup_put_of_ne (other : k' ≠ k) {v' : V} (h : (put cap k v l).lookup k' = some v') :
    l.lookup k' = some v' := by
  have kept := lookup_keepFirst h
  rwa [AList.lookup_insert_ne other] at kept

/-! ## A cache of bounded size -/

/-- The operations of a cache. -/
inductive Op (K V : Type) where
  | put (k : K) (v : V)
  | get (k : K)
  | contains (k : K)
  | erase (k : K)
  | clear
  deriving DecidableEq, Repr

inductive Reply (V : Type) where
  | done
  | value (v : V)
  | answer (present : Bool)
  /-- `get` has found no entry. -/
  | absent
  deriving DecidableEq, Repr

def dropLast (l : AList fun _ : K => V) : AList fun _ : K => V :=
  ⟨l.entries.dropLast, l.nodupKeys.sublist (List.dropLast_sublist l.entries)⟩

omit [DecidableEq K] in
theorem entries_dropLast : (dropLast l).entries = l.entries.dropLast := rfl

omit [DecidableEq K] in
theorem length_keys : l.keys.length = l.entries.length := List.length_map _

/-- What each operation does to the entries. -/
def step (cap : Nat) (l : AList fun _ : K => V) : Op K V → Reply V × AList fun _ : K => V
  | .put k v =>
      if k ∈ l then (.done, l.insert k v)
      else if l.entries.length < cap then (.done, l.insert k v)
      else (.done, (dropLast l).insert k v)
  | .get k =>
      match l.lookup k with
      | none => (.absent, l)
      | some v => (.value v, l.insert k v)
  | .contains k => (.answer (decide (k ∈ l)), l)
  | .erase k => (.done, l.erase k)
  | .clear => (.done, ∅)

/-- A key that is there leaves room for all other entries. -/
theorem put_of_mem (present : k ∈ l) (bounded : l.entries.length ≤ cap) :
    put cap k v l = l.insert k v := by
  apply keepFirst_of_length_le
  have some_ : 0 < l.keys.length := List.length_pos_of_mem present
  rw [← length_keys] at bounded ⊢
  rw [AList.keys_insert, List.length_cons, List.length_erase_of_mem present]
  omega

/-- Cutting off after an insertion is what `step` says of `put`. -/
theorem step_put (pos : 0 < cap) (bounded : l.entries.length ≤ cap) :
    step cap l (.put k v) = (.done, put cap k v l) := by
  by_cases present : k ∈ l
  · rw [step, if_pos present, put_of_mem present bounded]
  · have front : ∀ l' : AList fun _ : K => V, k ∉ l' →
        (l'.insert k v).entries = ⟨k, v⟩ :: l'.entries := fun l' absent =>
      AList.entries_insert_of_notMem absent
    by_cases room : l.entries.length < cap
    · have fits : (l.insert k v).entries.length ≤ cap := by
        rw [front l present]
        exact room
      rw [step, if_neg present, if_pos room, put, keepFirst_of_length_le fits]
    · have absent : k ∉ dropLast l := fun member => present
        (((List.dropLast_sublist l.entries).map Sigma.fst).subset member)
      have full : cap - 1 = l.entries.length - 1 := by omega
      rw [step, if_neg present, if_neg room]
      congr 1
      apply AList.ext
      obtain ⟨m, rfl⟩ : ∃ m, cap = m + 1 := ⟨cap - 1, by omega⟩
      rw [entries_put, front l present, front _ absent, List.take_succ_cons, entries_dropLast,
        List.dropLast_eq_take, ← full]
      rfl

theorem step_get_of_lookup (found : l.lookup k = some v) :
    step cap l (.get k) = (.value v, touch k l) := by
  simp only [step, touch, found]

/-! ## What is kept -/

omit [DecidableEq K] in
/-- The keys an operation has used, given its reply. -/
def touched : Op K V × Reply V → Option K
  | (.put k _, _) => some k
  | (.get k, .value _) => some k
  | _ => none

/-- The keys touched in a history, the last one last. -/
def touches (history : List (Op K V × Reply V)) : List K := history.filterMap touched

/-- The value put last under `k`. -/
def lastPut (k : K) (history : List (Op K V × Reply V)) : Option V :=
  history.foldl (fun last e => match e.1 with
    | .put k' v => if k' = k then some v else last
    | _ => last) none

/-- No entry is taken out on purpose. -/
def keeps : Op K V → Bool
  | .erase _ => false
  | .clear => false
  | _ => true

/-- The distinct keys, the one that was touched last in front. -/
def recent (keys : List K) : List K := keys.dedup.reverse

theorem dedup_snoc (keys : List K) : (keys ++ [k]).dedup = keys.dedup.erase k ++ [k] := by
  induction keys with
  | nil => rfl
  | cons a keys ih =>
      by_cases again : a ∈ keys
      · have again' : a ∈ keys ++ [k] := List.mem_append_left _ again
        rw [List.cons_append, List.dedup_cons_of_mem again', List.dedup_cons_of_mem again, ih]
      · rw [List.cons_append, List.dedup_cons_of_notMem again]
        by_cases same : a = k
        · subst same
          have absent : a ∉ keys.dedup := mt List.mem_dedup.mp again
          rw [List.dedup_cons_of_mem (List.mem_append_right _ List.mem_cons_self), ih,
            List.erase_of_not_mem absent, List.erase_cons_head]
        · have only : a ∉ keys ++ [k] := by
            rw [List.mem_append, List.mem_singleton]
            exact not_or.mpr ⟨again, same⟩
          rw [List.dedup_cons_of_notMem only, ih, List.erase_cons_tail (by simpa using same),
            List.cons_append]

theorem recent_snoc (keys : List K) : recent (keys ++ [k]) = k :: (recent keys).erase k := by
  have distinct := List.nodup_dedup keys
  rw [recent, dedup_snoc, List.reverse_append, List.reverse_singleton, recent,
    distinct.erase_eq_filter, (List.nodup_reverse.mpr distinct).erase_eq_filter,
    List.filter_reverse]
  rfl

/-- A key among the first `n` is moved to the front of them. -/
theorem take_cons_erase_of_mem {keys : List K} {n : Nat} (member : k ∈ keys.take n) :
    (k :: keys.erase k).take n = k :: (keys.take n).erase k := by
  induction keys generalizing n with
  | nil => simp at member
  | cons a keys ih =>
      obtain _ | n := n
      · cases member
      rw [List.take_succ_cons, List.take_succ_cons]
      rw [List.take_succ_cons] at member
      congr 1
      by_cases same : a = k
      · subst same
        rw [List.erase_cons_head, List.erase_cons_head]
      · have later : k ∈ keys.take n := (List.mem_cons.mp member).resolve_left (Ne.symm same)
        have rest := ih later
        rw [List.erase_cons_tail (by simpa using same), List.erase_cons_tail (by simpa using same)]
        obtain _ | n := n
        · cases later
        rw [List.take_succ_cons] at rest
        rw [List.take_succ_cons, (List.cons.inj rest).2]

/-- A key that is not among them pushes the last of them out. -/
theorem take_cons_erase_of_notMem {keys : List K} {n : Nat} (absent : k ∉ keys.take n) :
    (k :: keys.erase k).take n = (k :: keys.take n).take n := by
  obtain _ | n := n
  · rfl
  rw [List.take_succ_cons, List.take_succ_cons, List.take_take, Nat.min_eq_left (Nat.le_succ n)]
  congr 1
  induction keys generalizing n with
  | nil => rfl
  | cons a keys ih =>
      rw [List.take_succ_cons, List.mem_cons, not_or] at absent
      rw [List.erase_cons_tail (by simpa using Ne.symm absent.1)]
      obtain _ | n := n
      · rfl
      rw [List.take_succ_cons, List.take_succ_cons, ih n absent.2]

/-- After a history without erasures: the keys are the ones touched most recently, and each
    has the value that was put last. -/
structure Recent (cap : Nat) (history : List (Op K V × Reply V)) (l : AList fun _ : K => V) :
    Prop where
  keys : l.keys = (recent (touches history)).take cap
  last : ∀ k v, l.lookup k = some v → lastPut k history = some v

variable {history : List (Op K V × Reply V)} {op : Op K V} {r : Reply V}

theorem Recent.bounded (h : Recent cap history l) : l.entries.length ≤ cap := by
  rw [← length_keys, h.keys]
  exact List.length_take_le cap _

omit [DecidableEq K] in
theorem touches_snoc {e : Op K V × Reply V} :
    touches (history ++ [e]) = touches history ++ (touched e).toList := by
  cases used : touched e <;> simp [touches, used]

theorem lastPut_snoc_put : lastPut k (history ++ [(.put k' v, r)]) =
    if k' = k then some v else lastPut k history := by
  simp [lastPut]

/-- An insertion touches its key, whether an entry is moved or a new one made. -/
theorem Recent.keys_insert (h : Recent cap history l) (e : Op K V × Reply V)
    (used : touched e = some k) :
    (put cap k v l).keys = (recent (touches (history ++ [e]))).take cap := by
  rw [touches_snoc, used, Option.toList_some, recent_snoc]
  have cut : (put cap k v l).keys = (k :: l.keys.erase k).take cap := by
    rw [← AList.keys_insert (b := v)]
    exact List.map_take
  rw [cut, h.keys]
  by_cases member : k ∈ (recent (touches history)).take cap
  · rw [take_cons_erase_of_mem member]
    refine List.take_of_length_le ?_
    have some_ := List.length_pos_of_mem member
    have most := List.length_take_le cap (recent (touches history))
    rw [List.length_cons, List.length_erase_of_mem member]
    omega
  · rw [take_cons_erase_of_notMem member, List.erase_of_not_mem member]

theorem Recent.start : Recent cap ([] : List (Op K V × Reply V)) ∅ where
  keys := List.take_nil.symm
  last k v found := by cases found

theorem Recent.step (h : Recent cap history l) (pos : 0 < cap) (kept : keeps op = true) :
    Recent cap (history ++ [(op, (step cap l op).1)]) (step cap l op).2 := by
  cases op with
  | put k v =>
      rw [step_put pos h.bounded]
      refine ⟨h.keys_insert (.put k v, .done) rfl, fun k' v' found => ?_⟩
      rw [lastPut_snoc_put]
      by_cases same : k = k'
      · subst same
        rw [if_pos rfl]
        exact (lookup_put_self pos).symm.trans found
      · rw [if_neg same]
        exact h.last k' v' (lookup_put_of_ne (Ne.symm same) found)
  | get k =>
      have silent : ∀ (k' : K) (r : Reply V), lastPut k' (history ++ [(.get k, r)]) =
          lastPut k' history := fun k' r => by simp [lastPut]
      cases found : l.lookup k with
      | none =>
          simp only [RecencyList.step, found]
          refine ⟨?_, fun k' v' found' => (silent k' _).trans (h.last k' v' found')⟩
          rw [touches_snoc]
          exact (List.append_nil (touches history)).symm ▸ h.keys
      | some v =>
          have present : k ∈ l := AList.lookup_isSome.mp (by rw [found]; rfl)
          simp only [RecencyList.step, found]
          rw [← put_of_mem present h.bounded]
          refine ⟨h.keys_insert (.get k, .value v) rfl, fun k' v' found' => ?_⟩
          rw [silent]
          by_cases same : k' = k
          · subst same
            rw [lookup_put_self pos] at found'
            exact h.last k' v' (found.trans found')
          · exact h.last k' v' (lookup_put_of_ne same found')
  | contains k =>
      refine ⟨?_, fun k' v' found => ?_⟩
      · rw [touches_snoc]
        exact (List.append_nil (touches history)).symm ▸ h.keys
      · have silent : lastPut k' (history ++ [(.contains k, (RecencyList.step cap l
            (.contains k)).1)]) = lastPut k' history := by simp [lastPut]
        exact silent.trans (h.last k' v' found)
  | erase k => cases kept
  | clear => cases kept

/-! ## Runs -/

/-- One operation, its reply written down. -/
def after (cap : Nat) (s : List (Op K V × Reply V) × AList fun _ : K => V) (op : Op K V) :
    List (Op K V × Reply V) × AList fun _ : K => V :=
  (s.1 ++ [(op, (step cap s.2 op).1)], (step cap s.2 op).2)

/-- What a run replies, and the entries at its end. -/
def run (cap : Nat) (ops : List (Op K V)) : List (Op K V × Reply V) × AList fun _ : K => V :=
  ops.foldl (after cap) ([], ∅)

/-- What was found is what was put last. -/
def Current (before : List (Op K V × Reply V)) (e : Op K V × Reply V) : Prop :=
  ∀ k v, e = (.get k, .value v) → lastPut k before = some v

theorem run_snoc {ops : List (Op K V)} : run cap (ops ++ [op]) = after cap (run cap ops) op := by
  simp [run]

theorem run_recent {ops : List (Op K V)} (pos : 0 < cap) (kept : ∀ op ∈ ops, keeps op = true) :
    Recent cap (run cap ops).1 (run cap ops).2 ∧ History.EachAfter Current (run cap ops).1 := by
  induction ops using List.reverseRecOn with
  | nil => exact ⟨.start, .nil⟩
  | append_singleton ops op ih =>
      obtain ⟨recent, current⟩ := ih fun o member => kept o (List.mem_append_left _ member)
      rw [run_snoc]
      refine ⟨recent.step pos (kept op (by simp)), History.eachAfter_snoc.mpr ⟨current, ?_⟩⟩
      intro k v same
      obtain ⟨rfl, reply⟩ := Prod.mk.inj same
      simp only [RecencyList.step] at reply
      split at reply
      case h_1 => cases reply
      case h_2 v' found =>
        cases reply
        exact recent.last k v found

end RecencyList
