import TeeSqlite.Lib.Runs
import TeeSqlite.Hashmap.Nodes

/-! The map under any of its calls, its allocations failing or not, while its callers
leave the cells of its nodes alone. Every node stays in the bucket of its key; the
key 0 has a chain of its own, in which nothing is found and which only grows. -/
namespace TeeSqlite
open Runs

section
variable {m : Mem} {k : BitVec 32} {list : List Item} {key : Ptr}

theorem Chain.tail {item : Item} (chain : Chain m k (item :: list)) : Chain m k list where
  keys x member := chain.keys x (List.mem_cons_of_mem _ member)
  single used := Nat.le_of_succ_le (chain.single used)

theorem Chain.congr {m' : Mem} (chain : Chain m k list)
    (same : ∀ item ∈ list, m'.int item.key = m.int item.key) : Chain m' k list where
  keys item member := (same item member).trans (chain.keys item member)
  single := chain.single

/-- A walk with the key of the chain in its cell writes there what is there. -/
theorem Chain.poke {item : Item} (chain : Chain m k (item :: list)) (hk : m.int key = k) :
    m.setInt key (m.int item.key) = m :=
  Mem.setInt_self (hk.trans (chain.keys item List.mem_cons_self).symm)

theorem Chain.get_item (chain : Chain m k list) (hk : m.int key = k) :
    (TeeSqlite.get_item m list key).1 = m := by
  induction list with
  | nil => rfl
  | cons item list ih =>
    simp only [TeeSqlite.get_item, chain.poke hk]
    split
    · rfl
    · exact ih chain.tail

theorem Chain.key_exists (chain : Chain m k list) (hk : m.int key = k) :
    (TeeSqlite.key_exists m list key).1 = m := by
  induction list with
  | nil => rfl
  | cons item list ih =>
    simp only [TeeSqlite.key_exists, chain.poke hk]
    split
    · rfl
    · exact ih chain.tail

/-- The call has to make a node: the key has none that a walk finds. -/
def NeedsNode (k : BitVec 32) (list : List Item) : Prop := k = 0 ∨ list = []

instance (k : BitVec 32) (list : List Item) : Decidable (NeedsNode k list) :=
  inferInstanceAs (Decidable (_ ∨ _))

theorem Chain.set_new (chain : Chain m k list) (hk : m.int key = k) (hkey : key ≠ NULL)
    (needs : NeedsNode k list) (a : Allocs) (value : Ptr) :
    set_item a m list key value =
      if a.item ∧ a.key then (m, list ++ [⟨key, value⟩], 1) else (m, list, 0) := by
  induction list with
  | nil => rw [set_item, if_neg hkey, List.nil_append]
  | cons item list ih =>
    have zero : k = 0 := needs.resolve_right (List.cons_ne_nil _ _)
    have unused : ¬ m.int key ≠ 0 := not_not.mpr (hk.trans zero)
    simp only [set_item, if_neg hkey, chain.poke hk, if_neg unused, ih chain.tail (.inl zero)]
    split <;> rfl

theorem Chain.set_old (chain : Chain m k list) (hk : m.int key = k) (hkey : key ≠ NULL)
    (known : ¬ NeedsNode k list) (a : Allocs) (value : Ptr) :
    ∃ item freed, list = [item] ∧
      set_item a m list key value = ({ m with freed }, [{ item with value }], 0) := by
  obtain ⟨used, some_node⟩ := not_or.mp known
  obtain ⟨item, rfl⟩ : ∃ item, list = [item] := by
    apply List.length_eq_one_iff.mp
    have one := List.length_pos_iff.mpr some_node
    have most := chain.single used
    omega
  have found : m.int key ≠ 0 := hk ▸ used
  simp only [set_item, if_neg hkey, chain.poke hk, if_pos found]
  by_cases same : item.value = value
  · rw [if_neg (not_not.mpr same)]
    exact ⟨item, m.freed, rfl, by rw [← same]⟩
  · rw [if_pos same]
    exact ⟨item, _, rfl, rfl⟩

/-- The chain after an insertion, and by how many nodes it has grown. -/
def inserted (a : Allocs) (k : BitVec 32) (list : List Item) (key value : Ptr) :
    List Item × Nat :=
  if NeedsNode k list then
    if a.item ∧ a.key then (list ++ [⟨key, value⟩], 1) else (list, 0)
  else (list.map fun item => { item with value }, 0)

theorem Chain.set (chain : Chain m k list) (hk : m.int key = k) (hkey : key ≠ NULL) (a : Allocs)
    (value : Ptr) :
    ∃ freed, set_item a m list key value =
        ({ m with freed }, (inserted a k list key value).1,
          ((inserted a k list key value).2 : Int)) ∧
      Chain { m with freed } k (inserted a k list key value).1 := by
  unfold inserted
  by_cases needs : NeedsNode k list
  · refine ⟨m.freed, ?_⟩
    rw [if_pos needs, chain.set_new hk hkey needs a value]
    split
    · refine ⟨rfl, ?_, ?_⟩
      · intro item member
        rcases List.mem_append.mp member with old | new
        · exact chain.keys item old
        · rw [List.mem_singleton.mp new]
          exact hk
      · intro used
        rw [needs.resolve_left used]
        exact Nat.le_refl _
    · exact ⟨rfl, chain⟩
  · obtain ⟨item, freed, rfl, replaced⟩ := chain.set_old hk hkey needs a value
    refine ⟨freed, ?_⟩
    rw [if_neg needs, replaced]
    refine ⟨rfl, ?_, fun _ => Nat.le_refl _⟩
    intro x member
    rw [List.mem_singleton.mp member]
    exact chain.keys item (List.mem_singleton_self item)

theorem length_inserted (a : Allocs) (k : BitVec 32) (list : List Item) (key value : Ptr) :
    (inserted a k list key value).1.length = list.length + (inserted a k list key value).2 := by
  unfold inserted
  split_ifs
  · exact List.length_append
  · rfl
  · exact List.length_map _

/-- What a removal leaves: nothing of a key, but all of the key 0. -/
theorem Chain.remove (chain : Chain m k list) (hk : m.int key = k) :
    ∃ freed, remove_item m list key =
      ({ m with freed }, if k = 0 then list else [],
        if k = 0 then 0 else -(list.length : Int)) := by
  induction list with
  | nil =>
    refine ⟨m.freed, ?_⟩
    rw [remove_item, ite_self, List.length_nil, Int.natCast_zero, Int.neg_zero, ite_self]
  | cons item list ih =>
    simp only [remove_item, chain.poke hk]
    by_cases zero : k = 0
    · obtain ⟨freed, removed⟩ := ih chain.tail
      rw [if_pos zero, if_pos zero] at removed
      rw [if_neg (not_not.mpr (hk.trans zero)), removed, if_pos zero, if_pos zero]
      exact ⟨freed, rfl⟩
    · have only : list = [] := by
        apply List.length_eq_zero_iff.mp
        have most := chain.single zero
        rw [List.length_cons] at most
        omega
      rw [if_pos (hk ▸ zero), if_neg zero, if_neg zero, only]
      exact ⟨_, rfl⟩

theorem remove_items_all (m : Mem) (list : List Item) :
    ∃ freed, remove_items m list = ({ m with freed }, [], -(list.length : Int)) := by
  induction list with
  | nil => exact ⟨m.freed, rfl⟩
  | cons item list ih =>
    obtain ⟨freed, removed⟩ := ih
    refine ⟨item.value :: item.key :: freed, ?_⟩
    simp only [remove_items, removed, Mem.free, Prod.mk.injEq, true_and, List.length_cons]
    omega

end

/-- The loop of `hm_clear`. -/
def clearBuckets (items : List (List Item)) (s : Mem × Int) : Mem × Int :=
  items.foldl (fun s list => ((remove_items s.1 list).1, s.2 + (remove_items s.1 list).2.2)) s

theorem hm_clear_eq (m : Mem) (map : Hashmap) :
    hm_clear m map = map.items.map fun items =>
      ((clearBuckets items (m, 0)).1, { map with
        items := some (items.map fun _ => []),
        count := map.count + BitVec.ofInt 32 (clearBuckets items (m, 0)).2 }) := rfl

theorem clearBuckets_all (items : List (List Item)) (m : Mem) (counter : Int) :
    ∃ freed, clearBuckets items (m, counter) =
      ({ m with freed }, counter + -(items.flatten.length : Int)) := by
  induction items generalizing m counter with
  | nil => exact ⟨m.freed, by simp [clearBuckets]⟩
  | cons list items ih =>
    obtain ⟨freed, removed⟩ := remove_items_all m list
    obtain ⟨freed', rest⟩ := ih { m with freed } (counter + -(list.length : Int))
    refine ⟨freed', ?_⟩
    rw [clearBuckets, List.foldl_cons, removed]
    apply rest.trans
    rw [List.flatten_cons, List.length_append]
    congr 1
    omega

/-- A map whose nodes are all in the buckets of their keys. -/
structure Chained (m : Mem) (map : Hashmap) (items : List (List Item)) : Prop where
  array : map.items = some items
  length : items.length = map.size.toNat
  chain : ∀ (k : BitVec 32) list, items[k.toNat]? = some list → Chain m k list

theorem Table.chained {m : Mem} {map : Hashmap} {items : List (List Item)}
    (t : Table m map items) : Chained m map items :=
  ⟨t.array, t.length, fun k list there => (t.slot k list there).chain⟩

namespace Chained
variable {m m' : Mem} {map : Hashmap} {items : List (List Item)} {key : Ptr}

theorem created (m : Mem) {a : Allocs} {size step : BitVec 32}
    {overloaded : BitVec 32 → BitVec 32 → Bool} (h : hm_create a size overloaded step = some map) :
    Chained m map (List.replicate map.size.toNat []) :=
  (Table.created m h).chained

theorem nodes (c : Chained m map items) : map.nodes = items.flatten := by
  rw [Hashmap.nodes, c.array, Option.getD_some]

theorem bucket (c : Chained m map items) (key : Ptr) :
    map.bucket m key = items[(m.int key).toNat]? := by
  rw [Hashmap.bucket, c.array]
  rfl

/-- The calls with a key inside the table find a bucket, and no others do. -/
theorem bucket_isSome (c : Chained m map items) (key : Ptr) :
    (map.bucket m key).isSome = true ↔ m.int key < map.size := by
  rw [c.bucket, Option.isSome_iff_ne_none, ne_eq, List.getElem?_eq_none_iff, c.length, Nat.not_le]
  rfl

theorem congr (c : Chained m map items)
    (same : ∀ item ∈ map.nodes, m'.int item.key = m.int item.key) : Chained m' map items where
  array := c.array
  length := c.length
  chain k list there := (c.chain k list there).congr fun item inside => by
    apply same
    rw [c.nodes]
    exact List.mem_flatten_of_mem (List.mem_of_getElem? there) inside

/-- A bucket is exchanged for another chain of its key. -/
theorem store (c : Chained m map items) {k : BitVec 32} {list : List Item} (chain : Chain m' k list)
    (same : m'.int = m.int) (counter : Int) :
    Chained m' (map.store k.toNat list counter) (items.set k.toNat list) where
  array := by rw [Hashmap.store, c.array, Option.map_some]
  length := by rw [List.length_set, c.length]; rfl
  chain j list' there := by
    rcases exchanged there with ⟨rfl, rfl⟩ | ⟨-, old⟩
    · exact chain
    · exact (c.chain j list' old).congr fun item _ => by rw [same]

/-- An insertion up to the point where the map may be rehashed. -/
theorem set_eq (c : Chained m map items) (hkey : key ≠ NULL) (a : Allocs) (value : Ptr)
    {list : List Item} (there : items[(m.int key).toNat]? = some list) :
    ∃ freed,
      let new := inserted a (m.int key) list key value
      let stored := map.store (m.int key).toNat new.1 (new.2 : Int)
      hm_set a m map key value =
          (if map.overloaded (map.count + BitVec.ofNat 32 new.2) map.size then
            (hm_rehash a { m with freed } stored (next_size map.size)).map fun r => (r.1, r.2, 1)
          else some ({ m with freed }, stored, 1)) ∧
        Chained { m with freed } stored (items.set (m.int key).toNat new.1) := by
  obtain ⟨freed, walk, chain⟩ := (c.chain _ _ there).set rfl hkey a value
  have bucket := (c.bucket key).trans there
  refine ⟨freed, ?_, c.store chain rfl _⟩
  simp only [hm_set, if_neg hkey, bucket, walk, hash]
  rfl

/-- A rehash only appends empty buckets. -/
theorem rehash (c : Chained m map items) {a : Allocs} (table : a.table = true)
    {new_size : BitVec 32} (grows : ¬ new_size < map.size) :
    ∃ n, hm_rehash a m map new_size = some (m, { map with
        items := some (items ++ List.replicate n []), size := new_size }) ∧
      Chained m { map with items := some (items ++ List.replicate n []), size := new_size }
        (items ++ List.replicate n []) := by
  have larger : map.size.toNat ≤ new_size.toNat := Nat.not_lt.mp grows
  refine ⟨_, hm_rehash_chains c.array c.length c.chain table grows, rfl, ?_, ?_⟩
  · rw [List.length_append, List.length_replicate, c.length]
    exact Nat.add_sub_cancel' larger
  · intro k list there
    rcases widened there with old | rfl
    · exact c.chain k list old
    · exact Slot.empty.chain

theorem unset_eq (c : Chained m map items) (hkey : key ≠ NULL) {list : List Item}
    (there : items[(m.int key).toNat]? = some list) :
    ∃ freed,
      let left := if m.int key = 0 then list else []
      let counter : Int := if m.int key = 0 then 0 else -(list.length : Int)
      hm_unset m map key =
          some ({ m with freed }, map.store (m.int key).toNat left counter, 1) ∧
        Chained { m with freed } (map.store (m.int key).toNat left counter)
          (items.set (m.int key).toNat left) := by
  have chain := c.chain _ _ there
  have own : m.int key = m.int key := rfl
  obtain ⟨freed, walk⟩ := chain.remove own
  have bucket := (c.bucket key).trans there
  refine ⟨freed, ?_, ?_⟩
  · simp only [hm_unset, if_neg hkey, bucket, walk, hash]
  · have left : Chain { m with freed } (m.int key) (if m.int key = 0 then list else []) := by
      split
      · exact chain.congr fun _ _ => rfl
      · exact Slot.empty.chain
    exact c.store left rfl _

theorem clear_eq (c : Chained m map items) :
    ∃ freed,
      let cleared : Hashmap := { map with
        items := some (items.map fun _ => []),
        count := map.count + BitVec.ofInt 32 (-(items.flatten.length : Int)) }
      hm_clear m map = some ({ m with freed }, cleared) ∧
        Chained { m with freed } cleared (items.map fun _ => []) := by
  obtain ⟨freed, removed⟩ := clearBuckets_all items m 0
  refine ⟨freed, ?_, rfl, ?_, ?_⟩
  · rw [hm_clear_eq, c.array, Option.map_some, removed, Int.zero_add]
  · rw [List.length_map]
    exact c.length
  · intro k list there
    rw [List.getElem?_map, Option.map_eq_some_iff] at there
    obtain ⟨-, -, rfl⟩ := there
    exact Slot.empty.chain

theorem get_eq (c : Chained m map items) (key : Ptr) {r : Mem × Ptr}
    (h : hm_get m map key = some r) : r.1 = m := by
  unfold hm_get at h
  split_ifs at h
  · cases h
    rfl
  · rw [c.bucket] at h
    cases there : items[(m.int key).toNat]? with
    | none =>
      rw [there] at h
      cases h
    | some list =>
      rw [there] at h
      cases h
      exact (c.chain _ _ there).get_item rfl

theorem isset_eq (c : Chained m map items) (key : Ptr) {r : Mem × Bool}
    (h : hm_isset m map key = some r) : r.1 = m := by
  unfold hm_isset at h
  split_ifs at h
  · rw [c.bucket] at h
    obtain ⟨list, there, rfl⟩ := Option.map_eq_some_iff.mp h
    exact (c.chain _ _ there).key_exists rfl

/-- The number of a bucket is the key of its nodes. -/
theorem key_toNat (c : Chained m map items) {i : Nat} {list : List Item}
    (there : items[i]? = some list) {item : Item} (inside : item ∈ list) :
    (m.int item.key).toNat = i := by
  have small : i < 2 ^ 32 :=
    (List.getElem?_eq_some_iff.mp there).1.trans (c.length ▸ map.size.isLt)
  have index : (BitVec.ofNat 32 i).toNat = i := by
    rw [BitVec.toNat_ofNat]
    exact Nat.mod_eq_of_lt small
  have chain := c.chain (BitVec.ofNat 32 i) list (index.symm ▸ there)
  rw [chain.keys item inside, index]

/-- A node of the map is in the bucket of its key. -/
theorem mem_nodes (c : Chained m map items) {item : Item} :
    item ∈ map.nodes ↔ ∃ list, items[(m.int item.key).toNat]? = some list ∧ item ∈ list := by
  rw [c.nodes, List.mem_flatten]
  constructor
  · rintro ⟨list, member, inside⟩
    obtain ⟨i, there⟩ := List.mem_iff_getElem?.mp member
    exact ⟨list, (c.key_toNat there inside).symm ▸ there, inside⟩
  · rintro ⟨list, there, inside⟩
    exact ⟨list, List.mem_of_getElem? there, inside⟩

end Chained

theorem store_count (map : Hashmap) (i : Nat) (list : List Item) (counter : Int) :
    (map.store i list counter).count = map.count + BitVec.ofInt 32 counter := rfl

/-- Exchanging a bucket changes the number of nodes by as much. -/
theorem length_flatten_set {items : List (List Item)} {i : Nat} {list : List Item}
    (there : items[i]? = some list) (list' : List Item) :
    (items.set i list').flatten.length + list.length = items.flatten.length + list'.length := by
  obtain ⟨inside, rfl⟩ := List.getElem?_eq_some_iff.mp there
  have whole : items = items.take i ++ items[i] :: items.drop (i + 1) := by
    rw [← List.drop_eq_getElem_cons inside, List.take_append_drop]
  have before := congrArg (fun l => l.flatten.length) whole
  rw [List.set_eq_take_append_cons_drop, if_pos inside]
  simp only [List.flatten_append, List.flatten_cons, List.length_append] at before ⊢
  omega

/-- A call, with the results of its allocations, or an assignment of a caller to a cell. -/
inductive MapCall
  | assign (cell : Ptr) (k : BitVec 32)
  | hm_set (a : Allocs) (key value : Ptr)
  | hm_unset (key : Ptr)
  | hm_get (key : Ptr)
  | hm_isset (key : Ptr)
  | hm_rehash (a : Allocs) (new_size : BitVec 32)
  | hm_clear

def callStep : Mem × Hashmap → MapCall → Option ((Mem × Hashmap) × Unit)
  | (m, map), .assign cell k => some ((m.setInt cell k, map), ())
  | (m, map), .hm_set a key value => (hm_set a m map key value).map fun r => ((r.1, r.2.1), ())
  | (m, map), .hm_unset key => (hm_unset m map key).map fun r => ((r.1, r.2.1), ())
  | (m, map), .hm_get key => (hm_get m map key).map fun r => ((r.1, map), ())
  | (m, map), .hm_isset key => (hm_isset m map key).map fun r => ((r.1, map), ())
  | (m, map), .hm_rehash a new_size => (hm_rehash a m map new_size).map fun r => (r, ())
  | (m, map), .hm_clear => (hm_clear m map).map fun r => (r, ())

/-- The callers leave the cells of the nodes alone. -/
def LeavesCells (s : Mem × Hashmap) : MapCall → Prop
  | .assign cell k => ∀ item ∈ s.2.nodes, item.key = cell → s.1.int cell = k
  | _ => True

/-- The array is lost, or every node in it is in the bucket of its key. -/
def ChainsKept (s : Mem × Hashmap) : Prop := ∀ items, s.2.items = some items → Chained s.1 s.2 items

section
variable {m : Mem} {map : Hashmap}

theorem kept_rehash (kept : ChainsKept (m, map)) {a : Allocs} {new_size : BitVec 32}
    {r : Mem × Hashmap} (h : hm_rehash a m map new_size = some r) : ChainsKept r := by
  by_cases smaller : new_size < map.size
  · rw [hm_rehash, if_pos smaller] at h
    cases h
    exact kept
  · by_cases table : a.table = true
    · cases array : map.items with
      | none =>
        simp only [hm_rehash, if_neg smaller, if_pos table, array] at h
        cases h
      | some items =>
        obtain ⟨n, rehashed, chained⟩ := (kept items array).rehash table smaller
        rw [rehashed] at h
        cases h
        rintro _ ⟨⟩
        exact chained
    · rw [hm_rehash, if_neg smaller, if_neg table] at h
      cases h
      rintro _ ⟨⟩

theorem kept_set (kept : ChainsKept (m, map)) {a : Allocs} {key value : Ptr}
    {r : Mem × Hashmap × Int}
    (h : hm_set a m map key value = some r) : ChainsKept (r.1, r.2.1) := by
  by_cases hkey : key = NULL
  · rw [hm_set, if_pos hkey] at h
    cases h
    exact kept
  · cases bucket : map.bucket m key with
    | none =>
      simp only [hm_set, if_neg hkey, bucket] at h
      cases h
    | some list =>
      obtain ⟨items, array, there⟩ := Option.bind_eq_some_iff.mp bucket
      obtain ⟨freed, set, chained⟩ := (kept items array).set_eq hkey a value there
      have stored : ChainsKept ({ m with freed }, _) := fun items' same =>
        Option.some.inj (chained.array.symm.trans same) ▸ chained
      rw [set] at h
      split_ifs at h
      · obtain ⟨r', rehashed, rfl⟩ := Option.map_eq_some_iff.mp h
        exact kept_rehash stored rehashed
      · cases h
        exact stored

/-- One call keeps the nodes in their buckets, whatever fails. -/
theorem kept_step {s s' : Mem × Hashmap} (kept : ChainsKept s) {call : MapCall}
    (keeps : LeavesCells s call) {o : Unit} (h : callStep s call = some (s', o)) :
    ChainsKept s' := by
  obtain ⟨m, map⟩ := s
  cases call with
  | assign cell k =>
    cases h
    intro items array
    refine (kept items array).congr fun item member => ?_
    rw [Mem.setInt_int]
    split
    · rename_i own
      rw [own]
      exact (keeps item member own).symm
    · rfl
  | hm_set a key value =>
    obtain ⟨r, set, made⟩ := Option.map_eq_some_iff.mp h
    cases made
    exact kept_set kept set
  | hm_unset key =>
    obtain ⟨r, unset, made⟩ := Option.map_eq_some_iff.mp h
    cases made
    by_cases hkey : key = NULL
    · rw [hm_unset, if_pos hkey] at unset
      cases unset
    · cases bucket : map.bucket m key with
      | none =>
        simp only [hm_unset, if_neg hkey, bucket] at unset
        cases unset
      | some list =>
        obtain ⟨items, array, there⟩ := Option.bind_eq_some_iff.mp bucket
        obtain ⟨freed, removed, chained⟩ := (kept items array).unset_eq hkey there
        rw [removed] at unset
        cases unset
        exact fun items' same => Option.some.inj (chained.array.symm.trans same) ▸ chained
  | hm_get key =>
    obtain ⟨r, got, made⟩ := Option.map_eq_some_iff.mp h
    cases made
    intro items array
    rw [(kept items array).get_eq key got]
    exact kept items array
  | hm_isset key =>
    obtain ⟨r, found, made⟩ := Option.map_eq_some_iff.mp h
    cases made
    intro items array
    rw [(kept items array).isset_eq key found]
    exact kept items array
  | hm_rehash a new_size =>
    obtain ⟨r, rehashed, made⟩ := Option.map_eq_some_iff.mp h
    cases made
    exact kept_rehash kept rehashed
  | hm_clear =>
    obtain ⟨r, cleared, made⟩ := Option.map_eq_some_iff.mp h
    cases made
    cases array : map.items with
    | none =>
      rw [hm_clear, array] at cleared
      cases cleared
    | some items =>
      obtain ⟨freed, emptied, chained⟩ := (kept items array).clear_eq
      rw [emptied] at cleared
      cases cleared
      exact fun items' same => Option.some.inj (chained.array.symm.trans same) ▸ chained

end

theorem kept_run {m : Mem} {a : Allocs} {size step : BitVec 32}
    {overloaded : BitVec 32 → BitVec 32 → Bool} {map : Hashmap}
    (created : hm_create a size overloaded step = some map) {h : List (MapCall × Unit)}
    {s : Mem × Hashmap} (run : Run callStep LeavesCells (m, map) h s) : ChainsKept s := by
  apply run.invariant (fun _ s => ChainsKept s)
  · have chained := Chained.created m created
    exact fun items same => Option.some.inj (chained.array.symm.trans same) ▸ chained
  · intro _ s call s' o kept keeps answered
    exact kept_step kept keeps answered

end TeeSqlite
