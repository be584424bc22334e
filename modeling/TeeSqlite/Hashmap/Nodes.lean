import Mathlib.Data.List.Nodup
import TeeSqlite.Hashmap.Hashmap

/-! The nodes of the hash map, bucket by bucket: what a lookup, an insertion and a
rehash do when every bucket has one node at most, of its own key. Here the key 0
may have a node too, which no lookup finds. -/
namespace TeeSqlite

def Hashmap.nodes (map : Hashmap) : List Item := (map.items.getD []).flatten

/-- What a node records: a page number and a tag. -/
def Item.entry (m : Mem) (item : Item) : BitVec 32 × Tag := (m.int item.key, m.mac item.value)

/-- What `hm_dump` sees. -/
def Hashmap.entries (map : Hashmap) (m : Mem) : List (BitVec 32 × Tag) :=
  map.nodes.map (Item.entry m)

theorem Hashmap.mem_entries {map : Hashmap} {m : Mem} {k : BitVec 32} {tag : Tag} :
    (k, tag) ∈ map.entries m ↔
      ∃ item ∈ map.nodes, m.int item.key = k ∧ m.mac item.value = tag := by
  simp only [Hashmap.entries, List.mem_map, Item.entry, Prod.mk.injEq]

/-- No node points to the cell. -/
def Hashmap.Unused (map : Hashmap) (key : Ptr) : Prop := ∀ item ∈ map.nodes, item.key ≠ key

/-- What a lookup of `k` finds behind the pointer it returns, the cell `key` holding
`k`. No answer is a lookup that leaves the array. -/
def Hashmap.lookup (map : Hashmap) (m : Mem) (key : Ptr) (k : BitVec 32) : Option (Option Tag) :=
  (hm_get (m.setInt key k) map key).map fun (m, temp) =>
    if temp = NULL then none else some (m.mac temp)

/-- A bucket of the key `k`. -/
inductive Slot (m : Mem) (k : BitVec 32) : List Item → Prop
  | empty : Slot m k []
  | node {c v : Ptr} : m.int c = k → Slot m k [⟨c, v⟩]

theorem Slot.congr {m m' : Mem} {k : BitVec 32} {list : List Item} (slot : Slot m k list)
    (same : ∀ item ∈ list, m'.int item.key = m.int item.key) : Slot m' k list := by
  cases slot with
  | empty => exact .empty
  | node hc => exact .node ((same _ (List.mem_singleton_self _)).trans hc)

theorem Slot.key {m : Mem} {k : BitVec 32} {list : List Item} (slot : Slot m k list) {item : Item}
    (mem : item ∈ list) : m.int item.key = k ∧ list = [item] := by
  cases slot with
  | empty => exact absurd mem List.not_mem_nil
  | node hc =>
    obtain rfl := List.mem_singleton.mp mem
    exact ⟨hc, rfl⟩

/-- The walk of a lookup, the key being in the caller's cell. -/
theorem Slot.walk {m : Mem} {k : BitVec 32} {list : List Item} (slot : Slot m k list) {key : Ptr}
    (hk : m.int key = k) :
    get_item m list key = (m, if k = 0 then none else list.head?) := by
  cases slot with
  | empty =>
    rw [get_item, List.head?_nil, ite_self]
  | @node c v hc =>
    have same : m.setInt key (m.int c) = m := Mem.setInt_self (hk.trans hc.symm)
    simp only [get_item, same, hk, List.head?_cons]
    by_cases zero : k = 0
    · rw [if_neg (not_not_intro zero), if_pos zero]
    · rw [if_pos zero, if_neg zero]

/-- A bucket of an array in which the one of the key `k` was exchanged. -/
theorem exchanged {items : List (List Item)} {k j : BitVec 32} {list list' : List Item}
    (there : (items.set k.toNat list)[j.toNat]? = some list') :
    j = k ∧ list' = list ∨ j ≠ k ∧ items[j.toNat]? = some list' := by
  by_cases hj : j = k
  · subst hj
    have inside : j.toNat < items.length := by
      have found := (List.getElem?_eq_some_iff.mp there).1
      rwa [List.length_set] at found
    rw [List.getElem?_set_self inside] at there
    cases there
    exact .inl ⟨rfl, rfl⟩
  · have distinct : k.toNat ≠ j.toNat := fun eq => hj (BitVec.eq_of_toNat_eq eq.symm)
    rw [List.getElem?_set_ne distinct] at there
    exact .inr ⟨hj, there⟩

theorem hm_create_items {a : Allocs} {size step : BitVec 32}
    {overloaded : BitVec 32 → BitVec 32 → Bool} {map : Hashmap}
    (h : hm_create a size overloaded step = some map) :
    map.items = some (List.replicate map.size.toNat []) := by
  unfold hm_create at h
  simp only at h
  split_ifs at h
  cases h
  rfl

/-- The array of a map whose buckets are slots. -/
structure Table (m : Mem) (map : Hashmap) (items : List (List Item)) : Prop where
  array : map.items = some items
  length : items.length = map.size.toNat
  slot : ∀ (k : BitVec 32) list, items[k.toNat]? = some list → Slot m k list
  present : ∀ list ∈ items, ∀ item ∈ list, item.value ≠ NULL

namespace Table
variable {m m' : Mem} {map : Hashmap} {items : List (List Item)}

/-- A new map has no node. -/
theorem created (m : Mem) {a : Allocs} {size step : BitVec 32}
    {overloaded : BitVec 32 → BitVec 32 → Bool} (h : hm_create a size overloaded step = some map) :
    Table m map (List.replicate map.size.toNat []) := by
  constructor
  · exact hm_create_items h
  · exact List.length_replicate
  · intro k list there
    obtain rfl := List.eq_of_mem_replicate (List.mem_of_getElem? there)
    exact .empty
  · intro list member item inside
    rw [List.eq_of_mem_replicate member] at inside
    exact absurd inside List.not_mem_nil

theorem nodes (t : Table m map items) : map.nodes = items.flatten := by
  rw [Hashmap.nodes, t.array, Option.getD_some]

theorem small (t : Table m map items) : items.length < 2 ^ 32 := t.length ▸ map.size.isLt

/-- The index of a bucket as a key. -/
theorem index (t : Table m map items) {i : Nat} (hi : i < items.length) :
    (BitVec.ofNat 32 i).toNat = i := by
  rw [BitVec.toNat_ofNat]
  exact Nat.mod_eq_of_lt (Nat.lt_trans hi t.small)

theorem mem_nodes (t : Table m map items) {item : Item} :
    item ∈ map.nodes ↔ items[(m.int item.key).toNat]? = some [item] := by
  rw [t.nodes, List.mem_flatten]
  constructor
  · rintro ⟨list, member, inside⟩
    obtain ⟨i, hi, rfl⟩ := List.mem_iff_getElem.mp member
    have there : items[(BitVec.ofNat 32 i).toNat]? = some items[i] := by
      rw [t.index hi]
      exact List.getElem?_eq_getElem hi
    obtain ⟨key, only⟩ := (t.slot _ _ there).key inside
    rw [key, there, only]
  · intro there
    exact ⟨[item], List.mem_of_getElem? there, List.mem_singleton_self item⟩

/-- The bucket of a page number without a node is empty. -/
theorem vacant (t : Table m map items) {k : BitVec 32} (inside : k.toNat < items.length)
    (new : ∀ item ∈ map.nodes, m.int item.key ≠ k) : items[k.toNat]? = some [] := by
  have there : items[k.toNat]? = some items[k.toNat] := List.getElem?_eq_getElem inside
  rw [there]
  cases bucket : items[k.toNat] with
  | nil => rfl
  | cons item rest =>
    rw [bucket] at there
    obtain ⟨key, only⟩ := (t.slot k _ there).key List.mem_cons_self
    have member : item ∈ map.nodes := by rw [t.mem_nodes, key, there, only]
    exact absurd key (new item member)

/-- An insertion into an empty bucket of a map that is not overloaded then. -/
theorem set_vacant (t : Table m map items) {key value : Ptr} (hkey : key ≠ NULL)
    (vacant : items[(m.int key).toNat]? = some [])
    (light : map.overloaded (map.count + 1) map.size = false) :
    hm_set .succeed m map key value =
      some (m, map.store (m.int key).toNat [⟨key, value⟩] 1, 1) := by
  have bucket : map.bucket m key = some [] := by
    rw [Hashmap.bucket, t.array, Option.bind_some, hash]
    exact vacant
  have walk : set_item .succeed m [] key value = (m, [⟨key, value⟩], 1) := by
    rw [set_item, if_neg hkey, Allocs.succeed, if_pos ⟨rfl, rfl⟩]
  have light' : (map.store (m.int key).toNat [⟨key, value⟩] 1).overloaded
      (map.store (m.int key).toNat [⟨key, value⟩] 1).count
      (map.store (m.int key).toNat [⟨key, value⟩] 1).size = false := light
  simp only [hm_set, if_neg hkey, bucket, walk, hash, light', Bool.false_eq_true, ↓reduceIte]

/-- A page number has one node at most. -/
theorem unique (t : Table m map items) {a b : Item} (ha : a ∈ map.nodes) (hb : b ∈ map.nodes)
    (same : m.int a.key = m.int b.key) : a = b := by
  have there := t.mem_nodes.mp ha
  rw [same, t.mem_nodes.mp hb] at there
  simpa using there.symm

/-- A page number has one entry at most. -/
theorem entry_unique (t : Table m map items) {k : BitVec 32} {a b : Tag}
    (ha : (k, a) ∈ map.entries m) (hb : (k, b) ∈ map.entries m) : a = b := by
  obtain ⟨x, hx, kx, rfl⟩ := Hashmap.mem_entries.mp ha
  obtain ⟨y, hy, ky, rfl⟩ := Hashmap.mem_entries.mp hb
  rw [t.unique hx hy (kx.trans ky.symm)]

/-- The page numbers of the entries are distinct. -/
theorem distinct (t : Table m map items) : ((map.entries m).map Prod.fst).Nodup := by
  rw [Hashmap.entries, t.nodes, List.map_map, List.map_flatten, List.nodup_flatten]
  constructor
  · intro keys member
    obtain ⟨list, inside, rfl⟩ := List.mem_map.mp member
    obtain ⟨i, hi, rfl⟩ := List.mem_iff_getElem.mp inside
    have slot := t.slot (BitVec.ofNat 32 i) items[i] (by
      rw [t.index hi]
      exact List.getElem?_eq_getElem hi)
    cases bucket : items[i] with
    | nil => exact List.nodup_nil
    | cons item rest =>
      rw [bucket] at slot
      rw [(slot.key List.mem_cons_self).2]
      exact List.nodup_singleton _
  · rw [List.pairwise_map, List.pairwise_iff_getElem]
    intro i j hi hj before k inI inJ
    have numbered (l : Nat) (hl : l < items.length)
        (inL : k ∈ items[l].map (Prod.fst ∘ Item.entry m)) : k.toNat = l := by
      obtain ⟨item, member, rfl⟩ := List.mem_map.mp inL
      have slot := t.slot (BitVec.ofNat 32 l) items[l] (by
        rw [t.index hl]
        exact List.getElem?_eq_getElem hl)
      exact (congrArg BitVec.toNat (slot.key member).1).trans (t.index hl)
    exact absurd ((numbered i hi inI).symm.trans (numbered j hj inJ)) (Nat.ne_of_lt before)

theorem congr (t : Table m map items)
    (same : ∀ item ∈ map.nodes, m'.int item.key = m.int item.key) : Table m' map items where
  array := t.array
  length := t.length
  present := t.present
  slot k list there := (t.slot k list there).congr fun item inside => by
    apply same
    rw [t.nodes]
    exact List.mem_flatten_of_mem (List.mem_of_getElem? there) inside

theorem inside (t : Table m map items) {k : BitVec 32} {tag : Tag}
    (entry : (k, tag) ∈ map.entries m) : k.toNat < map.size.toNat := by
  obtain ⟨item, member, rfl, -⟩ := Hashmap.mem_entries.mp entry
  rw [← t.length]
  exact (List.getElem?_eq_some_iff.mp (t.mem_nodes.mp member)).1

/-- A lookup from a cell of its own: what is in the bucket, unless the key is 0. -/
theorem lookup_eq (t : Table m map items) {key : Ptr} (hkey : key ≠ NULL) (free : map.Unused key)
    (k : BitVec 32) :
    map.lookup m key k = items[k.toNat]?.map fun list =>
      if k = 0 then none else list.head?.map fun item => m.mac item.value := by
  have hcell := m.setInt_int_self key k
  have poked : Table (m.setInt key k) map items := t.congr fun item inside => by
    rw [Mem.setInt_int, if_neg (free item inside)]
  simp only [Hashmap.lookup, hm_get, if_neg hkey, Hashmap.bucket, hash, hcell, t.array,
    Option.bind_some]
  cases there : items[k.toNat]? with
  | none => rfl
  | some list =>
    simp only [(poked.slot k list there).walk hcell, Option.map_some]
    by_cases zero : k = 0
    · simp only [if_pos zero, Option.elim_none, ↓reduceIte]
    · simp only [if_neg zero]
      cases list with
      | nil => rfl
      | cons item rest =>
        have value := t.present _ (List.mem_of_getElem? there) item List.mem_cons_self
        exact congrArg some (if_neg value)

theorem lookup_isSome (t : Table m map items) {key : Ptr} (hkey : key ≠ NULL)
    (free : map.Unused key) {k : BitVec 32} :
    (map.lookup m key k).isSome = true ↔ k.toNat < map.size.toNat := by
  rw [t.lookup_eq hkey free, Option.isSome_map, ← t.length, Option.isSome_iff_ne_none, ne_eq,
    List.getElem?_eq_none_iff, Nat.not_le]

theorem lookup_eq_some (t : Table m map items) {key : Ptr} (hkey : key ≠ NULL)
    (free : map.Unused key) {k : BitVec 32} {tag : Tag} :
    map.lookup m key k = some (some tag) ↔ k ≠ 0 ∧ (k, tag) ∈ map.entries m := by
  rw [t.lookup_eq hkey free, Option.map_eq_some_iff, Hashmap.mem_entries]
  constructor
  · rintro ⟨list, there, found⟩
    split_ifs at found with zero
    obtain ⟨item, first, rfl⟩ := Option.map_eq_some_iff.mp found
    have inside : item ∈ list := List.mem_of_head? first
    obtain ⟨key, only⟩ := (t.slot k list there).key inside
    refine ⟨zero, item, ?_, key, rfl⟩
    rw [t.mem_nodes, key, there, only]
  · rintro ⟨nonzero, item, inside, rfl, rfl⟩
    refine ⟨[item], t.mem_nodes.mp inside, ?_⟩
    rw [if_neg nonzero]
    rfl

/-- A bucket is exchanged for another slot of its key. -/
theorem store (t : Table m map items) {k : BitVec 32} {list : List Item} (slot : Slot m' k list)
    (same : m'.int = m.int) (present : ∀ item ∈ list, item.value ≠ NULL) (counter : Int) :
    Table m' (map.store k.toNat list counter) (items.set k.toNat list) where
  array := by rw [Hashmap.store, t.array, Option.map_some]
  length := by rw [List.length_set, t.length]; rfl
  slot j list' there := by
    rcases exchanged there with ⟨rfl, rfl⟩ | ⟨-, old⟩
    · exact slot
    · exact (t.slot j list' old).congr fun item _ => by rw [same]
  present list' member item inside := by
    rcases List.mem_or_eq_of_mem_set member with old | rfl
    · exact t.present list' old item inside
    · exact present item inside

/-- A key past the array leaves it. -/
theorem set_outside (t : Table m map items) (a : Allocs) {key : Ptr} (hkey : key ≠ NULL)
    (outside : map.size.toNat ≤ (m'.int key).toNat) (value : Ptr) :
    hm_set a m' map key value = none := by
  have bucket : map.bucket m' key = none := by
    rw [Hashmap.bucket, t.array, Option.bind_some, hash, List.getElem?_eq_none_iff, t.length]
    exact outside
  simp only [hm_set, if_neg hkey, bucket]

end Table

/-- The chain of the key `k`: its nodes, and one at most unless it is the key 0. -/
structure Chain (m : Mem) (k : BitVec 32) (list : List Item) : Prop where
  keys : ∀ item ∈ list, m.int item.key = k
  single : k ≠ 0 → list.length ≤ 1

theorem Slot.chain {m : Mem} {k : BitVec 32} {list : List Item} (slot : Slot m k list) :
    Chain m k list := by
  cases slot with
  | empty => exact ⟨fun item member => absurd member List.not_mem_nil, fun _ => Nat.zero_le _⟩
  | node hc =>
    constructor
    · intro item member
      rw [List.mem_singleton.mp member]
      exact hc
    · exact fun _ => Nat.le_refl _

/-- A node moved to its chain ends up behind the others. -/
theorem Chain.move {m : Mem} {k : BitVec 32} {list : List Item} {found : Item}
    (chain : Chain m k (list ++ [found])) :
    update_item_list m list found = (m, list ++ [found]) := by
  induction list with
  | nil => rfl
  | cons item list ih =>
    have own := chain.keys item List.mem_cons_self
    have last : m.int found.key = k :=
      chain.keys found (List.mem_append_right _ (List.mem_singleton_self found))
    have zero : k = 0 := by
      by_contra used
      have short := chain.single used
      rw [List.length_append, List.length_cons, List.length_singleton] at short
      omega
    have same : m.setInt found.key (m.int item.key) = m := Mem.setInt_self (last.trans own.symm)
    have rest : Chain m k (list ++ [found]) :=
      ⟨fun x member => chain.keys x (List.mem_cons_of_mem _ member), fun used => absurd zero used⟩
    simp only [update_item_list, same, last, zero, ne_eq, not_true_eq_false, ↓reduceIte, ih rest]
    rfl

/-- Moving the nodes of a chain, of which the first are back already. -/
theorem Chain.moveAll {m : Mem} {k : BitVec 32} {items : List (List Item)} (map : Hashmap)
    (new_size : BitVec 32) (inside : k.toNat < items.length) {list rest : List Item}
    (chain : Chain m k (list ++ rest)) :
    rehashChain map new_size m (items.set k.toNat list) rest =
      some (m, items.set k.toNat (list ++ rest)) := by
  induction rest generalizing list with
  | nil => rw [rehashChain, List.append_nil]
  | cons temp next ih =>
    have whole : list ++ temp :: next = (list ++ [temp]) ++ next := by
      rw [List.append_assoc, List.singleton_append]
    rw [whole] at chain ⊢
    have own : m.int temp.key = k := by
      apply chain.keys
      simp
    have first : Chain m k (list ++ [temp]) := by
      refine ⟨fun x member => chain.keys x (List.mem_append_left _ member), fun used => ?_⟩
      have short := chain.single used
      rw [List.length_append] at short
      omega
    simp only [rehashChain, hash, own, List.getElem?_set_self inside, first.move, List.set_set]
    exact ih chain

/-- Moving the nodes of chains puts every node back where it was. -/
theorem rehashLoop_id {m : Mem} {items : List (List Item)} (map : Hashmap) (new_size : BitVec 32)
    (small : items.length ≤ 2 ^ 32)
    (chains : ∀ (k : BitVec 32) list, items[k.toNat]? = some list → Chain m k list)
    (n : Nat) : ∀ i, i + n ≤ items.length →
      rehashLoop map new_size n i m items = some (m, items) := by
  induction n with
  | zero =>
    intro i _
    rfl
  | succ n ih =>
    intro i hi
    have hlt : i < items.length := by omega
    have hindex : (BitVec.ofNat 32 i).toNat = i := by
      rw [BitVec.toNat_ofNat]
      exact Nat.mod_eq_of_lt (by omega)
    have hget : items[i]? = some items[i] := List.getElem?_eq_getElem hlt
    have chain : Chain m (BitVec.ofNat 32 i) ([] ++ items[i]) := by
      apply chains
      rw [hindex]
      exact hget
    have moved := chain.moveAll map new_size (hindex.symm ▸ hlt)
    rw [hindex, List.nil_append, List.set_getElem_self] at moved
    simp only [rehashLoop, hget, moved]
    exact ih (i + 1) (by omega)

/-- A bucket of a widened array. -/
theorem widened {items : List (List Item)} {n i : Nat} {list : List Item}
    (there : (items ++ List.replicate n [])[i]? = some list) :
    items[i]? = some list ∨ list = [] := by
  by_cases old : i < items.length
  · rw [List.getElem?_append_left old] at there
    exact .inl there
  · rw [List.getElem?_append_right (by omega), List.getElem?_replicate] at there
    split_ifs at there
    cases there
    exact .inr rfl

/-- A rehash of chains only appends empty buckets. -/
theorem hm_rehash_chains {m : Mem} {map : Hashmap} {items : List (List Item)}
    (array : map.items = some items) (length : items.length = map.size.toNat)
    (chains : ∀ (k : BitVec 32) list, items[k.toNat]? = some list → Chain m k list)
    {a : Allocs} (table : a.table = true) {new_size : BitVec 32} (grows : ¬ new_size < map.size) :
    hm_rehash a m map new_size = some (m, { map with
      items := some (items ++ List.replicate (new_size.toNat - map.size.toNat) []),
      size := new_size }) := by
  have larger : map.size.toNat ≤ new_size.toNat := Nat.not_lt.mp grows
  have small := new_size.isLt
  have wide : (items ++ List.replicate (new_size.toNat - map.size.toNat) []).length =
      new_size.toNat := by
    rw [List.length_append, List.length_replicate, length]
    omega
  have wideChains : ∀ (k : BitVec 32) list,
      (items ++ List.replicate (new_size.toNat - map.size.toNat) [])[k.toNat]? = some list →
        Chain m k list := by
    intro k list there
    rcases widened there with old | rfl
    · exact chains k list old
    · exact Slot.empty.chain
  have loop := rehashLoop_id map new_size (by omega) wideChains map.size.toNat 0 (by omega)
  simp only [hm_rehash, if_neg grows, table, array, loop, ↓reduceIte]

/-- A rehash of slots only appends empty buckets. -/
theorem hm_rehash_slots {m : Mem} {map : Hashmap} {items : List (List Item)}
    (array : map.items = some items) (length : items.length = map.size.toNat)
    (slots : ∀ (k : BitVec 32) list, items[k.toNat]? = some list → Slot m k list)
    (new_size : BitVec 32) :
    ∃ map' n, hm_rehash .succeed m map new_size = some (m, map') ∧
      map.size.toNat ≤ map'.size.toNat ∧ map'.items = some (items ++ List.replicate n []) ∧
      (items ++ List.replicate n []).length = map'.size.toNat := by
  by_cases smaller : new_size < map.size
  · refine ⟨map, 0, ?_, Nat.le_refl _, ?_, ?_⟩
    · rw [hm_rehash, if_pos smaller]
    · rw [List.replicate_zero, List.append_nil]
      exact array
    · rw [List.replicate_zero, List.append_nil]
      exact length
  · have rehashed := hm_rehash_chains array length (fun k list at_ => (slots k list at_).chain)
      (a := .succeed) rfl smaller
    have larger : map.size.toNat ≤ new_size.toNat := Nat.not_lt.mp smaller
    refine ⟨_, _, rehashed, larger, rfl, ?_⟩
    rw [List.length_append, List.length_replicate, length]
    exact Nat.add_sub_cancel' larger

theorem Table.rehash {m : Mem} {map : Hashmap} {items : List (List Item)}
    (t : Table m map items) (new_size : BitVec 32) :
    ∃ map' n, hm_rehash .succeed m map new_size = some (m, map') ∧
      map.size.toNat ≤ map'.size.toNat ∧ Table m map' (items ++ List.replicate n []) := by
  obtain ⟨map', n, rehashed, grows, array, length⟩ :=
    hm_rehash_slots t.array t.length t.slot new_size
  refine ⟨map', n, rehashed, grows, array, length, ?_, ?_⟩
  · intro k list there
    rcases widened there with old | rfl
    · exact t.slot k list old
    · exact .empty
  · intro list member item inside
    rcases List.mem_append.mp member with old | new
    · exact t.present list old item inside
    · rw [List.eq_of_mem_replicate new] at inside
      exact absurd inside List.not_mem_nil

/-- An insertion into a slot, the key being in the caller's cell. A value it
replaces is freed. -/
theorem Slot.put {m : Mem} {k : BitVec 32} {list : List Item} (slot : Slot m k list) {key : Ptr}
    (hk : m.int key = k) (hkey : key ≠ NULL) (nonzero : k ≠ 0) (value : Ptr) :
    ∃ m' item counter, set_item .succeed m list key value = (m', [item], counter) ∧
      item.value = value ∧ m'.int item.key = k ∧ m'.int = m.int ∧ m'.mac = m.mac ∧
      ∀ p ∈ m'.freed, p ∈ m.freed ∨ ∃ old ∈ list, old.value = p ∧ p ≠ value := by
  cases slot with
  | empty =>
    refine ⟨m, ⟨key, value⟩, 1, ?_, rfl, hk, rfl, rfl, fun p freed => .inl freed⟩
    simp only [set_item, if_neg hkey, Allocs.succeed, and_self, ↓reduceIte]
  | @node c v hc =>
    have same : m.setInt key (m.int c) = m := Mem.setInt_self (hk.trans hc.symm)
    have used : m.int key ≠ 0 := hk ▸ nonzero
    by_cases hv : v = value
    · refine ⟨m, ⟨c, value⟩, 0, ?_, rfl, hc, rfl, rfl, fun p freed => .inl freed⟩
      simp only [set_item, if_neg hkey, same, if_pos used, hv, ne_eq, not_true_eq_false,
        ↓reduceIte]
    · refine ⟨m.free v, ⟨c, value⟩, 0, ?_, rfl, hc, rfl, rfl, ?_⟩
      · simp only [set_item, if_neg hkey, same, if_pos used, if_pos hv]
      · intro p freed
        rcases List.mem_cons.mp freed with rfl | before
        · exact .inr ⟨⟨c, p⟩, List.mem_singleton_self _, rfl, hv⟩
        · exact .inl before

/-- An insertion gives its key a node with the value, and leaves all others. -/
theorem Table.set {m : Mem} {map : Hashmap} {items : List (List Item)} (t : Table m map items)
    {key value : Ptr} (hkey : key ≠ NULL) (hvalue : value ≠ NULL) (nonzero : m.int key ≠ 0)
    (inside : (m.int key).toNat < map.size.toNat) :
    ∃ m' map' items' item, hm_set .succeed m map key value = some (m', map', 1) ∧
      Table m' map' items' ∧ map.size.toNat ≤ map'.size.toNat ∧ item.value = value ∧
      m'.int item.key = m.int key ∧ m'.int = m.int ∧ m'.mac = m.mac ∧
      (∀ x, x ∈ map'.nodes ↔ x = item ∨ x ∈ map.nodes ∧ m.int x.key ≠ m.int key) ∧
      ∀ p ∈ m'.freed, p ∈ m.freed ∨
        ∃ old ∈ map.nodes, m.int old.key = m.int key ∧ old.value = p ∧ p ≠ value := by
  generalize hk : m.int key = k at nonzero inside
  rw [← t.length] at inside
  have there : items[k.toNat]? = some items[k.toNat] := List.getElem?_eq_getElem inside
  have slot := t.slot k _ there
  obtain ⟨m', item, counter, walk, hv, hc, sameInt, sameMac, freed⟩ :=
    slot.put hk hkey nonzero value
  have stored : Table m' (map.store k.toNat [item] counter) (items.set k.toNat [item]) := by
    apply t.store (.node hc) sameInt
    intro x only
    rw [List.mem_singleton.mp only, hv]
    exact hvalue
  have members (x : Item) : x ∈ (map.store k.toNat [item] counter).nodes ↔
      x = item ∨ x ∈ map.nodes ∧ m.int x.key ≠ k := by
    rw [stored.mem_nodes, t.mem_nodes, sameInt]
    by_cases here : m.int x.key = k
    · rw [here, List.getElem?_set_self inside]
      simp [eq_comm]
    · have distinct : k.toNat ≠ (m.int x.key).toNat :=
        fun eq => here (BitVec.eq_of_toNat_eq eq.symm)
      rw [List.getElem?_set_ne distinct]
      have other : x ≠ item := by
        rintro rfl
        exact here (sameInt ▸ hc)
      simp [here, other]
  have frees : ∀ p ∈ m'.freed, p ∈ m.freed ∨
      ∃ old ∈ map.nodes, m.int old.key = k ∧ old.value = p ∧ p ≠ value := by
    intro p hp
    rcases freed p hp with before | ⟨old, member, held, other⟩
    · exact .inl before
    · obtain ⟨key, only⟩ := slot.key member
      refine .inr ⟨old, t.mem_nodes.mpr ?_, key, held, other⟩
      rw [key, there, only]
  have bucket : map.bucket m key = some items[k.toNat] := by
    rw [Hashmap.bucket, t.array, Option.bind_some, hash, hk]
    exact there
  simp only [hm_set, if_neg hkey, bucket, walk, hash, hk]
  split
  · obtain ⟨map', n, rehashed, grows, t'⟩ :=
      stored.rehash (next_size (map.store k.toNat [item] counter).size)
    refine ⟨m', map', _, item, by rw [rehashed]; rfl, t', grows, hv, hc, sameInt, sameMac, ?_,
      frees⟩
    intro x
    rw [← members, t'.nodes, stored.nodes, List.flatten_append]
    simp
  · exact ⟨m', _, _, item, rfl, stored, Nat.le_refl _, hv, hc, sameInt, sameMac, members, frees⟩

end TeeSqlite
