import TeeSqlite.Hashmap.Chains

/-! An insertion when allocations fail. The walk that cannot make its node, and the
rehash that cannot enlarge its array, return NULL, and `hm_set` looks at neither. -/
namespace TeeSqlite
open Runs

/-- The array is there, with as many buckets as the size says. -/
def Usable (map : Hashmap) : Prop :=
  ∃ items, map.items = some items ∧ items.length = map.size.toNat

/-- The bucket of `k` has a node of that key with the value, the other nodes are still
there, and the count went up by as much as their number. -/
structure StoresPair (m : Mem) (map : Hashmap) (m' : Mem) (map' : Hashmap) (k : BitVec 32)
    (value : Ptr) : Prop where
  pair : ∃ items list item, map'.items = some items ∧ items[k.toNat]? = some list ∧ item ∈ list ∧
    m'.int item.key = k ∧ item.value = value
  others : ∀ item ∈ map.nodes, m.int item.key ≠ k → item ∈ map'.nodes
  count : map'.count + BitVec.ofNat 32 map.nodes.length =
    map.count + BitVec.ofNat 32 map'.nodes.length

/-- The call stores the pair and says so, or fails and leaves the map as it was. -/
def SetsAtomically (a : Allocs) (m : Mem) (map : Hashmap) (key value : Ptr) : Prop :=
  ∃ m' map' rc, hm_set a m map key value = some (m', map', rc) ∧ Usable map' ∧
    (rc = 1 ∧ StoresPair m map m' map' (m.int key) value ∨
      rc = 0 ∧ map'.items = map.items ∧ map'.size = map.size ∧ map'.count = map.count)

/-- No allocation fails that the call needs: of a node and its key cell, unless the
key has a node or the pair is there already, and of an array when the map is
overloaded then. The bucket of the key has to be there. -/
def AllocationsSuffice (a : Allocs) (m : Mem) (map : Hashmap) (key value : Ptr) : Prop :=
  ∃ list, map.bucket m key = some list ∧
    (NeedsNode (m.int key) list → (a.item ∧ a.key) ∨ ∃ item ∈ list, item.value = value) ∧
    (map.overloaded (map.count + if NeedsNode (m.int key) list ∧ a.item ∧ a.key then 1 else 0)
      map.size = true → map.size ≤ next_size map.size → a.table = true)

section
variable {m : Mem} {map : Hashmap} {items : List (List Item)} {key value : Ptr} {a : Allocs}

theorem inserted_count (a : Allocs) (k : BitVec 32) (list : List Item) (key value : Ptr) :
    BitVec.ofNat 32 (inserted a k list key value).2 =
      if NeedsNode k list ∧ a.item ∧ a.key then 1 else 0 := by
  unfold inserted
  by_cases needs : NeedsNode k list
  · by_cases made : a.item ∧ a.key
    · rw [if_pos needs, if_pos made, if_pos ⟨needs, made⟩]
      rfl
    · rw [if_pos needs, if_neg made, if_neg fun both => made both.2]
      rfl
  · rw [if_neg needs, if_neg fun both => needs both.1]
    rfl

/-- The chain has the value after the insertion, unless a node could not be made. -/
theorem mem_inserted_iff (chain : Chain m (m.int key) list) :
    (∃ item ∈ (inserted a (m.int key) list key value).1, item.value = value) ↔
      (NeedsNode (m.int key) list → (a.item ∧ a.key) ∨ ∃ item ∈ list, item.value = value) := by
  unfold inserted
  by_cases needs : NeedsNode (m.int key) list
  · rw [if_pos needs]
    by_cases made : a.item ∧ a.key
    · rw [if_pos made]
      exact iff_of_true ⟨⟨key, value⟩, List.mem_append_right _ (List.mem_singleton_self _), rfl⟩
        fun _ => .inl made
    · rw [if_neg made]
      constructor
      · exact fun there _ => .inr there
      · exact fun either => (either needs).resolve_left made
  · rw [if_neg needs]
    apply iff_of_true _ fun yes => absurd yes needs
    obtain ⟨item, rest, rfl⟩ := List.exists_cons_of_ne_nil (not_or.mp needs).2
    exact ⟨_, List.mem_cons_self, rfl⟩

/-- With the bucket exchanged and perhaps empty ones behind the last, the pair is stored
when it is in that bucket. -/
theorem storesPair_iff (c : Chained m map items) {list : List Item}
    (there : items[(m.int key).toNat]? = some list) {freed : List Ptr} {map' : Hashmap} {n : Nat}
    (chain : Chain { m with freed } (m.int key) (inserted a (m.int key) list key value).1)
    (array : map'.items = some (items.set (m.int key).toNat
      (inserted a (m.int key) list key value).1 ++ List.replicate n []))
    (count : map'.count = map.count + BitVec.ofNat 32 (inserted a (m.int key) list key value).2) :
    StoresPair m map { m with freed } map' (m.int key) value ↔
      ∃ item ∈ (inserted a (m.int key) list key value).1, item.value = value := by
  have grown := length_inserted a (m.int key) list key value
  generalize inserted a (m.int key) list key value = new at *
  have inside : (m.int key).toNat < items.length := (List.getElem?_eq_some_iff.mp there).1
  have bucket (j : Nat) (old : j < items.length) :
      (items.set (m.int key).toNat new.1 ++ List.replicate n [])[j]? =
        (items.set (m.int key).toNat new.1)[j]? :=
    List.getElem?_append_left (by rwa [List.length_set])
  have own := bucket _ inside
  rw [List.getElem?_set_self inside] at own
  have nodes : map'.nodes = (items.set (m.int key).toNat new.1).flatten := by
    rw [Hashmap.nodes, array, Option.getD_some, List.flatten_append]
    simp
  constructor
  · intro stored
    obtain ⟨items', list', item, array', there', member, -, same⟩ := stored.pair
    obtain rfl := Option.some.inj (array.symm.trans array')
    obtain rfl := Option.some.inj (own.symm.trans there')
    exact ⟨item, member, same⟩
  · rintro ⟨item, member, same⟩
    refine ⟨⟨_, _, item, array, own, member, chain.keys item member, same⟩, ?_, ?_⟩
    · intro other old distinct
      obtain ⟨list', there', member'⟩ := c.mem_nodes.mp old
      have apart : (m.int key).toNat ≠ (m.int other.key).toNat :=
        fun equal => distinct (BitVec.eq_of_toNat_eq equal.symm)
      rw [nodes]
      rw [← List.getElem?_set_ne apart] at there'
      exact List.mem_flatten_of_mem (List.mem_of_getElem? there') member'
    · have exchanged := length_flatten_set there new.1
      have total : map'.nodes.length = map.nodes.length + new.2 := by
        rw [nodes, c.nodes]
        omega
      rw [count, total, BitVec.ofNat_add]
      ac_rfl

theorem hm_rehash_smaller (a : Allocs) (m : Mem) (map : Hashmap) {new_size : BitVec 32}
    (smaller : new_size < map.size) : hm_rehash a m map new_size = some (m, map) :=
  if_pos smaller

theorem hm_rehash_lost (m : Mem) (map : Hashmap) {new_size : BitVec 32} (table : ¬ a.table = true)
    (larger : ¬ new_size < map.size) :
    hm_rehash a m map new_size = some (m, { map with items := none }) := by
  rw [hm_rehash, if_neg larger, if_neg table]

/-- A call that answers `SUCCESS` has to have stored the pair. -/
theorem setsAtomically_of_success {m' : Mem} {map' : Hashmap}
    (set : hm_set a m map key value = some (m', map', 1)) :
    SetsAtomically a m map key value ↔
      Usable map' ∧ StoresPair m map m' map' (m.int key) value := by
  constructor
  · rintro ⟨m'', map'', rc, set', usable, either⟩
    rw [set] at set'
    cases set'
    exact ⟨usable, either.elim And.right fun failed => absurd failed.1 (by decide)⟩
  · rintro ⟨usable, stored⟩
    exact ⟨m', map', 1, set, usable, .inl ⟨rfl, stored⟩⟩

/-- A key inside the table: the pair has to get into its bucket, and the array must
survive the rehash. -/
theorem setsAtomically_iff (c : Chained m map items) (hkey : key ≠ NULL) {list : List Item}
    (there : items[(m.int key).toNat]? = some list) :
    SetsAtomically a m map key value ↔
      (∃ item ∈ (inserted a (m.int key) list key value).1, item.value = value) ∧
      (map.overloaded (map.count + BitVec.ofNat 32 (inserted a (m.int key) list key value).2)
        map.size = true → map.size ≤ next_size map.size → a.table = true) := by
  obtain ⟨freed, set, chained⟩ := c.set_eq hkey a value there
  have chain := chained.chain (m.int key) _
    (List.getElem?_set_self (List.getElem?_eq_some_iff.mp there).1)
  have count := store_count map (m.int key).toNat (inserted a (m.int key) list key value).1
    ((inserted a (m.int key) list key value).2 : Int)
  rw [BitVec.ofInt_natCast] at count
  have kept : Usable (map.store (m.int key).toNat (inserted a (m.int key) list key value).1
      ((inserted a (m.int key) list key value).2 : Int)) := ⟨_, chained.array, chained.length⟩
  have array := chained.array
  rw [← List.append_nil (items.set _ _)] at array
  have finish {map' : Hashmap} (n : Nat)
      (set : hm_set a m map key value = some ({ m with freed }, map', 1)) (usable : Usable map')
      (array : map'.items = some (items.set (m.int key).toNat
        (inserted a (m.int key) list key value).1 ++ List.replicate n []))
      (count : map'.count = map.count +
        BitVec.ofNat 32 (inserted a (m.int key) list key value).2) :
      SetsAtomically a m map key value ↔
        ∃ item ∈ (inserted a (m.int key) list key value).1, item.value = value := by
    rw [setsAtomically_of_success set, storesPair_iff c there chain array count]
    exact and_iff_right usable
  by_cases full : map.overloaded
      (map.count + BitVec.ofNat 32 (inserted a (m.int key) list key value).2) map.size = true
  · rw [if_pos full] at set
    by_cases smaller : next_size map.size < map.size
    · rw [hm_rehash_smaller a _ (map.store _ _ _) smaller, Option.map_some] at set
      rw [finish 0 set kept array count]
      exact (and_iff_left fun _ larger => absurd smaller (BitVec.not_lt.mpr larger)).symm
    · by_cases table : a.table = true
      · obtain ⟨n, rehashed, wider⟩ := chained.rehash table smaller
        rw [rehashed, Option.map_some] at set
        rw [finish n set ⟨_, wider.array, wider.length⟩ rfl count]
        exact (and_iff_left fun _ _ => table).symm
      · rw [hm_rehash_lost _ (map.store _ _ _) table smaller, Option.map_some] at set
        rw [setsAtomically_of_success set]
        constructor
        · rintro ⟨⟨items', lost, -⟩, -⟩
          cases lost
        · exact fun both => absurd (both.2 full (BitVec.not_lt.mp smaller)) table
  · rw [if_neg full] at set
    rw [finish 0 set kept array count]
    exact (and_iff_left fun full' => absurd full' full).symm

end

/-- From every state that calls reach, whatever failed in them, an insertion stores its
pair in a map that is still there exactly when the allocations it needs succeed. -/
theorem set_atomic_iff {m : Mem} {a₀ : Allocs} {size step : BitVec 32}
    {overloaded : BitVec 32 → BitVec 32 → Bool} {map : Hashmap}
    (created : hm_create a₀ size overloaded step = some map) {h : List (MapCall × Unit)}
    {s : Mem × Hashmap} (run : Run callStep LeavesCells (m, map) h s) (a : Allocs) {key : Ptr}
    (hkey : key ≠ NULL) (value : Ptr) :
    SetsAtomically a s.1 s.2 key value ↔ AllocationsSuffice a s.1 s.2 key value := by
  have kept := kept_run created run
  obtain ⟨m, map⟩ := s
  unfold AllocationsSuffice
  cases bucket : map.bucket m key with
  | none =>
    constructor
    · rintro ⟨m', map', rc, set, -⟩
      simp only [hm_set, if_neg hkey, bucket] at set
      cases set
    · rintro ⟨list, there, -⟩
      cases there
  | some list =>
    obtain ⟨items, array, there⟩ := Option.bind_eq_some_iff.mp bucket
    have c := kept items array
    rw [setsAtomically_iff c hkey there, mem_inserted_iff (c.chain _ _ there), inserted_count]
    constructor
    · rintro ⟨stored, survives⟩
      exact ⟨list, rfl, stored, survives⟩
    · rintro ⟨list', same, stored, survives⟩
      obtain rfl := Option.some.inj same
      exact ⟨stored, survives⟩

/-- A table that grows when it has more nodes than buckets. -/
def fiveBuckets : Hashmap where
  items := some (List.replicate 5 [])
  count := 0
  size := 5
  overloaded count size := size < count
  hash_step := 13

theorem fiveBuckets_created :
    hm_create .succeed 1 (fun count size => size < count) 13 = some fiveBuckets := rfl

/-- The page 3 is in a cell, and the map still empty. -/
theorem one_page_waiting :
    ∃ h, Run callStep LeavesCells (Mem.blank, fiveBuckets) h
      (Mem.blank.setInt 8 3, fiveBuckets) := by
  refine ⟨_, .next (i := .assign 8 3) .start ?_ rfl⟩
  intro item member
  exact absurd member List.not_mem_nil

theorem set_atomic_first_page :
    SetsAtomically .succeed (Mem.blank.setInt 8 3) fiveBuckets 8 16 := by
  obtain ⟨h, run⟩ := one_page_waiting
  have suffices_here : AllocationsSuffice .succeed (Mem.blank.setInt 8 3) fiveBuckets 8 16 :=
    ⟨[], rfl, fun _ => .inl ⟨rfl, rfl⟩, fun _ _ => rfl⟩
  exact (set_atomic_iff fiveBuckets_created run .succeed (by decide) 16).mpr suffices_here

/-- Without memory for its node the page is not in the map, and the call says it is. -/
theorem lost_page_is_success :
    (∃ h, Run callStep LeavesCells (Mem.blank, fiveBuckets) h
      (Mem.blank.setInt 8 3, fiveBuckets)) ∧
    hm_set ⟨false, true, true⟩ (Mem.blank.setInt 8 3) fiveBuckets 8 16 =
      some (Mem.blank.setInt 8 3, fiveBuckets, 1) ∧
    ¬ SetsAtomically ⟨false, true, true⟩ (Mem.blank.setInt 8 3) fiveBuckets 8 16 := by
  have set : hm_set ⟨false, true, true⟩ (Mem.blank.setInt 8 3) fiveBuckets 8 16 =
      some (Mem.blank.setInt 8 3, fiveBuckets, 1) := rfl
  refine ⟨one_page_waiting, set, ?_⟩
  rw [setsAtomically_of_success set]
  rintro ⟨-, stored⟩
  obtain ⟨items, list, item, array, there, member, -⟩ := stored.pair
  cases array
  cases there
  exact absurd member List.not_mem_nil

end TeeSqlite
