import TeeSqlite.Hashmap.Chains

/-! The count of the map, and what a rehash and a clear leave of its nodes, with all
allocations succeeding. -/
namespace TeeSqlite
open Runs

def MapCall.Succeeds : MapCall → Prop
  | .hm_set a _ _ | .hm_rehash a _ => a = .succeed
  | _ => True

/-- The callers leave the cells of the nodes alone, and the allocations succeed. -/
def Orderly (s : Mem × Hashmap) (call : MapCall) : Prop := LeavesCells s call ∧ call.Succeeds

/-- The key of the call is there, and inside the table. -/
def KeyReady (s : Mem × Hashmap) : MapCall → Prop
  | .hm_set _ key _ | .hm_get key => key = NULL ∨ s.1.int key < s.2.size
  | .hm_unset key | .hm_isset key => key ≠ NULL ∧ s.1.int key < s.2.size
  | _ => True

/-- Every node is where `hash` says, and the count is the number of nodes. -/
structure Accounted (m : Mem) (map : Hashmap) : Prop where
  placed : ∃ items, map.items = some items ∧ items.length = map.size.toNat ∧
    ∀ i list, items[i]? = some list → ∀ item ∈ list,
      (hash m item.key map.hash_step map.size).toNat = i
  count : map.count = BitVec.ofNat 32 map.nodes.length

/-- The count is the number itself, as long as that is an `unsigned int`. -/
theorem Accounted.toNat_count {m : Mem} {map : Hashmap} (acc : Accounted m map)
    (few : map.nodes.length < 2 ^ 32) : map.count.toNat = map.nodes.length := by
  rw [acc.count, BitVec.toNat_ofNat]
  exact Nat.mod_eq_of_lt few

/-- What the calls do to the nodes and the count. -/
structure Accounting (s : Mem × Hashmap) : Prop where
  accounted : Accounted s.1 s.2
  counted : s.2.nodes.length < 2 ^ 32 → s.2.count.toNat = s.2.nodes.length
  removes : ∀ key r, hm_unset s.1 s.2 key = some r → ∃ n,
    r.2.1.nodes.length + n = s.2.nodes.length ∧ r.2.1.count = s.2.count - BitVec.ofNat 32 n
  rehashes : ∀ new_size, s.2.size ≤ new_size → ∃ map' items,
    hm_rehash .succeed s.1 s.2 new_size = some (s.1, map') ∧ map'.size = new_size ∧
      map'.count = s.2.count ∧ map'.nodes.Perm s.2.nodes ∧ Accounted s.1 map' ∧
      map'.items = some items ∧ ∀ list ∈ items, list = [] ∨ ∀ item ∈ list, item ∈ s.2.nodes
  clears : ∃ m' map' items, hm_clear s.1 s.2 = some (m', map') ∧ map'.count = 0 ∧
    map'.items = some items ∧ items.length = s.2.size.toNat ∧ ∀ list ∈ items, list = []
  answers : ∀ call, KeyReady s call → call.Succeeds → (callStep s call).isSome = true

/-- The invariant: chains, and their number of nodes. -/
def Tallied (s : Mem × Hashmap) : Prop :=
  ∃ items, Chained s.1 s.2 items ∧ s.2.count = BitVec.ofNat 32 items.flatten.length

section
variable {m : Mem} {map : Hashmap} {items : List (List Item)}

theorem Chained.accounted (c : Chained m map items)
    (count : map.count = BitVec.ofNat 32 items.flatten.length) : Accounted m map where
  placed := by
    refine ⟨items, c.array, c.length, ?_⟩
    intro i list there item inside
    have small : i < 2 ^ 32 := by
      have found := (List.getElem?_eq_some_iff.mp there).1
      have size := map.size.isLt
      rw [c.length] at found
      omega
    have index : (BitVec.ofNat 32 i).toNat = i := by
      rw [BitVec.toNat_ofNat]
      exact Nat.mod_eq_of_lt small
    rw [hash, (c.chain (BitVec.ofNat 32 i) list (index.symm ▸ there)).keys item inside, index]
  count := by rw [c.nodes, count]

theorem ofNat_add_int (n k : Nat) :
    BitVec.ofNat 32 n + BitVec.ofInt 32 (k : Int) = BitVec.ofNat 32 (n + k) := by
  rw [BitVec.ofInt_natCast, BitVec.ofNat_add]

theorem ofNat_sub_int {n k : Nat} (le : k ≤ n) :
    BitVec.ofNat 32 n + BitVec.ofInt 32 (-(k : Int)) = BitVec.ofNat 32 (n - k) := by
  rw [← BitVec.ofInt_natCast, ← BitVec.ofInt_natCast, ← BitVec.ofInt_add]
  congr 1
  omega

theorem tallied_rehash (c : Chained m map items)
    (count : map.count = BitVec.ofNat 32 items.flatten.length) {new_size : BitVec 32}
    {r : Mem × Hashmap} (h : hm_rehash .succeed m map new_size = some r) : Tallied r := by
  by_cases smaller : new_size < map.size
  · rw [hm_rehash, if_pos smaller] at h
    cases h
    exact ⟨items, c, count⟩
  · obtain ⟨n, rehashed, chained⟩ := c.rehash (a := .succeed) rfl smaller
    rw [rehashed] at h
    cases h
    refine ⟨_, chained, ?_⟩
    rw [List.flatten_append]
    simpa using count

theorem tallied_set (c : Chained m map items)
    (count : map.count = BitVec.ofNat 32 items.flatten.length) {key value : Ptr}
    {r : Mem × Hashmap × Int} (h : hm_set .succeed m map key value = some r) :
    Tallied (r.1, r.2.1) := by
  by_cases hkey : key = NULL
  · rw [hm_set, if_pos hkey] at h
    cases h
    exact ⟨items, c, count⟩
  · cases there : items[(m.int key).toNat]? with
    | none =>
      simp only [hm_set, if_neg hkey, c.bucket, there] at h
      cases h
    | some list =>
      obtain ⟨freed, set, chained⟩ := c.set_eq hkey .succeed value there
      have grown := length_inserted .succeed (m.int key) list key value
      have nodes := length_flatten_set there
        (inserted .succeed (m.int key) list key value).1
      have stored : (map.store (m.int key).toNat
          (inserted .succeed (m.int key) list key value).1
          ((inserted .succeed (m.int key) list key value).2 : Int)).count =
            BitVec.ofNat 32 (items.set (m.int key).toNat
              (inserted .succeed (m.int key) list key value).1).flatten.length := by
        rw [store_count, count, ofNat_add_int]
        congr 1
        omega
      rw [set] at h
      split_ifs at h
      · obtain ⟨r', rehashed, rfl⟩ := Option.map_eq_some_iff.mp h
        exact tallied_rehash chained stored rehashed
      · cases h
        exact ⟨_, chained, stored⟩

/-- A removal takes nodes off the chain and off the count. -/
theorem unset_counted (c : Chained m map items)
    (count : map.count = BitVec.ofNat 32 items.flatten.length) {key : Ptr}
    {r : Mem × Hashmap × Int} (h : hm_unset m map key = some r) :
    ∃ items' n, Chained r.1 r.2.1 items' ∧ items'.flatten.length + n = items.flatten.length ∧
      r.2.1.count = BitVec.ofNat 32 items'.flatten.length := by
  by_cases hkey : key = NULL
  · rw [hm_unset, if_pos hkey] at h
    cases h
  · cases there : items[(m.int key).toNat]? with
    | none =>
      simp only [hm_unset, if_neg hkey, c.bucket, there] at h
      cases h
    | some list =>
      obtain ⟨freed, unset, chained⟩ := c.unset_eq hkey there
      have nodes := length_flatten_set there (if m.int key = 0 then list else [])
      rw [unset] at h
      cases h
      by_cases zero : m.int key = 0
      · simp only [if_pos zero] at chained nodes ⊢
        refine ⟨_, 0, chained, by omega, ?_⟩
        rw [store_count, count, ← Int.natCast_zero, ofNat_add_int]
        congr 1
        omega
      · simp only [if_neg zero, List.length_nil] at chained nodes ⊢
        refine ⟨_, list.length, chained, by omega, ?_⟩
        rw [store_count, count, ofNat_sub_int (by omega)]
        congr 1
        omega

theorem clear_counted (c : Chained m map items)
    (count : map.count = BitVec.ofNat 32 items.flatten.length) :
    ∃ m' map', hm_clear m map = some (m', map') ∧ Chained m' map' (items.map fun _ => []) ∧
      map'.count = 0 := by
  obtain ⟨freed, cleared, chained⟩ := c.clear_eq
  refine ⟨_, _, cleared, chained, ?_⟩
  change map.count + _ = 0
  rw [count, ofNat_sub_int (Nat.le_refl _), Nat.sub_self]
  rfl

/-- One orderly call keeps the tally. -/
theorem tallied_step {s s' : Mem × Hashmap} (tallied : Tallied s) {call : MapCall}
    (orderly : Orderly s call) {o : Unit} (h : callStep s call = some (s', o)) : Tallied s' := by
  obtain ⟨m, map⟩ := s
  obtain ⟨items, c, count⟩ := tallied
  obtain ⟨leaves, succeeds⟩ := orderly
  cases call with
  | assign cell k =>
    cases h
    have kept : ChainsKept (m.setInt cell k, map) := by
      apply kept_step _ leaves rfl
      exact fun items' same => Option.some.inj (c.array.symm.trans same) ▸ c
    exact ⟨items, kept items c.array, count⟩
  | hm_set a key value =>
    obtain rfl : a = .succeed := succeeds
    obtain ⟨r, set, made⟩ := Option.map_eq_some_iff.mp h
    cases made
    exact tallied_set c count set
  | hm_unset key =>
    obtain ⟨r, unset, made⟩ := Option.map_eq_some_iff.mp h
    cases made
    obtain ⟨items', n, chained, -, count'⟩ := unset_counted c count unset
    exact ⟨items', chained, count'⟩
  | hm_get key =>
    obtain ⟨r, got, made⟩ := Option.map_eq_some_iff.mp h
    cases made
    exact ⟨items, (c.get_eq key got).symm ▸ c, count⟩
  | hm_isset key =>
    obtain ⟨r, found, made⟩ := Option.map_eq_some_iff.mp h
    cases made
    exact ⟨items, (c.isset_eq key found).symm ▸ c, count⟩
  | hm_rehash a new_size =>
    obtain rfl : a = .succeed := succeeds
    obtain ⟨r, rehashed, made⟩ := Option.map_eq_some_iff.mp h
    cases made
    exact tallied_rehash c count rehashed
  | hm_clear =>
    obtain ⟨m', map', cleared, chained, zero⟩ := clear_counted c count
    obtain ⟨r, emptied, made⟩ := Option.map_eq_some_iff.mp h
    cases made
    obtain rfl := Option.some.inj (cleared.symm.trans emptied)
    refine ⟨_, chained, ?_⟩
    simpa using zero

theorem rehash_isSome (c : Chained m map items) (new_size : BitVec 32) :
    (hm_rehash .succeed m map new_size).isSome = true := by
  by_cases smaller : new_size < map.size
  · rw [hm_rehash, if_pos smaller]
    rfl
  · obtain ⟨n, rehashed, -⟩ := c.rehash (a := .succeed) rfl smaller
    rw [rehashed]
    rfl

/-- A call with its key in the table is answered. -/
theorem Chained.answers (c : Chained m map items) {call : MapCall} (ready : KeyReady (m, map) call)
    (succeeds : call.Succeeds) : (callStep (m, map) call).isSome = true := by
  have found {key : Ptr} (inside : m.int key < map.size) :
      ∃ list, map.bucket m key = some list :=
    Option.isSome_iff_exists.mp ((c.bucket_isSome key).mpr inside)
  cases call with
  | assign => rfl
  | hm_set a key value =>
    obtain rfl : a = .succeed := succeeds
    rw [callStep, Option.isSome_map]
    by_cases hkey : key = NULL
    · rw [hm_set, if_pos hkey]
      rfl
    · obtain ⟨list, bucket⟩ := found (ready.resolve_left hkey)
      obtain ⟨freed, set, chained⟩ :=
        c.set_eq hkey .succeed value ((c.bucket key).symm.trans bucket)
      rw [set]
      split
      · rw [Option.isSome_map]
        exact rehash_isSome chained _
      · rfl
  | hm_unset key =>
    obtain ⟨list, bucket⟩ := found ready.2
    rw [callStep, Option.isSome_map]
    simp only [hm_unset, if_neg ready.1, bucket, Option.isSome_some]
  | hm_get key =>
    rw [callStep, Option.isSome_map]
    by_cases hkey : key = NULL
    · rw [hm_get, if_pos hkey]
      rfl
    · obtain ⟨list, bucket⟩ := found (ready.resolve_left hkey)
      simp only [hm_get, if_neg hkey, bucket, Option.isSome_some]
  | hm_isset key =>
    obtain ⟨list, bucket⟩ := found ready.2
    simp only [callStep, hm_isset, if_neg ready.1, bucket, Option.map_some, Option.isSome_some]
  | hm_rehash a new_size =>
    obtain rfl : a = .succeed := succeeds
    rw [callStep, Option.isSome_map]
    exact rehash_isSome c new_size
  | hm_clear =>
    obtain ⟨freed, cleared, -⟩ := c.clear_eq
    rw [callStep, cleared]
    rfl

end

theorem Tallied.accounting {s : Mem × Hashmap} (tallied : Tallied s) : Accounting s := by
  obtain ⟨m, map⟩ := s
  obtain ⟨items, c, count⟩ := tallied
  have accounted := Chained.accounted c count
  refine ⟨accounted, accounted.toNat_count, ?_, ?_, ?_, ?_⟩
  · intro key r unset
    obtain ⟨items', n, chained, fewer, count'⟩ := unset_counted c count unset
    rw [chained.nodes, c.nodes]
    refine ⟨n, fewer, ?_⟩
    rw [count', count, ← fewer, BitVec.ofNat_add, BitVec.add_sub_cancel]
  · intro new_size larger
    obtain ⟨n, rehashed, chained⟩ :=
      c.rehash (a := .succeed) rfl (BitVec.not_lt.mpr larger)
    have same : (items ++ List.replicate n ([] : List Item)).flatten = items.flatten := by
      simp
    refine ⟨_, _, rehashed, rfl, rfl, ?_, ?_, chained.array, ?_⟩
    · rw [chained.nodes, c.nodes, same]
    · exact chained.accounted (same.symm ▸ count)
    · intro list member
      refine .inr fun item inside => ?_
      rw [c.nodes, ← same]
      exact List.mem_flatten_of_mem member inside
  · obtain ⟨m', map', cleared, chained, zero⟩ := clear_counted c count
    refine ⟨m', map', _, cleared, zero, chained.array, ?_, ?_⟩
    · rw [List.length_map]
      exact c.length
    · intro list member
      obtain ⟨-, -, rfl⟩ := List.mem_map.mp member
      rfl
  · exact fun call ready succeeds => c.answers ready succeeds

/-- In every state that orderly calls reach, the count is the number of nodes, each in
the bucket of its key; a rehash keeps them all, and a clear none. -/
theorem map_accounting {m : Mem} {a : Allocs} {size step : BitVec 32}
    {overloaded : BitVec 32 → BitVec 32 → Bool} {map : Hashmap}
    (created : hm_create a size overloaded step = some map) {h : List (MapCall × Unit)}
    {s : Mem × Hashmap} (run : Run callStep Orderly (m, map) h s) : Accounting s := by
  apply Tallied.accounting
  apply run.invariant (fun _ s => Tallied s)
  · refine ⟨_, Chained.created m created, ?_⟩
    unfold hm_create at created
    dsimp only at created
    split_ifs at created
    cases created
    simp
  · intro _ s call s' o tallied orderly answered
    exact tallied_step tallied orderly answered

/-- A table of 5 buckets gets the page 3 and grows to 13. -/
def fillAndGrow : List MapCall :=
  [.assign 8 3, .hm_set .succeed 8 16, .hm_rehash .succeed 13]

theorem accounting_of_one_page :
    ∃ map h s, hm_create .succeed 1 (fun count size => size < count) 13 = some map ∧
      Run callStep Orderly (Mem.blank, map) h s ∧ (h.map Prod.fst).reverse = fillAndGrow ∧
      Accounting s := by
  obtain ⟨map, h, s, created, run, calls⟩ : ∃ map h s,
      hm_create .succeed 1 (fun count size => size < count) 13 = some map ∧
      Run callStep Orderly (Mem.blank, map) h s ∧ (h.map Prod.fst).reverse = fillAndGrow := by
    refine ⟨_, _, _, rfl, .next (i := .hm_rehash .succeed 13)
      (.next (i := .hm_set .succeed 8 16) (.next (i := .assign 8 3) .start ?_ rfl) ?_ rfl) ?_ rfl,
      rfl⟩
    · refine ⟨?_, trivial⟩
      intro item member
      exact absurd member List.not_mem_nil
    · exact ⟨trivial, rfl⟩
    · exact ⟨trivial, rfl⟩
  exact ⟨map, h, s, created, run, calls, map_accounting created run⟩

end TeeSqlite
