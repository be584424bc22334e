import TeeSqlite.Lib.Tally
import TeeSqlite.Hashmap.Accounting

/-! What the map frees. It keeps the pointers it is given and frees them itself: each once,
whatever the cells hold, and all that it was given to keep, as long as the cells of its
nodes are left alone. -/
namespace TeeSqlite
open Runs Tally

/-- How often a node has a cell. -/
def Item.holds (p : Ptr) (item : Item) : Nat := [item.key, item.value].count p

def chainHolds (p : Ptr) (list : List Item) : Nat := tally (Item.holds p) list

def Hashmap.holds (map : Hashmap) (p : Ptr) : Nat := tally (chainHolds p) (map.items.getD [])

@[simp] theorem chainHolds_nil (p : Ptr) : chainHolds p [] = 0 := rfl

@[simp] theorem chainHolds_cons (p : Ptr) (item : Item) (list : List Item) :
    chainHolds p (item :: list) =
      [item.key].count p + [item.value].count p + chainHolds p list := by
  rw [chainHolds, tally_cons, Item.holds, ← List.singleton_append, List.count_append]
  rfl

@[simp] theorem Mem.setInt_freed (m : Mem) (p : Ptr) (x : BitVec 32) :
    (m.setInt p x).freed = m.freed := rfl

theorem Mem.count_free (m : Mem) (q p : Ptr) :
    (m.free q).freed.count p = [q].count p + m.freed.count p := by
  rw [Mem.free, ← List.singleton_append, List.count_append]

section
variable (p : Ptr)

/-- An insertion keeps no more than it was given, and frees what it replaces. -/
theorem set_item_keeps (a : Allocs) (m : Mem) (list : List Item) (key value : Ptr) :
    let r := set_item a m list key value
    r.1.freed.count p + chainHolds p r.2.1 ≤
      m.freed.count p + chainHolds p list + ([key].count p + [value].count p) := by
  induction list generalizing m with
  | nil =>
    simp only [set_item]
    split_ifs <;> simp only [chainHolds_nil, chainHolds_cons] <;> omega
  | cons item list ih =>
    simp only [set_item]
    split_ifs with null zero other
    · simp only [chainHolds_nil]
      omega
    · simp only [Mem.count_free, Mem.setInt_freed, chainHolds_cons]
      omega
    · simp only [Mem.setInt_freed]
      omega
    · have rest := ih (m.setInt key (m.int item.key))
      generalize set_item a (m.setInt key (m.int item.key)) list key value = r at rest ⊢
      obtain ⟨m', list', n⟩ := r
      simp only [Mem.setInt_freed, chainHolds_cons] at rest ⊢
      omega

/-- With its allocations succeeding it keeps the value, and what it held it holds or frees. -/
theorem set_item_stores (m : Mem) (list : List Item) {key value : Ptr} (hkey : key ≠ NULL)
    (new : value = p → chainHolds p list = 0) :
    let r := set_item .succeed m list key value
    m.freed.count p + chainHolds p list + [value].count p ≤
      r.1.freed.count p + chainHolds p r.2.1 := by
  induction list generalizing m with
  | nil =>
    simp only [set_item, if_neg hkey, Allocs.succeed, and_self, ↓reduceIte, chainHolds_nil,
      chainHolds_cons]
    omega
  | cons item list ih =>
    rw [chainHolds_cons] at new
    simp only [set_item, if_neg hkey]
    split_ifs with zero other
    · simp only [Mem.count_free, Mem.setInt_freed, chainHolds_cons]
      omega
    · -- the value is there already, so it is not the one that is new
      have known : ¬ value = p := by
        intro given
        have none_there := new given
        rw [not_not.mp other, given, List.count_singleton_self] at none_there
        omega
      rw [List.count_singleton, if_neg (by simpa using known)]
      simp only [Mem.setInt_freed]
      omega
    · have rest := ih (m.setInt key (m.int item.key)) fun given => by
        have none_there := new given
        omega
      generalize set_item .succeed (m.setInt key (m.int item.key)) list key value = r at rest ⊢
      obtain ⟨m', list', n⟩ := r
      simp only [Mem.setInt_freed, chainHolds_cons] at rest ⊢
      omega

theorem remove_item_frees (m : Mem) (list : List Item) (key : Ptr) :
    let r := remove_item m list key
    r.1.freed.count p + chainHolds p r.2.1 = m.freed.count p + chainHolds p list := by
  induction list generalizing m with
  | nil => rfl
  | cons item list ih =>
    simp only [remove_item]
    split_ifs with zero
    · simp only [Mem.count_free, Mem.setInt_freed, chainHolds_cons]
      omega
    · have rest := ih (m.setInt key (m.int item.key))
      generalize remove_item (m.setInt key (m.int item.key)) list key = r at rest ⊢
      obtain ⟨m', list', n⟩ := r
      simp only [Mem.setInt_freed, chainHolds_cons] at rest ⊢
      omega

theorem remove_items_frees (m : Mem) (list : List Item) :
    (remove_items m list).1.freed.count p = m.freed.count p + chainHolds p list := by
  induction list generalizing m with
  | nil => rfl
  | cons item list ih =>
    have rest := ih m
    simp only [remove_items, Mem.count_free, chainHolds_cons] at rest ⊢
    omega

theorem get_item_freed (m : Mem) (list : List Item) (key : Ptr) :
    (get_item m list key).1.freed = m.freed := by
  induction list generalizing m with
  | nil => rfl
  | cons item list ih =>
    simp only [get_item]
    split_ifs
    · rfl
    · exact ih _

theorem key_exists_freed (m : Mem) (list : List Item) (key : Ptr) :
    (key_exists m list key).1.freed = m.freed := by
  induction list generalizing m with
  | nil => rfl
  | cons item list ih =>
    simp only [key_exists]
    split_ifs
    · rfl
    · exact ih _

/-- A node that is moved may be dropped, and nothing is freed. -/
theorem update_item_list_keeps (m : Mem) (list : List Item) (found : Item) :
    let r := update_item_list m list found
    r.1.freed = m.freed ∧ chainHolds p r.2 ≤ chainHolds p list + chainHolds p [found] := by
  induction list generalizing m with
  | nil => exact ⟨rfl, by simp only [update_item_list, chainHolds_nil]; omega⟩
  | cons item list ih =>
    simp only [update_item_list]
    split_ifs
    · exact ⟨rfl, by dsimp only; omega⟩
    · obtain ⟨freed, rest⟩ := ih (m.setInt found.key (m.int item.key))
      generalize update_item_list (m.setInt found.key (m.int item.key)) list found = r at *
      refine ⟨freed, ?_⟩
      rw [chainHolds_cons, chainHolds_cons]
      omega

variable {p} {m m' : Mem} {map map' : Hashmap} {items items' : List (List Item)}

theorem tally_empty (n : Nat) (items : List (List Item)) :
    tally (chainHolds p) (items ++ List.replicate n []) = tally (chainHolds p) items := by
  rw [tally_append, tally_eq_zero (l := List.replicate n []) fun list empty => by
    rw [List.eq_of_mem_replicate empty, chainHolds_nil]]
  rfl

theorem rehashChain_keeps (map : Hashmap) {new_size : BitVec 32} {chain : List Item}
    (h : rehashChain map new_size m items chain = some (m', items')) :
    m'.freed = m.freed ∧
      tally (chainHolds p) items' ≤ tally (chainHolds p) items + chainHolds p chain := by
  induction chain generalizing m items with
  | nil =>
    cases h
    exact ⟨rfl, Nat.le_add_right _ _⟩
  | cons temp next ih =>
    rw [rehashChain] at h
    cases there : items[(hash m temp.key map.hash_step new_size).toNat]? with
    | none =>
      simp only [there] at h
      cases h
    | some bucket =>
      simp only [there] at h
      obtain ⟨freed, moved⟩ := update_item_list_keeps p m bucket temp
      obtain ⟨freed', rest⟩ := ih h
      have total := tally_set (w := chainHolds p) (y := (update_item_list m bucket temp).2) there
      refine ⟨freed'.trans freed, ?_⟩
      rw [chainHolds_cons] at moved ⊢
      rw [chainHolds_nil] at moved
      omega

theorem rehashLoop_keeps (map : Hashmap) {new_size : BitVec 32} (n : Nat) {i : Nat}
    (h : rehashLoop map new_size n i m items = some (m', items')) :
    m'.freed = m.freed ∧ tally (chainHolds p) items' ≤ tally (chainHolds p) items := by
  induction n generalizing i m items with
  | zero =>
    cases h
    exact ⟨rfl, Nat.le_refl _⟩
  | succ n ih =>
    rw [rehashLoop] at h
    cases there : items[i]? with
    | none =>
      simp only [there] at h
      cases h
    | some temp =>
      simp only [there] at h
      cases moved : rehashChain map new_size m (items.set i []) temp with
      | none =>
        simp only [moved] at h
        cases h
      | some r =>
        obtain ⟨m₁, items₁⟩ := r
        simp only [moved] at h
        obtain ⟨freed, fewer⟩ := rehashChain_keeps (p := p) map moved
        obtain ⟨freed', rest⟩ := ih h
        have total := tally_set (w := chainHolds p) (y := []) there
        rw [chainHolds_nil] at total
        exact ⟨freed'.trans freed, by omega⟩

theorem hm_rehash_keeps {a : Allocs} {new_size : BitVec 32}
    (h : hm_rehash a m map new_size = some (m', map')) :
    m'.freed = m.freed ∧ map'.holds p ≤ map.holds p := by
  by_cases smaller : new_size < map.size
  · rw [hm_rehash, if_pos smaller] at h
    cases h
    exact ⟨rfl, Nat.le_refl _⟩
  · by_cases table : a.table = true
    · cases array : map.items with
      | none =>
        simp only [hm_rehash, if_neg smaller, if_pos table, array] at h
        cases h
      | some items =>
        simp only [hm_rehash, if_neg smaller, if_pos table, array] at h
        generalize enlarged :
          items ++ List.replicate (new_size.toNat - map.size.toNat) [] = wide at h
        cases loop : rehashLoop map new_size map.size.toNat 0 m wide with
        | none =>
          simp only [loop] at h
          cases h
        | some r =>
          obtain ⟨m₁, items₁⟩ := r
          simp only [loop] at h
          cases h
          obtain ⟨freed, fewer⟩ := rehashLoop_keeps (p := p) map _ loop
          refine ⟨freed, ?_⟩
          rw [← enlarged, tally_empty] at fewer
          simpa only [Hashmap.holds, array, Option.getD_some] using fewer
    · rw [hm_rehash, if_neg smaller, if_neg table] at h
      cases h
      exact ⟨rfl, Nat.zero_le _⟩

/-- A bucket is exchanged. -/
theorem holds_store {list : List Item} {key : Ptr} (bucket : map.bucket m key = some list)
    (list' : List Item) (counter : Int) :
    (map.store (hash m key map.hash_step map.size).toNat list' counter).holds p +
      chainHolds p list = map.holds p + chainHolds p list' := by
  obtain ⟨items, array, there⟩ := Option.bind_eq_some_iff.mp bucket
  simp only [Hashmap.holds, Hashmap.store, array, Option.map_some, Option.getD_some]
  exact tally_set there

theorem hm_set_keeps {a : Allocs} {key value : Ptr} {rc : Int}
    (h : hm_set a m map key value = some (m', map', rc)) :
    m'.freed.count p + map'.holds p ≤
      m.freed.count p + map.holds p +
        (if key = NULL then 0 else [key].count p + [value].count p) := by
  by_cases hkey : key = NULL
  · rw [hm_set, if_pos hkey] at h
    cases h
    exact Nat.le_add_right _ _
  · cases bucket : map.bucket m key with
    | none =>
      simp only [hm_set, if_neg hkey, bucket] at h
      cases h
    | some list =>
      have kept := set_item_keeps p a m list key value
      simp only [hm_set, if_neg hkey, bucket] at h
      generalize set_item a m list key value = r at kept h
      obtain ⟨m₁, list', n⟩ := r
      have total := holds_store (p := p) bucket list' n
      rw [if_neg hkey]
      dsimp only at kept h
      split_ifs at h with crowded
      · obtain ⟨⟨m₂, map₂⟩, rehashed, same⟩ := Option.map_eq_some_iff.mp h
        cases same
        obtain ⟨freed, fewer⟩ := hm_rehash_keeps (p := p) rehashed
        dsimp only
        rw [freed]
        omega
      · cases h
        omega

theorem hm_unset_frees {key : Ptr} {rc : Int} (h : hm_unset m map key = some (m', map', rc)) :
    m'.freed.count p + map'.holds p = m.freed.count p + map.holds p := by
  by_cases hkey : key = NULL
  · rw [hm_unset, if_pos hkey] at h
    cases h
  · cases bucket : map.bucket m key with
    | none =>
      simp only [hm_unset, if_neg hkey, bucket] at h
      cases h
    | some list =>
      have kept := remove_item_frees p m list key
      simp only [hm_unset, if_neg hkey, bucket] at h
      generalize remove_item m list key = r at kept h
      obtain ⟨m₁, list', n⟩ := r
      have total := holds_store (p := p) bucket list' n
      dsimp only at kept h
      cases h
      omega

theorem clearBuckets_frees (items : List (List Item)) (s : Mem × Int) :
    (clearBuckets items s).1.freed.count p =
      s.1.freed.count p + tally (chainHolds p) items := by
  induction items generalizing s with
  | nil => rfl
  | cons list items ih =>
    have first := remove_items_frees p s.1 list
    rw [clearBuckets, List.foldl_cons, tally_cons]
    refine (ih _).trans ?_
    dsimp only
    omega

/-- All that the nodes hold is freed, and none is left. -/
theorem hm_clear_frees (h : hm_clear m map = some (m', map')) :
    m'.freed.count p = m.freed.count p + map.holds p ∧ map'.holds p = 0 := by
  rw [hm_clear_eq] at h
  obtain ⟨items, array, made⟩ := Option.map_eq_some_iff.mp h
  cases made
  constructor
  · simpa only [Hashmap.holds, array, Option.getD_some] using clearBuckets_frees items (m, 0)
  · rw [Hashmap.holds, Option.getD_some]
    apply tally_eq_zero
    intro list empty
    obtain ⟨-, -, rfl⟩ := List.mem_map.mp empty
    rfl

theorem hm_get_freed {key value : Ptr} (h : hm_get m map key = some (m', value)) :
    m'.freed = m.freed := by
  unfold hm_get at h
  split_ifs at h
  · cases h
    rfl
  · cases bucket : map.bucket m key with
    | none =>
      rw [bucket] at h
      cases h
    | some list =>
      rw [bucket] at h
      cases h
      exact get_item_freed m list key

theorem hm_isset_freed {key : Ptr} {found : Bool} (h : hm_isset m map key = some (m', found)) :
    m'.freed = m.freed := by
  unfold hm_isset at h
  split_ifs at h
  obtain ⟨list, -, made⟩ := Option.map_eq_some_iff.mp h
  have kept := key_exists_freed m list key
  rw [made] at kept
  exact kept

theorem hm_rehash_stores (c : Chained m map items) {new_size : BitVec 32}
    (h : hm_rehash .succeed m map new_size = some (m', map')) :
    m' = m ∧ map'.holds p = map.holds p := by
  by_cases smaller : new_size < map.size
  · rw [hm_rehash, if_pos smaller] at h
    cases h
    exact ⟨rfl, rfl⟩
  · obtain ⟨n, rehashed, -⟩ := c.rehash (a := .succeed) rfl smaller
    rw [rehashed] at h
    cases h
    refine ⟨rfl, ?_⟩
    simp only [Hashmap.holds, c.array, Option.getD_some]
    exact tally_empty n items

theorem hm_set_stores (c : Chained m map items) {key value : Ptr} (hkey : key ≠ NULL)
    (new : value = p → map.holds p = 0) {rc : Int}
    (h : hm_set .succeed m map key value = some (m', map', rc)) :
    m.freed.count p + map.holds p + [value].count p ≤ m'.freed.count p + map'.holds p := by
  cases there : items[(m.int key).toNat]? with
  | none =>
    simp only [hm_set, if_neg hkey, c.bucket, there] at h
    cases h
  | some list =>
    have bucket := (c.bucket key).trans there
    obtain ⟨freed, walk, chain⟩ := (c.chain _ _ there).set rfl hkey .succeed value
    have stored := set_item_stores p m list hkey fun given => by
      have total := le_tally (w := chainHolds p) there
      have none_there := new given
      rw [Hashmap.holds, c.array, Option.getD_some] at none_there
      omega
    have chained := c.store chain rfl (inserted .succeed (m.int key) list key value).2
    have total := holds_store (p := p) bucket
      (inserted .succeed (m.int key) list key value).1
      (inserted .succeed (m.int key) list key value).2
    simp only [hm_set, if_neg hkey, bucket, walk] at h stored
    split_ifs at h with crowded
    · obtain ⟨⟨m₂, map₂⟩, rehashed, same⟩ := Option.map_eq_some_iff.mp h
      cases same
      obtain ⟨rfl, kept⟩ := hm_rehash_stores (p := p) chained rehashed
      simp only [hash] at total kept ⊢
      omega
    · cases h
      simp only [hash] at total ⊢
      omega

end

/-- The cells that a call gives to the map. -/
def MapCall.cells : MapCall → List Ptr
  | .hm_set _ key value => if key = NULL then [] else [key, value]
  | _ => []

def MapCall.values : MapCall → List Ptr
  | .hm_set _ key value => if key = NULL then [] else [value]
  | _ => []

/-- The cells that the calls of a history have given to the map, and the values of them. -/
def given (h : List (MapCall × Unit)) : List Ptr := h.flatMap fun e => e.1.cells

def values (h : List (MapCall × Unit)) : List Ptr := h.flatMap fun e => e.1.values

section
variable {p : Ptr} {s s' : Mem × Hashmap}

/-- How often a cell has been freed, or would be by `hm_delete`. -/
def accountedFor (p : Ptr) (s : Mem × Hashmap) : Nat := s.1.freed.count p + s.2.holds p

theorem count_given (e : MapCall × Unit) (h : List (MapCall × Unit)) :
    (given (e :: h)).count p = e.1.cells.count p + (given h).count p := by
  rw [given, List.flatMap_cons, List.count_append]
  rfl

theorem count_values (e : MapCall × Unit) (h : List (MapCall × Unit)) :
    (values (e :: h)).count p = e.1.values.count p + (values h).count p := by
  rw [values, List.flatMap_cons, List.count_append]
  rfl

/-- One call accounts for no more than it was given. -/
theorem accountedFor_step {call : MapCall} {o : Unit} (h : callStep s call = some (s', o)) :
    accountedFor p s' ≤ accountedFor p s + call.cells.count p := by
  obtain ⟨m, map⟩ := s
  simp only [accountedFor]
  cases call with
  | assign cell k =>
    cases h
    exact Nat.le_add_right _ _
  | hm_set a key value =>
    obtain ⟨⟨m₁, map₁, rc⟩, set, made⟩ := Option.map_eq_some_iff.mp h
    cases made
    have kept := hm_set_keeps (p := p) set
    rw [MapCall.cells]
    split_ifs at kept ⊢
    · exact kept
    · rw [← List.singleton_append, List.count_append]
      omega
  | hm_unset key =>
    obtain ⟨⟨m₁, map₁, rc⟩, unset, made⟩ := Option.map_eq_some_iff.mp h
    cases made
    exact Nat.le_add_right_of_le (hm_unset_frees unset).le
  | hm_get key =>
    obtain ⟨⟨m₁, value⟩, got, made⟩ := Option.map_eq_some_iff.mp h
    cases made
    rw [hm_get_freed got]
    exact Nat.le_add_right _ _
  | hm_isset key =>
    obtain ⟨⟨m₁, found⟩, isset, made⟩ := Option.map_eq_some_iff.mp h
    cases made
    rw [hm_isset_freed isset]
    exact Nat.le_add_right _ _
  | hm_rehash a new_size =>
    obtain ⟨⟨m₁, map₁⟩, rehashed, made⟩ := Option.map_eq_some_iff.mp h
    cases made
    obtain ⟨freed, fewer⟩ := hm_rehash_keeps (p := p) rehashed
    dsimp only
    rw [freed]
    omega
  | hm_clear =>
    obtain ⟨⟨m₁, map₁⟩, cleared, made⟩ := Option.map_eq_some_iff.mp h
    cases made
    obtain ⟨freed, none_left⟩ := hm_clear_frees (p := p) cleared
    dsimp only
    omega

/-- One orderly call loses nothing that a node holds, nor a value that is new. -/
theorem accountedFor_stores (tallied : Tallied s) {call : MapCall} (orderly : Orderly s call)
    (new : p ∈ call.values → s.2.holds p = 0) {o : Unit} (h : callStep s call = some (s', o)) :
    accountedFor p s + call.values.count p ≤ accountedFor p s' := by
  obtain ⟨m, map⟩ := s
  obtain ⟨items, c, -⟩ := tallied
  simp only [accountedFor]
  cases call with
  | assign cell k =>
    cases h
    exact Nat.le_refl _
  | hm_set a key value =>
    obtain rfl : a = .succeed := orderly.2
    obtain ⟨⟨m₁, map₁, rc⟩, set, made⟩ := Option.map_eq_some_iff.mp h
    cases made
    rw [MapCall.values] at new ⊢
    by_cases hkey : key = NULL
    · rw [hm_set, if_pos hkey] at set
      cases set
      rw [if_pos hkey]
      exact Nat.le_refl _
    · rw [if_neg hkey] at new ⊢
      exact hm_set_stores c hkey (fun own => new (List.mem_singleton.mpr own.symm)) set
  | hm_unset key =>
    obtain ⟨⟨m₁, map₁, rc⟩, unset, made⟩ := Option.map_eq_some_iff.mp h
    cases made
    exact (hm_unset_frees unset).ge
  | hm_get key =>
    obtain ⟨⟨m₁, value⟩, got, made⟩ := Option.map_eq_some_iff.mp h
    cases made
    rw [hm_get_freed got]
    exact Nat.le_refl _
  | hm_isset key =>
    obtain ⟨⟨m₁, found⟩, isset, made⟩ := Option.map_eq_some_iff.mp h
    cases made
    rw [hm_isset_freed isset]
    exact Nat.le_refl _
  | hm_rehash a new_size =>
    obtain rfl : a = .succeed := orderly.2
    obtain ⟨⟨m₁, map₁⟩, rehashed, made⟩ := Option.map_eq_some_iff.mp h
    cases made
    obtain ⟨rfl, kept⟩ := hm_rehash_stores (p := p) c rehashed
    exact (congrArg _ kept).ge
  | hm_clear =>
    obtain ⟨⟨m₁, map₁⟩, cleared, made⟩ := Option.map_eq_some_iff.mp h
    cases made
    obtain ⟨freed, none_left⟩ := hm_clear_frees (p := p) cleared
    dsimp only
    rw [freed, none_left]
    exact Nat.le_refl _

end

section
variable {m : Mem} {a : Allocs} {size step : BitVec 32}
  {overloaded : BitVec 32 → BitVec 32 → Bool} {map : Hashmap} {h : List (MapCall × Unit)}
  {s : Mem × Hashmap} {p : Ptr}

theorem created_holds (created : hm_create a size overloaded step = some map) (p : Ptr) :
    map.holds p = 0 := by
  unfold hm_create at created
  dsimp only at created
  split_ifs at created
  cases created
  exact tally_empty _ []

theorem accountedFor_run (created : hm_create a size overloaded step = some map)
    (run : Run callStep Free (m, map) h s) :
    accountedFor p s ≤ m.freed.count p + (given h).count p := by
  apply run.invariant fun h s => accountedFor p s ≤ m.freed.count p + (given h).count p
  · rw [accountedFor, created_holds created]
    exact Nat.le_add_right _ _
  · intro h s call s' o few _ answered
    have more := accountedFor_step (p := p) answered
    rw [count_given]
    dsimp only
    omega

/-- `hm_delete` frees what the nodes hold. -/
theorem hm_delete_frees {m' : Mem} (deleted : hm_delete s.1 s.2 = some m') (p : Ptr) :
    m'.freed.count p = accountedFor p s := by
  obtain ⟨⟨m₁, map₁⟩, cleared, made⟩ := Option.map_eq_some_iff.mp deleted
  cases made
  exact (hm_clear_frees cleared).1

/-- Whatever the callers write to the cells and whichever allocations fail, a cell is freed
or kept no more often than it was given to the map; and so it is when the map is deleted. -/
theorem map_frees_what_it_was_given (created : hm_create a size overloaded step = some map)
    (run : Run callStep Free (m, map) h s) :
    (∀ p, s.1.freed.count p + s.2.holds p ≤ m.freed.count p + (given h).count p) ∧
    ∀ m', hm_delete s.1 s.2 = some m' →
      ∀ p, m'.freed.count p ≤ m.freed.count p + (given h).count p := by
  constructor
  · intro p
    exact accountedFor_run created run
  · intro m' deleted p
    rw [hm_delete_frees deleted]
    exact accountedFor_run created run

/-- The page 3 gets a tag and then another one. -/
def replaceTag : List MapCall :=
  [.assign 8 3, .hm_set .succeed 8 16, .assign 9 3, .hm_set .succeed 9 24]

theorem replaced_tag_was_given : ∃ (map : Hashmap) (h : List (MapCall × Unit))
    (s : Mem × Hashmap),
    hm_create .succeed 1 (fun count size => size < count) 13 = some map ∧
      (h.map Prod.fst).reverse = replaceTag ∧ s.1.freed = [16] ∧
      (∀ p, s.1.freed.count p + s.2.holds p ≤ (given h).count p) ∧
      ∀ m', hm_delete s.1 s.2 = some m' → ∀ p, m'.freed.count p ≤ (given h).count p := by
  obtain ⟨map, h, s, created, run, calls, freed⟩ : ∃ (map : Hashmap)
      (h : List (MapCall × Unit)) (s : Mem × Hashmap),
      hm_create .succeed 1 (fun count size => size < count) 13 = some map ∧
      Run callStep Free (Mem.blank, map) h s ∧ (h.map Prod.fst).reverse = replaceTag ∧
      s.1.freed = [16] := by
    have runs {map : Hashmap} {h : List (MapCall × Unit)} {s : Mem × Hashmap}
        (executed : exec callStep (Mem.blank, map) [] replaceTag = some (h, s)) :
        Run callStep Free (Mem.blank, map) h s := Run.start.exec (fun _ _ _ => trivial) executed
    exact ⟨_, _, _, rfl, runs rfl, rfl, rfl⟩
  have bounds := map_frees_what_it_was_given created run
  simp only [Mem.blank, List.count_nil, Nat.zero_add] at bounds
  exact ⟨map, h, s, created, calls, freed, bounds⟩

theorem tallied_run (created : hm_create a size overloaded step = some map)
    (run : Run callStep Orderly (m, map) h s) : Tallied s := by
  apply run.invariant (fun _ s => Tallied s)
  · refine ⟨_, Chained.created m created, ?_⟩
    unfold hm_create at created
    dsimp only at created
    split_ifs at created
    cases created
    simp
  · intro _ s call s' o tallied orderly answered
    exact tallied_step tallied orderly answered

theorem MapCall.values_le_cells (call : MapCall) (p : Ptr) :
    call.values.count p ≤ call.cells.count p := by
  cases call with
  | hm_set a key value =>
    rw [MapCall.values, MapCall.cells]
    split_ifs
    · exact Nat.le_refl _
    · exact List.Sublist.count_le p (List.sublist_cons_self key [value])
  | _ => exact Nat.le_refl _

/-- A value that was given once is accounted for. -/
theorem values_accountedFor (created : hm_create a size overloaded step = some map)
    (run : Run callStep Orderly (m, map) h s) (once : (given h).count p ≤ 1)
    (unfreed : p ∉ m.freed) :
    (values h).count p ≤ accountedFor p s := by
  induction run with
  | start => exact Nat.zero_le _
  | @next h s call s' o run orderly answered ih =>
    rw [count_given] at once
    have before := accountedFor_run (p := p) created (run.mono fun _ _ _ => trivial)
    rw [List.count_eq_zero_of_not_mem unfreed, Nat.zero_add] at before
    have stores := accountedFor_stores (p := p) (tallied_run created run) orderly
      (fun new => by
        have some_there := List.count_pos_iff.mpr new
        have few := call.values_le_cells p
        have held : s.2.holds p ≤ accountedFor p s := Nat.le_add_left _ _
        dsimp only at once
        omega) answered
    have rest := ih (by omega)
    rw [count_values]
    dsimp only
    omega

/-- While the callers leave the cells of the nodes alone and no allocation fails, a value that
was given to the map once has been freed once or is in one node, and `hm_delete` has freed it
once. -/
theorem hm_delete_frees_values (created : hm_create a size overloaded step = some map)
    (run : Run callStep Orderly (m, map) h s) :
    ∃ m', hm_delete s.1 s.2 = some m' ∧
      ∀ p ∈ values h, (given h).count p = 1 → p ∉ m.freed →
        s.1.freed.count p + s.2.holds p = 1 ∧ m'.freed.count p = 1 := by
  obtain ⟨items, c, -⟩ := tallied_run created run
  obtain ⟨freed, cleared, -⟩ := c.clear_eq
  have deleted : hm_delete s.1 s.2 = some { s.1 with freed } := by
    rw [hm_delete, cleared]
    rfl
  refine ⟨_, deleted, ?_⟩
  intro p value once unfreed
  have most := accountedFor_run (p := p) created (run.mono fun _ _ _ => trivial)
  have least := values_accountedFor created run once.le unfreed
  have some_there := List.count_pos_iff.mpr value
  rw [List.count_eq_zero_of_not_mem unfreed, once] at most
  rw [hm_delete_frees deleted p]
  have exactly : accountedFor p s = 1 := by omega
  exact ⟨exactly, exactly⟩

theorem deleted_map_frees_both_tags : ∃ (map : Hashmap) (h : List (MapCall × Unit))
    (s : Mem × Hashmap) (m' : Mem),
    hm_create .succeed 1 (fun count size => size < count) 13 = some map ∧
      Run callStep Orderly (Mem.blank, map) h s ∧ (h.map Prod.fst).reverse = replaceTag ∧
      hm_delete s.1 s.2 = some m' ∧ m'.freed.count 16 = 1 ∧ m'.freed.count 24 = 1 := by
  obtain ⟨map, h, s, created, run, calls, values_are, cells_are⟩ : ∃ map h s,
      hm_create .succeed 1 (fun count size => size < count) 13 = some map ∧
      Run callStep Orderly (Mem.blank, map) h s ∧ (h.map Prod.fst).reverse = replaceTag ∧
      values h = [24, 16] ∧ given h = [9, 24, 8, 16] := by
    refine ⟨_, _, _, rfl, .next (i := .hm_set .succeed 9 24) (.next (i := .assign 9 3)
      (.next (i := .hm_set .succeed 8 16) (.next (i := .assign 8 3) .start ?_ rfl) ?_ rfl) ?_ rfl)
      ?_ rfl, rfl, rfl, rfl⟩
    · refine ⟨?_, trivial⟩
      intro item member
      exact absurd member List.not_mem_nil
    · exact ⟨trivial, rfl⟩
    · refine ⟨?_, trivial⟩
      intro item member own
      have node : item = ⟨8, 16⟩ := List.mem_singleton.mp member
      rw [node] at own
      exact absurd own (by decide)
    · exact ⟨trivial, rfl⟩
  obtain ⟨m', deleted, once⟩ := hm_delete_frees_values created run
  rw [values_are, cells_are] at once
  refine ⟨map, h, s, m', created, run, calls, deleted, ?_, ?_⟩
  · exact (once 16 (by decide) (by decide) (by decide)).2
  · exact (once 24 (by decide) (by decide) (by decide)).2

end
end TeeSqlite
