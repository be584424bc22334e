import Mathlib.Data.Set.Insert
import TeeSqlite.Lib.Runs
import TeeSqlite.Hashmap.Hashmap

/-! Which buckets the map works on. A key is its own index, so it has to be smaller
than the table, whatever was stored before and however often the table grew. -/
namespace TeeSqlite
open Runs

/-- The cells of `S` hold integers below `n`. -/
def Below (n : Nat) (S : Set Ptr) (m : Mem) : Prop := ∀ p ∈ S, (m.int p).toNat < n

/-- The nodes of a list point to cells of `S`. -/
def InCells (S : Set Ptr) (list : List Item) : Prop := ∀ item ∈ list, item.key ∈ S

section
variable {n : Nat} {S : Set Ptr} {m : Mem}

/-- The walks copy from cell to cell. -/
theorem Below.copy (below : Below n S m) {q : Ptr} (hq : q ∈ S) (p : Ptr) :
    Below n S (m.setInt p (m.int q)) := by
  intro r hr
  rw [Mem.setInt_int]
  split
  · exact below q hq
  · exact below r hr

theorem Below.poke (below : Below n S m) {k : BitVec 32} (hk : k.toNat < n) (p : Ptr) :
    Below n (insert p S) (m.setInt p k) := by
  intro r hr
  rw [Mem.setInt_int]
  split
  · exact hk
  · rename_i other
    exact below r (hr.resolve_left other)

theorem Below.mono (below : Below n S m) {n' : Nat} (h : n ≤ n') : Below n' S m :=
  fun p hp => Nat.lt_of_lt_of_le (below p hp) h

theorem InCells.tail {item : Item} {list : List Item} (cells : InCells S (item :: list)) :
    item.key ∈ S ∧ InCells S list :=
  ⟨cells item List.mem_cons_self, fun other member => cells other (List.mem_cons_of_mem _ member)⟩

theorem InCells.cons {item : Item} {list : List Item} (head : item.key ∈ S)
    (cells : InCells S list) : InCells S (item :: list) := by
  intro other member
  rcases List.mem_cons.mp member with rfl | older
  · exact head
  · exact cells other older

theorem InCells.nil : InCells S [] := fun _ member => absurd member List.not_mem_nil

theorem get_item_below {list : List Item} (below : Below n S m) (cells : InCells S list)
    (key : Ptr) : Below n S (get_item m list key).1 := by
  induction list generalizing m with
  | nil => exact below
  | cons item list ih =>
    obtain ⟨head, tail⟩ := cells.tail
    unfold get_item
    dsimp only
    split
    · exact below.copy head key
    · exact ih (below.copy head key) tail

theorem key_exists_below {list : List Item} (below : Below n S m) (cells : InCells S list)
    (key : Ptr) : Below n S (key_exists m list key).1 := by
  induction list generalizing m with
  | nil => exact below
  | cons item list ih =>
    obtain ⟨head, tail⟩ := cells.tail
    unfold key_exists
    dsimp only
    split
    · exact below.copy head key
    · exact ih (below.copy head key) tail

theorem remove_item_below {list : List Item} (below : Below n S m) (cells : InCells S list)
    (key : Ptr) :
    Below n S (remove_item m list key).1 ∧ InCells S (remove_item m list key).2.1 := by
  induction list generalizing m with
  | nil => exact ⟨below, .nil⟩
  | cons item list ih =>
    obtain ⟨head, tail⟩ := cells.tail
    unfold remove_item
    dsimp only
    split
    · exact ⟨below.copy head key, tail⟩
    · obtain ⟨below', cells'⟩ := ih (below.copy head key) tail
      exact ⟨below', .cons head cells'⟩

theorem set_item_below (a : Allocs) {list : List Item} (below : Below n S m)
    (cells : InCells S list) {key : Ptr} (hkey : key ∈ S) (value : Ptr) :
    Below n S (set_item a m list key value).1 ∧ InCells S (set_item a m list key value).2.1 := by
  induction list generalizing m with
  | nil =>
    unfold set_item
    split_ifs
    · exact ⟨below, .nil⟩
    · exact ⟨below, .cons hkey .nil⟩
    · exact ⟨below, .nil⟩
  | cons item list ih =>
    obtain ⟨head, tail⟩ := cells.tail
    unfold set_item
    dsimp only
    split_ifs
    · exact ⟨below, .nil⟩
    · exact ⟨below.copy head key, .cons head tail⟩
    · exact ⟨below.copy head key, .cons head tail⟩
    · obtain ⟨below', cells'⟩ := ih (below.copy head key) tail
      exact ⟨below', .cons head cells'⟩

theorem update_item_list_below {list : List Item} (below : Below n S m) (cells : InCells S list)
    {found : Item} (hfound : found.key ∈ S) :
    Below n S (update_item_list m list found).1 ∧
      InCells S (update_item_list m list found).2 := by
  induction list generalizing m with
  | nil => exact ⟨below, .cons hfound .nil⟩
  | cons item list ih =>
    obtain ⟨head, tail⟩ := cells.tail
    unfold update_item_list
    dsimp only
    split
    · exact ⟨below.copy head found.key, .cons head tail⟩
    · obtain ⟨below', cells'⟩ := ih (below.copy head found.key) tail
      exact ⟨below', .cons head cells'⟩

end

/-- The buckets that a rehash moves the nodes of one old bucket to. -/
def chainIndexes (map : Hashmap) (new_size : BitVec 32) :
    Mem → List (List Item) → List Item → List (BitVec 32)
  | _, _, [] => []
  | m, items, temp :: next =>
    let index := hash m temp.key map.hash_step new_size
    index ::
      match items[index.toNat]? with
      | none => []
      | some bucket =>
        let (m, bucket) := update_item_list m bucket temp
        chainIndexes map new_size m (items.set index.toNat bucket) next

/-- Those that it moves the nodes of the old buckets from `i` on to. -/
def loopIndexes (map : Hashmap) (new_size : BitVec 32) :
    Nat → Nat → Mem → List (List Item) → List (BitVec 32)
  | 0, _, _, _ => []
  | n + 1, i, m, items =>
    match items[i]? with
    | none => []
    | some temp =>
      chainIndexes map new_size m (items.set i []) temp ++
        match rehashChain map new_size m (items.set i []) temp with
        | none => []
        | some (m, items) => loopIndexes map new_size n (i + 1) m items

section
variable {new_size : BitVec 32} {S : Set Ptr}

/-- The nodes of all buckets point to cells of `S`. -/
def AllInCells (S : Set Ptr) (items : List (List Item)) : Prop := ∀ list ∈ items, InCells S list

theorem AllInCells.set {items : List (List Item)} (cells : AllInCells S items) {list : List Item}
    (h : InCells S list) (i : Nat) : AllInCells S (items.set i list) := by
  intro other member
  rcases List.mem_or_eq_of_mem_set member with old | rfl
  · exact cells other old
  · exact h

theorem chain_inside (map : Hashmap) {m : Mem} {items : List (List Item)} {chain : List Item}
    (below : Below new_size.toNat S m) (cells : AllInCells S items) (hchain : InCells S chain) :
    (∀ index ∈ chainIndexes map new_size m items chain, index < new_size) ∧
    ∀ m' items', rehashChain map new_size m items chain = some (m', items') →
      Below new_size.toNat S m' ∧ AllInCells S items' := by
  induction chain generalizing m items with
  | nil =>
    constructor
    · exact fun index member => absurd member List.not_mem_nil
    · rintro m' items' ⟨⟩
      exact ⟨below, cells⟩
  | cons temp next ih =>
    obtain ⟨head, tail⟩ := hchain.tail
    have inside : hash m temp.key map.hash_step new_size < new_size := below temp.key head
    unfold chainIndexes rehashChain
    dsimp only
    cases at_ : items[(hash m temp.key map.hash_step new_size).toNat]? with
    | none =>
      constructor
      · intro index member
        rw [List.mem_singleton.mp member]
        exact inside
      · rintro m' items' ⟨⟩
    | some bucket =>
      obtain ⟨below', cells'⟩ :=
        update_item_list_below below (cells bucket (List.mem_of_getElem? at_)) head
      obtain ⟨indexes, moved⟩ := ih below' (cells.set cells' _) tail
      constructor
      · intro index member
        rcases List.mem_cons.mp member with rfl | later
        · exact inside
        · exact indexes index later
      · exact moved

theorem loop_inside (map : Hashmap) (left i : Nat) {m : Mem} {items : List (List Item)}
    (below : Below new_size.toNat S m) (cells : AllInCells S items) :
    (∀ index ∈ loopIndexes map new_size left i m items, index < new_size) ∧
    ∀ m' items', rehashLoop map new_size left i m items = some (m', items') →
      Below new_size.toNat S m' ∧ AllInCells S items' := by
  induction left generalizing i m items with
  | zero =>
    constructor
    · exact fun index member => absurd member List.not_mem_nil
    · rintro m' items' ⟨⟩
      exact ⟨below, cells⟩
  | succ left ih =>
    unfold loopIndexes rehashLoop
    cases at_ : items[i]? with
    | none =>
      constructor
      · exact fun index member => absurd member List.not_mem_nil
      · rintro m' items' ⟨⟩
    | some temp =>
      obtain ⟨indexes, moved⟩ := chain_inside map below (cells.set .nil i)
        (cells temp (List.mem_of_getElem? at_))
      dsimp only
      cases chain : rehashChain map new_size m (items.set i []) temp with
      | none =>
        constructor
        · intro index member
          rw [List.append_nil] at member
          exact indexes index member
        · rintro m' items' ⟨⟩
      | some result =>
        obtain ⟨below', cells'⟩ := moved _ _ chain
        obtain ⟨rest, moved'⟩ := ih (i + 1) below' cells'
        constructor
        · intro index member
          rcases List.mem_append.mp member with here | later
          · exact indexes index here
          · exact rest index later
        · exact moved'

end

/-- A bucket that is worked on, and how many there are. -/
structure Access where
  index : BitVec 32
  buckets : BitVec 32
  deriving DecidableEq

def Access.Inside (x : Access) : Prop := x.index < x.buckets

def rehashAccesses (a : Allocs) (m : Mem) (map : Hashmap) (new_size : BitVec 32) : List Access :=
  if new_size < map.size then []
  else if a.table then
    match map.items with
    | none => []
    | some items =>
      let items := items ++ List.replicate (new_size.toNat - map.size.toNat) []
      (loopIndexes map new_size map.size.toNat 0 m items).map (⟨·, new_size⟩)
  else []

/-- A cell for a key. -/
abbrev Cell := { p : Ptr // p ≠ NULL }

/-- A call, with the results of its allocations. The caller puts the integer `k` in
the cell of the key before. -/
inductive TableCall
  | hm_set (a : Allocs) (key : Cell) (k : BitVec 32) (value : Ptr)
  | hm_unset (key : Cell) (k : BitVec 32)
  | hm_get (key : Cell) (k : BitVec 32)
  | hm_isset (key : Cell) (k : BitVec 32)
  | hm_rehash (a : Allocs) (new_size : BitVec 32)

/-- The bucket of a key in its cell. -/
def keyAccess (m : Mem) (map : Hashmap) (key : Ptr) : Access :=
  ⟨hash m key map.hash_step map.size, map.size⟩

/-- What a call works on: the bucket of its key, and in a rehash one for each node. -/
def accesses : Mem × Hashmap → TableCall → List Access
  | (m, map), .hm_set a key k value =>
    let m := m.setInt key k
    let index := (hash m key map.hash_step map.size).toNat
    keyAccess m map key ::
      match map.bucket m key with
      | none => []
      | some list =>
        let (m, list, counter) := set_item a m list key value
        let map := map.store index list counter
        if map.overloaded map.count map.size then rehashAccesses a m map (next_size map.size)
        else []
  | (m, map), .hm_unset key k | (m, map), .hm_get key k | (m, map), .hm_isset key k =>
    [keyAccess (m.setInt key k) map key]
  | (m, map), .hm_rehash a new_size => rehashAccesses a m map new_size

def tableStep : Mem × Hashmap → TableCall → Option ((Mem × Hashmap) × List Access)
  | (m, map), .hm_set a key k value =>
    (hm_set a (m.setInt key k) map key value).map fun r =>
      ((r.1, r.2.1), accesses (m, map) (.hm_set a key k value))
  | (m, map), .hm_unset key k =>
    (hm_unset (m.setInt key k) map key).map fun r =>
      ((r.1, r.2.1), accesses (m, map) (.hm_unset key k))
  | (m, map), .hm_get key k =>
    (hm_get (m.setInt key k) map key).map fun r => ((r.1, map), accesses (m, map) (.hm_get key k))
  | (m, map), .hm_isset key k =>
    (hm_isset (m.setInt key k) map key).map fun r =>
      ((r.1, map), accesses (m, map) (.hm_isset key k))
  | (m, map), .hm_rehash a new_size =>
    (hm_rehash a m map new_size).map fun r => (r, accesses (m, map) (.hm_rehash a new_size))

/-- The integer that a call looks for. -/
def TableCall.k? : TableCall → Option (BitVec 32)
  | .hm_set _ _ k _ | .hm_unset _ k | .hm_get _ k | .hm_isset _ k => some k
  | .hm_rehash _ _ => none

/-- The key, as an unsigned integer, is smaller than the table. A table that could
not be enlarged is not there to be rehashed. -/
def KeyInside (s : Mem × Hashmap) (call : TableCall) : Prop :=
  match call.k? with
  | some k => k < s.2.size
  | none => s.2.items ≠ none

/-- Every cell that a node points to holds an integer smaller than the table. -/
def Bounded (s : Mem × Hashmap) : Prop :=
  ∃ S, Below s.2.size.toNat S s.1 ∧ ∀ items ∈ s.2.items, AllInCells S items

theorem created_bounded (m : Mem) {a : Allocs} {size step : BitVec 32}
    {overloaded : BitVec 32 → BitVec 32 → Bool} {map : Hashmap}
    (h : hm_create a size overloaded step = some map) : Bounded (m, map) := by
  refine ⟨∅, fun p hp => absurd hp (Set.notMem_empty p), ?_⟩
  unfold hm_create at h
  dsimp only at h
  split_ifs at h
  cases h
  intro items array list member
  obtain rfl := Option.some.inj array
  obtain rfl := List.eq_of_mem_replicate member
  exact .nil

theorem rehash_bounded {m : Mem} {map : Hashmap} (a : Allocs) (new_size : BitVec 32)
    (bounded : Bounded (m, map)) :
    (∀ x ∈ rehashAccesses a m map new_size, x.Inside) ∧
    ∀ s, hm_rehash a m map new_size = some s → Bounded s := by
  obtain ⟨S, below, cells⟩ := bounded
  unfold rehashAccesses hm_rehash
  by_cases smaller : new_size < map.size
  · simp only [if_pos smaller]
    constructor
    · exact fun x member => absurd member List.not_mem_nil
    · rintro s ⟨⟩
      exact ⟨S, below, cells⟩
  · simp only [if_neg smaller]
    by_cases enlarged : a.table = true
    · simp only [if_pos enlarged]
      cases array : map.items with
      | none =>
        constructor
        · exact fun x member => absurd member List.not_mem_nil
        · rintro s ⟨⟩
      | some items =>
        have grown : map.size.toNat ≤ new_size.toNat := Nat.not_lt.mp smaller
        have wide : AllInCells S
            (items ++ List.replicate (new_size.toNat - map.size.toNat) []) := by
          intro list member
          rcases List.mem_append.mp member with old | new
          · exact cells items array list old
          · obtain rfl := List.eq_of_mem_replicate new
            exact .nil
        obtain ⟨indexes, moved⟩ := loop_inside map map.size.toNat 0 (below.mono grown) wide
        dsimp only
        constructor
        · intro x member
          obtain ⟨index, walked, rfl⟩ := List.mem_map.mp member
          exact indexes index walked
        · intro s rehashed
          cases loop : rehashLoop map new_size map.size.toNat 0 m
              (items ++ List.replicate (new_size.toNat - map.size.toNat) []) with
          | none =>
            rw [loop] at rehashed
            cases rehashed
          | some result =>
            obtain ⟨below', cells'⟩ := moved _ _ loop
            rw [loop] at rehashed
            cases rehashed
            refine ⟨S, below', ?_⟩
            rintro _ ⟨⟩
            exact cells'
    · simp only [if_neg enlarged]
      constructor
      · exact fun x member => absurd member List.not_mem_nil
      · rintro s ⟨⟩
        refine ⟨S, below, ?_⟩
        rintro _ ⟨⟩

section
variable {m : Mem} {map : Hashmap} {S : Set Ptr}

theorem bucket_in_cells (cells : ∀ items ∈ map.items, AllInCells S items) {key : Ptr}
    {list : List Item} (h : map.bucket m key = some list) : InCells S list := by
  obtain ⟨items, array, at_⟩ := Option.bind_eq_some_iff.mp h
  exact cells items array list (List.mem_of_getElem? at_)

theorem store_in_cells (cells : ∀ items ∈ map.items, AllInCells S items) {list : List Item}
    (h : InCells S list) (index : Nat) (counter : Int) :
    ∀ items ∈ (map.store index list counter).items, AllInCells S items := by
  intro items array
  obtain ⟨old, there, rfl⟩ := Option.map_eq_some_iff.mp array
  exact (cells old there).set h index

/-- The caller's assignment to the cell of a key inside the table. -/
theorem Bounded.poke (bounded : Bounded (m, map)) (key : Ptr) {k : BitVec 32}
    (inside : k < map.size) : ∃ S, key ∈ S ∧ Below map.size.toNat S (m.setInt key k) ∧
      ∀ items ∈ map.items, AllInCells S items := by
  obtain ⟨S, below, cells⟩ := bounded
  refine ⟨insert key S, Set.mem_insert key S, below.poke inside key, ?_⟩
  intro items array list member item held
  exact Set.mem_insert_of_mem key (cells items array list member item held)

theorem keyAccess_inside {key : Ptr} {k : BitVec 32} :
    (keyAccess (m.setInt key k) map key).Inside ↔ k < map.size := by
  simp only [Access.Inside, keyAccess, hash, Mem.setInt_int_self]

theorem only_keyAccess_inside {key : Ptr} {k : BitVec 32} (inside : k < map.size) :
    ∀ x ∈ [keyAccess (m.setInt key k) map key], x.Inside :=
  List.forall_mem_singleton.mpr (keyAccess_inside.mpr inside)

theorem set_bounded (a : Allocs) {key : Cell} {k : BitVec 32} (value : Ptr)
    (bounded : Bounded (m, map)) (inside : k < map.size) :
    (∀ x ∈ accesses (m, map) (.hm_set a key k value), x.Inside) ∧
    ∀ r, hm_set a (m.setInt key k) map key value = some r → Bounded (r.1, r.2.1) := by
  obtain ⟨S, own, below, cells⟩ := bounded.poke key inside
  have first : (keyAccess (m.setInt key k) map key).Inside := keyAccess_inside.mpr inside
  unfold accesses hm_set
  dsimp only
  rw [if_neg key.2]
  cases bucket : map.bucket (m.setInt key k) key with
  | none =>
    refine ⟨only_keyAccess_inside inside, ?_⟩
    rintro r ⟨⟩
  | some list =>
    obtain ⟨below', cells'⟩ := set_item_below a below (bucket_in_cells cells bucket) own value
    have stored : Bounded (_, map.store (hash (m.setInt key k) key map.hash_step map.size).toNat
        (set_item a (m.setInt key k) list key value).2.1
        (set_item a (m.setInt key k) list key value).2.2) :=
      ⟨S, below', store_in_cells cells cells' _ _⟩
    obtain ⟨indexes, moved⟩ := rehash_bounded a (next_size map.size) stored
    dsimp only
    constructor
    · intro x member
      rcases List.mem_cons.mp member with rfl | grown
      · exact first
      · split at grown
        · exact indexes x grown
        · exact absurd grown List.not_mem_nil
    · intro r answered
      split at answered
      · obtain ⟨s, rehashed, rfl⟩ := Option.map_eq_some_iff.mp answered
        exact moved s rehashed
      · cases answered
        exact stored

/-- One call with its key inside the table works on buckets of the table, and keeps
the cells of the nodes small. -/
theorem step_bounded {s : Mem × Hashmap} (bounded : Bounded s) {call : TableCall}
    (inside : KeyInside s call) :
    (∀ x ∈ accesses s call, x.Inside) ∧
    ∀ s' o, tableStep s call = some (s', o) → Bounded s' := by
  obtain ⟨m, map⟩ := s
  cases call with
  | hm_set a key k value =>
    obtain ⟨indexes, kept⟩ := set_bounded a value bounded inside
    refine ⟨indexes, ?_⟩
    intro s' o answered
    obtain ⟨r, set, made⟩ := Option.map_eq_some_iff.mp answered
    cases made
    exact kept r set
  | hm_unset key k =>
    obtain ⟨S, -, below, cells⟩ := bounded.poke key inside
    refine ⟨only_keyAccess_inside inside, ?_⟩
    intro s' o answered
    obtain ⟨r, unset, made⟩ := Option.map_eq_some_iff.mp answered
    cases made
    unfold hm_unset at unset
    rw [if_neg key.2] at unset
    cases bucket : map.bucket (m.setInt key k) key with
    | none =>
      rw [bucket] at unset
      cases unset
    | some list =>
      obtain ⟨below', cells'⟩ := remove_item_below below (bucket_in_cells cells bucket) key
      rw [bucket] at unset
      cases unset
      exact ⟨S, below', store_in_cells cells cells' _ _⟩
  | hm_get key k =>
    obtain ⟨S, -, below, cells⟩ := bounded.poke key inside
    refine ⟨only_keyAccess_inside inside, ?_⟩
    intro s' o answered
    obtain ⟨r, got, made⟩ := Option.map_eq_some_iff.mp answered
    cases made
    unfold hm_get at got
    rw [if_neg key.2] at got
    cases bucket : map.bucket (m.setInt key k) key with
    | none =>
      rw [bucket] at got
      cases got
    | some list =>
      rw [bucket] at got
      cases got
      exact ⟨S, get_item_below below (bucket_in_cells cells bucket) key, cells⟩
  | hm_isset key k =>
    obtain ⟨S, -, below, cells⟩ := bounded.poke key inside
    refine ⟨only_keyAccess_inside inside, ?_⟩
    intro s' o answered
    obtain ⟨r, found, made⟩ := Option.map_eq_some_iff.mp answered
    cases made
    unfold hm_isset at found
    rw [if_neg key.2] at found
    obtain ⟨list, bucket, rfl⟩ := Option.map_eq_some_iff.mp found
    exact ⟨S, key_exists_below below (bucket_in_cells cells bucket) key, cells⟩
  | hm_rehash a new_size =>
    obtain ⟨indexes, kept⟩ := rehash_bounded a new_size bounded
    refine ⟨indexes, ?_⟩
    intro s' o answered
    obtain ⟨r, rehashed, made⟩ := Option.map_eq_some_iff.mp answered
    cases made
    exact kept s' rehashed

theorem run_bounded (bounded : Bounded (m, map)) {h : List (TableCall × List Access)}
    {s : Mem × Hashmap} (run : Run tableStep KeyInside (m, map) h s) : Bounded s := by
  apply run.invariant (fun _ s => Bounded s) bounded
  intro _ s call s' o inv inside answered
  exact (step_bounded inv inside).2 s' o answered

end

/-- After any calls with keys inside the table, the next such call works on buckets of
the table only; and a call with any other key does not. -/
theorem keys_inside_iff {a : Allocs} {size step : BitVec 32}
    {overloaded : BitVec 32 → BitVec 32 → Bool} {m : Mem} {map : Hashmap}
    (created : hm_create a size overloaded step = some map) {h : List (TableCall × List Access)}
    {s : Mem × Hashmap} (run : Run tableStep KeyInside (m, map) h s) (call : TableCall) :
    (KeyInside s call → ∀ x ∈ accesses s call, x.Inside) ∧
    (call.k? ≠ none → (∀ x ∈ accesses s call, x.Inside) → KeyInside s call) := by
  have bounded := run_bounded (created_bounded m created) run
  constructor
  · exact fun inside => (step_bounded bounded inside).1
  · intro keyed inside
    obtain ⟨m', map'⟩ := s
    cases call with
    | hm_set a' key k value => exact keyAccess_inside.mp (inside _ List.mem_cons_self)
    | hm_unset key k => exact keyAccess_inside.mp (inside _ List.mem_cons_self)
    | hm_get key k => exact keyAccess_inside.mp (inside _ List.mem_cons_self)
    | hm_isset key k => exact keyAccess_inside.mp (inside _ List.mem_cons_self)
    | hm_rehash a' new_size => exact absurd rfl keyed

/-- The cells at the addresses 8 and 24. -/
def cell8 : Cell := ⟨8, by decide⟩

def cell24 : Cell := ⟨24, by decide⟩

/-- Page 3 of a small map. -/
theorem page_three_is_inside :
    ∃ map h s, hm_create .succeed 1 (fun count size => size < count) 13 = some map ∧
      Run tableStep KeyInside (Mem.blank, map) h s ∧ h ≠ [] ∧
      ∀ x ∈ accesses s (.hm_get cell24 3), x.Inside := by
  obtain ⟨map, h, s, created, run, used, inside⟩ : ∃ map h s,
      hm_create .succeed 1 (fun count size => size < count) 13 = some map ∧
      Run tableStep KeyInside (Mem.blank, map) h s ∧ h ≠ [] ∧
      KeyInside s (.hm_get cell24 3) := by
    refine ⟨_, _, _, rfl, .next .start ?_ (i := .hm_set .succeed cell8 3 16) rfl,
      List.cons_ne_nil _ _, ?_⟩
    · change (3 : BitVec 32) < 5
      decide
    · change (3 : BitVec 32) < 5
      decide
  exact ⟨map, h, s, created, run, used, (keys_inside_iff created run (.hm_get cell24 3)).1 inside⟩

/-- Page 769 of the map that the TA starts with. -/
theorem page_769_is_outside :
    ∃ map, hm_create .succeed 500 (fun count size => size < count) 13 = some map ∧
      ¬ ∀ x ∈ accesses (Mem.blank, map) (.hm_set .succeed cell8 769 16), x.Inside := by
  refine ⟨_, rfl, ?_⟩
  intro inside
  have small : (769 : BitVec 32) < next_size 500 :=
    keyAccess_inside.mp (inside _ List.mem_cons_self)
  exact absurd small (by decide)

end TeeSqlite
