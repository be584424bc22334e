import TeeSqlite.Vfs.DemoFile

/-! The hash map of the TA, `hashmap.c`. A node keeps the two pointers it was
given, so the map lives in the memory of its callers: `Mem` holds the `int` and the
16-byte cells that pointers name. A result `none` is a call that leaves the array
of buckets or follows NULL. -/
namespace TeeSqlite
open ByteFile CTypes

/-- An address; 0 is NULL. -/
abbrev Ptr := Nat

def NULL : Ptr := 0

/-- The 16 bytes of an authentication tag. -/
abbrev Tag := { t : Bytes // t.length = 16 }

def Tag.zero : Tag := ⟨List.replicate 16 0, List.length_replicate⟩

/-- The cells that pointers name, and the blocks freed so far, the latest first. -/
structure Mem where
  int : Ptr → BitVec 32
  mac : Ptr → Tag
  freed : List Ptr

namespace Mem

/-- Every cell is 0. -/
def blank : Mem := ⟨fun _ => 0, fun _ => Tag.zero, []⟩

/-- `*p = x` for an `int *p`. -/
def setInt (m : Mem) (p : Ptr) (x : BitVec 32) : Mem :=
  { m with int := fun q => if q = p then x else m.int q }

def setMac (m : Mem) (p : Ptr) (t : Tag) : Mem :=
  { m with mac := fun q => if q = p then t else m.mac q }

def free (m : Mem) (p : Ptr) : Mem := { m with freed := p :: m.freed }

@[simp] theorem setInt_int (m : Mem) (p : Ptr) (x : BitVec 32) (q : Ptr) :
    (m.setInt p x).int q = if q = p then x else m.int q := rfl

theorem setInt_int_self (m : Mem) (p : Ptr) (x : BitVec 32) : (m.setInt p x).int p = x := by
  rw [setInt_int, if_pos rfl]

@[simp] theorem setInt_mac (m : Mem) (p : Ptr) (x : BitVec 32) : (m.setInt p x).mac = m.mac := rfl

@[simp] theorem setMac_mac (m : Mem) (p : Ptr) (t : Tag) (q : Ptr) :
    (m.setMac p t).mac q = if q = p then t else m.mac q := rfl

@[simp] theorem setMac_int (m : Mem) (p : Ptr) (t : Tag) : (m.setMac p t).int = m.int := rfl

/-- An assignment of the value a cell already has. -/
theorem setInt_self {m : Mem} {p : Ptr} {x : BitVec 32} (h : m.int p = x) : m.setInt p x = m := by
  cases m with
  | mk int mac freed =>
    simp only [setInt, mk.injEq, and_true]
    funext q
    by_cases hq : q = p
    · rw [if_pos hq, hq]
      exact h.symm
    · rw [if_neg hq]

end Mem

/-- A node of a bucket. -/
structure Item where
  key : Ptr
  value : Ptr
  deriving DecidableEq

/-- `items` is NULL or the array of buckets. `overloaded` is the comparison of
`(float)count / (float)size` with `load_factor`. -/
structure Hashmap where
  items : Option (List (List Item))
  count : BitVec 32
  size : BitVec 32
  overloaded : BitVec 32 → BitVec 32 → Bool
  hash_step : BitVec 32

/-- Which allocations of a call succeed: a node, its key cell, the array. -/
structure Allocs where
  item : Bool
  key : Bool
  table : Bool

def Allocs.succeed : Allocs := ⟨true, true, true⟩

def sizes : List (BitVec 32) :=
  [5, 13, 23, 47, 97, 193, 383, 769, 1531, 3067, 6143, 12289, 24571, 49157, 98299, 196613, 393241,
    786547, 1573111, 1668053, 1805579, 1868527, 1999993]

/-- The key itself: neither the step nor the size is used. -/
def hash (m : Mem) (key : Ptr) (_step _size : BitVec 32) : BitVec 32 := m.int key

/-- Past the table the size is doubled, modulo 2^32. -/
def next_size (size : BitVec 32) : BitVec 32 := (sizes.find? (size < ·)).getD (size * 2)

/-- The key cell allocated for a new node is dropped at once for the caller's
`key`. The conditions of these walks are assignments: `*key` becomes the node's key,
and counts as equal when that is not 0. -/
def set_item (a : Allocs) (m : Mem) : List Item → Ptr → Ptr → Mem × List Item × Int
  | [], key, value =>
    if key = NULL then (m, [], 0)
    else if a.item ∧ a.key then (m, [⟨key, value⟩], 1)
    else (m, [], 0)
  | item :: list, key, value =>
    if key = NULL then (m, [], 0)
    else
      let m := m.setInt key (m.int item.key)
      if m.int key ≠ 0 then
        if item.value ≠ value then (m.free item.value, { item with value } :: list, 0)
        else (m, item :: list, 0)
      else
        let (m, list, count) := set_item a m list key value
        (m, item :: list, count)

def get_item (m : Mem) : List Item → Ptr → Mem × Option Item
  | [], _ => (m, none)
  | item :: list, key =>
    let m := m.setInt key (m.int item.key)
    if m.int key ≠ 0 then (m, some item) else get_item m list key

def remove_item (m : Mem) : List Item → Ptr → Mem × List Item × Int
  | [], _ => (m, [], 0)
  | item :: list, key =>
    let m := m.setInt key (m.int item.key)
    if m.int key ≠ 0 then ((m.free item.key).free item.value, list, -1)
    else
      let (m, list, count) := remove_item m list key
      (m, item :: list, count)

/-- The nodes are freed from the last to the first; `free_value` is always given. -/
def remove_items (m : Mem) : List Item → Mem × List Item × Int
  | [] => (m, [], 0)
  | item :: list =>
    let (m, _, count) := remove_items m list
    ((m.free item.key).free item.value, [], count - 1)

def key_exists (m : Mem) : List Item → Ptr → Mem × Bool
  | [], _ => (m, false)
  | item :: list, key =>
    let m := m.setInt key (m.int item.key)
    if m.int key ≠ 0 then (m, true) else key_exists m list key

/-- The node moved is dropped when a node before the end of the list has a key
other than 0. -/
def update_item_list (m : Mem) : List Item → Item → Mem × List Item
  | [], found => (m, [found])
  | item :: list, found =>
    let m := m.setInt found.key (m.int item.key)
    if m.int found.key ≠ 0 then (m, item :: list)
    else
      let (m, list) := update_item_list m list found
      (m, item :: list)

def hm_create (a : Allocs) (size : BitVec 32) (overloaded : BitVec 32 → BitVec 32 → Bool)
    (hash_step : BitVec 32) : Option Hashmap :=
  let new_size := next_size size
  if a.item ∧ a.table then
    some { items := some (List.replicate new_size.toNat []), count := 0, size := new_size,
           overloaded, hash_step }
  else none

/-- The nodes of one old bucket, moved one by one. -/
def rehashChain (map : Hashmap) (new_size : BitVec 32) :
    Mem → List (List Item) → List Item → Option (Mem × List (List Item))
  | m, items, [] => some (m, items)
  | m, items, temp :: next =>
    let index := (hash m temp.key map.hash_step new_size).toNat
    match items[index]? with
    | none => none
    | some bucket =>
      let (m, bucket) := update_item_list m bucket temp
      rehashChain map new_size m (items.set index bucket) next

/-- The old buckets from `i`, of which `n` are left. -/
def rehashLoop (map : Hashmap) (new_size : BitVec 32) :
    Nat → Nat → Mem → List (List Item) → Option (Mem × List (List Item))
  | 0, _, m, items => some (m, items)
  | n + 1, i, m, items =>
    match items[i]? with
    | none => none
    | some temp =>
      match rehashChain map new_size m (items.set i []) temp with
      | none => none
      | some (m, items) => rehashLoop map new_size n (i + 1) m items

/-- An array that cannot be enlarged is lost. -/
def hm_rehash (a : Allocs) (m : Mem) (map : Hashmap) (new_size : BitVec 32) :
    Option (Mem × Hashmap) :=
  if new_size < map.size then some (m, map)
  else if a.table then
    match map.items with
    | none => none
    | some items =>
      let items := items ++ List.replicate (new_size.toNat - map.size.toNat) []
      match rehashLoop map new_size map.size.toNat 0 m items with
      | none => none
      | some (m, items) => some (m, { map with items := some items, size := new_size })
  else some (m, { map with items := none })

/-- The bucket that the operations work on. -/
def Hashmap.bucket (map : Hashmap) (m : Mem) (key : Ptr) : Option (List Item) :=
  map.items.bind (·[(hash m key map.hash_step map.size).toNat]?)

/-- The map after `map->items[index] = list; map->count += counter`. -/
def Hashmap.store (map : Hashmap) (index : Nat) (list : List Item) (counter : Int) : Hashmap :=
  { map with items := map.items.map (·.set index list),
             count := map.count + BitVec.ofInt 32 counter }

def hm_get (m : Mem) (map : Hashmap) (key : Ptr) : Option (Mem × Ptr) :=
  if key = NULL then some (m, NULL)
  else
    match map.bucket m key with
    | none => none
    | some list =>
      let (m, temp) := get_item m list key
      some (m, temp.elim NULL Item.value)

/-- Returns 1 for `SUCCESS` and 0 for `FAIL`. -/
def hm_set (a : Allocs) (m : Mem) (map : Hashmap) (key value : Ptr) :
    Option (Mem × Hashmap × Int) :=
  if key = NULL then some (m, map, 0)
  else
    let index := (hash m key map.hash_step map.size).toNat
    match map.bucket m key with
    | none => none
    | some list =>
      let (m, list, counter) := set_item a m list key value
      let map := map.store index list counter
      if map.overloaded map.count map.size then
        (hm_rehash a m map (next_size map.size)).map fun (m, map) => (m, map, 1)
      else some (m, map, 1)

/-- NULL is followed. -/
def hm_unset (m : Mem) (map : Hashmap) (key : Ptr) : Option (Mem × Hashmap × Int) :=
  if key = NULL then none
  else
    let index := (hash m key map.hash_step map.size).toNat
    match map.bucket m key with
    | none => none
    | some list =>
      let (m, list, counter) := remove_item m list key
      some (m, map.store index list counter, 1)

/-- NULL is followed. -/
def hm_isset (m : Mem) (map : Hashmap) (key : Ptr) : Option (Mem × Bool) :=
  if key = NULL then none else (map.bucket m key).map (key_exists m · key)

/-- Every bucket is emptied, and the count lowered by what was in them. -/
def hm_clear (m : Mem) (map : Hashmap) : Option (Mem × Hashmap) :=
  map.items.map fun items =>
    let (m, counter) := items.foldl (fun (m, counter) list =>
      let (m, _, removed) := remove_items m list
      (m, counter + removed)) (m, (0 : Int))
    (m, { map with items := some (items.map fun _ => []),
                   count := map.count + BitVec.ofInt 32 counter })

/-- The blocks of the array and of the map itself hold no cells. -/
def hm_delete (m : Mem) (map : Hashmap) : Option Mem := (hm_clear m map).map Prod.fst

section
variable {σ : Type} (u : FileCalls σ)

/-- The nodes of one bucket, four bytes of the key and sixteen of the value each. -/
def dumpChain (m : Mem) (output : Int) : σ → List Item → Option σ
  | s, [] => some s
  | s, temp :: next =>
    if temp.value = NULL then none
    else
      let (s, _) := u.utee_vfs_write s output (intBytes (m.int temp.key))
      let (s, _) := u.utee_vfs_write s output (m.mac temp.value).1
      dumpChain m output s next

/-- The buckets from `i`, of which `n` are left. -/
def dumpLoop (m : Mem) (map : Hashmap) (output : Int) : Nat → Nat → σ → Option σ
  | 0, _, s => some s
  | n + 1, i, s =>
    match map.items.bind (·[i]?) with
    | none => none
    | some temp =>
      match dumpChain u m output s temp with
      | none => none
      | some s => dumpLoop m map output n (i + 1) s

/-- `to_string` is NULL in every call. -/
def hm_dump (s : σ) (m : Mem) (map : Hashmap) (output : Int) : Option σ :=
  if map.count = 0 then some s else dumpLoop u m map output map.size.toNat 0 s

end
end TeeSqlite
