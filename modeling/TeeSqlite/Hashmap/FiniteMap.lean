import TeeSqlite.Lib.Runs
import TeeSqlite.Hashmap.Nodes

/-! The hash map as a finite map from `int` keys to pointers. It is one as long as
the key 0 is never set and no cell that a node points to gets another value. -/
namespace TeeSqlite
open Runs

/-- A bucket of the key `k`, holding what the finite map has there. -/
inductive Bucket (m : Mem) (k : BitVec 32) : Option Ptr → List Item → Prop
  | empty : Bucket m k none []
  | node {c v : Ptr} : k ≠ 0 → m.int c = k → Bucket m k (some v) [⟨c, v⟩]

/-- The map holds the finite map `f`. -/
structure Represents (m : Mem) (map : Hashmap) (f : BitVec 32 → Option Ptr) : Prop where
  table : ∃ items, map.items = some items ∧ items.length = map.size.toNat ∧
    ∀ (k : BitVec 32) list, items[k.toNat]? = some list → Bucket m k (f k) list
  outside : ∀ k : BitVec 32, map.size.toNat ≤ k.toNat → f k = none

theorem Bucket.slot {m : Mem} {k : BitVec 32} {o : Option Ptr} {list : List Item}
    (h : Bucket m k o list) : Slot m k list := by
  cases h with
  | empty => exact .empty
  | node _ hc => exact .node hc

/-- What the walks do in a bucket whose key is in the caller's cell. -/
theorem Bucket.get_item {m : Mem} {k : BitVec 32} {o : Option Ptr} {list : List Item} {key : Ptr}
    (h : Bucket m k o list) (hk : m.int key = k) :
    TeeSqlite.get_item m list key = (m, list.head?) ∧ list.head?.map Item.value = o := by
  have walk := h.slot.walk hk
  cases h with
  | empty => exact ⟨rfl, rfl⟩
  | node nonzero hc =>
    rw [if_neg nonzero] at walk
    exact ⟨walk, rfl⟩

theorem Bucket.key_exists {m : Mem} {k : BitVec 32} {o : Option Ptr} {list : List Item}
    {key : Ptr} (h : Bucket m k o list) (hk : m.int key = k) :
    TeeSqlite.key_exists m list key = (m, o.isSome) := by
  cases h with
  | empty => rfl
  | @node c v nonzero hc =>
    have same : m.setInt key (m.int c) = m := Mem.setInt_self (hk.trans hc.symm)
    have used : m.int key ≠ 0 := hk ▸ nonzero
    simp only [TeeSqlite.key_exists, same, if_pos used]
    rfl

theorem Bucket.remove_item {m : Mem} {k : BitVec 32} {o : Option Ptr} {list : List Item}
    {key : Ptr} (h : Bucket m k o list) (hk : m.int key = k) :
    ∃ m' count, TeeSqlite.remove_item m list key = (m', [], count) ∧ m'.int = m.int := by
  cases h with
  | empty => exact ⟨m, 0, rfl, rfl⟩
  | @node c v nonzero hc =>
    have same : m.setInt key (m.int c) = m := Mem.setInt_self (hk.trans hc.symm)
    have used : m.int key ≠ 0 := hk ▸ nonzero
    refine ⟨(m.free c).free v, -1, ?_, rfl⟩
    simp only [TeeSqlite.remove_item, same, if_pos used]

theorem Bucket.set_item {m : Mem} {k : BitVec 32} {o : Option Ptr} {list : List Item}
    {key : Ptr} (h : Bucket m k o list) (hk : m.int key = k) (hkey : key ≠ NULL) (nonzero : k ≠ 0)
    (value : Ptr) :
    ∃ m' list' count, TeeSqlite.set_item .succeed m list key value = (m', list', count) ∧
      m'.int = m.int ∧ Bucket m' k (some value) list' := by
  obtain ⟨m', ⟨c, v⟩, count, walk, rfl, hc, same, -, -⟩ := h.slot.put hk hkey nonzero value
  exact ⟨m', _, count, walk, same, .node nonzero hc⟩

/-- Memories that agree on the `int` cells hold the same finite map. -/
theorem Bucket.congr {m m' : Mem} {k : BitVec 32} {o : Option Ptr} {list : List Item}
    (h : Bucket m k o list) (same : ∀ item ∈ list, m'.int item.key = m.int item.key) :
    Bucket m' k o list := by
  cases h with
  | empty => exact .empty
  | node nonzero hc => exact .node nonzero ((same _ (List.mem_singleton_self _)).trans hc)

theorem Represents.bucket {m : Mem} {map : Hashmap} {f : BitVec 32 → Option Ptr}
    (h : Represents m map f) {key : Ptr} (inside : (m.int key).toNat < map.size.toNat) :
    ∃ list, map.bucket m key = some list ∧ Bucket m (m.int key) (f (m.int key)) list := by
  obtain ⟨items, hitems, hlen, hbuckets⟩ := h.table
  have hget : items[(m.int key).toNat]? = some items[(m.int key).toNat] :=
    List.getElem?_eq_getElem (hlen ▸ inside)
  refine ⟨_, ?_, hbuckets _ _ hget⟩
  rw [Hashmap.bucket, hitems]
  exact hget

/-- A bucket is exchanged for one that holds `o`. -/
theorem Represents.store {m m' : Mem} {map : Hashmap} {f : BitVec 32 → Option Ptr}
    (h : Represents m map f) {k : BitVec 32} (inside : k.toNat < map.size.toNat)
    (same : m'.int = m.int) {o : Option Ptr} {list : List Item} (hb : Bucket m' k o list)
    (counter : Int) :
    Represents m' (map.store k.toNat list counter) (fun j => if j = k then o else f j) := by
  obtain ⟨items, hitems, hlen, hbuckets⟩ := h.table
  refine ⟨⟨items.set k.toNat list, ?_, ?_, ?_⟩, ?_⟩
  · simp only [Hashmap.store, hitems, Option.map_some]
  · rw [List.length_set]
    exact hlen
  · intro j list' at_
    rcases exchanged at_ with ⟨rfl, rfl⟩ | ⟨hj, old⟩
    · rw [if_pos rfl]
      exact hb
    · rw [if_neg hj]
      exact (hbuckets j list' old).congr fun item _ => by rw [same]
  · intro j far
    have hj : j ≠ k := by
      rintro rfl
      exact absurd inside (Nat.not_lt.mpr far)
    rw [if_neg hj]
    exact h.outside j far

theorem Represents.rehash {m : Mem} {map : Hashmap} {f : BitVec 32 → Option Ptr}
    (h : Represents m map f) (new_size : BitVec 32) :
    ∃ map', hm_rehash .succeed m map new_size = some (m, map') ∧ Represents m map' f := by
  obtain ⟨items, hitems, hlen, hbuckets⟩ := h.table
  obtain ⟨map', n, rehashed, grows, array, length⟩ := hm_rehash_slots hitems hlen
    (fun k list at_ => (hbuckets k list at_).slot) new_size
  refine ⟨map', rehashed, ⟨_, array, length, ?_⟩, ?_⟩
  · intro k list at_
    by_cases old : k.toNat < items.length
    · rw [List.getElem?_append_left old] at at_
      exact hbuckets k list at_
    · rcases widened at_ with there | rfl
      · exact absurd (List.getElem?_eq_some_iff.mp there).1 old
      · rw [h.outside k (hlen ▸ Nat.not_lt.mp old)]
        exact .empty
  · intro k far
    exact h.outside k (Nat.le_trans grows far)

/-- A call with the integer `k` put in the cell `key` before it. -/
inductive MapOp
  | hm_set (key : Ptr) (k : BitVec 32) (value : Ptr)
  | hm_unset (key : Ptr) (k : BitVec 32)
  | hm_get (key : Ptr) (k : BitVec 32)
  | hm_isset (key : Ptr) (k : BitVec 32)
  deriving DecidableEq

def MapOp.cell : MapOp → Ptr
  | .hm_set key _ _ | .hm_unset key _ | .hm_get key _ | .hm_isset key _ => key

def MapOp.k : MapOp → BitVec 32
  | .hm_set _ k _ | .hm_unset _ k | .hm_get _ k | .hm_isset _ k => k

inductive MapAnswer
  | code (rc : Int)
  | value (p : Ptr)
  | found (b : Bool)
  deriving DecidableEq

/-- One call, all allocations succeeding. -/
def mapStep : Mem × Hashmap → MapOp → Option ((Mem × Hashmap) × MapAnswer)
  | (m, map), .hm_set key k value =>
    (hm_set .succeed (m.setInt key k) map key value).map fun (m, map, rc) => ((m, map), .code rc)
  | (m, map), .hm_unset key k =>
    (hm_unset (m.setInt key k) map key).map fun (m, map, rc) => ((m, map), .code rc)
  | (m, map), .hm_get key k =>
    (hm_get (m.setInt key k) map key).map fun (m, p) => ((m, map), .value p)
  | (m, map), .hm_isset key k =>
    (hm_isset (m.setInt key k) map key).map fun (m, b) => ((m, map), .found b)

/-- The value of the last set of `k` that no unset of `k` followed. -/
def lastSet : List (MapOp × MapAnswer) → BitVec 32 → Option Ptr
  | [], _ => none
  | (.hm_set _ k' v, _) :: h, k => if k = k' then some v else lastSet h k
  | (.hm_unset _ k', _) :: h, k => if k = k' then none else lastSet h k
  | _ :: h, k => lastSet h k

/-- The key cell is there and its integer is inside the table. -/
def InRange (s : Mem × Hashmap) (op : MapOp) : Prop :=
  op.cell ≠ NULL ∧ op.k.toNat < s.2.size.toNat

/-- A call that keeps the map's own cells as they are: no node points to the cell
of the call, unless it holds the same integer already; and the key set is not 0. -/
structure Careful (s : Mem × Hashmap) (op : MapOp) : Prop where
  inRange : InRange s op
  unshared : ∀ items ∈ s.2.items, ∀ list ∈ items, ∀ item ∈ list, item.key = op.cell →
    s.1.int op.cell = op.k
  nonzero : ∀ key k v, op = .hm_set key k v → k ≠ 0

/-- The caller's assignment to the cell of a careful call. -/
theorem Represents.poke {s : Mem × Hashmap} {f : BitVec 32 → Option Ptr}
    (h : Represents s.1 s.2 f) {op : MapOp} (careful : Careful s op) :
    Represents (s.1.setInt op.cell op.k) s.2 f := by
  obtain ⟨items, hitems, hlen, hbuckets⟩ := h.table
  refine ⟨⟨items, hitems, hlen, ?_⟩, h.outside⟩
  intro k list at_
  refine (hbuckets k list at_).congr fun item mem => ?_
  rw [Mem.setInt_int]
  split
  · rename_i shared
    rw [shared]
    exact (careful.unshared items hitems list (List.mem_of_getElem? at_) item mem shared).symm
  · rfl

theorem Represents.get {m : Mem} {map : Hashmap} {f : BitVec 32 → Option Ptr}
    (h : Represents m map f) {key : Ptr} (hkey : key ≠ NULL)
    (inside : (m.int key).toNat < map.size.toNat) :
    hm_get m map key = some (m, (f (m.int key)).getD NULL) := by
  obtain ⟨list, hlist, hb⟩ := h.bucket inside
  obtain ⟨walk, hvalue⟩ := hb.get_item rfl
  simp only [hm_get, if_neg hkey, hlist, walk, ← hvalue]
  cases list <;> rfl

theorem Represents.isset {m : Mem} {map : Hashmap} {f : BitVec 32 → Option Ptr}
    (h : Represents m map f) {key : Ptr} (hkey : key ≠ NULL)
    (inside : (m.int key).toNat < map.size.toNat) :
    hm_isset m map key = some (m, (f (m.int key)).isSome) := by
  obtain ⟨list, hlist, hb⟩ := h.bucket inside
  simp only [hm_isset, if_neg hkey, hlist, Option.map_some, hb.key_exists rfl]

theorem Represents.unset {m : Mem} {map : Hashmap} {f : BitVec 32 → Option Ptr}
    (h : Represents m map f) {key : Ptr} (hkey : key ≠ NULL)
    (inside : (m.int key).toNat < map.size.toNat) :
    ∃ m' map', hm_unset m map key = some (m', map', 1) ∧
      Represents m' map' (fun j => if j = m.int key then none else f j) := by
  obtain ⟨list, hlist, hb⟩ := h.bucket inside
  obtain ⟨m', count, walk, same⟩ := hb.remove_item rfl
  refine ⟨m', _, ?_, h.store inside same .empty count⟩
  simp only [hm_unset, if_neg hkey, hlist, walk]
  rfl

theorem Represents.set {m : Mem} {map : Hashmap} {f : BitVec 32 → Option Ptr}
    (h : Represents m map f) {key : Ptr} (hkey : key ≠ NULL)
    (inside : (m.int key).toNat < map.size.toNat) (nonzero : m.int key ≠ 0) (value : Ptr) :
    ∃ m' map', hm_set .succeed m map key value = some (m', map', 1) ∧
      Represents m' map' (fun j => if j = m.int key then some value else f j) := by
  obtain ⟨list, hlist, hb⟩ := h.bucket inside
  obtain ⟨m', list', count, walk, same, hb'⟩ := hb.set_item rfl hkey nonzero value
  have stored := h.store inside same hb' count
  simp only [hm_set, if_neg hkey, hlist, walk, hash]
  split
  · obtain ⟨map', rehashed, moved⟩ := stored.rehash
      (next_size (map.store (m.int key).toNat list' count).size)
    exact ⟨m', map', by rw [rehashed]; rfl, moved⟩
  · exact ⟨m', _, rfl, stored⟩

/-- One careful call is answered, and the map follows the finite map. -/
theorem represents_step {s : Mem × Hashmap} {h : List (MapOp × MapAnswer)}
    (inv : Represents s.1 s.2 (lastSet h)) {op : MapOp} (careful : Careful s op) :
    ∃ s' a, mapStep s op = some (s', a) ∧ Represents s'.1 s'.2 (lastSet ((op, a) :: h)) := by
  have poked := inv.poke careful
  have hcell := s.1.setInt_int_self op.cell op.k
  obtain ⟨hkey, inside⟩ := careful.inRange
  rw [← hcell] at inside
  obtain ⟨m, map⟩ := s
  cases op with
  | hm_set key k value =>
    have nonzero : (m.setInt key k).int key ≠ 0 := hcell ▸ careful.nonzero key k value rfl
    obtain ⟨m', map', answered, inv'⟩ := poked.set hkey inside nonzero value
    refine ⟨(m', map'), .code 1, ?_, ?_⟩
    · exact congrArg (Option.map _) answered
    · rw [hcell] at inv'
      exact inv'
  | hm_unset key k =>
    obtain ⟨m', map', answered, inv'⟩ := poked.unset hkey inside
    refine ⟨(m', map'), .code 1, ?_, ?_⟩
    · exact congrArg (Option.map _) answered
    · rw [hcell] at inv'
      exact inv'
  | hm_get key k =>
    exact ⟨(m.setInt key k, map), _, congrArg (Option.map _) (poked.get hkey inside), poked⟩
  | hm_isset key k =>
    exact ⟨(m.setInt key k, map), _, congrArg (Option.map _) (poked.isset hkey inside), poked⟩

theorem Represents.run {m : Mem} {map : Hashmap} (h₀ : Represents m map fun _ => none)
    {h : List (MapOp × MapAnswer)} {s : Mem × Hashmap} (run : Run mapStep Careful (m, map) h s) :
    Represents s.1 s.2 (lastSet h) := by
  refine run.invariant (fun h s => Represents s.1 s.2 (lastSet h)) h₀ ?_
  intro h s op s' a inv careful answer
  obtain ⟨s₁, a₁, answer₁, inv'⟩ := represents_step inv careful
  obtain ⟨rfl, rfl⟩ : s₁ = s' ∧ a₁ = a := by simpa using answer₁.symm.trans answer
  exact inv'

end TeeSqlite
