import TeeSqlite.Lib.LastWrite
import TeeSqlite.Hashmap.Chains
import TeeSqlite.Codec.MacLog

/-! `createMap` on a tag file of which the normal world decides all: whether it opens,
how long it is, and what each read of it returns. -/
namespace TeeSqlite
open ByteFile CTypes

/-- A read: the count asked for, the result, and the buffer afterwards. -/
structure ReadAnswer where
  asked : Nat
  ret : Int
  bytes : Bytes

def ReadAnswer.Complete (r : ReadAnswer) : Prop := r.ret = r.asked

section
variable {σ : Type} (u : Utee σ)

/-- The same calls with a record of the reads, the latest first. -/
def Utee.readsLogged : Utee (σ × List ReadAnswer) where
  utee_vfs_lseek s fd ofst whence :=
    let (s', ret) := u.utee_vfs_lseek s.1 fd ofst whence
    ((s', s.2), ret)
  utee_vfs_write s fd buf :=
    let (s', ret) := u.utee_vfs_write s.1 fd buf
    ((s', s.2), ret)
  utee_vfs_read s fd buf n :=
    let (s', ret, bytes) := u.utee_vfs_read s.1 fd buf n
    ((s', ⟨n, ret, bytes⟩ :: s.2), ret, bytes)
  utee_vfs_fsync s fd :=
    let (s', ret) := u.utee_vfs_fsync s.1 fd
    ((s', s.2), ret)
  utee_vfs_filesize s fd :=
    let (s', ret) := u.utee_vfs_filesize s.1 fd
    ((s', s.2), ret)
  utee_vfs_close s fd :=
    let (s', ret) := u.utee_vfs_close s.1 fd
    ((s', s.2), ret)
  utee_vfs_open s path flags mode :=
    let (s', ret) := u.utee_vfs_open s.1 path flags mode
    ((s', s.2), ret)
  utee_vfs_unlink s path errno :=
    let (s', ret, errno) := u.utee_vfs_unlink s.1 path errno
    ((s', s.2), ret, errno)
  utee_vfs_access s path mode :=
    let (s', ret) := u.utee_vfs_access s.1 path mode
    ((s', s.2), ret)
  utee_vfs_getcwd s buf :=
    let (s', found, buf) := u.utee_vfs_getcwd s.1 buf
    ((s', s.2), found, buf)

/-- The record a page number and a tag make, of reads in the order they were made. -/
def recordsOf : List ReadAnswer → List (BitVec 32 × Tag)
  | number :: mac :: rest => (ofIntBytes number.bytes, toTag mac.bytes) :: recordsOf rest
  | _ => []

/-- Every read is complete but the last. -/
def StopsAtIncomplete (reads : List ReadAnswer) : Prop :=
  ∃ front last, reads = front ++ [last] ∧ (∀ r ∈ front, r.Complete) ∧ ¬ last.Complete

/-- The map has each page of the records once, with the tag of its last record. -/
def HoldsRecords (m : Mem) (tag : Hashmap) (rs : List (BitVec 32 × Tag)) : Prop :=
  ((tag.entries m).map Prod.fst).Nodup ∧
    ∀ k t, (k, t) ∈ tag.entries m ↔ rs.reverse.lookup k = some t

/-- `createMap` ends with every access in bounds, having stopped at the first read that
was not complete, with the records read before in the map. -/
def LoadsRobustly (load : LoadFactorOne) (cells : Mallocs) (s : σ) (m : Mem) : Prop :=
  ∃ s' reads m' tag, createMap u.readsLogged load cells (s, []) m = some ((s', reads), m', tag) ∧
    StopsAtIncomplete reads.reverse ∧ HoldsRecords m' tag (recordsOf reads.reverse.dropLast)

variable (fdr : Int) (cells : Mallocs) (m : Mem)

/-- The read of the page number of record `i`. -/
def keyRead (i : Nat) (s : σ) : σ × ReadAnswer :=
  let (s, ret, bytes) := u.utee_vfs_read s fdr (intBytes (m.int (cells.tmp_pageno i))) 4
  (s, ⟨4, ret, bytes⟩)

/-- The read of its tag, between the two seeks. -/
def tagRead (i : Nat) (s : σ) : σ × ReadAnswer :=
  let (s, _) := u.utee_vfs_lseek s fdr ((i + 1) * 4 + i * 16 : Nat) SEEK_SET
  let (s, ret, bytes) := u.utee_vfs_read s fdr (m.mac (cells.tmp_tag i)).1 16
  let (s, _) := u.utee_vfs_lseek s fdr ((i + 1) * 4 + (i + 1) * 16 : Nat) SEEK_SET
  (s, ⟨16, ret, bytes⟩)

/-- From the record `i` on the reads supply the records `rs` whole, and then nothing. -/
def Supplies : List (BitVec 32 × Tag) → Nat → σ → Prop
  | [], i, s => (keyRead u fdr cells m i s).2.ret = 0
  | e :: rs, i, s =>
    let (s, number) := keyRead u fdr cells m i s
    let (s, mac) := tagRead u fdr cells m i s
    number.Complete ∧ mac.Complete ∧ (ofIntBytes number.bytes, toTag mac.bytes) = e ∧
      Supplies rs (i + 1) s

end

/-- An insertion appends the node, or gives the one node of the key the new value. -/
theorem Chained.nodes_inserted {m : Mem} {tag : Hashmap} {items : List (List Item)}
    (c : Chained m tag items) {k : BitVec 32} {list : List Item}
    (there : items[k.toNat]? = some list) (key value : Ptr) :
    ((items.set k.toNat (inserted .succeed k list key value).1).flatten).Perm
      (if NeedsNode k list then tag.nodes ++ [⟨key, value⟩]
      else tag.nodes.map fun item => if m.int item.key = k then { item with value } else item) := by
  rw [c.nodes, inserted]
  by_cases needs : NeedsNode k list
  · rw [if_pos needs, if_pos needs, if_pos ⟨rfl, rfl⟩]
    exact flatten_append_perm there [⟨key, value⟩]
  · rw [if_neg needs, if_neg needs, List.map_flatten]
    have all : items.set k.toNat (list.map fun item => { item with value }) = items.map
        (List.map fun item => if m.int item.key = k then { item with value } else item) := by
      apply List.ext_getElem?
      intro j
      rw [List.getElem?_map]
      by_cases own : k.toNat = j
      · subst own
        rw [List.getElem?_set_self (List.getElem?_eq_some_iff.mp there).1, there, Option.map_some]
        congr 1
        apply List.map_congr_left
        intro item inside
        rw [if_pos ((c.chain k list there).keys item inside)]
      · rw [List.getElem?_set_ne own]
        cases other : items[j]? with
        | none => rfl
        | some list' =>
          rw [Option.map_some, List.map_congr_left, List.map_id]
          intro item inside
          apply if_neg
          rintro rfl
          exact own (c.key_toNat other inside)
    rw [all]

section
variable (load : LoadFactorOne) (cells : Mallocs)

/-- A map filled from records with the blocks before `i`; those from `i` on are as they
were at first. -/
structure Filled (m₀ m : Mem) (tag : Hashmap) (i : Nat) (es : List (BitVec 32 × Tag)) : Prop where
  chained : ∃ items, Chained m tag items
  size : tag.size = 769
  factor : tag.overloaded = load.1
  count : tag.count = BitVec.ofNat 32 es.length
  entries : (tag.entries m).Perm es
  keys : ∀ item ∈ tag.nodes, ∃ j < i, item.key = cells.tmp_pageno j
  values : ∀ item ∈ tag.nodes, ∃ j < i, item.value = cells.tmp_tag j
  fresh : ∀ j, i ≤ j → m.int (cells.tmp_pageno j) = m₀.int (cells.tmp_pageno j) ∧
    m.mac (cells.tmp_tag j) = m₀.mac (cells.tmp_tag j)

variable {load cells} {m₀ m : Mem} {tag : Hashmap} {i : Nat} {es : List (BitVec 32 × Tag)}

/-- A node has to be made for the page 0, and for one that has no entry. -/
theorem Filled.needsNode_iff (filled : Filled load cells m₀ m tag i es) {items : List (List Item)}
    (c : Chained m tag items) {k : BitVec 32} {list : List Item}
    (there : items[k.toNat]? = some list) :
    NeedsNode k list ↔ k = 0 ∨ k ∉ es.map Prod.fst := by
  have known : k ∈ es.map Prod.fst ↔ ∃ item, item ∈ list := by
    rw [← (filled.entries.map Prod.fst).mem_iff, Hashmap.entries, List.map_map, List.mem_map]
    constructor
    · rintro ⟨item, member, rfl⟩
      obtain ⟨list', there', inside⟩ := c.mem_nodes.mp member
      exact ⟨item, Option.some.inj (there'.symm.trans there) ▸ inside⟩
    · rintro ⟨item, inside⟩
      have own := (c.chain k list there).keys item inside
      exact ⟨item, c.mem_nodes.mpr ⟨list, own.symm ▸ there, inside⟩, own⟩
  rw [NeedsNode, known, List.eq_nil_iff_forall_not_mem, not_exists]

theorem Filled.other_key (filled : Filled load cells m₀ m tag i es) {item : Item}
    (member : item ∈ tag.nodes) : item.key ≠ cells.tmp_pageno i := by
  obtain ⟨j, older, key⟩ := filled.keys item member
  rw [key]
  exact fun same => absurd (cells.pageno_apart same) (Nat.ne_of_lt older)

theorem Filled.other_value (filled : Filled load cells m₀ m tag i es) {item : Item}
    (member : item ∈ tag.nodes) : item.value ≠ cells.tmp_tag i := by
  obtain ⟨j, older, value⟩ := filled.values item member
  rw [value]
  exact fun same => absurd (cells.tag_apart same) (Nat.ne_of_lt older)

/-- The blocks of the next record are written before the map has them. -/
theorem Filled.poke (filled : Filled load cells m₀ m tag i es) (k : BitVec 32) (t : Tag) :
    Filled load cells m₀ ((m.setInt (cells.tmp_pageno i) k).setMac (cells.tmp_tag i) t) tag
      (i + 1) es := by
  generalize hm : (m.setInt (cells.tmp_pageno i) k).setMac (cells.tmp_tag i) t = m'
  have sameInt (p : Ptr) (other : p ≠ cells.tmp_pageno i) : m'.int p = m.int p := by
    rw [← hm]
    exact if_neg other
  have sameMac (q : Ptr) (other : q ≠ cells.tmp_tag i) : m'.mac q = m.mac q := by
    rw [← hm]
    exact if_neg other
  have keyKept : ∀ item ∈ tag.nodes, m'.int item.key = m.int item.key :=
    fun item member => sameInt _ (filled.other_key member)
  have entries : tag.entries m' = tag.entries m := by
    apply List.map_congr_left
    intro item member
    exact Prod.ext (keyKept item member) (sameMac _ (filled.other_value member))
  obtain ⟨items, c⟩ := filled.chained
  refine ⟨⟨items, c.congr keyKept⟩, filled.size, filled.factor, filled.count,
    entries ▸ filled.entries, ?_, ?_, ?_⟩
  · intro item member
    obtain ⟨j, older, key⟩ := filled.keys item member
    exact ⟨j, Nat.lt_succ_of_lt older, key⟩
  · intro item member
    obtain ⟨j, older, value⟩ := filled.values item member
    exact ⟨j, Nat.lt_succ_of_lt older, value⟩
  · intro j later
    have newer : j ≠ i := Nat.ne_of_gt later
    rw [sameInt _ fun same => newer (cells.pageno_apart same),
      sameMac _ fun same => newer (cells.tag_apart same)]
    exact filled.fresh j (Nat.le_of_succ_le later)

/-- A value in the place of another, as the entry of the node shows it. -/
theorem entry_replace (m : Mem) (p q : Ptr) :
    (Item.entry m ∘ fun item =>
        if m.int item.key = m.int p then { item with value := q } else item) =
      (fun old => if old.1 = m.int p then (m.int p, m.mac q) else old) ∘ Item.entry m := by
  funext item
  by_cases own : m.int item.key = m.int p
  · have entry : (Item.entry m item).1 = m.int p := own
    rw [Function.comp_apply, Function.comp_apply, if_pos own, if_pos entry]
    exact Prod.ext own rfl
  · have entry : ¬ (Item.entry m item).1 = m.int p := own
    rw [Function.comp_apply, Function.comp_apply, if_neg own, if_neg entry]

/-- An insertion is a write to the table of the entries. -/
theorem Filled.entries_put (filled : Filled load cells m₀ m tag i es) {p q : Ptr}
    {list nodes : List Item}
    (needs : NeedsNode (m.int p) list ↔ m.int p = 0 ∨ m.int p ∉ es.map Prod.fst)
    (perm : nodes.Perm (if NeedsNode (m.int p) list then tag.nodes ++ [⟨p, q⟩]
      else tag.nodes.map fun item =>
        if m.int item.key = m.int p then { item with value := q } else item)) :
    (nodes.map (Item.entry m)).Perm (LastWrite.put (· = 0) es (m.int p, m.mac q)) := by
  apply (perm.map (Item.entry m)).trans
  unfold LastWrite.put
  by_cases made : NeedsNode (m.int p) list
  · rw [if_pos made, if_pos (needs.mp made), List.map_append]
    exact List.Perm.append_right _ filled.entries
  · rw [if_neg made, if_neg fun known => made (needs.mpr known), List.map_map, entry_replace,
      ← List.map_map]
    exact filled.entries.map _

/-- A record in the blocks goes into the map. -/
theorem Filled.insert (filled : Filled load cells m₀ m tag (i + 1) es) (room : es.length < 769)
    (inside : (m.int (cells.tmp_pageno i)).toNat < 769) :
    ∃ m' tag', hm_set .succeed m tag (cells.tmp_pageno i) (cells.tmp_tag i) =
        some (m', tag', 1) ∧
      Filled load cells m₀ m' tag' (i + 1) (LastWrite.put (· = 0) es
        (m.int (cells.tmp_pageno i), m.mac (cells.tmp_tag i))) := by
  obtain ⟨items, c⟩ := filled.chained
  generalize hp : cells.tmp_pageno i = p at *
  generalize hq : cells.tmp_tag i = q at *
  obtain ⟨list, there⟩ : ∃ list, items[(m.int p).toNat]? = some list :=
    ⟨_, List.getElem?_eq_getElem (by rw [c.length, filled.size]; exact inside)⟩
  have needs := filled.needsNode_iff c there
  have perm := c.nodes_inserted there p q
  have grown := length_inserted .succeed (m.int p) list p q
  have total := length_flatten_set there (inserted .succeed (m.int p) list p q).1
  obtain ⟨freed, set, stored⟩ := c.set_eq (hp ▸ (cells.notNull i).1) .succeed q there
  have nodes := stored.nodes
  generalize inserted .succeed (m.int p) list p q = new at *
  rw [← nodes] at perm
  have entries : ((tag.store (m.int p).toNat new.1 (new.2 : Int)).entries { m with freed }).Perm
      (LastWrite.put (· = 0) es (m.int p, m.mac q)) := filled.entries_put needs perm
  have count : (tag.store (m.int p).toNat new.1 (new.2 : Int)).count = BitVec.ofNat 32
      (LastWrite.put (· = 0) es (m.int p, m.mac q)).length := by
    have before := filled.entries.length_eq
    have after := entries.length_eq
    rw [Hashmap.entries, List.length_map] at before after
    rw [nodes] at after
    rw [c.nodes] at before
    have more : (LastWrite.put (· = 0) es (m.int p, m.mac q)).length = es.length + new.2 := by
      omega
    rw [store_count, filled.count, BitVec.ofInt_natCast, more, BitVec.ofNat_add]
  have light : tag.overloaded (tag.count + BitVec.ofNat 32 new.2) tag.size = false := by
    rw [store_count, BitVec.ofInt_natCast] at count
    have most := LastWrite.length_put_le (· = 0) es (m.int p, m.mac q)
    rw [filled.factor, count]
    apply load.2
    rw [filled.size, BitVec.le_def, BitVec.toNat_ofNat]
    exact (Nat.mod_le _ _).trans (most.trans room)
  rw [light, if_neg Bool.false_ne_true] at set
  refine ⟨_, _, set, ⟨_, stored⟩, filled.size, filled.factor, count, entries, ?_, ?_,
    filled.fresh⟩
  · intro item member
    have listed := perm.mem_iff.mp member
    split_ifs at listed
    · rcases List.mem_append.mp listed with old | last
      · exact filled.keys item old
      · rw [List.mem_singleton.mp last, ← hp]
        exact ⟨i, Nat.lt_succ_self i, rfl⟩
    · obtain ⟨x, old, rfl⟩ := List.mem_map.mp listed
      split_ifs
      · exact filled.keys x old
      · exact filled.keys x old
  · intro item member
    have own : ∃ j < i + 1, q = cells.tmp_tag j := ⟨i, Nat.lt_succ_self i, hq.symm⟩
    have listed := perm.mem_iff.mp member
    split_ifs at listed
    · rcases List.mem_append.mp listed with old | last
      · exact filled.values item old
      · rw [List.mem_singleton.mp last]
        exact own
    · obtain ⟨x, old, rfl⟩ := List.mem_map.mp listed
      split_ifs
      · exact own
      · exact filled.values x old

end

section
variable {σ : Type} (u : Utee σ) (fdr : Int) (cells : Mallocs)

/-- A pass of the loop is its two reads and an insertion. -/
theorem createLoop_pass (n i : Nat) (s : σ) (m : Mem) (tag : Hashmap) :
    createLoop u cells fdr n i s m tag =
      let number := keyRead u fdr cells m i s
      let mac := tagRead u fdr cells m i number.1
      let m₁ := m.setInt (cells.tmp_pageno i) (ofIntBytes number.2.bytes)
      if number.2.ret = 0 then some (number.1, m₁, tag)
      else
        match n with
        | 0 => some (number.1, m₁, tag)
        | n + 1 =>
          match hm_set .succeed (m₁.setMac (cells.tmp_tag i) (toTag mac.2.bytes)) tag
            (cells.tmp_pageno i) (cells.tmp_tag i) with
          | none => none
          | some (m, tag, _) =>
            if i + 1 < 100 then createLoop u cells fdr n (i + 1) mac.1 m tag else none := by
  cases n <;> rw [createLoop] <;> rfl

@[simp] theorem keyRead_asked (m : Mem) (i : Nat) (s : σ) :
    (keyRead u fdr cells m i s).2.asked = 4 := rfl

@[simp] theorem tagRead_asked (m : Mem) (i : Nat) (s : σ) :
    (tagRead u fdr cells m i s).2.asked = 16 := rfl

theorem keyRead_readsLogged (m : Mem) (i : Nat) (s : σ) (reads : List ReadAnswer) :
    keyRead u.readsLogged fdr cells m i (s, reads) =
      let number := keyRead u fdr cells m i s
      ((number.1, number.2 :: reads), number.2) := rfl

theorem tagRead_readsLogged (m : Mem) (i : Nat) (s : σ) (reads : List ReadAnswer) :
    tagRead u.readsLogged fdr cells m i (s, reads) =
      let mac := tagRead u fdr cells m i s
      ((mac.1, mac.2 :: reads), mac.2) := rfl

/-- The reads are recorded and nothing else is changed. -/
theorem createLoop_forget (n i : Nat) (s : σ) (reads : List ReadAnswer) (m : Mem)
    (tag : Hashmap) :
    (createLoop u.readsLogged cells fdr n i (s, reads) m tag).map (fun r => (r.1.1, r.2)) =
      createLoop u cells fdr n i s m tag := by
  induction n generalizing i s reads m tag with
  | zero =>
    rw [createLoop_pass, createLoop_pass, keyRead_readsLogged]
    simp only [ite_self, Option.map_some]
  | succ n ih =>
    rw [createLoop_pass, createLoop_pass, keyRead_readsLogged]
    simp only [tagRead_readsLogged]
    split
    · rfl
    · split
      · rfl
      · split
        · exact ih ..
        · rfl

/-- The reads of the rest of the loop come on top of the read it begins with. -/
theorem createLoop_reads {n i : Nat} {s : σ} {reads : List ReadAnswer} {m : Mem} {tag : Hashmap}
    {r : (σ × List ReadAnswer) × Mem × Hashmap}
    (h : createLoop u.readsLogged cells fdr n i (s, reads) m tag = some r) :
    ∃ more, r.1.2 = more ++ (keyRead u fdr cells m i s).2 :: reads := by
  induction n generalizing i s reads m tag with
  | zero =>
    rw [createLoop_pass, keyRead_readsLogged] at h
    simp only [ite_self, Option.some.injEq] at h
    exact ⟨[], h ▸ rfl⟩
  | succ n ih =>
    rw [createLoop_pass, keyRead_readsLogged] at h
    simp only [tagRead_readsLogged] at h
    split at h
    · cases h
      exact ⟨[], rfl⟩
    · split at h
      · cases h
      · split at h
        · obtain ⟨more, all⟩ := ih h
          rw [all, List.append_cons, List.append_cons]
          exact ⟨_, rfl⟩
        · cases h

variable {u fdr cells} {load : LoadFactorOne} {m₀ m : Mem} {tag : Hashmap} {i : Nat}
  {es : List (BitVec 32 × Tag)} {s : σ}

theorem Filled.keyRead (filled : Filled load cells m₀ m tag i es) :
    keyRead u fdr cells m i s = keyRead u fdr cells m₀ i s := by
  rw [TeeSqlite.keyRead, TeeSqlite.keyRead, (filled.fresh i (Nat.le_refl i)).1]

theorem Filled.tagRead (filled : Filled load cells m₀ m tag i es) :
    tagRead u fdr cells m i s = tagRead u fdr cells m₀ i s := by
  rw [TeeSqlite.tagRead, TeeSqlite.tagRead, (filled.fresh i (Nat.le_refl i)).2]

theorem supplies_cons {e : BitVec 32 × Tag} {rs : List (BitVec 32 × Tag)} :
    Supplies u fdr cells m (e :: rs) i s ↔
      (keyRead u fdr cells m i s).2.Complete ∧
      (tagRead u fdr cells m i (keyRead u fdr cells m i s).1).2.Complete ∧
      (ofIntBytes (keyRead u fdr cells m i s).2.bytes,
        toTag (tagRead u fdr cells m i (keyRead u fdr cells m i s).1).2.bytes) = e ∧
      Supplies u fdr cells m rs (i + 1) (tagRead u fdr cells m i (keyRead u fdr cells m i s).1).1 :=
  Iff.rfl

/-- A record read whole goes into the map. -/
theorem Filled.take_record (filled : Filled load cells m₀ m tag i es) (few : es.length < 769)
    {k : BitVec 32} (inside : k.toNat < 769) (t : Tag) :
    ∃ m' tag', hm_set .succeed ((m.setInt (cells.tmp_pageno i) k).setMac (cells.tmp_tag i) t) tag
        (cells.tmp_pageno i) (cells.tmp_tag i) = some (m', tag', 1) ∧
      Filled load cells m₀ m' tag' (i + 1) (LastWrite.put (· = 0) es (k, t)) := by
  have poked := filled.poke k t
  have key : ((m.setInt (cells.tmp_pageno i) k).setMac (cells.tmp_tag i) t).int
      (cells.tmp_pageno i) = k := if_pos rfl
  have value : ((m.setInt (cells.tmp_pageno i) k).setMac (cells.tmp_tag i) t).mac
      (cells.tmp_tag i) = t := if_pos rfl
  have inserted := poked.insert few (key.symm ▸ inside)
  rw [key, value] at inserted
  exact inserted

theorem Filled.outside (filled : Filled load cells m₀ m tag i es) {k : BitVec 32}
    (outside : ¬ k.toNat < 769) (t : Tag) :
    hm_set .succeed ((m.setInt (cells.tmp_pageno i) k).setMac (cells.tmp_tag i) t) tag
      (cells.tmp_pageno i) (cells.tmp_tag i) = none := by
  obtain ⟨items, c⟩ := (filled.poke k t).chained
  have key : ((m.setInt (cells.tmp_pageno i) k).setMac (cells.tmp_tag i) t).int
      (cells.tmp_pageno i) = k := if_pos rfl
  have missing : tag.bucket ((m.setInt (cells.tmp_pageno i) k).setMac (cells.tmp_tag i) t)
      (cells.tmp_pageno i) = none := by
    rw [← Option.not_isSome_iff_eq_none, c.bucket_isSome, key, filled.size]
    exact outside
  simp only [hm_set, if_neg (cells.notNull i).1, missing]

/-- Records that the reads supply, and that fit, are what the loop loads. -/
theorem Filled.load_supplied {rs : List (BitVec 32 × Tag)}
    (filled : Filled load cells m₀ m tag i es) (few : es.length ≤ i)
    (supplies : Supplies u fdr cells m₀ rs i s) (fit : Fits i rs) {n : Nat}
    (passes : i + n = 20000) (reads : List ReadAnswer) :
    ∃ s' last mid m' tag',
      createLoop u.readsLogged cells fdr n i (s, reads) m tag =
        some ((s', last :: mid ++ reads), m', tag') ∧
      (∀ r ∈ mid, r.Complete) ∧ ¬ last.Complete ∧ recordsOf mid.reverse = rs ∧
      (tag'.entries m').Perm (rs.foldl (LastWrite.put (· = 0)) es) := by
  induction rs generalizing i n s reads m tag es with
  | nil =>
    have stop : (TeeSqlite.keyRead u fdr cells m₀ i s).2.ret = 0 := supplies
    rw [createLoop_pass, keyRead_readsLogged, filled.keyRead]
    dsimp only
    rw [if_pos stop]
    refine ⟨_, _, [], _, _, rfl, fun r none => absurd none List.not_mem_nil, ?_, rfl, ?_⟩
    · rw [ReadAnswer.Complete, stop, keyRead_asked]
      decide
    · have entries : tag.entries (m.setInt (cells.tmp_pageno i)
          (ofIntBytes (TeeSqlite.keyRead u fdr cells m₀ i s).2.bytes)) = tag.entries m := by
        apply List.map_congr_left
        intro item member
        exact Prod.ext (if_neg (filled.other_key member)) rfl
      rw [entries]
      exact filled.entries
  | cons e rs ih =>
    obtain ⟨whole, whole', made, rest⟩ := supplies_cons.mp supplies
    obtain ⟨inside, fit'⟩ := fits_cons.mp fit
    have most : i + 1 < 100 := Nat.lt_succ_of_le (Nat.le_trans (Nat.le_add_right _ _) fit'.1)
    obtain ⟨n, rfl⟩ : ∃ n', n = n' + 1 := ⟨n - 1, by omega⟩
    have going : ¬ (TeeSqlite.keyRead u fdr cells m₀ i s).2.ret = 0 := by
      rw [whole, keyRead_asked]
      decide
    rw [createLoop_pass, keyRead_readsLogged, filled.keyRead]
    simp only [tagRead_readsLogged, filled.tagRead, if_neg going]
    generalize TeeSqlite.keyRead u fdr cells m₀ i s = number at *
    generalize TeeSqlite.tagRead u fdr cells m₀ i number.1 = mac at *
    cases made
    obtain ⟨m₁, tag₁, set, filled'⟩ := filled.take_record (by omega) inside (toTag mac.2.bytes)
    simp only [set, if_pos most]
    have few' (e : BitVec 32 × Tag) :=
      Nat.le_trans (LastWrite.length_put_le (· = 0) es e) (Nat.succ_le_succ few)
    obtain ⟨s', last, mid, m', tag', loaded, all, stop, records, entries⟩ :=
      ih filled' (few' _) rest fit' (by omega : i + 1 + n = 20000) (mac.2 :: number.2 :: reads)
    refine ⟨s', last, mid ++ [mac.2, number.2], m', tag', ?_, ?_, stop, ?_, entries⟩
    · rw [loaded, List.cons_append, List.cons_append, List.append_assoc]
      rfl
    · intro r member
      rcases List.mem_append.mp member with later | now
      · exact all r later
      · rcases List.mem_pair.mp now with rfl | rfl
        · exact whole'
        · exact whole
    · rw [List.reverse_append, ← records]
      rfl

/-- When no read but the last falls short, the reads have supplied records that fit. -/
theorem Filled.supplies_of_complete {n : Nat} (filled : Filled load cells m₀ m tag i es)
    (few : es.length ≤ i) (most : i < 100) (passes : i + n = 20000) {reads : List ReadAnswer}
    {r : (σ × List ReadAnswer) × Mem × Hashmap}
    (loaded : createLoop u.readsLogged cells fdr n i (s, reads) m tag = some r)
    (complete : ∀ x ∈ r.1.2.tail, x.Complete) :
    ∃ rs, Supplies u fdr cells m₀ rs i s ∧ Fits i rs := by
  induction n generalizing i s reads m tag es with
  | zero => omega
  | succ n ih =>
    rw [createLoop_pass, keyRead_readsLogged, filled.keyRead] at loaded
    simp only [tagRead_readsLogged, filled.tagRead] at loaded
    by_cases stop : (TeeSqlite.keyRead u fdr cells m₀ i s).2.ret = 0
    · refine ⟨[], stop, Nat.le_of_lt_succ most, ?_⟩
      intro e none
      exact absurd none List.not_mem_nil
    · rw [if_neg stop] at loaded
      by_cases inside : (ofIntBytes (TeeSqlite.keyRead u fdr cells m₀ i s).2.bytes).toNat < 769
      · obtain ⟨m₁, tag₁, set, filled'⟩ := filled.take_record (by omega) inside
          (toTag (TeeSqlite.tagRead u fdr cells m₀ i
            (TeeSqlite.keyRead u fdr cells m₀ i s).1).2.bytes)
        simp only [set] at loaded
        split at loaded
        · rename_i room
          -- the read after these two is in the record, above them
          obtain ⟨more, all⟩ := createLoop_reads u fdr cells loaded
          have both : ∀ x ∈ [(TeeSqlite.tagRead u fdr cells m₀ i
              (TeeSqlite.keyRead u fdr cells m₀ i s).1).2,
              (TeeSqlite.keyRead u fdr cells m₀ i s).2], x.Complete := by
            intro x member
            apply complete x
            rw [all]
            cases more with
            | nil => exact List.mem_append_left _ member
            | cons y more =>
              exact List.mem_append_right _
                (List.mem_cons_of_mem _ (List.mem_append_left reads member))
          have few' (e : BitVec 32 × Tag) :=
            Nat.le_trans (LastWrite.length_put_le (· = 0) es e) (Nat.succ_le_succ few)
          obtain ⟨rs, supplies, fit⟩ := ih filled' (few' _) room (by omega) loaded
          refine ⟨_ :: rs, supplies_cons.mpr ⟨?_, ?_, rfl, supplies⟩, fits_cons.mpr ⟨inside, fit⟩⟩
          · exact both _ (List.mem_cons_of_mem _ (List.mem_singleton_self _))
          · exact both _ List.mem_cons_self
        · cases loaded
      · rw [filled.outside inside] at loaded
        cases loaded

/-- The map holds the records just when the page 0 is not in two of them. -/
theorem holdsRecords_iff {rs : List (BitVec 32 × Tag)}
    (entries : (tag.entries m).Perm (LastWrite.fill (· = 0) rs)) :
    HoldsRecords m tag rs ↔ (rs.map Prod.fst).count 0 ≤ 1 := by
  rw [HoldsRecords, (entries.map Prod.fst).nodup_iff]
  constructor
  · rintro ⟨distinct, -⟩
    rw [← LastWrite.count_fill (· = 0) rfl rs]
    exact List.nodup_iff_count_le_one.mp distinct 0
  · intro few
    have once : ∀ k : BitVec 32, k = 0 → (rs.map Prod.fst).count k ≤ 1 := by
      rintro k rfl
      exact few
    obtain ⟨distinct, last⟩ := LastWrite.fill_spec once
    refine ⟨distinct, ?_⟩
    intro k t
    rw [entries.mem_iff]
    exact last k t

theorem Filled.created (load : LoadFactorOne) (cells : Mallocs) (m : Mem) :
    ∃ new, hm_create .succeed 500 load.1 13 = some new ∧ Filled load cells m m new 0 [] := by
  obtain ⟨new, created, factor, size, count⟩ : ∃ new, hm_create .succeed 500 load.1 13 = some new ∧
      new.overloaded = load.1 ∧ new.size = 769 ∧ new.count = 0 := ⟨_, rfl, rfl, rfl, rfl⟩
  have empty := Chained.created m created
  have none : new.nodes = [] := by
    rw [empty.nodes]
    simp
  have absent {p : Item → Prop} : ∀ item ∈ new.nodes, p item := by
    intro item member
    rw [none] at member
    exact absurd member List.not_mem_nil
  refine ⟨new, created, ⟨_, empty⟩, size, factor, count, ?_, absent, absent, fun j _ => ⟨rfl, rfl⟩⟩
  rw [Hashmap.entries, none]
  exact List.Perm.nil

end

section
variable {σ : Type} (u : Utee σ) (load : LoadFactorOne) (cells : Mallocs) (s : σ) (m : Mem)

/-- The calls of `createMap` supply the records `rs` of the opened file, and then nothing. -/
def FileSupplies (rs : List (BitVec 32 × Tag)) : Prop :=
  let (s, fdr) := u.utee_vfs_open s macLog (O_RDWR ||| O_CREAT) 0o777
  Supplies u fdr cells m rs 0 s

/-- The record of the reads changes nothing. -/
theorem createMap_forget (reads : List ReadAnswer) :
    (createMap u.readsLogged load cells (s, reads) m).map (fun r => (r.1.1, r.2)) =
      createMap u load cells s m := by
  obtain ⟨new, created, -⟩ := Filled.created load cells m
  simp only [createMap, created]
  have loop := createLoop_forget u (u.utee_vfs_open s macLog (O_RDWR ||| O_CREAT) 0o777).2 cells
    20000 0 (u.utee_vfs_open s macLog (O_RDWR ||| O_CREAT) 0o777).1 reads m new
  rw [← loop, Option.map_map, Option.map_map]
  rfl

theorem createMap_readsLogged {new : Hashmap}
    (created : hm_create .succeed 500 load.1 13 = some new) :
    createMap u.readsLogged load cells (s, []) m =
      let (s, fdr) := u.utee_vfs_open s macLog (O_RDWR ||| O_CREAT) 0o777
      (createLoop u.readsLogged cells fdr 20000 0 (s, []) m new).map fun r =>
        (((u.utee_vfs_close r.1.1 fdr).1, r.1.2), r.2) := by
  simp only [createMap, created]
  rfl

variable {u cells s m}

theorem loads_supplied {rs : List (BitVec 32 × Tag)} (supplies : FileSupplies u cells s m rs)
    (fit : Fits 0 rs) :
    ∃ s' last mid m' tag, createMap u.readsLogged load cells (s, []) m =
        some ((s', last :: mid), m', tag) ∧
      (∀ r ∈ mid, r.Complete) ∧ ¬ last.Complete ∧ recordsOf mid.reverse = rs ∧
      (tag.entries m').Perm (LastWrite.fill (· = 0) rs) := by
  obtain ⟨new, created, filled⟩ := Filled.created load cells m
  obtain ⟨s', last, mid, m', tag, loop, loaded⟩ :=
    filled.load_supplied (Nat.le_refl 0) supplies fit (Nat.zero_add 20000) []
  rw [List.append_nil] at loop
  rw [createMap_readsLogged u load cells s m created]
  dsimp only
  rw [loop]
  exact ⟨_, last, mid, m', tag, rfl, loaded⟩

variable {load}

theorem LoadsRobustly.supplies (robust : LoadsRobustly u load cells s m) :
    ∃ rs, FileSupplies u cells s m rs ∧ Fits 0 rs := by
  obtain ⟨new, created, filled⟩ := Filled.created load cells m
  obtain ⟨s', reads, m', tag, loaded, ⟨front, last, split, complete, -⟩, -⟩ := robust
  rw [createMap_readsLogged u load cells s m created] at loaded
  obtain ⟨⟨⟨s₁, reads⟩, m₁, tag₁⟩, loop, made⟩ := Option.map_eq_some_iff.mp loaded
  cases made
  apply filled.supplies_of_complete (Nat.le_refl 0) (by decide) (Nat.zero_add 20000) loop
  intro x member
  rw [List.reverse_eq_iff, List.reverse_append, List.reverse_singleton, List.singleton_append]
    at split
  rw [split, List.tail_cons] at member
  exact complete x (List.mem_reverse.mp member)

/-- `createMap` loads a tag file robustly just when it has up to 99 records, each read
whole, their pages inside the map and the page 0 not in two of them, and the read
behind the last returns 0. -/
theorem loads_robustly_iff (u : Utee σ) (load : LoadFactorOne) (cells : Mallocs) (s : σ) (m : Mem) :
    LoadsRobustly u load cells s m ↔
      ∃ rs, FileSupplies u cells s m rs ∧ Fits 0 rs ∧ (rs.map Prod.fst).count 0 ≤ 1 := by
  constructor
  · intro robust
    obtain ⟨rs, supplies, fit⟩ := robust.supplies
    obtain ⟨s', last, mid, m', tag, loaded, -, -, records, entries⟩ :=
      loads_supplied load supplies fit
    obtain ⟨_, _, _, _, loaded', -, holds⟩ := robust
    rw [loaded] at loaded'
    cases loaded'
    rw [List.reverse_cons, List.dropLast_concat, records] at holds
    exact ⟨rs, supplies, fit, (holdsRecords_iff entries).mp holds⟩
  · rintro ⟨rs, supplies, fit, few⟩
    obtain ⟨s', last, mid, m', tag, loaded, all, stop, records, entries⟩ :=
      loads_supplied load supplies fit
    refine ⟨s', _, m', tag, loaded, ?_, ?_⟩
    · rw [List.reverse_cons]
      exact ⟨_, last, rfl, fun r member => all r (List.mem_reverse.mp member), stop⟩
    · rw [List.reverse_cons, List.dropLast_concat, records]
      exact (holdsRecords_iff entries).mpr few

end

/-- A normal world that refuses every call: `/tmp/mac.log` does not open, and the reads
of the descriptor -1 fail. -/
def refusing : Utee Unit where
  utee_vfs_lseek _ _ _ _ := ((), -1)
  utee_vfs_write _ _ _ := ((), -1)
  utee_vfs_read _ _ buf _ := ((), -1, buf)
  utee_vfs_fsync _ _ := ((), -1)
  utee_vfs_filesize _ _ := ((), -1)
  utee_vfs_close _ _ := ((), -1)
  utee_vfs_open _ _ _ _ := ((), -1)
  utee_vfs_unlink _ _ errno := ((), -1, errno)
  utee_vfs_access _ _ _ := ((), -1)
  utee_vfs_getcwd _ buf := ((), false, buf)

/-- A read that fails is taken for a record. -/
theorem refused_file_is_loaded : ¬ LoadsRobustly refusing .exact .even () Mem.blank := by
  intro robust
  obtain ⟨rs, supplies, -⟩ := robust.supplies
  cases rs with
  | nil => exact absurd supplies (by decide : ¬ (-1 : Int) = 0)
  | cons e rs =>
    have supplied : Supplies refusing (-1) .even Mem.blank (e :: rs) 0 () := supplies
    exact absurd (supplies_cons.mp supplied).1 (by decide : ¬ (-1 : Int) = 4)

end TeeSqlite
