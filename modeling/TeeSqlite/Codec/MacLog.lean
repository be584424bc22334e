import Mathlib.Data.Fintype.EquivFin
import TeeSqlite.Hashmap.Nodes
import TeeSqlite.Vfs.Disk

/-! The tag map on file: `closeMap` dumps it into `/tmp/mac.log` and frees it,
`createMap` builds a new one from there. Allocations succeed. -/
namespace TeeSqlite
open ByteFile CTypes

def O_TRUNC : Nat := 0o1000

/-- `"/tmp/mac.log"`. -/
def macLog : CStr :=
  ⟨[0x2f, 0x74, 0x6d, 0x70, 0x2f, 0x6d, 0x61, 0x63, 0x2e, 0x6c, 0x6f, 0x67], by decide⟩

/-- The blocks that `createMap` allocates for `tmp_pageno[i]` and `tmp_tag[i]`. -/
structure Mallocs where
  tmp_pageno : Nat → Ptr
  tmp_tag : Nat → Ptr
  pageno_apart : Function.Injective tmp_pageno
  tag_apart : Function.Injective tmp_tag
  notNull : ∀ i, tmp_pageno i ≠ NULL ∧ tmp_tag i ≠ NULL

/-- `(float)count / (float)size > 1.0f`: false while `count` is at most `size`. -/
abbrev LoadFactorOne :=
  { f : BitVec 32 → BitVec 32 → Bool // ∀ count size, count ≤ size → f count size = false }

/-- A cell of 16 bytes after a read into it. -/
def toTag (buf : Bytes) : Tag := if h : buf.length = 16 then ⟨buf, h⟩ else Tag.zero

@[simp] theorem toTag_val (t : Tag) : toTag t.1 = t := by rw [toTag, dif_pos t.2]

section
variable {σ : Type} (u : Utee σ)

/-- The loop of `createMap` at `i`, with `n` passes left of its 20000. The arrays
`tmp_pageno` and `tmp_tag` have 100 slots. -/
def createLoop (cells : Mallocs) (fdr : Int) (n i : Nat) (s : σ) (m : Mem) (tag : Hashmap) :
    Option (σ × Mem × Hashmap) :=
  let (s, got, buf) := u.utee_vfs_read s fdr (intBytes (m.int (cells.tmp_pageno i))) 4
  let m := m.setInt (cells.tmp_pageno i) (ofIntBytes buf)
  if got = 0 then some (s, m, tag)
  else
    match n with
    | 0 => some (s, m, tag)
    | n + 1 =>
      let (s, _) := u.utee_vfs_lseek s fdr ((i + 1) * 4 + i * 16 : Nat) SEEK_SET
      let (s, _, buf) := u.utee_vfs_read s fdr (m.mac (cells.tmp_tag i)).1 16
      let m := m.setMac (cells.tmp_tag i) (toTag buf)
      let (s, _) := u.utee_vfs_lseek s fdr ((i + 1) * 4 + (i + 1) * 16 : Nat) SEEK_SET
      match hm_set .succeed m tag (cells.tmp_pageno i) (cells.tmp_tag i) with
      | none => none
      | some (m, tag, _) =>
        if i + 1 < 100 then createLoop cells fdr n (i + 1) s m tag else none

def createMap (load : LoadFactorOne) (cells : Mallocs) (s : σ) (m : Mem) :
    Option (σ × Mem × Hashmap) :=
  let (s, fdr) := u.utee_vfs_open s macLog (O_RDWR ||| O_CREAT) 0o777
  match hm_create .succeed 500 load.1 13 with
  | none => none
  | some tag =>
    (createLoop u cells fdr 20000 0 s m tag).map fun (s, m, tag) =>
      ((u.utee_vfs_close s fdr).1, m, tag)

def closeMap (s : σ) (m : Mem) (tag : Hashmap) : Option (σ × Mem) :=
  let (s, fdw) := u.utee_vfs_open s macLog (O_RDWR ||| O_TRUNC) 0o777
  match hm_dump u.toFileCalls s m tag fdw with
  | none => none
  | some s => (hm_delete m tag).map fun m => ((u.utee_vfs_close s fdw).1, m)

/-- A TA is left and entered again. -/
def saveAndReload (load : LoadFactorOne) (cells : Mallocs) (s : σ) (m : Mem) (tag : Hashmap) :
    Option (σ × Mem × Hashmap) :=
  match closeMap u s m tag with
  | none => none
  | some (s, m) => createMap u load cells s m

end

namespace Disk

/-- A file system with one file. -/
def single : Utee Disk where
  toFileCalls := calls
  utee_vfs_open d _ flags _ :=
    ({ d with bytes := if flags &&& O_TRUNC = 0 then d.bytes else [], pos := 0 }, 3)
  utee_vfs_unlink d _ errno := ({ d with bytes := [] }, 0, errno)
  utee_vfs_access d _ _ := (d, 0)
  utee_vfs_getcwd d buf := (d, true, buf)

variable (syncs : List Int) (sizes : List Bool)

/-- A sound file at a position. -/
def soundAt (bytes : Bytes) (pos : Nat) : Disk := { sound bytes syncs sizes with pos }

theorem soundAt_write (bytes buf : Bytes) :
    (soundAt syncs sizes bytes bytes.length).write buf =
      (soundAt syncs sizes (bytes ++ buf) (bytes ++ buf).length, (buf.length : Int)) := by
  simp only [soundAt, sound, write, nextWrite, List.headD_nil, Transfer.count, Transfer.ret,
    List.take_length, write_end, List.length_append, List.tail_nil]

theorem soundAt_lseek (bytes : Bytes) (pos : Nat) (ofst : Nat) :
    (soundAt syncs sizes bytes pos).lseek ofst =
      (soundAt syncs sizes bytes ofst, (ofst : Int)) := by
  simp only [soundAt, sound, lseek, nextSeek, List.headD_nil, Int.natCast_nonneg, and_self,
    ↓reduceIte, Int.toNat_natCast, List.tail_nil]

theorem soundAt_read (bytes buf : Bytes) (pos n : Nat) :
    (soundAt syncs sizes bytes pos).read buf n =
      (soundAt syncs sizes bytes (pos + (ByteFile.read bytes pos n).length),
        ((ByteFile.read bytes pos n).length : Int), splice buf 0 (ByteFile.read bytes pos n)) := by
  have whole : (ByteFile.read bytes pos n).take n = ByteFile.read bytes pos n := by
    rw [ByteFile.read, List.take_take, Nat.min_self]
  simp only [soundAt, sound, read, nextRead, List.headD_nil, Transfer.count, whole,
    reduceCtorEq, ↓reduceIte, List.tail_nil]

end Disk

/-- The 20 bytes of an entry. -/
def entryBytes (e : BitVec 32 × Tag) : Bytes := intBytes e.1 ++ e.2.1

def logBytes (es : List (BitVec 32 × Tag)) : Bytes := es.flatMap entryBytes

@[simp] theorem length_entryBytes (e : BitVec 32 × Tag) : (entryBytes e).length = 20 := by
  rw [entryBytes, List.length_append, length_intBytes, e.2.2]

@[simp] theorem length_logBytes (es : List (BitVec 32 × Tag)) :
    (logBytes es).length = es.length * 20 := by
  induction es with
  | nil => rfl
  | cons e es ih =>
    have split : logBytes (e :: es) = entryBytes e ++ logBytes es := List.flatMap_cons
    rw [split, List.length_append, ih, length_entryBytes, List.length_cons]
    omega

section
variable (syncs : List Int) (sizes : List Bool)

/-- The log after `es` were written to it. -/
def logged (es : List (BitVec 32 × Tag)) : Disk :=
  .soundAt syncs sizes (logBytes es) (logBytes es).length

theorem dumpChain_logged (m : Mem) (fdw : Int) (list : List Item)
    (present : ∀ item ∈ list, item.value ≠ NULL) (es : List (BitVec 32 × Tag)) :
    dumpChain Disk.calls m fdw (logged syncs sizes es) list =
      some (logged syncs sizes (es ++ list.map (Item.entry m))) := by
  induction list generalizing es with
  | nil => rw [dumpChain, List.map_nil, List.append_nil]
  | cons item list ih =>
    have value := present item List.mem_cons_self
    have written : ((logged syncs sizes es).write (intBytes (m.int item.key))).1.write
        (m.mac item.value).1 = (logged syncs sizes (es ++ [item.entry m]), 16) := by
      have both : logBytes es ++ intBytes (m.int item.key) ++ (m.mac item.value).1 =
          logBytes (es ++ [item.entry m]) := by
        rw [logBytes, logBytes, List.flatMap_append, List.flatMap_singleton, List.append_assoc]
        rfl
      rw [logged, Disk.soundAt_write, Disk.soundAt_write, both, (m.mac item.value).2]
      rfl
    simp only [dumpChain, if_neg value, Disk.calls, written]
    have rest := ih (fun x hx => present x (List.mem_cons_of_mem item hx)) (es ++ [item.entry m])
    rw [List.append_assoc] at rest
    exact rest

theorem dumpLoop_logged {m : Mem} {tag : Hashmap} {items : List (List Item)}
    (t : Table m tag items) (fdw : Int) (n : Nat) (i : Nat) (left : i + n = items.length)
    (es : List (BitVec 32 × Tag)) :
    dumpLoop Disk.calls m tag fdw n i (logged syncs sizes es) =
      some (logged syncs sizes (es ++ (items.drop i).flatten.map (Item.entry m))) := by
  induction n generalizing i es with
  | zero =>
    rw [dumpLoop, List.drop_eq_nil_of_le (by omega), List.flatten_nil, List.map_nil,
      List.append_nil]
  | succ n ih =>
    have inside : i < items.length := by omega
    have there : items[i]? = some items[i] := List.getElem?_eq_getElem inside
    have chain := dumpChain_logged syncs sizes m fdw items[i]
      (t.present _ (List.getElem_mem inside)) es
    simp only [dumpLoop, t.array, Option.bind_some, there, chain]
    rw [ih (i + 1) (by omega), List.drop_eq_getElem_cons inside, List.flatten_cons,
      List.map_append, List.append_assoc]

/-- A map as `hm_set` builds it: `count` is the number of nodes. -/
structure TagTable (m : Mem) (tag : Hashmap) : Prop where
  table : ∃ items, Table m tag items
  counted : tag.count.toNat = tag.nodes.length

/-- Closing leaves the entries on file, whatever was there. -/
theorem closeMap_logged {m : Mem} {tag : Hashmap} (t : TagTable m tag) (bytes : Bytes)
    (pos : Nat) : ∃ m', closeMap Disk.single (.soundAt syncs sizes bytes pos) m tag =
      some (logged syncs sizes (tag.entries m), m') := by
  obtain ⟨items, table⟩ := t.table
  have opened : (Disk.single.utee_vfs_open (.soundAt syncs sizes bytes pos) macLog
      (O_RDWR ||| O_TRUNC) 0o777) = (logged syncs sizes [], 3) := rfl
  have dumped : hm_dump Disk.single.toFileCalls (logged syncs sizes []) m tag 3 =
      some (logged syncs sizes (tag.entries m)) := by
    rw [hm_dump]
    split
    · rename_i empty
      have none : tag.nodes = [] := by
        rw [← List.length_eq_zero_iff, ← t.counted, empty]
        rfl
      rw [Hashmap.entries, none, List.map_nil]
    · have all := dumpLoop_logged syncs sizes table 3 tag.size.toNat 0
        (by rw [Nat.zero_add, table.length]) []
      rw [List.nil_append, List.drop_zero, ← table.nodes] at all
      exact all
  have deleted : ∃ m', hm_delete m tag = some m' := by
    rw [hm_delete, hm_clear, table.array]
    exact ⟨_, rfl⟩
  obtain ⟨m', deleted⟩ := deleted
  refine ⟨m', ?_⟩
  simp only [closeMap, opened, dumped, deleted, Option.map_some]
  rfl

variable (cells : Mallocs)

/-- A map loaded with `es`: the nodes point to the blocks of `createMap`. -/
structure Loaded (m : Mem) (tag : Hashmap) (es : List (BitVec 32 × Tag)) : Prop where
  table : ∃ items, Table m tag items
  size : tag.size = 769
  count : tag.count = BitVec.ofNat 32 es.length
  entries : (tag.entries m).Perm es
  blocks : ∀ item ∈ tag.nodes, ∃ j < es.length, item = ⟨cells.tmp_pageno j, cells.tmp_tag j⟩

/-- Appending to a bucket adds the nodes. -/
theorem flatten_append_perm {items : List (List Item)} {i : Nat} {list : List Item}
    (there : items[i]? = some list) (new : List Item) :
    (items.set i (list ++ new)).flatten.Perm (items.flatten ++ new) := by
  obtain ⟨inside, same⟩ := List.getElem?_eq_some_iff.mp there
  have split :
      items.flatten = (items.take i).flatten ++ (list ++ (items.drop (i + 1)).flatten) := by
    have whole : items.take i ++ list :: items.drop (i + 1) = items := by
      rw [← same, ← List.drop_eq_getElem_cons inside, List.take_append_drop]
    rw [← congrArg List.flatten whole, List.flatten_append, List.flatten_cons]
  rw [List.set_eq_take_append_cons_drop, if_pos inside, List.flatten_append, List.flatten_cons,
    split, List.append_assoc, List.append_assoc, List.append_assoc]
  exact List.Perm.append_left _ (List.Perm.append_left _ List.perm_append_comm)

/-- One entry is loaded into the next blocks. -/
theorem Loaded.add {load : LoadFactorOne} {m : Mem} {tag : Hashmap} {es : List (BitVec 32 × Tag)}
    (loaded : Loaded cells m tag es) (few : es.length < 769) {k : BitVec 32} {t : Tag}
    (new : k ∉ es.map Prod.fst) (inside : k.toNat < 769) (factor : tag.overloaded = load.1) :
    ∃ tag', hm_set .succeed ((m.setInt (cells.tmp_pageno es.length) k).setMac
        (cells.tmp_tag es.length) t) tag (cells.tmp_pageno es.length) (cells.tmp_tag es.length) =
          some ((m.setInt (cells.tmp_pageno es.length) k).setMac (cells.tmp_tag es.length) t,
            tag', 1) ∧
      tag'.overloaded = load.1 ∧
      Loaded cells ((m.setInt (cells.tmp_pageno es.length) k).setMac (cells.tmp_tag es.length) t)
        tag' (es ++ [(k, t)]) := by
  obtain ⟨items, table⟩ := loaded.table
  generalize hp : cells.tmp_pageno es.length = p
  generalize hq : cells.tmp_tag es.length = q
  have apart : ∀ item ∈ tag.nodes, item.key ≠ p ∧ item.value ≠ q := by
    intro item member
    obtain ⟨j, older, rfl⟩ := loaded.blocks item member
    constructor
    · intro same
      exact absurd (cells.pageno_apart (same.trans hp.symm)) (Nat.ne_of_lt older)
    · intro same
      exact absurd (cells.tag_apart (same.trans hq.symm)) (Nat.ne_of_lt older)
  generalize hm : (m.setInt p k).setMac q t = m'
  have sameEntry : ∀ item ∈ tag.nodes, item.entry m' = item.entry m := by
    intro item member
    rw [← hm, Item.entry, Item.entry]
    exact Prod.ext (if_neg (apart item member).1) (if_neg (apart item member).2)
  have poked : Table m' tag items :=
    table.congr fun item member => congrArg Prod.fst (sameEntry item member)
  have hk : m'.int p = k := by
    rw [← hm]
    exact if_pos rfl
  have ht : m'.mac q = t := by
    rw [← hm]
    exact if_pos rfl
  have inside' : k.toNat < items.length := by rw [table.length, loaded.size]; exact inside
  have vacant : items[k.toNat]? = some [] := by
    apply table.vacant inside'
    intro item member key
    have entry : (k, m.mac item.value) ∈ es :=
      loaded.entries.mem_iff.mp (Hashmap.mem_entries.mpr ⟨item, member, key, rfl⟩)
    exact new (List.mem_map.mpr ⟨_, entry, rfl⟩)
  have stored : Table m' (tag.store k.toNat [⟨p, q⟩] 1) (items.set k.toNat [⟨p, q⟩]) := by
    apply poked.store (.node hk) rfl
    intro x only
    rw [List.mem_singleton.mp only, ← hq]
    exact (cells.notNull _).2
  have perm : (tag.store k.toNat [⟨p, q⟩] 1).nodes.Perm (tag.nodes ++ [⟨p, q⟩]) := by
    rw [stored.nodes, table.nodes]
    exact flatten_append_perm vacant [⟨p, q⟩]
  have counted : (tag.store k.toNat [⟨p, q⟩] 1).count = BitVec.ofNat 32 (es.length + 1) := by
    rw [Hashmap.store, loaded.count, BitVec.ofNat_add]
    rfl
  refine ⟨tag.store k.toNat [⟨p, q⟩] 1, ?_, factor, ⟨_, stored⟩, loaded.size, ?_, ?_, ?_⟩
  · have hkey : p ≠ NULL := hp ▸ (cells.notNull _).1
    have room : tag.count + 1 ≤ tag.size := by
      have next : tag.count + 1 = BitVec.ofNat 32 (es.length + 1) := counted
      have small : (es.length + 1) % 2 ^ 32 ≤ es.length + 1 := Nat.mod_le _ _
      rw [next, loaded.size, BitVec.le_def, BitVec.toNat_ofNat]
      exact Nat.le_trans small few
    have light : tag.overloaded (tag.count + 1) tag.size = false := by
      rw [factor]
      exact load.2 _ _ room
    rw [← hk] at vacant ⊢
    exact poked.set_vacant hkey vacant light
  · rw [counted, List.length_append]
    rfl
  · have added : (tag.nodes ++ [⟨p, q⟩] : List Item).map (Item.entry m') =
        tag.entries m ++ [(k, t)] := by
      rw [List.map_append, List.map_congr_left sameEntry, Hashmap.entries, List.map_singleton,
        Item.entry, hk, ht]
    have moved := perm.map (Item.entry m')
    rw [added] at moved
    exact moved.trans (List.Perm.append_right _ loaded.entries)
  · intro item member
    rw [List.length_append]
    rcases List.mem_append.mp (perm.mem_iff.mp member) with older | last
    · obtain ⟨j, hj, same⟩ := loaded.blocks item older
      exact ⟨j, Nat.lt_add_right _ hj, same⟩
    · refine ⟨es.length, Nat.lt_succ_self _, ?_⟩
      rw [List.mem_singleton.mp last, hp, hq]

/-- The log at the entry number `i`. -/
def logAt (es : List (BitVec 32 × Tag)) (i : Nat) : Disk :=
  .soundAt syncs sizes (logBytes es) (i * 20)

/-- Past the last entry the loop ends, and nothing has changed. -/
theorem createLoop_end (es : List (BitVec 32 × Tag)) (n : Nat) (m : Mem) (tag : Hashmap) :
    ∃ s, createLoop Disk.single cells 3 n es.length (logAt syncs sizes es es.length) m tag =
      some (s, m, tag) := by
  have nothing : ByteFile.read (logBytes es) (es.length * 20) 4 = [] := by
    rw [ByteFile.read, List.drop_eq_nil_of_le (by rw [length_logBytes]), List.take_nil]
  have answer := Disk.soundAt_read syncs sizes (logBytes es)
    (intBytes (m.int (cells.tmp_pageno es.length))) (es.length * 20) 4
  rw [nothing] at answer
  have kept : m.setInt (cells.tmp_pageno es.length)
      (ofIntBytes (intBytes (m.int (cells.tmp_pageno es.length)))) = m := by
    rw [ofIntBytes_intBytes]
    exact Mem.setInt_self rfl
  rw [createLoop]
  simp only [logAt, Disk.single, Disk.calls, answer, splice, List.take_zero, List.nil_append,
    List.length_nil, List.drop_zero, Nat.add_zero, kept, Int.ofNat_zero, ↓reduceIte]
  exact ⟨_, rfl⟩

/-- A pass of the loop takes one entry off the log. -/
theorem createLoop_next (before rest : List (BitVec 32 × Tag)) (k : BitVec 32) (t : Tag) (n : Nat)
    (m : Mem) (tag : Hashmap) :
    createLoop Disk.single cells 3 (n + 1) before.length
        (logAt syncs sizes (before ++ (k, t) :: rest) before.length) m tag =
      match hm_set .succeed ((m.setInt (cells.tmp_pageno before.length) k).setMac
          (cells.tmp_tag before.length) t) tag (cells.tmp_pageno before.length)
          (cells.tmp_tag before.length) with
      | none => none
      | some (m, tag, _) =>
        if before.length + 1 < 100 then
          createLoop Disk.single cells 3 n (before.length + 1)
            (logAt syncs sizes (before ++ (k, t) :: rest) (before.length + 1)) m tag
        else none := by
  generalize hB : logBytes (before ++ (k, t) :: rest) = B
  have split : B = logBytes before ++ (intBytes k ++ (t.1 ++ logBytes rest)) := by
    rw [← hB, logBytes, List.flatMap_append, List.flatMap_cons, entryBytes, List.append_assoc]
    rfl
  have number : ByteFile.read B (before.length * 20) 4 = intBytes k := by
    rw [split]
    exact read_middle _ _ _ (length_logBytes before) (length_intBytes k)
  have mac : ByteFile.read B ((before.length + 1) * 4 + before.length * 16) 16 = t.1 := by
    rw [split, ← List.append_assoc]
    refine read_middle _ _ _ ?_ t.2
    rw [List.length_append, length_logBytes, length_intBytes]
    omega
  have first : Disk.read (.soundAt syncs sizes B (before.length * 20))
      (intBytes (m.int (cells.tmp_pageno before.length))) 4 =
        (.soundAt syncs sizes B (before.length * 20 + 4), 4, intBytes k) := by
    rw [Disk.soundAt_read, number]
    simp
  have second : Disk.read
      (.soundAt syncs sizes B ((before.length + 1) * 4 + before.length * 16))
      (m.mac (cells.tmp_tag before.length)).1 16 =
        (.soundAt syncs sizes B ((before.length + 1) * 4 + before.length * 16 + 16), 16, t.1) := by
    rw [Disk.soundAt_read, mac]
    have laid : splice (m.mac (cells.tmp_tag before.length)).1 0 t.1 = t.1 :=
      splice_zero _ _ (t.2.trans (m.mac _).2.symm)
    rw [laid, t.2]
    rfl
  have sought (pos ofst : Nat) := Disk.soundAt_lseek syncs sizes B pos ofst
  have next : (before.length + 1) * 4 + (before.length + 1) * 16 = (before.length + 1) * 20 := by
    omega
  have some4 : ¬ (4 : Int) = 0 := by decide
  rw [createLoop]
  simp only [logAt, hB, Disk.single, Disk.calls, first, second, sought, next, some4,
    ofIntBytes_intBytes, Mem.setInt_mac, toTag_val, ↓reduceIte]

/-- The entries that the loop can take, `n` being loaded before. -/
def Fits (n : Nat) (es : List (BitVec 32 × Tag)) : Prop :=
  n + es.length ≤ 99 ∧ ∀ e ∈ es, e.1.toNat < 769

theorem fits_cons {n : Nat} {e : BitVec 32 × Tag} {es : List (BitVec 32 × Tag)} :
    Fits n (e :: es) ↔ e.1.toNat < 769 ∧ Fits (n + 1) es := by
  rw [Fits, Fits, List.length_cons, List.forall_mem_cons, Nat.add_right_comm, Nat.add_assoc n]
  exact and_left_comm

/-- From a map loaded with the entries before, the loop goes through just when the
rest fits, and then the map is loaded with all. -/
theorem createLoop_spec {load : LoadFactorOne} (rest : List (BitVec 32 × Tag)) :
    ∀ (before : List (BitVec 32 × Tag)) (n : Nat) (m : Mem) (tag : Hashmap),
      Loaded cells m tag before → tag.overloaded = load.1 →
      ((before ++ rest).map Prod.fst).Nodup → before.length < 100 → n + before.length = 20000 →
      (Fits before.length rest → (createLoop Disk.single cells 3 n before.length
        (logAt syncs sizes (before ++ rest) before.length) m tag).isSome = true) ∧
      ∀ s' m' tag', createLoop Disk.single cells 3 n before.length
        (logAt syncs sizes (before ++ rest) before.length) m tag = some (s', m', tag') →
        Fits before.length rest ∧ Loaded cells m' tag' (before ++ rest) := by
  induction rest with
  | nil =>
    intro before n m tag loaded _ _ room _
    obtain ⟨s, ended⟩ := createLoop_end syncs sizes cells before n m tag
    rw [List.append_nil, ended]
    constructor
    · intro _
      rfl
    · intro s' m' tag' same
      cases same
      refine ⟨⟨Nat.le_of_lt_succ room, ?_⟩, loaded⟩
      intro e none
      exact absurd none List.not_mem_nil
  | cons e rest ih =>
    intro before n m tag loaded factor distinct room passes
    obtain ⟨k, t⟩ := e
    obtain ⟨n, rfl⟩ : ∃ n', n = n' + 1 := ⟨n - 1, by omega⟩
    rw [createLoop_next]
    by_cases inside : k.toNat < 769
    · have new : k ∉ before.map Prod.fst := by
        rw [List.map_append, List.map_cons, List.nodup_append] at distinct
        intro older
        exact distinct.2.2 k older k List.mem_cons_self rfl
      obtain ⟨tag', set, factor', loaded'⟩ :=
        loaded.add cells (t := t) (by omega) new inside factor
      simp only [set]
      have whole : before ++ (k, t) :: rest = (before ++ [(k, t)]) ++ rest := by
        rw [List.append_assoc, List.singleton_append]
      have length : before.length + 1 = (before ++ [(k, t)]).length := by
        rw [List.length_append, List.length_singleton]
      by_cases room' : before.length + 1 < 100
      · rw [if_pos room', whole, length]
        rw [whole] at distinct
        obtain ⟨goes, ends⟩ := ih _ n _ tag' loaded' factor' distinct (length ▸ room') (by omega)
        rw [fits_cons, length]
        constructor
        · rintro ⟨-, fit⟩
          exact goes fit
        · intro s' m' tag'' answer
          obtain ⟨fit, all⟩ := ends s' m' tag'' answer
          exact ⟨⟨inside, fit⟩, all⟩
      · rw [if_neg room']
        constructor
        · rintro ⟨few, -⟩
          rw [List.length_cons] at few
          omega
        · intro s' m' tag'' answer
          cases answer
    · obtain ⟨items, table⟩ := loaded.table
      have outside : hm_set .succeed ((m.setInt (cells.tmp_pageno before.length) k).setMac
          (cells.tmp_tag before.length) t) tag (cells.tmp_pageno before.length)
          (cells.tmp_tag before.length) = none := by
        apply table.set_outside _ (cells.notNull _).1
        rw [Mem.setMac_int, Mem.setInt_int, if_pos rfl, loaded.size]
        exact Nat.not_lt.mp inside
      rw [outside]
      constructor
      · intro fit
        exact absurd (fits_cons.mp fit).1 inside
      · intro s' m' tag' answer
        cases answer

/-- Saving and reloading goes through just when the entries fit. -/
theorem saveAndReload_spec (load : LoadFactorOne) {m : Mem} {tag : Hashmap} (t : TagTable m tag)
    (bytes : Bytes) (pos : Nat) :
    (Fits 0 (tag.entries m) → (saveAndReload Disk.single load cells
      (.soundAt syncs sizes bytes pos) m tag).isSome = true) ∧
    ∀ s' m' tag', saveAndReload Disk.single load cells (.soundAt syncs sizes bytes pos) m tag =
      some (s', m', tag') → Fits 0 (tag.entries m) ∧ Loaded cells m' tag' (tag.entries m) := by
  obtain ⟨items, table⟩ := t.table
  obtain ⟨m₁, closed⟩ := closeMap_logged syncs sizes t bytes pos
  obtain ⟨new, created, factor, size, count⟩ : ∃ new, hm_create .succeed 500 load.1 13 = some new ∧
      new.overloaded = load.1 ∧ new.size = 769 ∧ new.count = 0 := ⟨_, rfl, rfl, rfl, rfl⟩
  have empty := Table.created m₁ created
  have none : new.nodes = [] := by
    rw [empty.nodes]
    simp
  have start : Loaded cells m₁ new [] := by
    refine ⟨⟨_, empty⟩, size, count, ?_, ?_⟩
    · rw [Hashmap.entries, none]
      exact List.Perm.nil
    · intro item member
      rw [none] at member
      exact absurd member List.not_mem_nil
  have reloaded : saveAndReload Disk.single load cells (.soundAt syncs sizes bytes pos) m tag =
      (createLoop Disk.single cells 3 20000 0 (logAt syncs sizes (tag.entries m) 0) m₁ new).map
        fun r => ((Disk.single.utee_vfs_close r.1 3).1, r.2.1, r.2.2) := by
    rw [saveAndReload, closed]
    simp only [createMap, created]
    rfl
  obtain ⟨goes, ends⟩ := createLoop_spec syncs sizes cells (tag.entries m) [] 20000 m₁ new start
    factor table.distinct (by decide) rfl
  rw [reloaded]
  constructor
  · intro fit
    rw [Option.isSome_map]
    exact goes fit
  · intro s' m' tag' answer
    obtain ⟨⟨s, m₂, tag₂⟩, loop, same⟩ := Option.map_eq_some_iff.mp answer
    cases same
    exact ends s _ _ loop

/-- The two maps have the same entries, each once, and a lookup that one answers the
other answers alike. -/
def SameTags (m : Mem) (tag : Hashmap) (m' : Mem) (tag' : Hashmap) : Prop :=
  (tag'.entries m').Perm (tag.entries m) ∧
  ∀ key k found, key ≠ NULL → tag.Unused key → tag'.Unused key →
    tag.lookup m key k = some found → tag'.lookup m' key k = some found

/-- A cell that neither map uses. -/
theorem exists_unused (tag tag' : Hashmap) :
    ∃ key, key ≠ NULL ∧ tag.Unused key ∧ tag'.Unused key := by
  obtain ⟨key, fresh⟩ := Infinite.exists_notMem_finset
    (NULL :: (tag.nodes.map Item.key ++ tag'.nodes.map Item.key)).toFinset
  simp only [List.mem_toFinset, List.mem_cons, List.mem_append, List.mem_map, not_or,
    not_exists, not_and] at fresh
  exact ⟨key, fresh.1, fresh.2.1, fresh.2.2⟩

/-- A tag map survives being saved and reloaded, with every access inside its array,
just when it has fewer entries than the arrays of `createMap` have slots, and no more
buckets than the new map. -/
theorem tags_survive_reload_iff (load : LoadFactorOne) {m : Mem} {tag : Hashmap}
    (t : TagTable m tag) (bytes : Bytes) (pos : Nat) :
    (∃ s' m' tag', saveAndReload Disk.single load cells (.soundAt syncs sizes bytes pos) m tag =
      some (s', m', tag') ∧ SameTags m tag m' tag') ↔
    (tag.entries m).length ≤ 99 ∧ tag.size.toNat ≤ 769 := by
  obtain ⟨items, table⟩ := t.table
  obtain ⟨goes, ends⟩ := saveAndReload_spec syncs sizes cells load t bytes pos
  constructor
  · rintro ⟨s', m', tag', reloaded, -, lookups⟩
    obtain ⟨⟨few, -⟩, loaded⟩ := ends s' m' tag' reloaded
    obtain ⟨items', table'⟩ := loaded.table
    refine ⟨by omega, ?_⟩
    by_contra large
    obtain ⟨key, hkey, free, free'⟩ := exists_unused tag tag'
    -- the bucket 769 is there before and not after
    have before : (tag.lookup m key 769).isSome = true :=
      (table.lookup_isSome hkey free).mpr (Nat.not_le.mp large)
    obtain ⟨found, before⟩ := Option.isSome_iff_exists.mp before
    have after : (tag'.lookup m' key 769).isSome = true := by
      rw [lookups key 769 found hkey free free' before]
      rfl
    have inside := (table'.lookup_isSome hkey free').mp after
    rw [loaded.size] at inside
    exact absurd inside (by decide)
  · rintro ⟨few, small⟩
    have fit : Fits 0 (tag.entries m) := by
      refine ⟨by omega, ?_⟩
      intro e member
      exact Nat.lt_of_lt_of_le (table.inside member) small
    obtain ⟨⟨s', m', tag'⟩, reloaded⟩ := Option.isSome_iff_exists.mp (goes fit)
    obtain ⟨-, loaded⟩ := ends s' m' tag' reloaded
    obtain ⟨items', table'⟩ := loaded.table
    refine ⟨s', m', tag', reloaded, loaded.entries, ?_⟩
    intro key k found hkey free free' before
    have inside := (table.lookup_isSome hkey free).mp (Option.isSome_of_eq_some before)
    have after : (tag'.lookup m' key k).isSome = true := by
      rw [table'.lookup_isSome hkey free', loaded.size]
      exact Nat.lt_of_lt_of_le inside small
    obtain ⟨found', after⟩ := Option.isSome_iff_exists.mp after
    have agree (x : Tag) : found' = some x ↔ found = some x := by
      have old : tag.lookup m key k = some (some x) ↔ k ≠ 0 ∧ (k, x) ∈ tag.entries m :=
        table.lookup_eq_some hkey free
      have new : tag'.lookup m' key k = some (some x) ↔ k ≠ 0 ∧ (k, x) ∈ tag'.entries m' :=
        table'.lookup_eq_some hkey free'
      rw [before, Option.some_inj] at old
      rw [after, Option.some_inj, loaded.entries.mem_iff, ← old] at new
      exact new
    rw [after, Option.ext agree]

end
/-- Each cell holds its own address. -/
def numbered : Mem := { Mem.blank with int := BitVec.ofNat 32 }

/-- A map of 769 buckets with the pages 1 to `n`. -/
def firstPages (n : Nat) : Hashmap where
  items := some ((List.range 769).map fun i => if 0 < i ∧ i ≤ n then [⟨i, i⟩] else [])
  count := BitVec.ofNat 32 n
  size := 769
  overloaded := fun _ _ => false
  hash_step := 13

theorem firstPages_table (n : Nat)
    (counted : (firstPages n).count.toNat = (firstPages n).nodes.length) :
    TagTable numbered (firstPages n) := by
  refine ⟨⟨_, rfl, ?_, ?_, ?_⟩, counted⟩
  · rw [List.length_map, List.length_range]
    rfl
  · intro k list there
    rw [List.getElem?_map, Option.map_eq_some_iff] at there
    obtain ⟨i, at_, rfl⟩ := there
    obtain ⟨inside, rfl⟩ := List.getElem?_eq_some_iff.mp at_
    rw [List.getElem_range]
    split_ifs
    · exact .node (BitVec.eq_of_toNat_eq (Nat.mod_eq_of_lt k.isLt))
    · exact .empty
  · intro list member item inside
    obtain ⟨i, -, rfl⟩ := List.mem_map.mp member
    split_ifs at inside with page
    · rw [List.mem_singleton.mp inside]
      exact Nat.ne_of_gt page.1
    · exact absurd inside List.not_mem_nil

/-- Blocks at the even addresses. -/
def Mallocs.even : Mallocs where
  tmp_pageno i := 2 * i + 2
  tmp_tag i := 2 * i + 2
  pageno_apart i j same := by
    have even : 2 * i + 2 = 2 * j + 2 := same
    omega
  tag_apart i j same := by
    have even : 2 * i + 2 = 2 * j + 2 := same
    omega
  notNull i := ⟨Nat.succ_ne_zero _, Nat.succ_ne_zero _⟩

/-- Overloaded when there are more nodes than buckets. -/
def LoadFactorOne.exact : LoadFactorOne :=
  ⟨fun count size => size < count, fun _ _ le => decide_eq_false (BitVec.not_lt.mpr le)⟩

theorem three_tags_survive_reload :
    ∃ s' m' tag', saveAndReload Disk.single .exact .even (.sound [] [] []) numbered (firstPages 3) =
      some (s', m', tag') ∧ SameTags numbered (firstPages 3) m' tag' :=
  (tags_survive_reload_iff [] [] .even .exact (firstPages_table 3 (by decide +kernel)) [] 0).mpr
    ⟨by decide +kernel, by decide⟩

/-- With a hundred entries `createMap` writes past the end of `tmp_pageno`. -/
theorem hundred_tags_overrun_the_arrays :
    TagTable numbered (firstPages 100) ∧
      ¬ ∃ s' m' tag', saveAndReload Disk.single .exact .even (.sound [] [] []) numbered
        (firstPages 100) = some (s', m', tag') ∧ SameTags numbered (firstPages 100) m' tag' := by
  have t := firstPages_table 100 (by decide +kernel)
  refine ⟨t, ?_⟩
  rintro ⟨s', m', tag', reloaded, -⟩
  obtain ⟨⟨few, -⟩, -⟩ := (saveAndReload_spec [] [] .even .exact t [] 0).2 s' m' tag' reloaded
  exact absurd few (by decide +kernel)

end TeeSqlite
