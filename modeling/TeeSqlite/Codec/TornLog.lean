import TeeSqlite.Vfs.InOrder
import TeeSqlite.Codec.LoadTags

/-! A crash while the tags are saved: what `closeMap` has then left in `/tmp/mac.log`, and
what `createMap` makes of it. -/
namespace TeeSqlite
open ByteFile CTypes

/-- What the entries are written as: a page number and a tag in turn. -/
def pieces (es : List (BitVec 32 × Tag)) : List Bytes := es.flatMap fun e => [intBytes e.1, e.2.1]

theorem pieces_cons (e : BitVec 32 × Tag) (es : List (BitVec 32 × Tag)) :
    pieces (e :: es) = intBytes e.1 :: e.2.1 :: pieces es := rfl

/-- The entry of which `n` pieces leave the page number only. -/
def halfSaved (es : List (BitVec 32 × Tag)) (n : Nat) : Option (BitVec 32 × Tag) :=
  if n % 2 = 1 then es[n / 2]? else none

/-- The first `n` pieces are whole entries, and perhaps one more page number. -/
theorem flatten_take_pieces (es : List (BitVec 32 × Tag)) (n : Nat) :
    ((pieces es).take n).flatten =
      logBytes (es.take (n / 2)) ++ (halfSaved es n).elim [] fun e => intBytes e.1 := by
  induction es generalizing n with
  | nil => simp [pieces, logBytes, halfSaved]
  | cons e es ih =>
    rcases n with _ | _ | n
    · rfl
    · simp [pieces_cons, logBytes, halfSaved]
    · have more : (n + 1 + 1) / 2 = n / 2 + 1 := by omega
      have split : logBytes (e :: es.take (n / 2)) = entryBytes e ++ logBytes (es.take (n / 2)) :=
        List.flatMap_cons
      have half : halfSaved (e :: es) (n + 1 + 1) = halfSaved es n := by
        rw [halfSaved, halfSaved, more, Nat.add_assoc, Nat.add_mod_right, List.getElem?_cons_succ]
      rw [half, more, pieces_cons, List.take_succ_cons, List.take_succ_cons, List.flatten_cons,
        List.flatten_cons, ih, List.take_succ_cons, split, entryBytes, List.append_assoc,
        List.append_assoc]

theorem halfSaved_some {es : List (BitVec 32 × Tag)} {n : Nat} {e : BitVec 32 × Tag}
    (half : halfSaved es n = some e) : es[n / 2]? = some e := by
  rw [halfSaved] at half
  split_ifs at half
  exact half

/-- What is saved of the entries is among them, in their order. -/
theorem saved_sublist (es : List (BitVec 32 × Tag)) (n : Nat) :
    (es.take (n / 2) ++ (halfSaved es n).toList).Sublist es := by
  conv => rhs; rw [← List.take_append_drop (n / 2) es]
  apply List.Sublist.append (List.Sublist.refl _)
  cases half : halfSaved es n with
  | none => exact List.nil_sublist _
  | some e =>
    obtain ⟨inside, same⟩ := List.getElem?_eq_some_iff.mp (halfSaved_some half)
    rw [Option.toList_some, List.singleton_sublist, List.drop_eq_getElem_cons inside, same]
    exact List.mem_cons_self

section
variable {σ : Type} (u : FileCalls σ)

/-- Pieces written one after the other. -/
def writes (fd : Int) (s : σ) (bs : List Bytes) : σ :=
  bs.foldl (fun s b => (u.utee_vfs_write s fd b).1) s

theorem dumpChain_writes (m : Mem) (fd : Int) (list : List Item)
    (present : ∀ item ∈ list, item.value ≠ NULL) (s : σ) :
    dumpChain u m fd s list = some (writes u fd s (pieces (list.map (Item.entry m)))) := by
  induction list generalizing s with
  | nil => rfl
  | cons item list ih =>
    have value := present item List.mem_cons_self
    rw [dumpChain, if_neg value]
    exact ih (fun x hx => present x (List.mem_cons_of_mem item hx)) _

theorem dumpLoop_writes {m : Mem} {tag : Hashmap} {items : List (List Item)}
    (t : Table m tag items) (fd : Int) (n i : Nat) (left : i + n = items.length) (s : σ) :
    dumpLoop u m tag fd n i s =
      some (writes u fd s (pieces ((items.drop i).flatten.map (Item.entry m)))) := by
  induction n generalizing i s with
  | zero =>
    rw [dumpLoop, List.drop_eq_nil_of_le (by omega)]
    rfl
  | succ n ih =>
    have inside : i < items.length := by omega
    have there : items[i]? = some items[i] := List.getElem?_eq_getElem inside
    have chain := dumpChain_writes u m fd items[i] (t.present _ (List.getElem_mem inside)) s
    simp only [dumpLoop, t.array, Option.bind_some, there, chain]
    rw [ih (i + 1) (by omega), List.drop_eq_getElem_cons inside, List.flatten_cons,
      List.map_append, pieces, pieces, pieces, List.flatMap_append, writes, writes, writes,
      List.foldl_append]

/-- `hm_dump` writes each entry's page number and tag, and nothing else. -/
theorem hm_dump_writes {m : Mem} {tag : Hashmap} (t : TagTable m tag) (fd : Int) (s : σ) :
    hm_dump u s m tag fd = some (writes u fd s (pieces (tag.entries m))) := by
  obtain ⟨items, table⟩ := t.table
  rw [hm_dump]
  split
  · rename_i empty
    have none : tag.nodes = [] := by
      rw [← List.length_eq_zero_iff, ← t.counted, empty]
      rfl
    rw [Hashmap.entries, none]
    rfl
  · have all := dumpLoop_writes u table fd tag.size.toNat 0
      (by rw [Nat.zero_add, table.length]) s
    rwa [List.drop_zero, ← table.nodes] at all

end

/-- All the system calls on a machine that makes so many more of them and then stops. -/
def Utee.crashing {σ : Type} (u : Utee σ) : Utee (σ × Nat) where
  toFileCalls := u.toFileCalls.crashing
  utee_vfs_open s path flags mode := beforeCrash (-1) (u.utee_vfs_open · path flags mode) s
  utee_vfs_unlink s name errno := beforeCrash (-1, errno) (u.utee_vfs_unlink · name errno) s
  utee_vfs_access s name mode := beforeCrash (-1) (u.utee_vfs_access · name mode) s
  utee_vfs_getcwd s buf := beforeCrash (false, buf) (u.utee_vfs_getcwd · buf) s

section
variable (syncs : List Int) (sizes : List Bool)

theorem writes_stopped (d : Disk) (fd : Int) (bs : List Bytes) :
    writes Disk.calls.crashing fd (d, 0) bs = (d, 0) := by
  induction bs with
  | nil => rfl
  | cons b bs ih => exact ih

/-- Pieces appended to a log, of which a crash cuts off the last. -/
theorem writes_crashing (fd : Int) (bs : List Bytes) (bytes : Bytes) (left : Nat) :
    writes Disk.calls.crashing fd (.soundAt syncs sizes bytes bytes.length, left) bs =
      (.soundAt syncs sizes (bytes ++ (bs.take left).flatten)
        (bytes ++ (bs.take left).flatten).length, left - bs.length) := by
  induction bs generalizing bytes left with
  | nil => simp [writes]
  | cons b bs ih =>
    cases left with
    | zero =>
      rw [writes_stopped, List.take_zero, List.flatten_nil, List.append_nil, Nat.zero_sub]
    | succ left =>
      have wrote : Disk.calls.crashing.utee_vfs_write
          (.soundAt syncs sizes bytes bytes.length, left + 1) fd b =
            ((.soundAt syncs sizes (bytes ++ b) (bytes ++ b).length, left), (b.length : Int)) := by
        have one := Disk.soundAt_write syncs sizes bytes b
        simp only [FileCalls.crashing, beforeCrash, Disk.calls, one]
      rw [writes, List.foldl_cons, wrote, List.take_succ_cons, List.flatten_cons,
        ← List.append_assoc, List.length_cons, Nat.add_sub_add_right]
      exact ih (bytes ++ b) left

/-- The log after a crash in `closeMap`, behind its `open`. -/
theorem closeMap_crashing {m : Mem} {tag : Hashmap} (t : TagTable m tag) (bytes : Bytes)
    (pos left : Nat) : ∃ pos' left' m',
      closeMap Disk.single.crashing (.soundAt syncs sizes bytes pos, left + 1) m tag =
        some ((.soundAt syncs sizes ((pieces (tag.entries m)).take left).flatten pos', left'),
          m') := by
  obtain ⟨items, table⟩ := t.table
  have opened : Disk.single.crashing.utee_vfs_open (.soundAt syncs sizes bytes pos, left + 1)
      macLog (O_RDWR ||| O_TRUNC) 0o777 =
        ((.soundAt syncs sizes [] ([] : Bytes).length, left), 3) := rfl
  have wrote : hm_dump Disk.single.crashing.toFileCalls
      (.soundAt syncs sizes [] ([] : Bytes).length, left) m tag 3 = _ :=
    hm_dump_writes Disk.calls.crashing t 3 _
  rw [writes_crashing, List.nil_append] at wrote
  have deleted : ∃ m', hm_delete m tag = some m' := by
    rw [hm_delete, hm_clear, table.array]
    exact ⟨_, rfl⟩
  obtain ⟨m', deleted⟩ := deleted
  generalize left - (pieces (tag.entries m)).length = rest at wrote
  simp only [closeMap, opened, wrote, deleted, Option.map_some]
  cases rest with
  | zero => exact ⟨_, _, _, rfl⟩
  | succ rest => exact ⟨_, _, _, rfl⟩

end

section
variable (syncs : List Int) (sizes : List Bool) (fdr : Int) (cells : Mallocs) (m : Mem)

theorem keyRead_soundAt {B got : Bytes} {i : Nat} (there : ByteFile.read B (i * 20) 4 = got) :
    keyRead Disk.single fdr cells m i (.soundAt syncs sizes B (i * 20)) =
      (.soundAt syncs sizes B (i * 20 + got.length),
        ⟨4, got.length, splice (intBytes (m.int (cells.tmp_pageno i))) 0 got⟩) := by
  simp only [keyRead, Disk.single, Disk.calls, Disk.soundAt_read, there]

theorem tagRead_soundAt {B got : Bytes} {i : Nat} (pos : Nat)
    (there : ByteFile.read B (i * 20 + 4) 16 = got) :
    tagRead Disk.single fdr cells m i (.soundAt syncs sizes B pos) =
      (.soundAt syncs sizes B ((i + 1) * 20),
        ⟨16, got.length, splice (m.mac (cells.tmp_tag i)).1 0 got⟩) := by
  have place : (i + 1) * 4 + i * 16 = i * 20 + 4 := by omega
  have next : (i + 1) * 4 + (i + 1) * 16 = (i + 1) * 20 := by omega
  simp only [tagRead, Disk.single, Disk.calls, Disk.soundAt_lseek, Disk.soundAt_read, place, next,
    there]

/-- A pass over a page number, with what follows it for its tag. -/
theorem createLoop_record {B got : Bytes} {i : Nat} {k : BitVec 32} {m' : Mem}
    {tag tag' : Hashmap} (number : ByteFile.read B (i * 20) 4 = intBytes k)
    (mac : ByteFile.read B (i * 20 + 4) 16 = got)
    (set : hm_set .succeed ((m.setInt (cells.tmp_pageno i) k).setMac (cells.tmp_tag i)
      (toTag (splice (m.mac (cells.tmp_tag i)).1 0 got))) tag (cells.tmp_pageno i)
      (cells.tmp_tag i) = some (m', tag', 1)) (room : i + 1 < 100) (n : Nat) :
    createLoop Disk.single cells fdr (n + 1) i (.soundAt syncs sizes B (i * 20)) m tag =
      createLoop Disk.single cells fdr n (i + 1) (.soundAt syncs sizes B ((i + 1) * 20)) m'
        tag' := by
  have some4 : ¬ ((4 : Nat) : Int) = 0 := by decide
  have whole : splice (intBytes (m.int (cells.tmp_pageno i))) 0 (intBytes k) = intBytes k :=
    splice_zero _ _ (by rw [length_intBytes, length_intBytes])
  rw [createLoop_pass, keyRead_soundAt syncs sizes fdr cells m number]
  simp only [tagRead_soundAt syncs sizes fdr cells m _ mac, length_intBytes, some4, whole,
    ofIntBytes_intBytes, set, room, ↓reduceIte]

/-- Past the end the loop ends, and nothing has changed. -/
theorem createLoop_past {B : Bytes} {i : Nat} (past : B.length ≤ i * 20) (n : Nat)
    (tag : Hashmap) : ∃ s,
      createLoop Disk.single cells fdr n i (.soundAt syncs sizes B (i * 20)) m tag =
        some (s, m, tag) := by
  have nothing : ByteFile.read B (i * 20) 4 = [] := by
    rw [ByteFile.read, List.drop_eq_nil_of_le past, List.take_nil]
  have kept : m.setInt (cells.tmp_pageno i)
      (ofIntBytes (splice (intBytes (m.int (cells.tmp_pageno i))) 0 [])) = m := by
    have same : splice (intBytes (m.int (cells.tmp_pageno i))) 0 [] =
        intBytes (m.int (cells.tmp_pageno i)) := splice_start _ _
    rw [same, ofIntBytes_intBytes]
    exact Mem.setInt_self rfl
  rw [createLoop_pass, keyRead_soundAt syncs sizes fdr cells m nothing]
  dsimp only
  rw [if_pos (show ((([] : Bytes).length : Nat) : Int) = 0 from rfl), kept]
  exact ⟨_, rfl⟩

variable {cells} {load : LoadFactorOne}

/-- A record whose page is new goes into the map, and the other blocks for tags stay as
they are. -/
theorem Loaded.pass {before : List (BitVec 32 × Tag)} {m : Mem} {tag : Hashmap}
    (loaded : Loaded cells m tag before) (factor : tag.overloaded = load.1)
    (room : before.length + 1 < 100) {B got : Bytes} {k : BitVec 32}
    (new : k ∉ before.map Prod.fst) (inside : k.toNat < 769)
    (number : ByteFile.read B (before.length * 20) 4 = intBytes k)
    (mac : ByteFile.read B (before.length * 20 + 4) 16 = got) (n : Nat) :
    ∃ m' tag', createLoop Disk.single cells fdr (n + 1) before.length
        (.soundAt syncs sizes B (before.length * 20)) m tag =
          createLoop Disk.single cells fdr n (before.length + 1)
            (.soundAt syncs sizes B ((before.length + 1) * 20)) m' tag' ∧
      tag'.overloaded = load.1 ∧
      Loaded cells m' tag' (before ++
        [(k, toTag (splice (m.mac (cells.tmp_tag before.length)).1 0 got))]) ∧
      ∀ j, j ≠ before.length → m'.mac (cells.tmp_tag j) = m.mac (cells.tmp_tag j) := by
  obtain ⟨tag', set, factor', loaded'⟩ := loaded.add cells
    (t := toTag (splice (m.mac (cells.tmp_tag before.length)).1 0 got)) (by omega) new inside factor
  refine ⟨_, tag', createLoop_record syncs sizes fdr cells m number mac set room n, factor',
    loaded', fun j other => ?_⟩
  rw [Mem.setMac_mac, if_neg fun same => other (cells.tag_apart same), Mem.setInt_mac]

/-- The loop over a log whose end is missing: all whole entries are loaded, and the page
number behind them with what is in the block for its tag. -/
theorem createLoop_torn (half : Option (BitVec 32 × Tag)) (rest : List (BitVec 32 × Tag)) :
    ∀ (before : List (BitVec 32 × Tag)) (n : Nat) (m : Mem) (tag : Hashmap),
      Loaded cells m tag before → tag.overloaded = load.1 →
      ((before ++ (rest ++ half.toList)).map Prod.fst).Nodup →
      Fits before.length (rest ++ half.toList) → n + before.length = 20000 →
      ∃ s' m' tag', createLoop Disk.single cells fdr n before.length
        (.soundAt syncs sizes (logBytes (before ++ rest) ++ half.elim [] fun e => intBytes e.1)
          (before.length * 20)) m tag = some (s', m', tag') ∧
        Loaded cells m' tag' (before ++ (rest ++ half.toList.map fun e =>
          (e.1, m.mac (cells.tmp_tag (before.length + rest.length))))) := by
  have first {before after : List (BitVec 32 × Tag)} {e : BitVec 32 × Tag}
      (distinct : ((before ++ e :: after).map Prod.fst).Nodup) : e.1 ∉ before.map Prod.fst := by
    rw [List.map_append, List.map_cons, List.nodup_append] at distinct
    intro older
    exact distinct.2.2 e.1 older e.1 List.mem_cons_self rfl
  induction rest with
  | nil =>
    intro before n m tag loaded factor distinct fit passes
    rw [List.append_nil]
    cases half with
    | none =>
      obtain ⟨s', ended⟩ := createLoop_past syncs sizes fdr cells m
        (show (logBytes before ++ []).length ≤ before.length * 20 by simp) n tag
      exact ⟨s', m, tag, ended, by simpa using loaded⟩
    | some e =>
      obtain ⟨inside, few, -⟩ := fits_cons.mp fit
      obtain ⟨n, rfl⟩ : ∃ n', n = n' + 1 := ⟨n - 1, by omega⟩
      have number : ByteFile.read (logBytes before ++ intBytes e.1) (before.length * 20) 4 =
          intBytes e.1 := by
        have middle := read_middle (logBytes before) (intBytes e.1) [] (length_logBytes before)
          (length_intBytes e.1)
        rwa [List.append_nil] at middle
      have mac : ByteFile.read (logBytes before ++ intBytes e.1) (before.length * 20 + 4) 16 =
          [] := by
        rw [ByteFile.read, List.drop_eq_nil_of_le (by simp), List.take_nil]
      obtain ⟨m', tag', loop, -, loaded', -⟩ := loaded.pass syncs sizes fdr factor
        (Nat.lt_succ_of_le few) (first distinct) inside number mac n
      obtain ⟨s', ended⟩ := createLoop_past syncs sizes fdr cells m' (show
        (logBytes before ++ intBytes e.1).length ≤ (before.length + 1) * 20 by simp; omega) n tag'
      have stale : splice (m.mac (cells.tmp_tag before.length)).1 0 [] =
          (m.mac (cells.tmp_tag before.length)).1 := splice_start _ _
      rw [stale, toTag_val] at loaded'
      exact ⟨s', m', tag', loop.trans ended, loaded'⟩
  | cons e rest ih =>
    intro before n m tag loaded factor distinct fit passes
    obtain ⟨inside, fit'⟩ := fits_cons.mp fit
    have room : before.length + 1 < 100 := by
      have few := fit'.1
      omega
    obtain ⟨n, rfl⟩ : ∃ n', n = n' + 1 := ⟨n - 1, by omega⟩
    generalize hB : logBytes (before ++ e :: rest) ++
      (half.elim [] fun e => intBytes e.1 : Bytes) = B
    have split : B = logBytes before ++ (intBytes e.1 ++ (e.2.1 ++ (logBytes rest ++
        half.elim [] fun e => intBytes e.1))) := by
      rw [← hB, logBytes, List.flatMap_append, List.flatMap_cons, entryBytes]
      simp only [List.append_assoc]
      rfl
    have number : ByteFile.read B (before.length * 20) 4 = intBytes e.1 := by
      rw [split]
      exact read_middle _ _ _ (length_logBytes before) (length_intBytes e.1)
    have mac : ByteFile.read B (before.length * 20 + 4) 16 = e.2.1 := by
      rw [split, ← List.append_assoc]
      refine read_middle _ _ _ ?_ e.2.2
      rw [List.length_append, length_logBytes, length_intBytes]
    obtain ⟨m', tag', loop, factor', loaded', kept⟩ :=
      loaded.pass syncs sizes fdr factor room (first distinct) inside number mac n
    have tagged : splice (m.mac (cells.tmp_tag before.length)).1 0 e.2.1 = e.2.1 :=
      splice_zero _ _ (e.2.2.trans (m.mac _).2.symm)
    rw [tagged, toTag_val] at loaded'
    have length : before.length + 1 = (before ++ [e]).length := by
      rw [List.length_append, List.length_singleton]
    have whole (after : List (BitVec 32 × Tag)) :
        before ++ e :: after = (before ++ [e]) ++ after := by
      rw [List.append_assoc, List.singleton_append]
    rw [List.cons_append, whole] at distinct
    rw [length] at fit'
    obtain ⟨s', m'', tag'', ends, all⟩ :=
      ih (before ++ [e]) n m' tag' loaded' factor' distinct fit' (by omega)
    have later : before.length + 1 + rest.length = before.length + (e :: rest).length := by
      rw [List.length_cons]
      omega
    rw [← whole, hB, ← length] at ends
    rw [← length, later, kept _ (by rw [List.length_cons]; omega)] at all
    exact ⟨s', m'', tag'', loop.trans ends, by rwa [List.cons_append, whole]⟩

end

section
variable (load : LoadFactorOne) (cells : Mallocs)

/-- The machine stops after so many system calls of `closeMap`, and the TA is entered again,
with any memory. -/
def crashAndReload (s : Disk) (left : Nat) (m : Mem) (tag : Hashmap) (m₁ : Mem) :
    Option (Disk × Mem × Hashmap) :=
  match closeMap Disk.single.crashing (s, left) m tag with
  | none => none
  | some ((s, _), _) => createMap Disk.single load cells s m₁

variable {m : Mem} {tag : Hashmap}

theorem Loaded.created (m : Mem) : ∃ new, hm_create .succeed 500 load.1 13 = some new ∧
    new.overloaded = load.1 ∧ Loaded cells m new [] := by
  obtain ⟨new, created, factor, size, count⟩ : ∃ new, hm_create .succeed 500 load.1 13 = some new ∧
      new.overloaded = load.1 ∧ new.size = 769 ∧ new.count = 0 := ⟨_, rfl, rfl, rfl, rfl⟩
  have empty := Table.created m created
  have none : new.nodes = [] := by
    rw [empty.nodes]
    simp
  refine ⟨new, created, factor, ⟨_, empty⟩, size, count, ?_, ?_⟩
  · rw [Hashmap.entries, none]
    exact List.Perm.nil
  · intro item member
    rw [none] at member
    exact absurd member List.not_mem_nil

theorem Fits.sublist {n : Nat} {es es' : List (BitVec 32 × Tag)} (fit : Fits n es)
    (sub : es'.Sublist es) : Fits n es' := by
  have shorter := sub.length_le
  have few := fit.1
  exact ⟨by omega, fun e member => fit.2 e (sub.mem member)⟩

theorem crashAndReload_loaded (t : TagTable m tag) (fit : Fits 0 (tag.entries m))
    (syncs : List Int) (sizes : List Bool) (bytes : Bytes) (pos left : Nat) (m₁ : Mem) :
    ∃ s' m' tag', crashAndReload load cells (.soundAt syncs sizes bytes pos) (left + 1) m tag m₁ =
        some (s', m', tag') ∧
      Loaded cells m' tag' ((tag.entries m).take (left / 2) ++
        (halfSaved (tag.entries m) left).toList.map fun e =>
          (e.1, m₁.mac (cells.tmp_tag (left / 2)))) := by
  obtain ⟨items, table⟩ := t.table
  obtain ⟨pos', left', m₂, closed⟩ := closeMap_crashing syncs sizes t bytes pos left
  rw [flatten_take_pieces] at closed
  obtain ⟨new, created, factor, start⟩ := Loaded.created load cells m₁
  have sub := saved_sublist (tag.entries m) left
  obtain ⟨s', m', tag', loop, loaded⟩ := createLoop_torn syncs sizes 3
    (halfSaved (tag.entries m) left) ((tag.entries m).take (left / 2)) [] 20000 m₁ new start factor
    (table.distinct.sublist (sub.map Prod.fst)) (fit.sublist sub) rfl
  refine ⟨(Disk.single.utee_vfs_close s' 3).1, m', tag', ?_, ?_⟩
  · have opened (B : Bytes) : Disk.single.utee_vfs_open (.soundAt syncs sizes B pos') macLog
        (O_RDWR ||| O_CREAT) 0o777 = (.soundAt syncs sizes B 0, 3) := rfl
    rw [crashAndReload, closed]
    simp only [createMap, opened, created]
    rw [List.nil_append, List.length_nil, Nat.zero_mul] at loop
    rw [loop]
    rfl
  · cases half : halfSaved (tag.entries m) left with
    | none =>
      rw [half] at loaded
      exact loaded
    | some e =>
      obtain ⟨inside, -⟩ := List.getElem?_eq_some_iff.mp (halfSaved_some half)
      have length : ((tag.entries m).take (left / 2)).length = left / 2 := by
        rw [List.length_take]
        omega
      rw [half, length, List.length_nil, Nat.zero_add] at loaded
      exact loaded

/-- **A crash while the tags are saved.** Wherever the machine stops behind the `open` of
`closeMap`, the TA comes up with the tags of the first so many entries; and when the last
thing written was a page number, that page has for its tag what was in memory before. -/
theorem crashed_save_keeps_first_tags (t : TagTable m tag) (fit : Fits 0 (tag.entries m))
    (syncs : List Int) (sizes : List Bool) (bytes : Bytes) (pos left : Nat) (m₁ : Mem) :
    ∃ s' m' tag', crashAndReload load cells (.soundAt syncs sizes bytes pos) (left + 1) m tag m₁ =
        some (s', m', tag') ∧
      (tag'.entries m').Perm ((tag.entries m).take (left / 2) ++
        (halfSaved (tag.entries m) left).toList.map fun e =>
          (e.1, m₁.mac (cells.tmp_tag (left / 2)))) := by
  obtain ⟨s', m', tag', reloaded, loaded⟩ :=
    crashAndReload_loaded load cells t fit syncs sizes bytes pos left m₁
  exact ⟨s', m', tag', reloaded, loaded.entries⟩

end

/-- Memory in which no tag is zero. -/
def unclean : Mem := { Mem.blank with mac := fun _ => toTag (List.replicate 16 1) }

/-- The machine stops behind the number of the second of three pages. -/
theorem crash_keeps_first_of_three : ∃ s' m' tag',
    crashAndReload .exact .even (.soundAt [] [] [] 0) 4 numbered (firstPages 3) unclean =
      some (s', m', tag') ∧
    (tag'.entries m').Perm [(1, Tag.zero), (2, toTag (List.replicate 16 1))] := by
  have entries : (firstPages 3).entries numbered =
      [(1, Tag.zero), (2, Tag.zero), (3, Tag.zero)] := by decide +kernel
  have fit : Fits 0 ((firstPages 3).entries numbered) := by
    rw [entries]
    exact ⟨by decide, by decide⟩
  obtain ⟨s', m', tag', reloaded, kept⟩ := crashed_save_keeps_first_tags .exact .even
    (firstPages_table 3 (by decide +kernel)) fit [] [] [] 0 3 unclean
  rw [entries] at kept
  exact ⟨s', m', tag', reloaded, kept⟩

end TeeSqlite
