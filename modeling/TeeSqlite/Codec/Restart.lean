import TeeSqlite.Codec.TornLog
import TeeSqlite.Codec.HostedPages

/-! A database over a restart of the TA: its pages stay in the file, its tags go through
`/tmp/mac.log`. -/
namespace TeeSqlite
open ByteFile CTypes AuthEnc Runs

/-- What `hm_get` finds for a page. -/
def Answers (m : Mem) (tag : Hashmap) (page : BitVec 32) (found : Option Tag) : Prop :=
  ∀ key, key ≠ NULL → tag.Unused key → tag.lookup m key page = some found

theorem Table.answers_iff {m : Mem} {tag : Hashmap} {items : List (List Item)}
    (table : Table m tag items) {page : BitVec 32} {found : Tag} :
    Answers m tag page (some found) ↔ page ≠ 0 ∧ (page, found) ∈ tag.entries m := by
  constructor
  · intro answers
    obtain ⟨key, hkey, free, -⟩ := exists_unused tag tag
    exact (table.lookup_eq_some hkey free).mp (answers key hkey free)
  · intro there key hkey free
    exact (table.lookup_eq_some hkey free).mpr there

/-- The bucket of a page inside the map has one answer. -/
theorem Table.exists_answers {m : Mem} {tag : Hashmap} {items : List (List Item)}
    (table : Table m tag items) {page : BitVec 32} (inside : page.toNat < tag.size.toNat) :
    ∃ found, Answers m tag page found := by
  obtain ⟨key, hkey, free, -⟩ := exists_unused tag tag
  obtain ⟨found, same⟩ :=
    Option.isSome_iff_exists.mp ((table.lookup_isSome hkey free).mpr inside)
  refine ⟨found, fun key' hkey' free' => ?_⟩
  rw [table.lookup_eq hkey free] at same
  rw [table.lookup_eq hkey' free', same]

/-- The database as it is opened again: the same file, a new handle on it, a codec with the
same key, and the tags that were loaded. -/
structure Reopened (key : Key) (db db' : PageFile Disk) (m : Mem) (tag : Hashmap) : Prop where
  codec : InUse key db'.codec
  btree : db'.codec.m_bt = db.codec.m_bt
  direct : db'.file.Direct
  storage : ∃ pos syncs sizes, db'.storage = soundAt db.storage.bytes pos syncs sizes
  tags : ∀ page, page.toNat < tag.size.toNat → Answers m tag page (db'.world.tag page)

/-- The pages that have an entry. -/
def Pages.savedIn (pages : Pages) (es : List (BitVec 32 × Tag)) : Pages :=
  fun page => if page ∈ es.map Prod.fst then pages page else none

theorem Pages.savedIn_some {pages : Pages} {es : List (BitVec 32 × Tag)} {page : BitVec 32}
    {data : Bytes} (there : pages.savedIn es page = some data) :
    page ∈ es.map Prod.fst ∧ pages page = some data := by
  rw [savedIn] at there
  split_ifs at there with saved
  exact ⟨saved, there⟩

section
variable {ae : PageAE} {key : Key} {bt : Btree} {pages : Pages} {db db' : PageFile Disk}
  {m m' : Mem} {tag tag' : Hashmap} {es : List (BitVec 32 × Tag)}

/-- The pages whose tags are loaded again are there again. -/
theorem HasPages.reopened (has : HasPages ae key bt pages db) (cells : Mallocs)
    {items : List (List Item)} (table : Table m tag items)
    (holds : ∀ page, (pages page).isSome → Answers m tag page (db.world.tag page))
    {torn : List (BitVec 32 × Tag)} (part : es.Sublist (tag.entries m))
    (loaded : Loaded cells m' tag' (es ++ torn)) (fit : Fits 0 (tag.entries m))
    (opened : Reopened key db db' m' tag') :
    HasPages ae key bt (pages.savedIn es) db' := by
  obtain ⟨items', table'⟩ := loaded.table
  obtain ⟨f, pos, syncs, sizes, disk, places⟩ := has.disk
  obtain ⟨pos', syncs', sizes', disk'⟩ := opened.storage
  have file : db.storage.bytes = f := congrArg Disk.bytes disk
  rw [file] at disk'
  refine ⟨opened.codec, opened.btree.trans has.btree, opened.direct,
    ⟨f, pos', syncs', sizes', disk', fun page data there => ?_⟩, fun page data there => ?_⟩
  · exact places page data (Pages.savedIn_some there).2
  · obtain ⟨saved, current⟩ := Pages.savedIn_some there
    obtain ⟨valid, slot⟩ := has.held page data current
    refine ⟨valid, ?_⟩
    have before := holds page (by rw [current]; rfl)
    rw [slot, table.answers_iff] at before
    -- the one entry of the page is among those that were saved
    obtain ⟨⟨n, found⟩, kept, same⟩ := List.mem_map.mp saved
    obtain rfl : n = page := same
    have one := table.entry_unique (part.mem kept) before.2
    subst one
    have again := table'.answers_iff.mpr
      ⟨before.1, loaded.entries.mem_iff.mpr (List.mem_append_left torn kept)⟩
    have inside : n.toNat < tag'.size.toNat := by
      rw [loaded.size]
      exact fit.2 _ (part.mem kept)
    obtain ⟨cell, hcell, free, -⟩ := exists_unused tag' tag'
    exact Option.some.inj ((opened.tags n inside cell hcell free).symm.trans
      (again cell hcell free))

theorem HasPages.exists_reopened (has : HasPages ae key bt pages db) {items : List (List Item)}
    (table : Table m tag items) : ∃ db', Reopened key db db' m tag := by
  have answered (page : BitVec 32) :
      ∃ found, page.toNat < tag.size.toNat → Answers m tag page found := by
    by_cases inside : page.toNat < tag.size.toNat
    · obtain ⟨found, answers⟩ := table.exists_answers inside
      exact ⟨found, fun _ => answers⟩
    · exact ⟨none, fun within => absurd within inside⟩
  choose tags answers using answered
  obtain ⟨f, pos, syncs, sizes, disk, -⟩ := has.disk
  refine ⟨⟨{ db.world with tag := tags }, db.codec, db.storage, db.file⟩, has.codec, rfl,
    has.direct, ⟨pos, syncs, sizes, ?_⟩, answers⟩
  rw [disk]

/-- **A restart.** After any run of a database, let the machine stop anywhere behind the
`open` of `closeMap`: the TA comes up, and the database goes on, call by call, as the store
of the pages whose tags were saved. Nothing in the TA tells the file and the log from newer
ones, so that it goes on from old copies of both in the same way. -/
theorem database_survives_restart {db₀ : PageFile Disk} (one : InUse key db₀.codec)
    (direct : db₀.file.Direct)
    (sound : ∃ f pos syncs sizes, db₀.storage = soundAt f pos syncs sizes)
    {h : List (PageCall × PageReply)}
    (store : Run (storeStep ae key) (Pages.Admits db₀.codec.m_bt.pageSize) (fun _ => none) h pages)
    (run : Run (pageStep ae Disk.calls) PageFile.Admits db₀ h db) (t : TagTable m tag)
    (fit : Fits 0 (tag.entries m))
    (holds : ∀ page, (pages page).isSome → Answers m tag page (db.world.tag page))
    (load : LoadFactorOne) (cells : Mallocs) (syncs : List Int) (sizes : List Bool)
    (log : Bytes) (pos left : Nat) (m₁ : Mem) :
    ∃ s' m' tag', crashAndReload load cells (.soundAt syncs sizes log pos) (left + 1) m tag m₁ =
        some (s', m', tag') ∧
      (∃ db', Reopened key db db' m' tag') ∧
      ∀ db', Reopened key db db' m' tag' → ∀ h' pages',
        Run (storeStep ae key) (Pages.Admits db₀.codec.m_bt.pageSize)
          (pages.savedIn ((tag.entries m).take (left / 2))) h' pages' →
        ∃ db'', Run (pageStep ae Disk.calls) PageFile.Admits db' h' db'' := by
  obtain ⟨db₁, run₁, has⟩ := page_file_refines_store one direct sound store
  obtain ⟨-, rfl⟩ := run.unique run₁ rfl
  obtain ⟨items, table⟩ := t.table
  obtain ⟨s', m', tag', reloaded, loaded⟩ :=
    crashAndReload_loaded load cells t fit syncs sizes log pos left m₁
  obtain ⟨items', table'⟩ := loaded.table
  refine ⟨s', m', tag', reloaded, has.exists_reopened table', fun db' opened h' pages' store' => ?_⟩
  have again := has.reopened cells table holds (List.take_sublist _ _) loaded fit opened
  obtain ⟨db'', run', -⟩ := again.simulates store'
  exact ⟨db'', run'⟩

end

/-- Memory in which every tag is that of a page of ones. -/
def tagged : Mem := { numbered with mac := fun _ => byteTag 1 }

theorem tagged_table : TagTable tagged (firstPages 2) := by
  obtain ⟨⟨items, table⟩, counted⟩ := firstPages_table 2 (by decide +kernel)
  exact ⟨⟨items, table.congr fun _ _ => rfl⟩, counted⟩

/-- A page is written, its tag is saved, and behind the restart it is loaded. -/
theorem ones_survive_restart : ∃ db db' db'' : PageFile Disk,
    Run (pageStep onesAE Disk.calls) PageFile.Admits (emptyHosted.onDisk OneFile.bytes)
      [(.write .sample 2 ones, ⟨.SQLITE_OK, [], false⟩)] db ∧
    db'.storage.bytes = db.storage.bytes ∧
    Run (pageStep onesAE Disk.calls) PageFile.Admits db'
      [(.load .sample 2 ones, ⟨.SQLITE_OK, ones, true⟩)] db'' := by
  have entries : (firstPages 2).entries tagged = [(1, byteTag 1), (2, byteTag 1)] := by
    decide +kernel
  have fit : Fits 0 ((firstPages 2).entries tagged) := by
    rw [entries]
    exact ⟨by decide, by decide⟩
  have one : InUse Tag.zero (emptyHosted.onDisk OneFile.bytes).codec :=
    ⟨keyed_keyed Tag.zero, rfl, rfl⟩
  have direct : (emptyHosted.onDisk OneFile.bytes).file.Direct := ⟨rfl, rfl⟩
  have write : Pages.Admits 512 (fun _ => none) (.write .sample 2 ones) := fillPage_valid 1
  have store : Run (storeStep onesAE Tag.zero) (Pages.Admits 512) (fun _ => none)
      [(.write .sample 2 ones, ⟨.SQLITE_OK, [], false⟩)] pageTwo := Run.start.next write rfl
  obtain ⟨db, run, has⟩ := page_file_refines_store one direct ⟨_, _, _, _, rfl⟩ store
  have holds (page : BitVec 32) (there : (pageTwo page).isSome) :
      Answers tagged (firstPages 2) page (db.world.tag page) := by
    obtain ⟨items, table⟩ := tagged_table.table
    obtain rfl : page = 2 := by
      by_contra other
      rw [pageTwo, Function.update_of_ne other] at there
      cases there
    rw [(has.held 2 ones pageTwo_two).2]
    refine table.answers_iff.mpr ⟨by decide, ?_⟩
    rw [entries]
    have own : bodyTag onesAE Tag.zero 2 ones = byteTag 1 := by decide +kernel
    rw [own]
    exact List.mem_cons_of_mem _ List.mem_cons_self
  obtain ⟨s', m', tag', -, ⟨db', opened⟩, goes_on⟩ := database_survives_restart one direct
    ⟨_, _, _, _, rfl⟩ store run tagged_table fit holds .exact .even [] [] [] 0 4 Mem.blank
  generalize saved : pageTwo.savedIn (((firstPages 2).entries tagged).take (4 / 2)) = pages
    at goes_on
  have two : pages 2 = some ones := by
    rw [← saved, entries, Pages.savedIn, if_pos (by decide), pageTwo_two]
  have admitted : Pages.Admits 512 pages (.load .sample 2 ones) :=
    ⟨by rw [two]; rfl, List.length_replicate⟩
  have loaded : storeStep onesAE Tag.zero pages (.load .sample 2 ones) =
      some (pages, ⟨.SQLITE_OK, ones, true⟩) := by
    simp only [storeStep, two, Option.map_some]
  obtain ⟨db'', run'⟩ := goes_on db' opened _ _ (Run.start.next admitted loaded)
  obtain ⟨pos, syncs, sizes, same⟩ := opened.storage
  exact ⟨db, db', db'', run, by rw [same], run'⟩

end TeeSqlite
