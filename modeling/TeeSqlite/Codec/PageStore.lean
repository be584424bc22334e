import TeeSqlite.Codec.PageFile
import TeeSqlite.Vfs.Agreement
import TeeSqlite.Vfs.Overlay

/-! A database on a file without faults is a store of pages. -/
namespace TeeSqlite
open ByteFile CTypes AuthEnc Runs

section
variable (ae : PageAE) (key : Key)

/-- The contents of the pages written so far. -/
abbrev Pages := BitVec 32 → Option Bytes

/-- What a pager may rely on: a page is journalled as it is in the file, and only pages of
the file are loaded. -/
def Pages.Admits (pageSize : Nat) (pages : Pages) : PageCall → Prop
  | .write _ page data => ValidPage pageSize page data
  | .journal _ page data => pages page = some data
  | .load _ page zBuf => (pages page).isSome ∧ zBuf.length = pageSize

/-- A store of pages, without a file and with encryption only for the journal. -/
def storeStep (pages : Pages) : PageCall → Option (Pages × PageReply)
  | .write _ page data => some (Function.update pages page data, ⟨.SQLITE_OK, [], false⟩)
  | .journal _ page data => some (pages, ⟨.SQLITE_OK, stored ae key page data, false⟩)
  | .load _ page _ => (pages page).map fun data => (pages, ⟨.SQLITE_OK, data, true⟩)

/-- The file on a disk without faults has every page of the store, encrypted, at its
place, and the tag map has the page's tag. -/
structure HasPages (bt : Btree) (pages : Pages) (db : PageFile Disk) : Prop where
  codec : InUse key db.codec
  btree : db.codec.m_bt = bt
  direct : db.file.aBuffer = none ∧ db.file.nBuffer = 0
  disk : ∃ f pos syncs sizes, db.storage = soundAt f pos syncs sizes ∧
    ∀ page data, pages page = some data →
      (page.toNat - 1) * bt.pageSize + bt.pageSize ≤ f.length ∧
      ByteFile.read f ((page.toNat - 1) * bt.pageSize) bt.pageSize = stored ae key page data
  held : ∀ page data, pages page = some data →
    ValidPage bt.pageSize page data ∧ db.world.tag page = some (bodyTag ae key page data)

variable {ae key} {bt : Btree} {pages : Pages} {db : PageFile Disk}

theorem offsets_apart {n m : BitVec 32} (hn : n ≠ 0) (hm : m ≠ 0) (other : n ≠ m) (size : Nat) :
    (n.toNat - 1) * size + size ≤ (m.toNat - 1) * size ∨
      (m.toNat - 1) * size + size ≤ (n.toNat - 1) * size := by
  have pos : n.toNat ≠ 0 := fun zero => hn (BitVec.eq_of_toNat_eq zero)
  have pos' : m.toNat ≠ 0 := fun zero => hm (BitVec.eq_of_toNat_eq zero)
  have differ : n.toNat ≠ m.toNat := fun same => other (BitVec.eq_of_toNat_eq same)
  rcases Nat.lt_or_gt_of_ne differ with before | behind
  · left
    calc (n.toNat - 1) * size + size = (n.toNat - 1 + 1) * size := (Nat.succ_mul _ _).symm
      _ ≤ (m.toNat - 1) * size := Nat.mul_le_mul_right size (by omega)
  · right
    calc (m.toNat - 1) * size + size = (m.toNat - 1 + 1) * size := (Nat.succ_mul _ _).symm
      _ ≤ (n.toNat - 1) * size := Nat.mul_le_mul_right size (by omega)

theorem directWrite_pages (f : Bytes) (pos : Nat) (syncs : List Int) (sizes : List Bool)
    {p : DemoFile} (direct : p.aBuffer = none) (out : Bytes) (ofst : Nat) :
    ∃ pos', demoWrite Disk.calls (soundAt f pos syncs sizes) p out ofst =
      some (soundAt (ByteFile.write f ofst out) pos' syncs sizes, p, .SQLITE_OK) := by
  obtain ⟨pos', written⟩ := directWrite_sound f pos syncs sizes p out out.length ofst
    (by rw [Int.toNat_natCast, List.take_length]) (Int.natCast_nonneg ofst)
  rw [Int.toNat_natCast, Int.toNat_natCast, List.take_length] at written
  refine ⟨pos', ?_⟩
  simp only [demoWrite, direct, written]

theorem read_pages {f : Bytes} (pos : Nat) (syncs : List Int) (sizes : List Bool)
    {p : DemoFile} (idle : p.nBuffer = 0) {zBuf : Bytes} {ofst : Nat}
    (small : zBuf.length < 2 ^ 31) (there : ofst + zBuf.length ≤ f.length) :
    ∃ pos', demoRead Disk.calls (soundAt f pos syncs sizes) p zBuf zBuf.length ofst =
      (soundAt f pos' syncs sizes, p, .SQLITE_OK, ByteFile.read f ofst zBuf.length) := by
  have len : (ByteFile.read f ofst zBuf.length).length = zBuf.length := by
    rw [ByteFile.read, List.length_take, List.length_drop]
    omega
  have whole : toInt32 zBuf.length = zBuf.length := toInt32_of_fits (by omega) (by omega)
  refine ⟨ofst + (ByteFile.read f ofst zBuf.length).length, ?_⟩
  rw [demoRead, flush_idle Disk.calls _ idle]
  simp only [lseek_sound f pos syncs sizes p.fd (Int.natCast_nonneg ofst), Int.toNat_natCast,
    read_sound, len, whole, splice_zero _ _ len, ne_eq, not_true_eq_false, ↓reduceIte]

theorem HasPages.offset (keeps : HasPages ae key bt pages db) (page : BitVec 32) :
    db.offset page = (page.toNat - 1) * bt.pageSize := by
  rw [PageFile.offset, keeps.btree]

theorem HasPages.valid (keeps : HasPages ae key bt pages db) {page : BitVec 32} {data : Bytes}
    (valid : ValidPage bt.pageSize page data) : ValidPage db.codec.m_bt.pageSize page data := by
  rwa [keeps.btree]

theorem HasPages.write (keeps : HasPages ae key bt pages db) (fr : Frame) {page : BitVec 32}
    {data : Bytes} (valid : ValidPage bt.pageSize page data) :
    ∃ db', pageStep ae Disk.calls db (.write fr page data) = some (db', ⟨.SQLITE_OK, [], false⟩) ∧
      HasPages ae key bt (Function.update pages page data) db' := by
  obtain ⟨f, pos, syncs, sizes, disk, places⟩ := keeps.disk
  obtain ⟨w, codec, made, same, own, others⟩ := passPage_encrypts ae db.world keeps.codec fr page
    (.inl rfl) (show data.length = _ by rw [keeps.btree, valid.length])
  have len : (stored ae key page data).length = bt.pageSize := by
    rw [length_stored ae key page (pages_are_long bt valid), valid.length]
  obtain ⟨pos', written⟩ := directWrite_pages f pos syncs sizes keeps.direct.1
    (stored ae key page data) ((page.toNat - 1) * bt.pageSize)
  refine ⟨⟨w, codec, soundAt (ByteFile.write f ((page.toNat - 1) * bt.pageSize)
    (stored ae key page data)) pos' syncs sizes, db.file⟩, ?_, ?_⟩
  · simp only [pageStep, made, keeps.offset, disk, written, Option.map_some]
  · refine ⟨keeps.codec.settings same, (settings_keys same).2.2.trans keeps.btree, keeps.direct,
      ⟨_, _, _, _, rfl, fun n data' latest => ?_⟩, fun n data' latest => ?_⟩
    · have grown : f.length ≤ (ByteFile.write f ((page.toNat - 1) * bt.pageSize)
          (stored ae key page data)).length ∧ (page.toNat - 1) * bt.pageSize + bt.pageSize ≤
          (ByteFile.write f ((page.toNat - 1) * bt.pageSize) (stored ae key page data)).length := by
        have least := bt.least
        rw [length_write f _ (List.ne_nil_of_length_pos (by omega)), len]
        omega
      by_cases here : n = page
      · subst here
        rw [Function.update_self] at latest
        cases latest
        exact ⟨grown.2, by conv => lhs; rw [← len]; exact read_write f _ _⟩
      · rw [Function.update_of_ne here] at latest
        obtain ⟨inside, place⟩ := places n data' latest
        have nonzero := (keeps.held n data' latest).1.numbered
        have apart := offsets_apart nonzero valid.numbered here bt.pageSize
        refine ⟨Nat.le_trans inside grown.1, ?_⟩
        rw [read_write_apart inside (by rwa [len]), place]
    · by_cases here : n = page
      · subst here
        rw [Function.update_self] at latest
        cases latest
        exact ⟨valid, own⟩
      · rw [Function.update_of_ne here] at latest
        obtain ⟨valid', slot⟩ := keeps.held n data' latest
        exact ⟨valid', (others n here valid'.numbered).trans slot⟩

theorem HasPages.journal (keeps : HasPages ae key bt pages db) (fr : Frame) {page : BitVec 32}
    {data : Bytes} (current : pages page = some data) :
    ∃ db', pageStep ae Disk.calls db (.journal fr page data) =
        some (db', ⟨.SQLITE_OK, stored ae key page data, false⟩) ∧
      HasPages ae key bt pages db' := by
  obtain ⟨valid, -⟩ := keeps.held page data current
  obtain ⟨w, codec, made, same, own, others⟩ := passPage_encrypts ae db.world keeps.codec fr page
    (.inr rfl) (show data.length = _ by rw [keeps.btree, valid.length])
  refine ⟨⟨w, codec, db.storage, db.file⟩, by simp only [pageStep, made],
    keeps.codec.settings same, (settings_keys same).2.2.trans keeps.btree, keeps.direct, keeps.disk,
    fun n data' latest => ?_⟩
  -- the tag is that of the page in the file, since the page is journalled as it is there
  by_cases here : n = page
  · subst here
    cases current.symm.trans latest
    exact ⟨valid, own⟩
  · obtain ⟨valid', slot⟩ := keeps.held n data' latest
    exact ⟨valid', (others n here valid'.numbered).trans slot⟩

theorem HasPages.load (keeps : HasPages ae key bt pages db) (fr : Frame) {page : BitVec 32}
    {data zBuf : Bytes} (current : pages page = some data) (size : zBuf.length = bt.pageSize) :
    ∃ db', pageStep ae Disk.calls db (.load fr page zBuf) =
      some (db', ⟨.SQLITE_OK, data, true⟩) ∧ HasPages ae key bt pages db' := by
  obtain ⟨f, pos, syncs, sizes, disk, places⟩ := keeps.disk
  obtain ⟨inside, place⟩ := places page data current
  obtain ⟨valid, slot⟩ := keeps.held page data current
  have most := bt.most
  have small : zBuf.length < 2 ^ 31 := by
    rw [size]
    exact Nat.lt_of_le_of_lt most (by decide)
  have there : (page.toNat - 1) * bt.pageSize + zBuf.length ≤ f.length := by rwa [size]
  obtain ⟨pos', read⟩ := read_pages pos syncs sizes keeps.direct.2 small there
  obtain ⟨w, made, tags, log⟩ := passPage_loads ae db.world keeps.codec fr page
    (stored ae key page data)
  obtain ⟨whole, p, opens⟩ := (reads_back_any_iff ae keeps.codec.keyed.encrypted
    keeps.codec.keyed.hasRead).mp ((reads_back_iff ae db.world keeps.codec.keyed key
      (.inr (.inr rfl)) (keeps.btree ▸ valid) slot).mpr (by rw [keeps.codec.read]; rfl))
  rw [keeps.codec.read, slot] at whole opens
  rw [slot, whole] at made
  rw [slot] at log
  have success : accepted w.tee.2 = true := by
    rw [log]
    exact (accepted_final _ _ db.world.tee.2).mpr ⟨p, opens⟩
  refine ⟨⟨w, db.codec.handled, soundAt f pos' syncs sizes, db.file⟩, ?_,
    keeps.codec.settings rfl, keeps.btree, keeps.direct, ⟨f, pos', syncs, sizes, rfl, places⟩,
    fun n data' latest => ?_⟩
  · simp only [pageStep, disk, keeps.offset, read]
    rw [size, place]
    simp only [made, success, true_or, ↓reduceIte]
  · obtain ⟨valid', slot'⟩ := keeps.held n data' latest
    exact ⟨valid', (congrFun tags n).trans slot'⟩

/-- From where it has the pages of a store, a database does what the store does. -/
theorem HasPages.simulates (has : HasPages ae key bt pages db) {h : List (PageCall × PageReply)}
    {pages' : Pages} (run : Run (storeStep ae key) (Pages.Admits bt.pageSize) pages h pages') :
    ∃ db', Run (pageStep ae Disk.calls) PageFile.Admits db h db' ∧
      HasPages ae key bt pages' db' := by
  apply run.simulate (pageStep ae Disk.calls) PageFile.Admits _ has
  intro pages db call pages' reply keeps admitted answer
  cases call with
  | write fr page data =>
    cases answer
    exact ⟨keeps.valid admitted, keeps.write fr admitted⟩
  | journal fr page data =>
    cases answer
    exact ⟨keeps.valid (keeps.held page data admitted).1, keeps.journal fr admitted⟩
  | load fr page zBuf =>
    obtain ⟨data, current, same⟩ := Option.map_eq_some_iff.mp answer
    cases same
    exact ⟨⟨(keeps.held page data current).1.numbered, keeps.btree ▸ admitted.2⟩,
      keeps.load fr current admitted.2⟩

/-- On a file without faults, a database does what the plain store of pages does, call by
call, and the TEE accepts every page it loads. -/
theorem page_file_refines_store {db₀ : PageFile Disk} (one : InUse key db₀.codec)
    (direct : db₀.file.aBuffer = none ∧ db₀.file.nBuffer = 0)
    (sound : ∃ f pos syncs sizes, db₀.storage = soundAt f pos syncs sizes)
    {h : List (PageCall × PageReply)}
    (run : Run (storeStep ae key) (Pages.Admits db₀.codec.m_bt.pageSize) (fun _ => none) h pages) :
    ∃ db, Run (pageStep ae Disk.calls) PageFile.Admits db₀ h db ∧
      HasPages ae key db₀.codec.m_bt pages db := by
  obtain ⟨f, pos, syncs, sizes, disk⟩ := sound
  have start : HasPages ae key db₀.codec.m_bt (fun _ => none) db₀ :=
    ⟨one, rfl, direct, ⟨f, pos, syncs, sizes, disk, fun _ _ none => by cases none⟩,
      fun _ _ none => by cases none⟩
  exact start.simulates run

end

end TeeSqlite
