import TeeSqlite.Codec.PageStore

/-! A database whose file the normal world keeps. From the pages of SQLite down to the calls
of the C library, through codec, tag map, VFS, system calls, requests and handlers, it is
the store of pages. -/
namespace TeeSqlite
open ByteFile CTypes AuthEnc Runs

/-- A file system on which one descriptor stays on one file, and the calls on it do not fail;
what else it does is open. -/
structure KeepsFile {σ : Type} (fs : FileSystem σ) (fd : BitVec 32) (contents : σ → Bytes)
    (position : σ → Nat) : Prop where
  lseek : ∀ s offset, 0 ≤ offset.toInt →
    let r := fs s (.lseek fd offset 0)
    r.2.ret = offset ∧ contents r.1 = contents s ∧ position r.1 = offset.toNat
  write : ∀ s data, data.length ≤ SQLITE_MAX_PAGE_SIZE →
    let r := fs s (.write fd data)
    r.2.ret = BitVec.ofNat 64 data.length ∧
      contents r.1 = ByteFile.write (contents s) (position s) data ∧
      position r.1 = position s + data.length
  read : ∀ s nbytes, nbytes.toNat ≤ SQLITE_MAX_PAGE_SIZE →
    let got := ByteFile.read (contents s) (position s) nbytes.toNat
    let r := fs s (.read fd nbytes)
    r.2.ret = BitVec.ofNat 64 got.length ∧ r.2.out = got ∧ contents r.1 = contents s ∧
      position r.1 = position s + got.length

/-- The main file, written without a buffer. -/
def DemoFile.Direct (p : DemoFile) : Prop := p.aBuffer = none ∧ p.nBuffer = 0

theorem DemoFile.Direct.alike {p : DemoFile} (direct : p.Direct) : Alike p p :=
  ⟨rfl, rfl, rfl, rfl, .inr ⟨direct.1, direct.1, direct.2⟩⟩

theorem DemoFile.Direct.drained {p : DemoFile} (direct : p.Direct) : p.drained = p := by
  rw [DemoFile.drained, ← direct.2]

section
variable {σ : Type} (ae : PageAE)

/-- Through the requests the pager gets what it would get from the C library. -/
theorem pageStep_interchangeable {u l : Utee σ} (same : Interchangeable u l) {db : PageFile σ}
    (direct : db.file.Direct) {call : PageCall}
    (small : ∀ fr page zBuf, call = .load fr page zBuf → zBuf.length < 2 ^ 31)
    (small' : ∀ fr page data, call = .write fr page data →
      (passPage ae (fun _ _ => fr) db.world db.codec 6 page data).2.2.length < 2 ^ 31) :
    pageStep ae u.toFileCalls db call = pageStep ae l.toFileCalls db call := by
  cases call with
  | write fr page data =>
    have few := small' fr page data rfl
    simp only [pageStep]
    generalize passPage ae (fun _ _ => fr) db.world db.codec 6 page data = r at few ⊢
    obtain ⟨w, codec, out⟩ := r
    have written : demoDirectWrite u.toFileCalls db.storage db.file out out.length
        (db.offset page) = demoDirectWrite l.toFileCalls db.storage db.file out out.length
          (db.offset page) := by
      apply directWrite_alike same db.storage rfl _ rfl
      rwa [Int.toNat_natCast, List.take_length]
    simp only [demoWrite, direct.1, written]
  | journal fr page data => rfl
  | load fr page zBuf =>
    obtain ⟨s', rc, out, out', read, read', agree⟩ :=
      read_alike same db.storage direct.alike (small fr page zBuf rfl) (db.offset page)
    simp only [pageStep, read, read']
    by_cases got : rc = .SQLITE_OK ∨ rc = .SQLITE_IOERR_SHORT_READ
    · rw [if_pos got, if_pos got, agree got]
    · rw [if_neg got, if_neg got]

end

section
variable {σ : Type} {fs : FileSystem σ} {contents : σ → Bytes} {position : σ → Nat} {fd : Int}
  (keeps : KeepsFile fs (BitVec.ofInt 32 fd) contents position) (s : σ)
include keeps

theorem KeepsFile.libc_lseek {ofst : Nat} (small : ofst < 2 ^ 63) : ∃ s',
    (libc fs).utee_vfs_lseek s fd ofst SEEK_SET = (s', (ofst : Int)) ∧
      contents s' = contents s ∧ position s' = ofst := by
  have place : (BitVec.ofInt 64 ofst).toInt = ofst := by
    rw [BitVec.ofInt_natCast, toInt_ofNat_of_lt small]
  obtain ⟨ret, same, there⟩ := keeps.lseek s (BitVec.ofInt 64 ofst)
    (by rw [place]; exact Int.natCast_nonneg ofst)
  refine ⟨_, Prod.ext rfl ?_, same, ?_⟩
  · exact (congrArg BitVec.toInt ret).trans place
  · apply there.trans
    rw [BitVec.ofInt_natCast, BitVec.toNat_ofNat, Nat.mod_eq_of_lt (by omega)]

theorem KeepsFile.libc_write {buf : Bytes} (small : buf.length ≤ SQLITE_MAX_PAGE_SIZE) : ∃ s',
    (libc fs).utee_vfs_write s fd buf = (s', (buf.length : Int)) ∧
      contents s' = ByteFile.write (contents s) (position s) buf := by
  obtain ⟨ret, wrote, -⟩ := keeps.write s buf small
  rw [SQLITE_MAX_PAGE_SIZE] at small
  exact ⟨_, Prod.ext rfl ((congrArg BitVec.toInt ret).trans (toInt_ofNat_of_lt (by omega))), wrote⟩

theorem KeepsFile.libc_read {buf : Bytes} (small : buf.length ≤ SQLITE_MAX_PAGE_SIZE) :
    let got := ByteFile.read (contents s) (position s) buf.length
    ∃ s', (libc fs).utee_vfs_read s fd buf buf.length =
        (s', (got.length : Int), splice buf 0 got) ∧ contents s' = contents s := by
  have asked : (BitVec.ofNat 64 buf.length).toNat = buf.length := by
    rw [SQLITE_MAX_PAGE_SIZE] at small
    rw [BitVec.toNat_ofNat, Nat.mod_eq_of_lt (by omega)]
  obtain ⟨ret, out, same, -⟩ := keeps.read s (BitVec.ofNat 64 buf.length) (asked.symm ▸ small)
  rw [asked] at ret out
  have few : (ByteFile.read (contents s) (position s) buf.length).length ≤ buf.length :=
    List.length_take_le _ _
  rw [SQLITE_MAX_PAGE_SIZE] at small
  refine ⟨_, Prod.ext rfl (Prod.ext ?_ ?_), same⟩
  · exact (congrArg BitVec.toInt ret).trans (toInt_ofNat_of_lt (by omega))
  · exact congrArg (splice buf 0) (by rw [out, List.take_of_length_le few])

end

/-- What `demoRead` makes of the count that was read and of the buffer. -/
def readReply (iAmt ret : Int) (zBuf : Bytes) : Rc × Bytes :=
  let nRead := toInt32 ret
  if nRead = iAmt then (.SQLITE_OK, zBuf)
  else if 0 ≤ nRead then
    (.SQLITE_IOERR_SHORT_READ, if nRead < iAmt then
      splice zBuf nRead.toNat (List.replicate (iAmt - nRead).toNat 0) else zBuf)
  else (.SQLITE_IOERR_READ, zBuf)

theorem demoRead_reply {σ : Type} {u : FileCalls σ} {s s₁ s₂ : σ} {p : DemoFile} {zBuf out : Bytes}
    {iAmt iOfst ret : Int} (idle : p.nBuffer = 0)
    (seek : u.utee_vfs_lseek s p.fd iOfst SEEK_SET = (s₁, iOfst))
    (read : u.utee_vfs_read s₁ p.fd zBuf iAmt.toNat = (s₂, ret, out)) :
    demoRead u s p zBuf iAmt iOfst = (s₂, p, readReply iAmt ret out) := by
  rw [demoRead, flush_idle u s idle]
  simp only [seek, read, readReply, ne_eq, not_true_eq_false, ↓reduceIte]
  split_ifs <;> rfl

section
variable {σ : Type} {fs : FileSystem σ} {contents : σ → Bytes} {position : σ → Nat} {p : DemoFile}
  (keeps : KeepsFile fs (BitVec.ofInt 32 p.fd) contents position) (direct : p.Direct) (s : σ)
  (pos : Nat) (syncs : List Int) (sizes : List Bool)
include keeps direct

theorem KeepsFile.demoWrite {out : Bytes} (few : out.length ≤ SQLITE_MAX_PAGE_SIZE) {ofst : Nat}
    (small : ofst < 2 ^ 63) : ∃ s' pos',
      TeeSqlite.demoWrite (libc fs).toFileCalls s p out ofst = some (s', p, .SQLITE_OK) ∧
      TeeSqlite.demoWrite Disk.calls (soundAt (contents s) pos syncs sizes) p out ofst =
        some (soundAt (contents s') pos' syncs sizes, p, .SQLITE_OK) := by
  obtain ⟨s₁, seek, same, there⟩ := keeps.libc_lseek s small
  obtain ⟨s₂, wrote, grown⟩ := keeps.libc_write s₁ few
  obtain ⟨pos', disk⟩ := directWrite_pages (contents s) pos syncs sizes direct.1 out ofst
  rw [same, there] at grown
  refine ⟨s₂, pos', ?_, by rw [grown, disk]⟩
  simp only [TeeSqlite.demoWrite, direct.1, demoDirectWrite, seek, Int.toNat_natCast,
    List.take_length, wrote, ne_eq, not_true_eq_false, ↓reduceIte]

theorem KeepsFile.demoRead {zBuf : Bytes} (few : zBuf.length ≤ SQLITE_MAX_PAGE_SIZE) {ofst : Nat}
    (small : ofst < 2 ^ 63) : ∃ s' pos' reply,
      TeeSqlite.demoRead (libc fs).toFileCalls s p zBuf zBuf.length ofst = (s', p, reply) ∧
      contents s' = contents s ∧
      TeeSqlite.demoRead Disk.calls (soundAt (contents s) pos syncs sizes) p zBuf zBuf.length ofst =
        (soundAt (contents s) pos' syncs sizes, p, reply) := by
  obtain ⟨s₁, seek, same, there⟩ := keeps.libc_lseek s small
  obtain ⟨s₂, read, same'⟩ := keeps.libc_read s₁ few
  rw [same, there] at read
  have disk := read_sound (contents s) ofst syncs sizes p.fd zBuf zBuf.length
  have seek' := lseek_sound (contents s) pos syncs sizes p.fd (Int.natCast_nonneg ofst) SEEK_SET
  rw [Int.toNat_natCast] at seek'
  rw [← Int.toNat_natCast zBuf.length] at read disk
  exact ⟨s₂, _, _, demoRead_reply direct.2 seek read, same'.trans same,
    demoRead_reply direct.2 seek' disk⟩

end

/-- The same database, its file once on a disk without faults and once with the normal world. -/
structure Hosted {σ : Type} (contents : σ → Bytes) (file : DemoFile) (d : PageFile Disk)
    (db : PageFile σ) : Prop where
  world : db.world = d.world
  codec : db.codec = d.codec
  files : d.file = file ∧ db.file = file
  disk : ∃ pos syncs sizes, d.storage = soundAt (contents db.storage) pos syncs sizes

/-- The database with its file on a disk. -/
def PageFile.onDisk {σ : Type} (contents : σ → Bytes) (db : PageFile σ) : PageFile Disk :=
  ⟨db.world, db.codec, soundAt (contents db.storage) 0 [] [], db.file⟩

theorem PageFile.onDisk_hosted {σ : Type} (contents : σ → Bytes) (db : PageFile σ) :
    Hosted contents db.file (db.onDisk contents) db :=
  ⟨rfl, rfl, ⟨rfl, rfl⟩, 0, [], [], rfl⟩

section
variable {σ : Type} {ae : PageAE} {key : Key} {bt : Btree} {fs : FileSystem σ}
  {alloc : AllocPayload} {contents : σ → Bytes} {position : σ → Nat} {file : DemoFile}
  {d d' : PageFile Disk} {db : PageFile σ} {h : List (PageCall × PageReply)}

theorem PageFile.offset_lt (db : PageFile σ) (page : BitVec 32) : db.offset page < 2 ^ 63 := by
  have most := db.codec.m_bt.most
  rw [SQLITE_MAX_PAGE_SIZE] at most
  calc db.offset page ≤ 2 ^ 32 * 65536 := Nat.mul_le_mul (by have := page.isLt; omega) most
    _ < 2 ^ 63 := by decide

/-- One call on the disk is one call through the requests. -/
theorem Hosted.step (posix : Posix fs) (ok : Allocates alloc)
    (keeps : KeepsFile fs (BitVec.ofInt 32 file.fd) contents position) (direct : file.Direct)
    (hosted : Hosted contents file d db) (current : TagsCurrent ae key bt h d) {call : PageCall}
    (admitted : d.Admits call) {reply : PageReply}
    (answer : pageStep ae Disk.calls d call = some (d', reply)) :
    ∃ db', pageStep ae (utee (supplicantOn fs) alloc).toFileCalls db call = some (db', reply) ∧
      Hosted contents file d' db' := by
  have same : Interchangeable (utee (supplicantOn fs) alloc) (libc fs) :=
    utee_interchangeable posix ok
  obtain ⟨world, codec, storage, p⟩ := db
  obtain ⟨rfl, rfl, ⟨rfl, rfl⟩, pos, syncs, sizes, disk⟩ := hosted
  have most := d.codec.m_bt.most
  have bounded : SQLITE_MAX_PAGE_SIZE < 2 ^ 31 := by decide
  have small := PageFile.offset_lt (⟨d.world, d.codec, storage, d.file⟩ : PageFile σ)
  have len (fr : Frame) (page : BitVec 32) (data : Bytes)
      (valid : ValidPage bt.pageSize page data) :
      (passPage ae (fun _ _ => fr) d.world d.codec 6 page data).2.2.length = bt.pageSize := by
    obtain ⟨w, codec, made, -⟩ := passPage_encrypts ae d.world current.codec fr page (.inl rfl)
      (show data.length = _ by rw [current.btree, valid.length])
    rw [made, length_stored ae key page (pages_are_long bt valid), valid.length]
  rw [current.btree] at most
  rw [pageStep_interchangeable ae same direct]
  · cases call with
    | write fr page data =>
      rw [PageFile.Admits, current.btree] at admitted
      have few := (len fr page data admitted).trans_le most
      simp only [pageStep] at answer ⊢
      generalize passPage ae (fun _ _ => fr) d.world d.codec 6 page data = r at few answer
      obtain ⟨w, codec, out⟩ := r
      obtain ⟨s', pos', host, plain⟩ :=
        keeps.demoWrite direct storage pos syncs sizes few (small page)
      rw [disk] at answer
      rw [PageFile.offset] at host plain answer ⊢
      dsimp only at host plain answer ⊢
      rw [plain] at answer
      cases answer
      rw [host]
      exact ⟨_, rfl, rfl, rfl, ⟨rfl, rfl⟩, pos', syncs, sizes, rfl⟩
    | journal fr page data =>
      cases answer
      exact ⟨_, rfl, rfl, rfl, ⟨rfl, rfl⟩, pos, syncs, sizes, disk⟩
    | load fr page zBuf =>
      have few := admitted.2.trans_le (current.btree ▸ most)
      obtain ⟨s', pos', ⟨rc, out⟩, host, kept, plain⟩ :=
        keeps.demoRead direct storage pos syncs sizes few (small page)
      simp only [pageStep] at answer ⊢
      rw [disk] at answer
      rw [PageFile.offset] at host plain answer ⊢
      dsimp only at host plain answer ⊢
      rw [plain] at answer
      rw [host]
      split_ifs at answer ⊢
      · cases answer
        exact ⟨_, rfl, rfl, rfl, ⟨rfl, rfl⟩, pos', syncs, sizes, by rw [kept]⟩
      · cases answer
        exact ⟨_, rfl, rfl, rfl, ⟨rfl, rfl⟩, pos', syncs, sizes, by rw [kept]⟩
  · rintro fr page zBuf rfl
    exact (admitted.2.trans_le (current.btree ▸ most)).trans_lt bounded
  · rintro fr page data rfl
    rw [PageFile.Admits, current.btree] at admitted
    exact ((len fr page data admitted).trans_le most).trans_lt bounded

theorem Hosted.admits (hosted : Hosted contents file d db) {call : PageCall}
    (admitted : d.Admits call) : db.Admits call := by
  cases call with
  | write | journal | load => rwa [PageFile.Admits, hosted.codec]

/-- **The whole path.** Over a file that the normal world keeps, a database does through
codec, tag map, VFS, system calls, requests and handlers what the store of pages does, call
by call; and each page of the store is in the file, encrypted, at its place. -/
theorem database_over_requests (posix : Posix fs) (ok : Allocates alloc) {db₀ : PageFile σ}
    (keeps : KeepsFile fs (BitVec.ofInt 32 db₀.file.fd) contents position)
    (direct : db₀.file.Direct) (one : InUse key db₀.codec) {pages : Pages}
    (run : Run (storeStep ae key) (Pages.Admits db₀.codec.m_bt.pageSize) (fun _ => none) h pages) :
    ∃ db, Run (pageStep ae (utee (supplicantOn fs) alloc).toFileCalls) PageFile.Admits db₀ h db ∧
      ∀ page data, pages page = some data →
        ByteFile.read (contents db.storage) (db₀.offset page) db₀.codec.m_bt.pageSize =
          stored ae key page data := by
  obtain ⟨d, plain, has⟩ := page_file_refines_store
    (show InUse key (db₀.onDisk contents).codec from one) direct ⟨_, _, _, _, rfl⟩ run
  have current : TagsCurrent ae key db₀.codec.m_bt [] (db₀.onDisk contents) :=
    ⟨one, rfl, fun _ _ none => by cases none⟩
  obtain ⟨db, hosted_run, hosted, -⟩ : ∃ db,
      Run (pageStep ae (utee (supplicantOn fs) alloc).toFileCalls) PageFile.Admits db₀ h db ∧
        Hosted contents db₀.file d db ∧ ∃ h, TagsCurrent ae key db₀.codec.m_bt h d := by
    apply plain.simulate _ _
      (fun d db => Hosted contents db₀.file d db ∧ ∃ h, TagsCurrent ae key db₀.codec.m_bt h d)
    · exact ⟨db₀.onDisk_hosted contents, [], current⟩
    · rintro d db call d' reply ⟨hosted, h, current⟩ admitted answer
      obtain ⟨db', answer', hosted'⟩ := hosted.step posix ok keeps direct current admitted answer
      exact ⟨hosted.admits admitted, db', answer', hosted', _, current.step admitted answer⟩
  refine ⟨db, hosted_run, ?_⟩
  intro page data there
  obtain ⟨pos, syncs, sizes, disk⟩ := hosted.disk
  obtain ⟨f, pos', syncs', sizes', disk', places⟩ := has.disk
  obtain rfl : contents db.storage = f := congrArg Disk.bytes (disk.symm.trans disk')
  exact (places page data there).2

end

/-- The file of a single descriptor keeps what is written to it. -/
theorem keepsFile_oneFile (fd : BitVec 32) : KeepsFile oneFile fd OneFile.bytes OneFile.pos := by
  constructor
  · intro s offset _
    exact ⟨rfl, rfl, rfl⟩
  · intro s data few
    have whole : data.take MAX_RW_COUNT = data := by
      apply List.take_of_length_le
      exact few.trans (by decide)
    simp only [oneFile, whole, and_self]
  · intro s nbytes few
    have whole : (ByteFile.read s.bytes s.pos nbytes.toNat).take MAX_RW_COUNT =
        ByteFile.read s.bytes s.pos nbytes.toNat := by
      apply List.take_of_length_le
      exact (List.length_take_le _ _).trans (few.trans (by decide))
    simp only [oneFile, whole, and_self]

def emptyHosted : PageFile OneFile := ⟨World.fresh, .keyed Tag.zero, ⟨[], 0⟩, ⟨3, none, 0, 0⟩⟩

/-- A store with page 2 only. -/
def pageTwo : Pages := Function.update (fun _ => none) 2 (some ones)

theorem pageTwo_two : pageTwo 2 = some ones := Function.update_self ..

/-- Page 2 is written and loaded through the requests. -/
theorem hosted_file_keeps_ones : ∃ db,
    Run (pageStep onesAE (utee (supplicantOn oneFile) freshBlocks).toFileCalls) PageFile.Admits
      emptyHosted [(.load .sample 2 ones, ⟨.SQLITE_OK, ones, true⟩),
        (.write .sample 2 ones, ⟨.SQLITE_OK, [], false⟩)] db ∧
      ByteFile.read db.storage.bytes 512 512 = stored onesAE Tag.zero 2 ones := by
  have write : Pages.Admits 512 (fun _ => none) (.write .sample 2 ones) := fillPage_valid 1
  have load : Pages.Admits 512 pageTwo (.load .sample 2 ones) :=
    ⟨by rw [pageTwo_two]; rfl, List.length_replicate⟩
  have loaded : storeStep onesAE Tag.zero pageTwo (.load .sample 2 ones) =
      some (pageTwo, ⟨.SQLITE_OK, ones, true⟩) := by
    simp only [storeStep, pageTwo_two, Option.map_some]
  have run := (Run.start.next write (show storeStep onesAE Tag.zero _ _ = some (pageTwo, _)
    from rfl)).next load loaded
  obtain ⟨db, hosted, places⟩ := database_over_requests posix_oneFile allocates_freshBlocks
    (keepsFile_oneFile _) (show emptyHosted.file.Direct from ⟨rfl, rfl⟩)
    ⟨keyed_keyed Tag.zero, rfl, rfl⟩ run
  exact ⟨db, hosted, places 2 ones pageTwo_two⟩

end TeeSqlite
