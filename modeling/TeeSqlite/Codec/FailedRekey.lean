import TeeSqlite.Codec.Rekeyed

/-! A rekey that fails. The file is rolled back, but the tag map and the flags of the
codec are not part of the transaction. -/
namespace TeeSqlite
open ByteFile AuthEnc CTypes

section
variable (ae : PageAE)

/-- A valid header lies within its page. -/
theorem length_of_headerOk {out : Bytes} (ok : headerOk (dbHeaderOf out) = true) :
    24 ≤ out.length := by
  simp only [headerOk, Bool.and_eq_true] at ok
  by_contra short
  have absent : (dbHeaderOf out)[7]? = none := by
    apply List.getElem?_eq_none
    rw [dbHeaderOf, List.length_take, List.length_drop]
    omega
  rw [absent] at ok
  exact absurd ok.2 (by decide)

/-- The body of what a read makes of a page is what the decryption gave. -/
theorem bodyOf_readPage (key : Key) (tag : Option Tag) {page : BitVec 32} {out : Bytes}
    (header : page = 1 → headerOk (dbHeaderOf out) = true) :
    bodyOf page (readPage ae key tag page out) =
      (ae.dec key iv (ciphertextOf page out) (tag.getD Tag.zero)).getD (ciphertextOf page out) := by
  have opened := ae.length_getD_dec key iv (ciphertextOf page out) (tag.getD Tag.zero)
  by_cases first : page = 1
  · have located : locate page out = (16, splice out 16 ((out.drop 8).take 8)) :=
      if_pos ⟨first, header first⟩
    simp only [readPage, ciphertextOf, bodyOf, if_pos first, located] at opened ⊢
    have long := length_of_headerOk (header first)
    have placed_long : 16 ≤ (splice out 16 ((out.drop 8).take 8)).length := by
      rw [length_splice]
      · omega
      · rw [List.length_take, List.length_drop]
        omega
    generalize splice out 16 ((out.drop 8).take 8) = placed at opened placed_long ⊢
    generalize (ae.dec key iv (placed.drop 16) (tag.getD Tag.zero)).getD (placed.drop 16) = body
      at opened ⊢
    have whole : (splice placed 16 body).drop 16 = body := drop_splice placed opened
    split_ifs
    · rw [drop_splice_take, whole]
      rw [List.length_take, length_splice placed 16 body]
      · exact (Nat.min_eq_left placed_long).symm
      · rw [opened, List.length_drop]
        omega
    · exact whole
  · have located : locate page out = (0, out) := if_neg fun both => first both.1
    simp only [ciphertextOf, located, List.drop_zero] at opened ⊢
    simp only [readPage, bodyOf, located, List.drop_zero, first, false_and, ↓reduceIte]
    exact splice_zero out _ opened

variable {w w' : World (Setup × List Final) TagMap} {codec codec' : Codec}

theorem readPage_congr (key : Key) {tag tag' : Option Tag}
    (same : tag.getD Tag.zero = tag'.getD Tag.zero) (page : BitVec 32) (out : Bytes) :
    readPage ae key tag page out = readPage ae key tag' page out := by
  unfold readPage
  rw [same]

/-- A page that reads back has its own tag in its slot. -/
theorem slot_of_reads (encrypted : codec.m_isEncrypted = true)
    (hasRead : codec.m_hasReadKey = true) {page : BitVec 32} {out data : Bytes}
    (header : page = 1 → headerOk (dbHeaderOf out) = true)
    (reads : ReadsBack ae w codec page 3 out data) :
    bodyTag ae codec.m_readKey page data = (w.tag page).getD Tag.zero := by
  obtain ⟨rfl, p, opens⟩ := (reads_back_any_iff ae encrypted hasRead).mp reads
  have sealed := (ae.exact _ _ _ _ _).mp opens
  rw [bodyTag, bodyOf_readPage ae _ _ header, opens, Option.getD_some, sealed]

/-- The slot alone decides whether a page that read back does so still. -/
theorem still_reads_iff (encrypted : codec.m_isEncrypted = true)
    (hasRead : codec.m_hasReadKey = true) (encrypted' : codec'.m_isEncrypted = true)
    (hasRead' : codec'.m_hasReadKey = true) (key : codec'.m_readKey = codec.m_readKey)
    {page : BitVec 32} {out data : Bytes}
    (header : page = 1 → headerOk (dbHeaderOf out) = true)
    (reads : ReadsBack ae w codec page 3 out data) :
    ReadsBack ae w' codec' page 3 out data ↔
      bodyTag ae codec.m_readKey page data = (w'.tag page).getD Tag.zero := by
  have slot := slot_of_reads ae encrypted hasRead header reads
  constructor
  · intro still
    rw [← key]
    exact slot_of_reads ae encrypted' hasRead' header still
  · intro kept
    have same := slot.symm.trans kept
    rw [reads_back_any_iff ae encrypted' hasRead', key, ← same,
      ← readPage_congr ae codec.m_readKey same]
    exact (reads_back_any_iff ae encrypted hasRead).mp reads

end

/-- Without the write flag mode 6 hands out the page as it is. -/
theorem hasWrite_of_seals {codec : Codec} (seals : Seals codec) :
    codec.m_hasWriteKey = true := by
  by_contra noWrite
  have least := codec.m_bt.least
  have raw : sqlite3Codec (idealCalls firstByteAE).logged finiteMapStore World.fresh (some codec)
      .sample (List.replicate codec.m_bt.pageSize 0) 2 6 =
        some ⟨World.fresh, some codec, List.replicate codec.m_bt.pageSize 0,
          some (List.replicate codec.m_bt.pageSize 0)⟩ :=
    sqlite3Codec_raw World.fresh .sample _ 2 fun _ => eq_false_of_ne_true noWrite
  obtain ⟨codec', out, encrypts, -⟩ := seals _ _ _ _ _ _ _ raw
  obtain ⟨w', made, own, -⟩ := encrypt_ideal firstByteAE World.fresh codec .sample 2 true
    (show 24 ≤ ((List.replicate codec.m_bt.pageSize (0 : UInt8)).take codec.m_bt.pageSize).length by
      rw [List.length_take, List.length_replicate]
      omega)
  -- an encryption would have recorded a tag
  obtain rfl := congrArg Prod.fst (Option.some.inj (encrypts.symm.trans made))
  cases own

section
variable (ae : PageAE) (fr : Nat → BitVec 32 → Frame) {f : Faults} {plain : BitVec 32 → Bytes}

/-- Every page reads back as before, and mode 6 encrypts with the key there was. -/
def SurvivesRekey (plain : BitVec 32 → Bytes) (key : Key) (s : Pager) (d : Db) (s' : Pager)
    (d' : Db) : Prop :=
  ∃ codec ∈ d'.pCodec,
    (∀ n, InDb s d n → ReadsBack ae s'.world codec n 3 (s'.file n) (plain n)) ∧
      Seals codec ∧ codec.m_writeKey = key

/-- The codec after a transaction that failed has the flags of the transaction, and
the old key for both directions. -/
theorem rekeyDone_failed {codec : Codec} (hasRead : codec.m_hasReadKey = true) {rc : ResultCode}
    (failed : rc ≠ SQLITE_OK) :
    let done := rekeyDone codec rc
    done.m_isEncrypted = codec.m_isEncrypted ∧ done.m_hasReadKey = true ∧
      done.m_hasWriteKey = codec.m_hasWriteKey ∧ done.m_readKey = codec.m_readKey ∧
      done.m_writeKey = codec.m_readKey := by
  unfold rekeyDone
  rw [if_neg failed, if_pos hasRead]
  exact ⟨rfl, hasRead, rfl, rfl, rfl⟩

theorem survives_iff {s s' : Pager} {d : Db} {old codec : Codec} (keyed : Keyed old)
    (oneKey : old.m_readKey = old.m_writeKey)
    (reads : ∀ n, InDb s d n → ReadsBack ae s.world old n 3 (s.file n) (plain n))
    (header : InDb s d 1 → headerOk (dbHeaderOf (s.file 1)) = true)
    (encrypted : codec.m_isEncrypted = true) (hasRead : codec.m_hasReadKey = true)
    (readKey : codec.m_readKey = old.m_readKey) (writeKey : codec.m_writeKey = codec.m_readKey)
    (file : s'.file = s.file) :
    SurvivesRekey ae plain old.m_writeKey s d s' ⟨d.pBt, some codec⟩ ↔
      codec.m_hasWriteKey = true ∧ ∀ n, InDb s d n →
        bodyTag ae old.m_writeKey n (plain n) = (s'.world.tag n).getD Tag.zero := by
  have still {n : BitVec 32} (inDb : InDb s d n) :
      ReadsBack ae s'.world codec n 3 (s'.file n) (plain n) ↔
        bodyTag ae old.m_writeKey n (plain n) = (s'.world.tag n).getD Tag.zero := by
    rw [file, ← oneKey]
    apply still_reads_iff ae keyed.encrypted keyed.hasRead encrypted hasRead readKey _
      (reads n inDb)
    rintro rfl
    exact header inDb
  constructor
  · rintro ⟨_, ⟨⟩, back, seals, -⟩
    exact ⟨hasWrite_of_seals seals, fun n inDb => (still inDb).mp (back n inDb)⟩
  · rintro ⟨hasWrite, slots⟩
    refine ⟨codec, rfl, fun n inDb => (still inDb).mpr (slots n inDb), ?_, ?_⟩
    · exact (Keyed.mk encrypted hasRead hasWrite).seals
    · exact writeKey.trans (readKey.trans oneKey)

/-- A rekey that fails leaves the database readable just when it was not to take the
key away and its commit got to no page that has another tag under the new key. -/
theorem failed_rekey_survives_iff (plain : BitVec 32 → Bytes) {s s' : Pager} {db db' : Sqlite3}
    {d : Db} {old fresh : Codec} {zDbName : Option CStr} {zKey : Option Pointee} {nKey : Int}
    {rc : ResultCode}
    (found : db.aDb[dbFindIndex db zDbName]? = some d) (held : d.pCodec = some old)
    (inUse : d.InUse)
    (reads : ∀ n, InDb s d n → ReadsBack ae s.world old n 3 (s.file n) (plain n))
    (size : ∀ n, InDb s d n → (plain n).length = d.pBt.pageSize)
    (header : InDb s d 1 → headerOk (dbHeaderOf (s.file 1)) = true)
    (h : sqlite3_rekey_v2 (transactions ae fr f) s db fresh zDbName zKey nKey =
      some (s', db', rc))
    (failed : rc ≠ SQLITE_OK) :
    (∃ d', db'.aDb[dbFindIndex db zDbName]? = some d' ∧
        SurvivesRekey ae plain old.m_writeKey s d s' d') ↔
      ∃ K, newKey zKey nKey = some K ∧
        ∀ n, f.CommitReaches (s.pages (WX_PAGER_MJ_PGNO d.pBt.pageSize)) n →
          bodyTag ae K n (plain n) = bodyTag ae old.m_writeKey n (plain n) := by
  have spec := rekeyCodec_spec inUse fresh zKey nKey
  obtain ⟨keyed, oneKey⟩ := inUse.1 old held
  cases made : rekeyCodec d fresh zKey nKey with
  | none =>
    rw [made] at spec
    exact absurd (held.symm.trans spec.1) (Option.some_ne_none old)
  | some codec =>
    rw [made] at spec
    dsimp only at spec
    rw [rekey_chosen found made] at h
    generalize newKey zKey nKey = key at spec ⊢
    have hasRead : codec.m_hasReadKey = true := by rw [spec.hasRead, held, Option.isSome_some]
    have before : LoadAs ae plain codec s (s.pages (WX_PAGER_MJ_PGNO d.pBt.pageSize)) := by
      intro n member
      have inDb := Pager.mem_pages.mp member
      have loads := ((reads_back_any_iff ae keyed.encrypted keyed.hasRead).mp (reads n inDb)).1
      rw [loadPage, if_pos hasRead, spec.readKey old held, spec.bt]
      exact ⟨loads, size n inDb⟩
    have same := rekeyTransaction_settings (transactions ae fr f)
      (WX_PAGER_MJ_PGNO d.pBt.pageSize) s codec
    have inside := (List.getElem?_eq_some_iff.mp found).1
    simp only [Option.some.injEq, Prod.mk.injEq] at h
    obtain ⟨rfl, rfl, rfl⟩ := h
    have rolled := rekeyTransaction_rolled_back ae fr spec.encrypted before failed
    obtain ⟨enc, read, write⟩ := settings_flags same
    have oldKey := (settings_keys same).1.trans (spec.readKey old held)
    generalize rekeyTransaction (transactions ae fr f) (WX_PAGER_MJ_PGNO d.pBt.pageSize) s codec =
      ended at *
    obtain ⟨enc', read', write', readKey, writeKey⟩ :=
      rekeyDone_failed (read.trans hasRead) failed
    generalize rekeyDone ended.codec ended.rc = done at *
    have encrypted : done.m_isEncrypted = true := enc'.trans (enc.trans spec.encrypted)
    simp only [encrypted, ↓reduceIte, List.getElem?_set_self inside, Option.some.injEq,
      exists_eq_left']
    rw [survives_iff ae keyed oneKey reads header encrypted read' (readKey.trans oldKey)
      (writeKey.trans readKey.symm) rolled.file, write'.trans (write.trans spec.hasWrite)]
    constructor
    · rintro ⟨given, slots⟩
      obtain ⟨K, rfl⟩ := Option.isSome_iff_exists.mp given
      refine ⟨K, rfl, ?_⟩
      intro n reached
      have inDb : InDb s d n := Pager.mem_pages.mp (List.mem_of_mem_take reached.2)
      have sealed := rolled.sealed spec.hasWrite n (inDb.nonzero) reached
      rw [slots n inDb, sealed, spec.writeKey K rfl, Option.getD_some]
    · rintro ⟨K, rfl, agree⟩
      refine ⟨rfl, ?_⟩
      intro n inDb
      have nonzero := inDb.nonzero
      by_cases reached : f.CommitReaches (s.pages (WX_PAGER_MJ_PGNO d.pBt.pageSize)) n
      · rw [rolled.sealed spec.hasWrite n nonzero reached, spec.writeKey K rfl, Option.getD_some]
        exact (agree n reached).symm
      · have slot := slot_of_reads ae keyed.encrypted keyed.hasRead (by
          rintro rfl
          exact header inDb) (reads n inDb)
        rcases rolled.tags n nonzero (fun both => reached both.2) with same | ⟨-, set⟩
        · rw [same, ← slot, oneKey]
        · rw [set, spec.readKey old held, oneKey, Option.getD_some]

end

/-- A scheme whose tags are the keys. -/
def keyTagAE : PageAE := .ofTag fun key _ _ => key

/-- A database of one page under the zero key. -/
def keyedDb : Db := ⟨(Codec.keyed Tag.zero).m_bt, some (.keyed Tag.zero)⟩

def keyedConnection : Sqlite3 := { plainDb with aDb := [keyedDb] }

def keyedPager : Pager :=
  onePage { World.fresh with tag := fun _ => some Tag.zero } (stored keyTagAE Tag.zero 1 firstPage)

theorem keyedDb_inUse : keyedDb.InUse := by
  constructor
  · rintro _ ⟨⟩
    exact ⟨keyed_keyed Tag.zero, rfl⟩
  · rintro _ ⟨⟩
    rfl

theorem keyedPager_one {n : BitVec 32} (inDb : InDb keyedPager keyedDb n) : n = 1 := by
  have low := inDb.2.1
  have high : n.toNat ≤ 1 := inDb.2.2
  exact BitVec.eq_of_toNat_eq (Nat.le_antisymm high low)

theorem keyedPager_header : headerOk (dbHeaderOf (keyedPager.file 1)) = true := by
  have long : 24 ≤ firstPage.length := by
    rw [firstPage_length]
    decide
  have clear := dbHeaderOf_stored keyTagAE Tag.zero long
  exact (congrArg headerOk clear).trans firstPage_first.headerOk

theorem keyedPager_reads {n : BitVec 32} (inDb : InDb keyedPager keyedDb n) :
    ReadsBack keyTagAE keyedPager.world (.keyed Tag.zero) n 3 (keyedPager.file n) firstPage := by
  obtain rfl := keyedPager_one inDb
  have valid : ValidPage (Codec.keyed Tag.zero).m_bt.pageSize 1 firstPage :=
    ⟨by decide, firstPage_length, fun _ => firstPage_first.magic, fun _ => firstPage_first.headerOk⟩
  exact (reads_back_iff keyTagAE keyedPager.world (keyed_keyed Tag.zero) Tag.zero (.inr (.inr rfl))
    valid rfl).mpr rfl

/-- The database is locked: nothing has happened to it. -/
theorem locked_database_survives :
    ∃ s' db' d', sqlite3_rekey_v2
        (transactions keyTagAE (fun _ _ => .sample) { Faults.none with begin := SQLITE_BUSY })
        keyedPager keyedConnection (.keyed Tag.zero) none (some fun _ => 7) 16 =
          some (s', db', SQLITE_BUSY) ∧
      db'.aDb[0]? = some d' ∧
      SurvivesRekey keyTagAE (fun _ => firstPage) Tag.zero keyedPager keyedDb s' d' := by
  obtain ⟨s', db', h⟩ : ∃ s' db', sqlite3_rekey_v2
      (transactions keyTagAE (fun _ _ => .sample) { Faults.none with begin := SQLITE_BUSY })
      keyedPager keyedConnection (.keyed Tag.zero) none (some fun _ => 7) 16 =
        some (s', db', SQLITE_BUSY) := ⟨_, _, rfl⟩
  obtain ⟨d', at_, survives⟩ := (failed_rekey_survives_iff keyTagAE (fun _ _ => .sample)
    (fun _ => firstPage) (d := keyedDb) rfl rfl keyedDb_inUse (fun _ => keyedPager_reads)
    (fun _ _ => firstPage_length) (fun _ => keyedPager_header) h (by decide)).mpr
      ⟨_, rfl, fun n reached => absurd reached.1.1 (by decide)⟩
  exact ⟨s', db', d', h, at_, survives⟩

def SQLITE_FULL : ResultCode := 13

/-- The commit fails when it has written page 1, which then is under the old key again
with the tag of the new one. -/
theorem failed_commit_loses_page_one :
    (∀ n, InDb keyedPager keyedDb n →
      ReadsBack keyTagAE keyedPager.world (.keyed Tag.zero) n 3 (keyedPager.file n) firstPage) ∧
    ∃ s' db' d', sqlite3_rekey_v2
        (transactions keyTagAE (fun _ _ => .sample)
          { Faults.none with commit := SQLITE_FULL, committed := 1 })
        keyedPager keyedConnection (.keyed Tag.zero) none (some fun _ => 7) 16 =
          some (s', db', SQLITE_FULL) ∧
      db'.aDb[0]? = some d' ∧
      ¬ SurvivesRekey keyTagAE (fun _ => firstPage) Tag.zero keyedPager keyedDb s' d' := by
  refine ⟨fun _ => keyedPager_reads, ?_⟩
  obtain ⟨s', db', codec, h, held, file, tag, encrypted, hasRead, readKey⟩ :
      ∃ s' db' codec, sqlite3_rekey_v2
        (transactions keyTagAE (fun _ _ => .sample)
          { Faults.none with commit := SQLITE_FULL, committed := 1 })
        keyedPager keyedConnection (.keyed Tag.zero) none (some fun _ => 7) 16 =
          some (s', db', SQLITE_FULL) ∧ db'.aDb[0]? = some ⟨keyedDb.pBt, some codec⟩ ∧
        s'.file = keyedPager.file ∧
        s'.world.tag 1 = some (CodecGenerateEncryptionKey (fun _ => 7) 16) ∧
        codec.m_isEncrypted = true ∧ codec.m_hasReadKey = true ∧ codec.m_readKey = Tag.zero :=
    ⟨_, _, _, rfl, rfl, rfl, rfl, rfl, rfl, rfl⟩
  refine ⟨s', db', _, h, held, ?_⟩
  rintro ⟨_, ⟨⟩, back, -⟩
  have reads := back 1 ⟨by decide, by decide, by decide⟩
  have slot := slot_of_reads keyTagAE encrypted hasRead (fun _ => file ▸ keyedPager_header) reads
  rw [tag, readKey] at slot
  exact absurd slot (by decide)

end TeeSqlite
