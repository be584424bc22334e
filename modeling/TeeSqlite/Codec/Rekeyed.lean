import TeeSqlite.Codec.RekeyPages

/-! A rekey that succeeds: every page is there under the new key, or in clear when
the key was taken away. -/
namespace TeeSqlite
open ByteFile AuthEnc CTypes

/-- The key that a rekey is given, if any. -/
def newKey (zKey : Option Pointee) (nKey : Int) : Option Key :=
  if nKey = 0 then none else zKey.map fun key => CodecGenerateEncryptionKey key nKey

/-- A page of a database, other than that of the lock byte. -/
def InDb (s : Pager) (d : Db) (n : BitVec 32) : Prop :=
  n ≠ WX_PAGER_MJ_PGNO d.pBt.pageSize ∧ 1 ≤ n.toNat ∧ n.toNat ≤ s.nPage

theorem InDb.nonzero {s : Pager} {d : Db} {n : BitVec 32} (inDb : InDb s d n) : n ≠ 0 := by
  rintro rfl
  exact absurd inDb.2.1 (by decide)

/-- A codec that a database has is in use, with one key, and knows its b-tree. -/
def Db.InUse (d : Db) : Prop := d.Attached ∧ ∀ codec ∈ d.pCodec, codec.m_bt = d.pBt

/-- How a rekey sets up its codec: it reads with the old key and writes with the new. -/
structure Chosen (d : Db) (key : Option Key) (codec : Codec) : Prop where
  encrypted : codec.m_isEncrypted = true
  bt : codec.m_bt = d.pBt
  hasWrite : codec.m_hasWriteKey = key.isSome
  writeKey : ∀ K ∈ key, codec.m_writeKey = K
  hasRead : codec.m_hasReadKey = d.pCodec.isSome
  readKey : ∀ old ∈ d.pCodec, codec.m_readKey = old.m_readKey

theorem rekeyCodec_spec {d : Db} (inUse : d.InUse) (fresh : Codec) (zKey : Option Pointee)
    (nKey : Int) :
    match rekeyCodec d fresh zKey nKey with
    | some codec => Chosen d (newKey zKey nKey) codec
    | none => d.pCodec = none ∧ newKey zKey nKey = none := by
  have given : newKey zKey nKey =
      (if nKey = 0 then none else zKey).map fun key => CodecGenerateEncryptionKey key nKey := by
    unfold newKey
    split_ifs
    · rfl
    · rfl
  rw [given]
  unfold rekeyCodec
  cases held : d.pCodec with
  | none =>
    cases if nKey = 0 then none else zKey with
    | none => exact ⟨rfl, rfl⟩
    | some key =>
      refine ⟨rfl, rfl, rfl, ?_, ?_, ?_⟩
      · rintro K ⟨⟩
        rfl
      · rw [held]
        rfl
      · rintro old member
        rw [held] at member
        cases member
  | some codec =>
    obtain ⟨keyed, -⟩ := inUse.1 codec held
    have bt := inUse.2 codec held
    rw [Option.filter_some, if_pos keyed.encrypted]
    have hasRead : codec.m_hasReadKey = d.pCodec.isSome := by
      rw [held]
      exact keyed.hasRead
    have readKey (old : Codec) (member : old ∈ d.pCodec) : codec.m_readKey = old.m_readKey := by
      rw [held] at member
      exact congrArg Codec.m_readKey (Option.some.inj member)
    cases if nKey = 0 then none else zKey with
    | none =>
      refine ⟨keyed.encrypted, bt, rfl, ?_, hasRead, readKey⟩
      rintro K ⟨⟩
    | some key =>
      refine ⟨keyed.encrypted, bt, rfl, ?_, hasRead, readKey⟩
      rintro K ⟨⟩
      rfl

section
variable (ae : PageAE)

/-- What was stored under the key of the codec loads, with its tag in the slot. -/
theorem loads_stored {w : World (Setup × List Final) TagMap} {codec : Codec}
    (encrypted : codec.m_isEncrypted = true) (hasRead : codec.m_hasReadKey = true)
    {page : BitVec 32} {data : Bytes} (valid : Decodable page data) (len : 24 ≤ data.length)
    (recorded : w.tag page = some (bodyTag ae codec.m_readKey page data)) :
    Loads ae w (some codec) page (stored ae codec.m_readKey page data) data := by
  intro fr
  obtain ⟨c, result, call, handed, -, -, whole⟩ := read_ideal ae w encrypted hasRead fr
    codec.m_readKey (.inr (.inr rfl)) valid len recorded
  have opened := (ae.dec_own codec.m_readKey iv (bodyOf page data)
    (bodyTag ae codec.m_readKey page data)).mpr rfl
  exact ⟨c, call, whole opened ▸ handed⟩

theorem loads_through {s : Pager} {d : Db} (inUse : d.InUse) {key : Option Key} {codec : Codec}
    (chosen : Chosen d key codec) {n : BitVec 32} {data : Bytes}
    (loads : Loads ae s.world d.pCodec n (s.file n) data) :
    loadPage ae codec s.world.tag n (s.file n) = data := by
  have hasRead := chosen.hasRead
  unfold loadPage
  cases held : d.pCodec with
  | none =>
    rw [held] at loads hasRead
    rw [hasRead]
    exact (loads_plain_iff ae).mp loads
  | some old =>
    obtain ⟨keyed, -⟩ := inUse.1 old held
    rw [held] at loads hasRead
    rw [hasRead, chosen.readKey old held]
    exact (loads_iff ae keyed.encrypted keyed.hasRead).mp loads

/-- What a rekey has made of the pages of a database: they load as before, and with a
key every one is stored under that key. -/
structure Rekeyed (plain : BitVec 32 → Bytes) (key : Option Key) (s : Pager) (d : Db) (s' : Pager)
    (d' : Db) : Prop where
  loads : ∀ n, InDb s d n → Loads ae s'.world d'.pCodec n (s'.file n) (plain n)
  codec : d'.pCodec = none ↔ key = none
  inUse : d'.InUse
  reads : ∀ K ∈ key, ∀ codec ∈ d'.pCodec, codec.m_readKey = K
  stored : ∀ K ∈ key, ∀ n, InDb s d n → s'.file n = stored ae K n (plain n) ∧
    s'.world.tag n = some (bodyTag ae K n (plain n))

variable (fr : Nat → BitVec 32 → Frame) {f : Faults} {plain : BitVec 32 → Bytes}

/-- The keys of the codec after a transaction that went through. -/
theorem rekeyDone_ok {d : Db} {key : Option Key} {codec codec' : Codec}
    (chosen : Chosen d key codec) (same : codec'.settings = codec.settings) :
    let done := rekeyDone codec' SQLITE_OK
    match key with
    | none => done.m_isEncrypted = false
    | some K => Keyed done ∧ done.m_readKey = K ∧ done.m_writeKey = K ∧ done.m_bt = d.pBt := by
  obtain ⟨encrypted, -, write⟩ := settings_flags same
  obtain ⟨-, writeKey, bt⟩ := settings_keys same
  have hasWrite := write.trans chosen.hasWrite
  unfold rekeyDone
  dsimp only
  cases key with
  | none =>
    rw [if_pos rfl, hasWrite]
    rfl
  | some K =>
    have own := writeKey.trans (chosen.writeKey K rfl)
    rw [if_pos rfl, hasWrite]
    exact ⟨⟨encrypted.trans chosen.encrypted, rfl, hasWrite⟩, own, own, bt.trans chosen.bt⟩

/-- The pages as the commit has stored them, with the codec that is then left. -/
theorem Committed.rekeyed {s s₁ s' : Pager} {d : Db} {key : Option Key}
    {codec codec₁ codec' : Codec}
    (chosen : Chosen d key codec) (same : codec₁.settings = codec.settings)
    (committed : Committed ae (s.pages (WX_PAGER_MJ_PGNO d.pBt.pageSize)) codec₁ s₁ s')
    (loaded : ∀ n ∈ s.pages (WX_PAGER_MJ_PGNO d.pBt.pageSize), s₁.loaded n = plain n)
    (size : ∀ n, InDb s d n → (plain n).length = d.pBt.pageSize)
    (first : InDb s d 1 → FirstPage (plain 1))
    (done : match key with
      | none => codec'.m_isEncrypted = false
      | some K => Keyed codec' ∧ codec'.m_readKey = K ∧ codec'.m_writeKey = K ∧
          codec'.m_bt = d.pBt) :
    Rekeyed ae plain key s d s'
      { d with pCodec := if codec'.m_isEncrypted then some codec' else none } := by
  have hasWrite := (settings_flags same).2.2.trans chosen.hasWrite
  have page {n : BitVec 32} (inDb : InDb s d n) :
      n ∈ s.pages (WX_PAGER_MJ_PGNO d.pBt.pageSize) := Pager.mem_pages.mpr inDb
  cases key with
  | none =>
    simp only [show codec'.m_isEncrypted = false from done, Bool.false_eq_true, ↓reduceIte]
    refine ⟨?_, iff_of_true rfl rfl, ⟨?_, ?_⟩, ?_, ?_⟩
    · intro n inDb
      apply (loads_plain_iff ae).mpr
      rw [(committed.raw hasWrite).1 n (page inDb), loaded n (page inDb)]
    · rintro codec' ⟨⟩
    · rintro codec' ⟨⟩
    · rintro K ⟨⟩
    · rintro K ⟨⟩
  | some K =>
    obtain ⟨keyed, readKey, writeKey, bt⟩ := done
    simp only [keyed.encrypted, ↓reduceIte]
    have stored {n : BitVec 32} (inDb : InDb s d n) :
        s'.file n = stored ae K n (plain n) ∧
          s'.world.tag n = some (bodyTag ae K n (plain n)) := by
      obtain ⟨file, tag⟩ := committed.sealed hasWrite n (page inDb)
      rw [loaded n (page inDb), (settings_keys same).2.1, chosen.writeKey K rfl] at file tag
      exact ⟨file, tag inDb.nonzero⟩
    refine ⟨?_, iff_of_false (Option.some_ne_none _) (Option.some_ne_none _), ⟨?_, ?_⟩, ?_, ?_⟩
    · intro n inDb
      obtain ⟨file, tag⟩ := stored inDb
      have least := d.pBt.least
      have len := size n inDb
      rw [file, ← readKey]
      rw [← readKey] at tag
      apply loads_stored ae keyed.encrypted keyed.hasRead _ (by omega) tag
      apply FirstPage.decodable
      rintro rfl
      exact first inDb
    · rintro _ ⟨⟩
      exact ⟨keyed, readKey.trans writeKey.symm⟩
    · rintro _ ⟨⟩
      exact bt
    · rintro _ ⟨⟩ _ ⟨⟩
      exact readKey
    · rintro _ ⟨⟩ n inDb
      exact stored inDb

theorem rekey_preserves_pages (plain : BitVec 32 → Bytes) {s s' : Pager} {db db' : Sqlite3}
    {d : Db} {fresh : Codec} {zDbName : Option CStr} {zKey : Option Pointee} {nKey : Int}
    (found : db.aDb[dbFindIndex db zDbName]? = some d) (inUse : d.InUse)
    (loads : ∀ n, InDb s d n → Loads ae s.world d.pCodec n (s.file n) (plain n))
    (size : ∀ n, InDb s d n → (plain n).length = d.pBt.pageSize)
    (first : InDb s d 1 → FirstPage (plain 1))
    (h : sqlite3_rekey_v2 (transactions ae fr f) s db fresh zDbName zKey nKey =
      some (s', db', SQLITE_OK)) :
    ∃ d', db'.aDb[dbFindIndex db zDbName]? = some d' ∧
      Rekeyed ae plain (newKey zKey nKey) s d s' d' := by
  have spec := rekeyCodec_spec inUse fresh zKey nKey
  cases made : rekeyCodec d fresh zKey nKey with
  | none =>
    rw [made] at spec
    rw [rekey_idle found made] at h
    obtain ⟨noCodec, noKey⟩ := spec
    cases h
    refine ⟨d, found, loads, iff_of_true noCodec noKey, inUse, ?_, ?_⟩
    · rw [noKey]
      rintro K ⟨⟩
    · rw [noKey]
      rintro K ⟨⟩
  | some codec =>
    rw [made] at spec
    dsimp only at spec
    rw [rekey_chosen found made] at h
    generalize newKey zKey nKey = key at spec ⊢
    have before : LoadAs ae plain codec s (s.pages (WX_PAGER_MJ_PGNO d.pBt.pageSize)) := by
      intro n member
      have inDb := Pager.mem_pages.mp member
      refine ⟨loads_through ae inUse spec (loads n inDb), ?_⟩
      rw [spec.bt]
      exact size n inDb
    have same := rekeyTransaction_settings (transactions ae fr f)
      (WX_PAGER_MJ_PGNO d.pBt.pageSize) s codec
    have inside := (List.getElem?_eq_some_iff.mp found).1
    simp only [Option.some.injEq, Prod.mk.injEq] at h
    obtain ⟨rfl, rfl, ok⟩ := h
    refine ⟨_, List.getElem?_set_self inside, ?_⟩
    obtain ⟨s₁, codec₁, same₁, loaded, ended⟩ :=
      rekeyTransaction_committed ae fr spec.encrypted before ok
    have committed := commitPages_committed ae fr codec₁
      (s.pages (WX_PAGER_MJ_PGNO d.pBt.pageSize)) s₁
      ((settings_flags same₁).1.trans spec.encrypted) (by
        intro n member
        rw [loaded n member, (settings_keys same₁).2.2]
        exact (before n member).2)
    rw [ok, ended]
    exact committed.rekeyed ae spec same₁ loaded size first (rekeyDone_ok spec same)

end

/-- A transaction in which nothing fails. -/
def Faults.none : Faults where
  begin := SQLITE_OK
  get _ := SQLITE_OK
  write _ := SQLITE_OK
  journals _ := false
  commit := SQLITE_OK
  committed := 0

/-- A file of one page. -/
def onePage (w : World (Setup × List Final) TagMap) (page : Bytes) : Pager where
  world := w
  nPage := ⟨1, by decide⟩
  file _ := page
  original _ := []
  loaded _ := []
  journal := []
  written := []

theorem first_page_gets_a_key :
    ∃ s' db' d', sqlite3_rekey_v2 (transactions firstByteAE (fun _ _ => .sample) .none)
        (onePage World.fresh firstPage) plainDb (.keyed Tag.zero) none (some fun _ => 7) 16 =
          some (s', db', SQLITE_OK) ∧
      db'.aDb[0]? = some d' ∧
      Rekeyed firstByteAE (fun _ => firstPage) (newKey (some fun _ => 7) 16)
        (onePage World.fresh firstPage) ⟨(Codec.keyed Tag.zero).m_bt, none⟩ s' d' := by
  obtain ⟨s', db', h⟩ : ∃ s' db', sqlite3_rekey_v2
      (transactions firstByteAE (fun _ _ => .sample) .none) (onePage World.fresh firstPage) plainDb
      (.keyed Tag.zero) none (some fun _ => 7) 16 = some (s', db', SQLITE_OK) := ⟨_, _, rfl⟩
  have noCodec (codec : Codec) (member : codec ∈ (none : Option Codec)) : False := by cases member
  obtain ⟨d', at_, rekeyed⟩ := rekey_preserves_pages firstByteAE (fun _ _ => .sample)
    (fun _ => firstPage) (d := ⟨(Codec.keyed Tag.zero).m_bt, none⟩) rfl
    ⟨fun codec member => (noCodec codec member).elim,
      fun codec member => (noCodec codec member).elim⟩
    (fun n _ => (loads_plain_iff firstByteAE).mpr rfl) (fun n _ => firstPage_length)
    (fun _ => firstPage_first) h
  exact ⟨s', db', d', h, at_, rekeyed⟩

end TeeSqlite
