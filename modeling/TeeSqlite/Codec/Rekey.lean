import TeeSqlite.Codec.TagSlot

/-! Setting and changing the key of a database, the rest of `codecext.c`. The pager
and the b-tree are any that leave the keys and the flags of the codec alone. -/
namespace TeeSqlite
open ByteFile CTypes

/-- 0 is `SQLITE_OK`. -/
abbrev ResultCode := Int

def SQLITE_OK : ResultCode := 0

/-- The byte of a database file that locks are set on. -/
def PENDING_BYTE : Nat := 0x40000000

/-- The page of the lock byte, which holds no data. -/
def WX_PAGER_MJ_PGNO (pageSize : Nat) : BitVec 32 := BitVec.ofNat 32 (PENDING_BYTE / pageSize + 1)

/-- What a call of the pager or the b-tree leaves: their state, and the codec that the
pager holds. -/
structure PagerResult (π : Type) where
  pager : π
  codec : Codec
  rc : ResultCode

/-- The calls of pager and b-tree in a rekey. All they do with the codec is to pass it
to `sqlite3Codec`. -/
structure PagerCalls (π : Type) where
  sqlite3BtreeBeginTrans : π → Codec → PagerResult π
  sqlite3PagerPagecount : π → Fin (2 ^ 31)
  sqlite3PagerGet : π → Codec → BitVec 32 → PagerResult π
  sqlite3PagerWrite : π → Codec → BitVec 32 → PagerResult π
  sqlite3BtreeCommit : π → Codec → PagerResult π
  sqlite3BtreeRollback : π → Codec → π × Codec
  begin_settings : ∀ s c, (sqlite3BtreeBeginTrans s c).codec.settings = c.settings
  get_settings : ∀ s c n, (sqlite3PagerGet s c n).codec.settings = c.settings
  write_settings : ∀ s c n, (sqlite3PagerWrite s c n).codec.settings = c.settings
  commit_settings : ∀ s c, (sqlite3BtreeCommit s c).codec.settings = c.settings
  rollback_settings : ∀ s c, (sqlite3BtreeRollback s c).2.settings = c.settings

/-- A connection: its databases, and what each is called. -/
structure Sqlite3 where
  aDb : List Db
  zName : Nat → CStr

/-- The first database of that name, and the main one if there is none. -/
def dbFindIndex (db : Sqlite3) (zDb : Option CStr) : Nat :=
  match zDb with
  | none => 0
  | some zDb => ((List.range db.aDb.length).find? (db.zName · = zDb)).getD 0

/-- There never is a key to tell, only whether the main database has one. -/
def sqlite3CodecGetKey (db : Sqlite3) (_nDb : Nat) : Option Pointee × Int :=
  match db.aDb.head?.bind Db.pCodec with
  | some mainCodec => (none, if mainCodec.m_isEncrypted then 1 else 0)
  | none => (none, 0)

def sqlite3_key_v2 (db : Sqlite3) (fresh : Codec) (zDbName : Option CStr) (zKey : Option Pointee)
    (nKey : Int) : Option Sqlite3 :=
  (sqlite3CodecAttach db.aDb fresh (dbFindIndex db zDbName) zKey nKey).map fun aDb =>
    { db with aDb }

/-- The codec that a rekey works with: `none` when there is nothing to do. -/
def rekeyCodec (d : Db) (fresh : Codec) (zKey : Option Pointee) (nKey : Int) : Option Codec :=
  match d.pCodec.filter Codec.m_isEncrypted, if nKey = 0 then none else zKey with
  | none, none => none
  | none, some key =>
    let codec := d.pCodec.getD (CodecInit fresh)
    let codec :=
      CodecSetHasWriteKey (CodecSetHasReadKey (CodecSetIsEncrypted codec true) false) true
    some (CodecSetBtree (CodecGenerateWriteKey codec key nKey) d.pBt)
  | some codec, none => some (CodecSetHasWriteKey codec false)
  | some codec, some key => some (CodecSetHasWriteKey (CodecGenerateWriteKey codec key nKey) true)

section
variable {π : Type} (p : PagerCalls π)

/-- The pages from `n` on, of which `left` are left. -/
def rewritePages (nSkip : BitVec 32) : Nat → BitVec 32 → π → Codec → PagerResult π
  | 0, _, s, codec => ⟨s, codec, SQLITE_OK⟩
  | left + 1, n, s, codec =>
    if n = nSkip then rewritePages nSkip left (n + 1) s codec
    else
      let got := p.sqlite3PagerGet s codec n
      if got.rc ≠ SQLITE_OK then got
      else
        let written := p.sqlite3PagerWrite got.pager got.codec n
        if written.rc ≠ SQLITE_OK then written
        else rewritePages nSkip left (n + 1) written.pager written.codec

/-- All pages are rewritten in one transaction, which is rolled back when that fails. -/
def rekeyTransaction (nSkip : BitVec 32) (s : π) (codec : Codec) : PagerResult π :=
  let begun := p.sqlite3BtreeBeginTrans s codec
  let rewritten :=
    if begun.rc = SQLITE_OK then
      rewritePages p nSkip (p.sqlite3PagerPagecount begun.pager) 1 begun.pager begun.codec
    else begun
  let committed :=
    if rewritten.rc = SQLITE_OK then p.sqlite3BtreeCommit rewritten.pager rewritten.codec
    else rewritten
  if committed.rc ≠ SQLITE_OK then
    let rolled := p.sqlite3BtreeRollback committed.pager committed.codec
    ⟨rolled.1, rolled.2, committed.rc⟩
  else committed

/-- The keys after the transaction: the read key follows the write key when it went
through, and the write key goes back to the read key when it did not. -/
def rekeyDone (codec : Codec) (rc : ResultCode) : Codec :=
  if rc = SQLITE_OK then
    if codec.m_hasWriteKey then CodecSetHasReadKey (CodecCopyKey codec false) true
    else CodecSetIsEncrypted codec false
  else if codec.m_hasReadKey then CodecCopyKey codec true
  else CodecSetIsEncrypted codec false

/-- A database that is not encrypted any more, or did not get to be, has no codec. -/
def sqlite3_rekey_v2 (s : π) (db : Sqlite3) (fresh : Codec) (zDbName : Option CStr)
    (zKey : Option Pointee) (nKey : Int) : Option (π × Sqlite3 × ResultCode) :=
  let dbIndex := dbFindIndex db zDbName
  match db.aDb[dbIndex]? with
  | none => none
  | some d =>
    match rekeyCodec d fresh zKey nKey with
    | none => some (s, db, SQLITE_OK)
    | some codec =>
      let nSkip := WX_PAGER_MJ_PGNO d.pBt.pageSize
      let ended := rekeyTransaction p nSkip s codec
      let codec := rekeyDone ended.codec ended.rc
      let pCodec := if codec.m_isEncrypted then some codec else none
      some (ended.pager, { db with aDb := db.aDb.set dbIndex { d with pCodec } }, ended.rc)

variable {p} {s : π} {db : Sqlite3} {fresh : Codec} {zDbName : Option CStr}
  {zKey : Option Pointee} {nKey : Int} {d : Db}

theorem rekey_found {result : π × Sqlite3 × ResultCode}
    (h : sqlite3_rekey_v2 p s db fresh zDbName zKey nKey = some result) :
    ∃ d, db.aDb[dbFindIndex db zDbName]? = some d := by
  unfold sqlite3_rekey_v2 at h
  dsimp only at h
  cases found : db.aDb[dbFindIndex db zDbName]? with
  | none =>
    rw [found] at h
    cases h
  | some d => exact ⟨d, rfl⟩

theorem rekey_idle (found : db.aDb[dbFindIndex db zDbName]? = some d)
    (idle : rekeyCodec d fresh zKey nKey = none) :
    sqlite3_rekey_v2 p s db fresh zDbName zKey nKey = some (s, db, SQLITE_OK) := by
  simp only [sqlite3_rekey_v2, found, idle]

/-- The transaction is made with the codec that was chosen, and decides what becomes of it. -/
theorem rekey_chosen {codec : Codec} (found : db.aDb[dbFindIndex db zDbName]? = some d)
    (chosen : rekeyCodec d fresh zKey nKey = some codec) :
    sqlite3_rekey_v2 p s db fresh zDbName zKey nKey =
      let ended := rekeyTransaction p (WX_PAGER_MJ_PGNO d.pBt.pageSize) s codec
      let done := rekeyDone ended.codec ended.rc
      let pCodec := if done.m_isEncrypted then some done else none
      some (ended.pager, { db with aDb := db.aDb.set (dbFindIndex db zDbName) { d with pCodec } },
        ended.rc) := by
  simp only [sqlite3_rekey_v2, found, chosen]

end
end TeeSqlite
