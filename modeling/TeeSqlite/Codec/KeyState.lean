import TeeSqlite.Codec.Databases
import TeeSqlite.Codec.Rekey

/-! The keys and flags of the codecs between the calls that set them. A codec in use
has one key for both directions, unless taking the key away failed. -/
namespace TeeSqlite
open ByteFile CTypes Runs

section
variable {π : Type} (p : PagerCalls π)

theorem rewritePages_settings (nSkip : BitVec 32) (left : Nat) (n : BitVec 32) (s : π)
    (codec : Codec) : (rewritePages p nSkip left n s codec).codec.settings = codec.settings := by
  induction left generalizing n s codec with
  | zero => rfl
  | succ left ih =>
    unfold rewritePages
    dsimp only
    split_ifs
    · exact ih _ _ _
    · exact p.get_settings s codec n
    · rw [p.write_settings, p.get_settings]
    · rw [ih, p.write_settings, p.get_settings]

theorem rekeyTransaction_settings (nSkip : BitVec 32) (s : π) (codec : Codec) :
    (rekeyTransaction p nSkip s codec).codec.settings = codec.settings := by
  unfold rekeyTransaction
  dsimp only
  split_ifs
  all_goals
    simp only [p.rollback_settings, p.commit_settings, rewritePages_settings, p.begin_settings]

/-- The pages from `n` on, of which `left` are left, can be got and written. -/
def PagesSucceed (nSkip : BitVec 32) : Nat → BitVec 32 → π → Codec → Prop
  | 0, _, _, _ => True
  | left + 1, n, s, codec =>
    if n = nSkip then PagesSucceed nSkip left (n + 1) s codec
    else
      let got := p.sqlite3PagerGet s codec n
      let written := p.sqlite3PagerWrite got.pager got.codec n
      got.rc = SQLITE_OK ∧ written.rc = SQLITE_OK ∧
        PagesSucceed nSkip left (n + 1) written.pager written.codec

/-- No call of the pager or the b-tree ends in an error. -/
def TransactionSucceeds (nSkip : BitVec 32) (s : π) (codec : Codec) : Prop :=
  let begun := p.sqlite3BtreeBeginTrans s codec
  let nPage := p.sqlite3PagerPagecount begun.pager
  let rewritten := rewritePages p nSkip nPage 1 begun.pager begun.codec
  begun.rc = SQLITE_OK ∧ PagesSucceed p nSkip nPage 1 begun.pager begun.codec ∧
    (p.sqlite3BtreeCommit rewritten.pager rewritten.codec).rc = SQLITE_OK

theorem rewritePages_ok_iff (nSkip : BitVec 32) (left : Nat) (n : BitVec 32) (s : π)
    (codec : Codec) :
    (rewritePages p nSkip left n s codec).rc = SQLITE_OK ↔
      PagesSucceed p nSkip left n s codec := by
  induction left generalizing n s codec with
  | zero => exact iff_of_true rfl trivial
  | succ left ih =>
    unfold rewritePages PagesSucceed
    dsimp only
    split_ifs with skip got written
    · exact ih _ _ _
    · exact iff_of_false got fun both => got both.1
    · exact iff_of_false written fun both => written both.2.1
    · rw [ih, not_not.mp got, not_not.mp written]
      exact ⟨fun rest => ⟨rfl, rfl, rest⟩, fun all => all.2.2⟩

theorem rekeyTransaction_ok_iff (nSkip : BitVec 32) (s : π) (codec : Codec) :
    (rekeyTransaction p nSkip s codec).rc = SQLITE_OK ↔ TransactionSucceeds p nSkip s codec := by
  unfold rekeyTransaction TransactionSucceeds
  dsimp only
  rw [← rewritePages_ok_iff]
  generalize p.sqlite3BtreeBeginTrans s codec = begun
  by_cases started : begun.rc = SQLITE_OK
  · simp only [if_pos started]
    generalize rewritePages p nSkip _ 1 begun.pager begun.codec = rewritten
    by_cases pages : rewritten.rc = SQLITE_OK
    · simp only [if_pos pages]
      split_ifs with committed
      · exact iff_of_false committed fun all => committed all.2.2
      · exact iff_of_true (not_not.mp committed) ⟨started, pages, not_not.mp committed⟩
    · simp only [if_neg pages, if_pos pages]
      exact iff_of_false pages fun all => pages all.2.1
  · simp only [if_neg started, if_pos started]
    exact iff_of_false started fun all => started all.1

end

/-- Every codec that is attached is in use, with one key for both directions. -/
def KeyStates (db : Sqlite3) : Prop := ∀ d ∈ db.aDb, d.Attached

/-- A call that sets, inherits or changes a key. A rekey brings its pager along, in
whatever state, so that every call of the pager may end in any way. -/
inductive KeyCall (π : Type)
  | sqlite3_key_v2 (fresh : Codec) (zDbName : Option CStr) (zKey : Option Pointee) (nKey : Int)
  | sqlite3CodecAttach (fresh : Codec) (nDb : Nat)
  | sqlite3_rekey_v2 (p : PagerCalls π) (s : π) (fresh : Codec) (zDbName : Option CStr)
      (zKey : Option Pointee) (nKey : Int)

section
variable {π : Type}

/-- An attachment without a key has the length that `sqlite3CodecGetKey` reports. -/
def keyStep (db : Sqlite3) : KeyCall π → Option (Sqlite3 × ResultCode)
  | .sqlite3_key_v2 fresh zDbName zKey nKey =>
    (sqlite3_key_v2 db fresh zDbName zKey nKey).map fun db => (db, SQLITE_OK)
  | .sqlite3CodecAttach fresh nDb =>
    let (zKey, nKey) := sqlite3CodecGetKey db nDb
    (sqlite3CodecAttach db.aDb fresh nDb zKey nKey).map fun aDb => ({ db with aDb }, SQLITE_OK)
  | .sqlite3_rekey_v2 p s fresh zDbName zKey nKey =>
    (sqlite3_rekey_v2 p s db fresh zDbName zKey nKey).map fun r => r.2

/-- The call is no rekey without a key that fails on an encrypted database. -/
def NoFailedDecryption (db : Sqlite3) : KeyCall π → Prop
  | .sqlite3_rekey_v2 p s _ zDbName zKey nKey =>
    zKey = none ∨ nKey = 0 → ∀ d ∈ db.aDb[dbFindIndex db zDbName]?, ∀ codec ∈ d.pCodec,
      codec.m_isEncrypted = true →
        TransactionSucceeds p (WX_PAGER_MJ_PGNO d.pBt.pageSize) s (CodecSetHasWriteKey codec false)
  | _ => True

theorem settings_flags {c c' : Codec} (same : c.settings = c'.settings) :
    c.m_isEncrypted = c'.m_isEncrypted ∧ c.m_hasReadKey = c'.m_hasReadKey ∧
      c.m_hasWriteKey = c'.m_hasWriteKey := by
  simp only [Codec.settings, Codec.mk.injEq] at same
  obtain ⟨encrypted, hasRead, -, hasWrite, -⟩ := same
  exact ⟨encrypted, hasRead, hasWrite⟩

/-- What a rekey leaves of its codec, from the flags it had in the transaction. -/
theorem rekeyDone_attached {codec : Codec} (encrypted : codec.m_isEncrypted = true)
    (flags : codec.m_hasReadKey = true ∨ codec.m_hasWriteKey = true) (bt : Btree)
    (rc : ResultCode) :
    Db.Attached ⟨bt, if (rekeyDone codec rc).m_isEncrypted then some (rekeyDone codec rc)
      else none⟩ ↔ (codec.m_hasWriteKey = false → rc = SQLITE_OK) := by
  obtain ⟨enc, read, readKey, write, writeKey, op, obj, m_bt, m_page⟩ := codec
  obtain rfl : enc = true := encrypted
  unfold Db.Attached rekeyDone
  by_cases ok : rc = SQLITE_OK
  · simp only [if_pos ok]
    apply iff_of_true _ fun _ => ok
    cases write with
    | false => rintro _ ⟨⟩
    | true =>
      rintro _ ⟨⟩
      exact ⟨⟨rfl, rfl, rfl⟩, rfl⟩
  · simp only [if_neg ok]
    cases read with
    | false =>
      have write := flags.resolve_left Bool.false_ne_true
      apply iff_of_true
      · rintro _ ⟨⟩
      · intro none_written
        exact absurd (none_written.symm.trans write) Bool.false_ne_true
    | true =>
      cases write with
      | false =>
        apply iff_of_false
        · intro attached
          exact absurd (attached _ rfl).1.hasWrite Bool.false_ne_true
        · exact fun kept => ok (kept rfl)
      | true =>
        apply iff_of_true
        · rintro _ ⟨⟩
          exact ⟨⟨rfl, rfl, rfl⟩, rfl⟩
        · exact fun other => absurd other.symm Bool.false_ne_true

theorem attached_set {aDb : List Db} (states : ∀ d ∈ aDb, d.Attached) {i : Nat} {d : Db}
    (h : i < aDb.length) : (∀ d' ∈ aDb.set i d, d'.Attached) ↔ d.Attached := by
  constructor
  · intro all
    exact all d (List.mem_set h d)
  · intro attached d' member
    rcases List.mem_or_eq_of_mem_set member with old | rfl
    · exact states d' old
    · exact attached

/-- A rekey keeps the states just when it does not fail to take a key away. -/
theorem rekey_keeps_iff (p : PagerCalls π) (s : π) {db db' : Sqlite3} (states : KeyStates db)
    {fresh : Codec} {zDbName : Option CStr} {zKey : Option Pointee} {nKey : Int} {s' : π}
    {rc : ResultCode}
    (h : sqlite3_rekey_v2 p s db fresh zDbName zKey nKey = some (s', db', rc)) :
    KeyStates db' ↔ NoFailedDecryption db (.sqlite3_rekey_v2 p s fresh zDbName zKey nKey) := by
  unfold NoFailedDecryption
  dsimp only
  obtain ⟨d, at_⟩ := rekey_found h
  have attached := states d (List.mem_of_getElem? at_)
  have inside := (List.getElem?_eq_some_iff.mp at_).1
  rw [at_]
  -- the flags that the codec has in the transaction decide
  have kept {codec : Codec} (chosen : rekeyCodec d fresh zKey nKey = some codec)
      (encrypted : codec.m_isEncrypted = true)
      (flags : codec.m_hasReadKey = true ∨ codec.m_hasWriteKey = true) :
      KeyStates db' ↔ (codec.m_hasWriteKey = false →
        TransactionSucceeds p (WX_PAGER_MJ_PGNO d.pBt.pageSize) s codec) := by
    rw [rekey_chosen at_ chosen] at h
    cases h
    obtain ⟨enc, read, write⟩ :=
      settings_flags (rekeyTransaction_settings p (WX_PAGER_MJ_PGNO d.pBt.pageSize) s codec)
    rw [← rekeyTransaction_ok_iff, ← write]
    unfold KeyStates
    rw [attached_set states inside]
    apply rekeyDone_attached (enc.trans encrypted)
    rw [read, write]
    exact flags
  unfold rekeyCodec at kept
  have noKey : (if nKey = 0 then none else zKey) = none ↔ zKey = none ∨ nKey = 0 := by
    split_ifs with zero
    · exact iff_of_true rfl (.inr zero)
    · exact ⟨.inl, fun either => either.resolve_right zero⟩
  cases held : d.pCodec with
  | none =>
    have vacuous : ∀ d' ∈ some d, ∀ codec ∈ d'.pCodec, codec.m_isEncrypted = true →
        TransactionSucceeds p (WX_PAGER_MJ_PGNO d'.pBt.pageSize) s
          (CodecSetHasWriteKey codec false) := by
      rintro _ ⟨⟩ codec member
      rw [held] at member
      cases member
    apply iff_of_true _ fun _ => vacuous
    rw [held] at kept
    cases key : if nKey = 0 then none else zKey with
    | none =>
      have idle : rekeyCodec d fresh zKey nKey = none := by
        rw [rekeyCodec, held, key]
        rfl
      rw [rekey_idle at_ idle] at h
      cases h
      exact states
    | some k =>
      rw [key] at kept
      exact (kept rfl rfl (.inr rfl)).mpr fun other => absurd other.symm Bool.false_ne_true
  | some codec =>
    obtain ⟨keyed, -⟩ := attached codec held
    rw [held, Option.filter_some, if_pos keyed.encrypted] at kept
    cases key : if nKey = 0 then none else zKey with
    | none =>
      rw [key] at kept
      rw [kept rfl keyed.encrypted (.inl keyed.hasRead)]
      constructor
      · rintro succeeds - _ ⟨⟩ codec' member -
        obtain rfl := Option.some.inj (held.symm.trans member)
        exact succeeds rfl
      · intro takes _
        exact takes (noKey.mp key) d rfl codec held keyed.encrypted
    | some k =>
      rw [key] at kept
      apply iff_of_true
      · apply (kept rfl keyed.encrypted (.inr rfl)).mpr
        exact fun other => absurd other.symm Bool.false_ne_true
      · intro none_given
        exact absurd (key.symm.trans (noKey.mpr none_given)) (Option.some_ne_none k)

/-- The next call keeps the states just when it does not fail to take a key away. -/
theorem keyStep_keeps_iff {db db' : Sqlite3} (states : KeyStates db) {call : KeyCall π}
    {rc : ResultCode} (h : keyStep db call = some (db', rc)) :
    KeyStates db' ↔ NoFailedDecryption db call := by
  cases call with
  | sqlite3_key_v2 fresh zDbName zKey nKey =>
    apply iff_of_true _ trivial
    obtain ⟨keyed, set, made⟩ := Option.map_eq_some_iff.mp h
    obtain ⟨aDb, attached, rfl⟩ := Option.map_eq_some_iff.mp set
    cases made
    exact attach_keeps_attached states attached
  | sqlite3CodecAttach fresh nDb =>
    apply iff_of_true _ trivial
    obtain ⟨aDb, attached, made⟩ := Option.map_eq_some_iff.mp h
    cases made
    exact attach_keeps_attached states attached
  | sqlite3_rekey_v2 p s fresh zDbName zKey nKey =>
    obtain ⟨⟨s', r⟩, rekeyed, made⟩ := Option.map_eq_some_iff.mp h
    cases made
    exact rekey_keeps_iff p s states rekeyed

/-- Mode 6 is an encryption with the write key. -/
def Seals (codec : Codec) : Prop :=
  ∀ {σ τ : Type} (u : TeeCalls σ) (t : TagStore τ) (w : World σ τ) (fr : Frame) (data : Bytes)
    (page : BitVec 32) (c : Called σ τ), sqlite3Codec u t w (some codec) fr data page 6 = some c →
    ∃ codec' out, CodecEncrypt u t w codec fr page (data.take codec.m_bt.pageSize) true =
      some (c.world, codec', out) ∧ c.page = some out

theorem Keyed.seals {codec : Codec} (keyed : Keyed codec) : Seals codec := by
  intro σ τ u t w fr data page c call
  rw [sqlite3Codec_encrypts w keyed.encrypted fr data page (.inl rfl) keyed.hasWrite] at call
  obtain ⟨⟨w', codec', out⟩, encrypted, rfl⟩ := Option.map_eq_some_iff.mp call
  exact ⟨codec', out, encrypted, rfl⟩

/-- In every run without a failed decryption of a database, every codec attached is in
use with one key and seals what mode 6 returns; and the next call keeps it so just
when it is no such failure. -/
theorem key_states_kept {db₀ db : Sqlite3} (start : KeyStates db₀)
    {h : List (KeyCall π × ResultCode)} (run : Run keyStep NoFailedDecryption db₀ h db) :
    KeyStates db ∧ (∀ d ∈ db.aDb, ∀ codec ∈ d.pCodec, Seals codec) ∧
      ∀ (call : KeyCall π) (db' : Sqlite3) (rc : ResultCode), keyStep db call = some (db', rc) →
        (KeyStates db' ↔ NoFailedDecryption db call) := by
  have states : KeyStates db := by
    apply run.invariant (fun _ db => KeyStates db) start
    intro _ db call db' rc states unfailing answered
    exact (keyStep_keeps_iff states answered).mpr unfailing
  refine ⟨states, ?_, ?_⟩
  · intro d member codec held
    exact (states d member codec held).1.seals
  · intro call db' rc answered
    exact keyStep_keeps_iff states answered

end

/-- A pager of an empty database. Its transactions begin with the result `rc`. -/
def emptyPager (rc : ResultCode) : PagerCalls Unit where
  sqlite3BtreeBeginTrans s codec := ⟨s, codec, rc⟩
  sqlite3PagerPagecount _ := 0
  sqlite3PagerGet s codec _ := ⟨s, codec, SQLITE_OK⟩
  sqlite3PagerWrite s codec _ := ⟨s, codec, SQLITE_OK⟩
  sqlite3BtreeCommit s codec := ⟨s, codec, SQLITE_OK⟩
  sqlite3BtreeRollback s codec := (s, codec)
  begin_settings _ _ := rfl
  get_settings _ _ _ := rfl
  write_settings _ _ _ := rfl
  commit_settings _ _ := rfl
  rollback_settings _ _ := rfl

def SQLITE_BUSY : ResultCode := 5

/-- A connection with one database and no key. -/
def plainDb : Sqlite3 := ⟨[⟨(Codec.keyed Tag.zero).m_bt, none⟩], fun _ => ⟨[], by decide⟩⟩

theorem plainDb_states : KeyStates plainDb := by
  intro d member codec held
  obtain rfl := List.mem_singleton.mp member
  cases held

/-- The key of zeros is set. -/
def setKey : KeyCall Unit := .sqlite3_key_v2 (.keyed Tag.zero) none (some fun _ => 0) 16

/-- The key is to be taken away. -/
def takeKey (rc : ResultCode) : KeyCall Unit :=
  .sqlite3_rekey_v2 (emptyPager rc) () (.keyed Tag.zero) none none 0

theorem key_set_is_kept :
    ∃ db, Run keyStep NoFailedDecryption plainDb [(setKey, SQLITE_OK)] db ∧ KeyStates db ∧
      db.aDb ≠ plainDb.aDb := by
  obtain ⟨db, run, differs⟩ : ∃ db,
      Run keyStep NoFailedDecryption plainDb [(setKey, SQLITE_OK)] db ∧ db.aDb ≠ plainDb.aDb := by
    refine ⟨_, .next .start trivial rfl, ?_⟩
    intro same
    cases same
  exact ⟨db, run, (key_states_kept plainDb_states run).1, differs⟩

/-- The database is locked when its key is to be taken away: the write flag stays
down. -/
theorem failed_decryption_drops_the_write_flag :
    ∃ db, Run keyStep Free plainDb [(takeKey SQLITE_BUSY, SQLITE_BUSY), (setKey, SQLITE_OK)] db ∧
      ¬ KeyStates db := by
  refine ⟨_, .next (.next .start trivial rfl) trivial rfl, ?_⟩
  intro states
  have keyed := (states _ List.mem_cons_self _ rfl).1.hasWrite
  exact absurd keyed Bool.false_ne_true

end TeeSqlite
