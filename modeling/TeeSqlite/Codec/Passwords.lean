import TeeSqlite.Codec.RoundTrip
import TeeSqlite.Codec.Rekeyed

/-! The key that a password makes, in any two processes. It is `KEYLENGTH` bytes of
memory, so that a shorter password leaves part of the key to what lies behind it. -/
namespace TeeSqlite
open ByteFile AuthEnc CTypes

/-- A memory that has the password at the pointer, and anything behind it. -/
def Holds (password : Bytes) (zKey : Pointee) : Prop :=
  ∀ i (h : i < password.length), zKey i = password[i]

/-- The password with the same byte everywhere behind it. -/
def followedBy (password : Bytes) (b : UInt8) : Pointee := fun i => password[i]?.getD b

theorem holds_followedBy (password : Bytes) (b : UInt8) :
    Holds password (followedBy password b) := by
  intro i h
  rw [followedBy, List.getElem?_eq_getElem h, Option.getD_some]

/-- The codec of a database after a password was attached. -/
def AttachedWith (zKey : Pointee) (nKey : Int) (codec : Codec) : Prop :=
  ∃ aDb fresh nDb aDb' bt, sqlite3CodecAttach aDb fresh nDb (some zKey) nKey = some aDb' ∧
    aDb'[nDb]? = some ⟨bt, some codec⟩

/-- The codec that encrypts the pages in a rekey. -/
def RekeyingWith (zKey : Pointee) (nKey : Int) (codec : Codec) : Prop :=
  ∃ d fresh, rekeyCodec d fresh (some zKey) nKey = some codec

/-- The codec of a database after a rekey that went through. -/
def RekeyedWith (zKey : Pointee) (nKey : Int) (codec : Codec) : Prop :=
  ∃ (π : Type) (p : PagerCalls π) (s s' : π) (db db' : Sqlite3) (fresh : Codec)
      (zDbName : Option CStr) (bt : Btree),
    sqlite3_rekey_v2 p s db fresh zDbName (some zKey) nKey = some (s', db', SQLITE_OK) ∧
      db'.aDb[dbFindIndex db zDbName]? = some ⟨bt, some codec⟩

/-- Codecs that two processes made with one password have one key. -/
def OneKey (password : Bytes) (Made : Pointee → Int → Codec → Prop) (key : Codec → Key) : Prop :=
  ∀ zKey zKey' codec codec', Holds password zKey → Holds password zKey' →
    Made zKey password.length codec → Made zKey' password.length codec' → key codec = key codec'

/-- What one codec writes to the main file loads through the other, from any state that
has the tag recorded then. -/
def OpensWith (ae : PageAE) (codec codec' : Codec) : Prop :=
  ∀ w fr page data, data.length = codec.m_bt.pageSize → (page = 1 → FirstPage data) →
    ∃ c out, sqlite3Codec (idealCalls ae).logged finiteMapStore w (some codec) fr data page 6 =
      some c ∧ c.page = some out ∧
      ∀ later, later.tag page = c.world.tag page → Loads ae later (some codec') page out data

/-- The page key depends on the password and nothing else. -/
structure PasswordOnly (password : Bytes) : Prop where
  readKey : OneKey password AttachedWith Codec.m_readKey
  writeKey : OneKey password RekeyingWith Codec.m_writeKey
  rekeyed : OneKey password RekeyedWith Codec.m_readKey
  opens : ∀ ae zKey zKey' codec codec', Holds password zKey → Holds password zKey' →
    AttachedWith zKey password.length codec ∨ RekeyedWith zKey password.length codec →
    AttachedWith zKey' password.length codec' → OpensWith ae codec codec'

/-- An attached password of any length is in use, and its key is the one generated. -/
theorem AttachedWith.made {zKey : Pointee} {nKey : Int} (positive : 0 < nKey) {codec : Codec}
    (attached : AttachedWith zKey nKey codec) :
    Keyed codec ∧ codec.m_readKey = CodecGenerateEncryptionKey zKey nKey ∧
      codec.m_writeKey = CodecGenerateEncryptionKey zKey nKey := by
  obtain ⟨aDb, fresh, nDb, aDb', bt, call, at_⟩ := attached
  unfold sqlite3CodecAttach at call
  cases old : aDb[nDb]? with
  | none =>
    rw [old] at call
    cases call
  | some db =>
    rw [old] at call
    simp only [if_pos positive, Option.some.injEq] at call
    have inside := (List.getElem?_eq_some_iff.mp old).1
    rw [← call, List.getElem?_set_self inside, Option.some.injEq, Db.mk.injEq,
      Option.some.injEq] at at_
    obtain ⟨-, rfl⟩ := at_
    exact ⟨⟨rfl, rfl, rfl⟩, rfl, rfl⟩

theorem attach_makes (zKey : Pointee) {nKey : Int} (positive : 0 < nKey) :
    ∃ codec, AttachedWith zKey nKey codec := by
  let blank := Codec.keyed Tag.zero
  refine ⟨_, [⟨blank.m_bt, none⟩], blank, 0, _, blank.m_bt, if_pos positive, rfl⟩

theorem RekeyingWith.made {zKey : Pointee} {nKey : Int} (some_key : nKey ≠ 0) {codec : Codec}
    (rekeying : RekeyingWith zKey nKey codec) :
    codec.m_isEncrypted = true ∧ codec.m_hasWriteKey = true ∧
      codec.m_writeKey = CodecGenerateEncryptionKey zKey nKey := by
  obtain ⟨d, fresh, chosen⟩ := rekeying
  unfold rekeyCodec at chosen
  rw [if_neg some_key] at chosen
  cases held : d.pCodec.filter Codec.m_isEncrypted with
  | none =>
    rw [held] at chosen
    cases chosen
    exact ⟨rfl, rfl, rfl⟩
  | some codec =>
    have encrypted := (Option.filter_eq_some_iff.mp held).2
    rw [held] at chosen
    cases chosen
    exact ⟨encrypted, rfl, rfl⟩

/-- A rekey that goes through leaves the key it encrypted with as both keys. -/
theorem RekeyedWith.made {zKey : Pointee} {nKey : Int} (some_key : nKey ≠ 0) {codec : Codec}
    (rekeyed : RekeyedWith zKey nKey codec) :
    Keyed codec ∧ codec.m_readKey = CodecGenerateEncryptionKey zKey nKey ∧
      codec.m_writeKey = CodecGenerateEncryptionKey zKey nKey := by
  obtain ⟨π, p, s, s', db, db', fresh, zDbName, bt, call, at_⟩ := rekeyed
  obtain ⟨d, old⟩ := rekey_found call
  have inside := (List.getElem?_eq_some_iff.mp old).1
  cases chosen : rekeyCodec d fresh (some zKey) nKey with
  | none =>
    unfold rekeyCodec at chosen
    rw [if_neg some_key] at chosen
    cases held : d.pCodec.filter Codec.m_isEncrypted <;> rw [held] at chosen <;> cases chosen
  | some rekeying =>
    obtain ⟨encrypted, hasWrite, key⟩ := RekeyingWith.made some_key ⟨d, fresh, chosen⟩
    have same := rekeyTransaction_settings p (WX_PAGER_MJ_PGNO d.pBt.pageSize) s rekeying
    obtain ⟨enc, -, write⟩ := settings_flags same
    have writeKey := (settings_keys same).2.1
    rw [rekey_chosen old chosen] at call
    simp only [Option.some.injEq, Prod.mk.injEq] at call
    obtain ⟨-, rfl, ok⟩ := call
    rw [ok] at at_
    generalize (rekeyTransaction p _ s rekeying).codec = ended at *
    simp only [rekeyDone, ↓reduceIte, write.trans hasWrite, CodecSetHasReadKey, CodecCopyKey,
      enc.trans encrypted, Bool.false_eq_true, List.getElem?_set_self inside, Option.some.injEq,
      Db.mk.injEq] at at_
    obtain ⟨-, rfl⟩ := at_
    exact ⟨⟨rfl, rfl, rfl⟩, writeKey.trans key, writeKey.trans key⟩

theorem generated_getElem? (zKey : Pointee) (nKey : Int) {i : Nat} (h : i < KEYLENGTH) :
    (CodecGenerateEncryptionKey zKey nKey).1[i]? = some (zKey i) := by
  rw [CodecGenerateEncryptionKey, List.getElem?_ofFn, dif_pos h]

/-- A password as long as the key is all that the key is made of. -/
theorem generated_of_holds {password : Bytes} (long : KEYLENGTH ≤ password.length)
    {zKey zKey' : Pointee} (h : Holds password zKey) (h' : Holds password zKey') (nKey : Int) :
    CodecGenerateEncryptionKey zKey nKey = CodecGenerateEncryptionKey zKey' nKey := by
  apply Subtype.ext
  apply List.ext_getElem
  · rw [(CodecGenerateEncryptionKey zKey nKey).2, (CodecGenerateEncryptionKey zKey' nKey).2]
  · intro i hi hi'
    have inside := (CodecGenerateEncryptionKey zKey nKey).2 ▸ hi
    apply Option.some.inj
    rw [← List.getElem?_eq_getElem, ← List.getElem?_eq_getElem, generated_getElem? _ _ inside,
      generated_getElem? _ _ inside, h i (by omega), h' i (by omega)]

/-- Below the length of the key, two memories with that password differ in the key. -/
theorem generated_of_short {password : Bytes} (short : password.length < KEYLENGTH) (nKey : Int) :
    CodecGenerateEncryptionKey (followedBy password 0) nKey ≠
      CodecGenerateEncryptionKey (followedBy password 1) nKey := by
  intro same
  have behind := congrArg (fun k : Key => k.1[password.length]?) same
  simp only [generated_getElem? _ _ short, followedBy, List.getElem?_length, Option.getD_none,
    Option.some.injEq] at behind
  exact absurd behind (by decide)

theorem opens_of_keys (ae : PageAE) {codec codec' : Codec} (writer : Keyed codec)
    (reader : Keyed codec') (oneKey : codec.m_writeKey = codec'.m_readKey) :
    OpensWith ae codec codec' := by
  intro w fr page data size first
  have least := codec.m_bt.least
  obtain ⟨w', written, write, -, recorded, -⟩ :=
    write_ideal ae w writer.encrypted fr page (.inl ⟨rfl, writer.hasWrite⟩) size
  have key : codec.keyFor (decide ((6 : Nat) = 6)) = codec'.m_readKey := oneKey
  rw [key] at write recorded
  refine ⟨_, _, write, rfl, ?_⟩
  intro later kept
  exact loads_stored ae reader.encrypted reader.hasRead (FirstPage.decodable first) (by omega)
    (kept.trans recorded)

theorem not_password_only {password : Bytes} (positive : 0 < password.length)
    (short : password.length < KEYLENGTH) : ¬ PasswordOnly password := by
  have length : (0 : Int) < password.length := by omega
  intro only
  obtain ⟨codec, attached⟩ := attach_makes (followedBy password 0) length
  obtain ⟨codec', attached'⟩ := attach_makes (followedBy password 1) length
  have same := only.readKey _ _ _ _ (holds_followedBy password 0) (holds_followedBy password 1)
    attached attached'
  rw [(attached.made length).2.1, (attached'.made length).2.1] at same
  exact generated_of_short short _ same

/-- The key is the password's alone just for passwords of at least `KEYLENGTH` bytes. -/
theorem password_only_iff {password : Bytes} (positive : 0 < password.length) :
    PasswordOnly password ↔ KEYLENGTH ≤ password.length := by
  have length : (0 : Int) < password.length := by omega
  have some_key : (password.length : Int) ≠ 0 := by omega
  constructor
  · intro only
    by_contra short
    exact not_password_only positive (Nat.lt_of_not_le short) only
  · intro long
    refine ⟨?_, ?_, ?_, ?_⟩
    · intro zKey zKey' codec codec' h h' attached attached'
      rw [(attached.made length).2.1, (attached'.made length).2.1]
      exact generated_of_holds long h h' _
    · intro zKey zKey' codec codec' h h' rekeying rekeying'
      rw [(rekeying.made some_key).2.2, (rekeying'.made some_key).2.2]
      exact generated_of_holds long h h' _
    · intro zKey zKey' codec codec' h h' rekeyed rekeyed'
      rw [(rekeyed.made some_key).2.1, (rekeyed'.made some_key).2.1]
      exact generated_of_holds long h h' _
    · intro ae zKey zKey' codec codec' h h' made made'
      obtain ⟨reader, readKey, -⟩ := made'.made length
      obtain ⟨writer, -, writeKey⟩ := made.elim (·.made length) (·.made some_key)
      apply opens_of_keys ae writer reader
      rw [writeKey, readKey]
      exact generated_of_holds long h h' _

theorem sixteen_bytes_are_a_key : PasswordOnly (List.replicate 16 0x61) :=
  (password_only_iff (by decide)).mpr (by decide)

/-- `"123456"`, as `exec` passes it. -/
def execPassword : Bytes := [0x31, 0x32, 0x33, 0x34, 0x35, 0x36]

/-- The key of `exec` takes in the bytes behind its password: the NUL, and then
whatever the linker put there. -/
theorem exec_key_takes_in_memory :
    ¬ PasswordOnly execPassword ∧
      CodecGenerateEncryptionKey (followedBy (execPassword ++ [0]) 0) 6 ≠
        CodecGenerateEncryptionKey (followedBy (execPassword ++ [0]) 1) 6 := by
  constructor
  · exact not_password_only (by decide) (by decide)
  · exact generated_of_short (by decide) 6

end TeeSqlite
