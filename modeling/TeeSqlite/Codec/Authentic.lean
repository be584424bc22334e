import TeeSqlite.Codec.CodecExt

/-! What the result of an authenticated decryption is worth: nothing, since no
caller of `CodecAES` gets to see it. -/
namespace TeeSqlite
open ByteFile AuthEnc

section
variable {σ τ : Type} (u : TeeCalls σ) (t : TagStore τ)

/-- The record is of the final calls only. -/
theorem reset_logged (s : σ) (log : List Final) (codec : Codec) (isenc : Bool) (key : Key) :
    reset u.logged (s, log) codec isenc key =
      (((reset u s codec isenc key).1, log), (reset u s codec isenc key).2) := by
  simp only [reset, TeeCalls.logged]
  split <;> split <;> rfl

/-- The result of the final call of a decryption with the read key. -/
def decryptRc (s : σ) (codec : Codec) (src : Bytes) (tag : Tag) : TEE_Result :=
  let (s, codec) := reset u s codec false codec.m_readKey
  (u.TEE_AEDecryptFinal s codec.test_op_handle src tag).2.1

theorem CodecAES_decrypt_logged (s : σ) (log : List Final) (codec : Codec) (src : Bytes)
    (tag : Tag) : ∃ s' codec' dst, CodecAES u.logged (s, log) codec false src tag false =
      ((s', .decrypt src tag (decryptRc u s codec src tag) :: log), codec', dst, tag) := by
  simp only [CodecAES, reset_logged, Bool.false_eq_true, ↓reduceIte]
  exact ⟨_, _, _, rfl⟩

/-- An encryption in place keeps the length. -/
theorem length_CodecAES (s : σ) (codec : Codec) (data : Bytes) (p_mac : Tag) (useWriteKey : Bool) :
    (CodecAES u s codec true data p_mac useWriteKey).2.2.1.length = data.length := by
  simp only [CodecAES, ↓reduceIte]
  exact Subtype.property (p := fun d : Bytes => d.length = data.length) _

/-- The ciphertext of a stored page. -/
def ciphertextOf (page : BitVec 32) (data : Bytes) : Bytes :=
  (locate page data).2.drop (locate page data).1

/-- A page read goes through with one final call, and a page comes back whatever
its result. -/
theorem read_call {mem mem' : Mem} {tag : τ} {codec : Codec} {fr : Frame} {page : BitVec 32}
    {recorded : Option Tag} {nMode : Nat} (s : σ) (data : Bytes) (enc : codec.m_isEncrypted = true)
    (key : codec.m_hasReadKey = true) (mode : nMode = 0 ∨ nMode = 2 ∨ nMode = 3)
    (look : t.hm_get (mem.setInt fr.page page) tag fr.page = some (mem', recorded)) :
    ∃ c page',
      sqlite3Codec u.logged t ⟨(s, []), mem, tag⟩ (some codec) fr data page nMode = some c ∧
      c.page = some page' ∧
      c.world.tee.2 = [.decrypt (ciphertextOf page data) (recorded.getD Tag.zero)
        (decryptRc u s codec (ciphertextOf page data) (recorded.getD Tag.zero))] := by
  obtain ⟨s', codec', dst, aes⟩ := CodecAES_decrypt_logged u s [] codec (ciphertextOf page data)
    (recorded.getD Tag.zero)
  have decrypted : ∃ w' page', CodecDecrypt u.logged t ⟨(s, []), mem, tag⟩ codec fr page data =
      some (w', codec', page') ∧ w'.tee.2 = [.decrypt (ciphertextOf page data)
        (recorded.getD Tag.zero) (decryptRc u s codec (ciphertextOf page data)
          (recorded.getD Tag.zero))] := by
    simp only [CodecDecrypt, look, Option.bind_eq_bind, Option.bind_some]
    rw [← ciphertextOf, aes]
    exact ⟨_, _, rfl, rfl⟩
  obtain ⟨w', page', decrypted, log⟩ := decrypted
  refine ⟨⟨w', some codec', page', some page'⟩, page', ?_, rfl, log⟩
  rw [sqlite3Codec_decrypts _ enc key fr data page mode, decrypted]
  rfl

end

/-- A page is handed out only after a decryption of its ciphertext with the tag
recorded for it succeeded. -/
def OnlyAuthentic (src : Bytes) (recorded : Option Tag) (log : List Final)
    (page : Option Bytes) : Prop :=
  page.isSome = true → ∃ tag, recorded = some tag ∧ Final.decrypt src tag TEE_SUCCESS ∈ log

/-- The codec hands out authentic pages only just when there is a recorded tag and
the TEE accepts it. -/
theorem only_authentic_iff {σ τ : Type} (u : TeeCalls σ) (t : TagStore τ) {mem mem' : Mem}
    {tag : τ} {codec : Codec} {fr : Frame} {page : BitVec 32} {recorded : Option Tag} {nMode : Nat}
    (s : σ) (data : Bytes) (enc : codec.m_isEncrypted = true) (key : codec.m_hasReadKey = true)
    (mode : nMode = 0 ∨ nMode = 2 ∨ nMode = 3)
    (look : t.hm_get (mem.setInt fr.page page) tag fr.page = some (mem', recorded)) :
    ∃ c, sqlite3Codec u.logged t ⟨(s, []), mem, tag⟩ (some codec) fr data page nMode = some c ∧
      (OnlyAuthentic (ciphertextOf page data) recorded c.world.tee.2 c.page ↔
        ∃ tag, recorded = some tag ∧
          decryptRc u s codec (ciphertextOf page data) tag = TEE_SUCCESS) := by
  obtain ⟨c, page', called, handed, log⟩ := read_call u t s data enc key mode look
  refine ⟨c, called, ?_⟩
  rw [OnlyAuthentic, handed, log]
  constructor
  · intro authentic
    obtain ⟨tag, rfl, accepted⟩ := authentic rfl
    have entry := List.mem_singleton.mp accepted
    simp only [Option.getD_some, Final.decrypt.injEq, true_and] at entry
    exact ⟨tag, rfl, entry.symm⟩
  · rintro ⟨tag, rfl, accepted⟩ _
    refine ⟨tag, rfl, ?_⟩
    rw [Option.getD_some, accepted]
    exact List.mem_singleton_self _

/-- A codec with one key for reading and writing, on pages of 512 bytes. -/
def Codec.keyed (key : Key) : Codec where
  m_isEncrypted := true
  m_hasReadKey := true
  m_readKey := key
  m_hasWriteKey := true
  m_writeKey := key
  test_op_handle := TEE_HANDLE_NULL
  test_key_handle := TEE_HANDLE_NULL
  m_bt := ⟨512, by decide, by decide, by decide⟩
  m_page := List.replicate (SQLITE_MAX_PAGE_SIZE + 24) 0

/-- Locals at the addresses 8, 16 and 24. -/
def Frame.sample : Frame := ⟨8, 16, 24, by decide, by decide⟩

/-- A TEE whose scheme gives every page the zero tag. -/
def zeroTagTee : TeeCalls Setup := idealCalls (.ofTag fun _ _ _ => Tag.zero)

def Setup.blank : Setup := ⟨Tag.zero, Tag.zero, []⟩

/-- A page of zeros is read from a database whose tag map has `tag` for every page. -/
def readZeros (tag : Tag) : Option (Called (Setup × List Final) TagMap) :=
  sqlite3Codec zeroTagTee.logged finiteMapStore ⟨(Setup.blank, []), Mem.blank, fun _ => some tag⟩
    (some (.keyed Tag.zero)) .sample (List.replicate 512 0) 2 3

theorem only_authentic_of_zero_tag :
    ∃ c, readZeros Tag.zero = some c ∧
      OnlyAuthentic (ciphertextOf 2 (List.replicate 512 0)) (some Tag.zero) c.world.tee.2
        c.page := by
  obtain ⟨c, called, iff⟩ : ∃ c, readZeros Tag.zero = some c ∧
      (OnlyAuthentic (ciphertextOf 2 (List.replicate 512 0)) (some Tag.zero) c.world.tee.2 c.page ↔
        ∃ tag, some Tag.zero = some tag ∧ decryptRc zeroTagTee Setup.blank (.keyed Tag.zero)
          (ciphertextOf 2 (List.replicate 512 0)) tag = TEE_SUCCESS) :=
    only_authentic_iff zeroTagTee finiteMapStore Setup.blank _ rfl rfl (.inr (.inr rfl)) rfl
  exact ⟨c, called, iff.mpr ⟨Tag.zero, rfl, rfl⟩⟩

/-- The TEE refuses the tag, and the page is handed out all the same. -/
theorem refused_page_is_handed_out :
    ∃ c, readZeros ⟨List.replicate 16 1, rfl⟩ = some c ∧
      ¬ OnlyAuthentic (ciphertextOf 2 (List.replicate 512 0)) (some ⟨List.replicate 16 1, rfl⟩)
        c.world.tee.2 c.page := by
  obtain ⟨c, page, called, handed, log⟩ : ∃ c page, readZeros ⟨List.replicate 16 1, rfl⟩ = some c ∧
      c.page = some page ∧ c.world.tee.2 = [.decrypt (ciphertextOf 2 (List.replicate 512 0))
        ⟨List.replicate 16 1, rfl⟩ TEE_ERROR_MAC_INVALID] :=
    read_call zeroTagTee finiteMapStore Setup.blank _ rfl rfl (.inr (.inr rfl)) rfl
  refine ⟨c, called, ?_⟩
  intro authentic
  rw [OnlyAuthentic, handed, log] at authentic
  obtain ⟨tag, -, accepted⟩ := authentic rfl
  have entry := List.mem_singleton.mp accepted
  simp only [Final.decrypt.injEq] at entry
  exact absurd entry.2.2 (by decide)

end TeeSqlite
