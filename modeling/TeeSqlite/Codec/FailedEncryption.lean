import TeeSqlite.Codec.RoundTrip

/-! What becomes of a page whose encryption failed. The results of the TEE are looked
at by nobody, so the page goes out all the same. -/
namespace TeeSqlite
open ByteFile

/-- The calls of a TEE, with a record of their results, the latest first. -/
def TeeCalls.audited {σ : Type} (u : TeeCalls σ) : TeeCalls (σ × List TEE_Result) where
  TEE_AllocateOperation s old mode :=
    let (s', rc, op) := u.TEE_AllocateOperation s.1 old mode
    ((s', rc :: s.2), rc, op)
  TEE_FreeOperation s op := (u.TEE_FreeOperation s.1 op, s.2)
  TEE_AllocateTransientObject s old :=
    let (s', rc, obj) := u.TEE_AllocateTransientObject s.1 old
    ((s', rc :: s.2), rc, obj)
  TEE_FreeTransientObject s obj := (u.TEE_FreeTransientObject s.1 obj, s.2)
  TEE_PopulateTransientObject s obj key :=
    let (s', rc) := u.TEE_PopulateTransientObject s.1 obj key
    ((s', rc :: s.2), rc)
  TEE_SetOperationKey s op obj :=
    let (s', rc) := u.TEE_SetOperationKey s.1 op obj
    ((s', rc :: s.2), rc)
  TEE_AEInit s op nonce :=
    let (s', rc) := u.TEE_AEInit s.1 op nonce
    ((s', rc :: s.2), rc)
  TEE_AEEncryptFinal s op src :=
    let (s', rc, dst, tag) := u.TEE_AEEncryptFinal s.1 op src
    ((s', rc :: s.2), rc, dst, tag)
  TEE_AEDecryptFinal s op src tag :=
    let (s', rc, dst) := u.TEE_AEDecryptFinal s.1 op src tag
    ((s', rc :: s.2), rc, dst)

/-- A final encryption that fails leaves its destination, the page itself, as it was. -/
def LeavesDestination {σ : Type} (u : TeeCalls σ) : Prop :=
  ∀ s op src, (u.TEE_AEEncryptFinal s op src).2.1 ≠ TEE_SUCCESS →
    (u.TEE_AEEncryptFinal s op src).2.2.1.1 = src

section
variable {σ : Type} (u : TeeCalls σ)

theorem CodecAES_any_mac (s : σ) (codec : Codec) (data : Bytes) (p_mac p_mac' : Tag)
    (useWriteKey : Bool) : CodecAES u s codec true data p_mac useWriteKey =
      CodecAES u s codec true data p_mac' useWriteKey := by
  simp only [CodecAES, ↓reduceIte]

/-- What the TEE answers to the calls for one piece, after what it answered before. -/
def pieceAnswers (s : σ × List TEE_Result) (codec : Codec) (piece : Bytes) (useWriteKey : Bool) :
    (σ × List TEE_Result) × Codec :=
  let (s, codec, _, _) := CodecAES u.audited s codec true piece Tag.zero useWriteKey
  (s, codec)

/-- What it answers to the calls for a page: page 1 is encrypted in two pieces. -/
def pageAnswers (s : σ) (codec : Codec) (page : BitVec 32) (data : Bytes) (useWriteKey : Bool) :
    List TEE_Result :=
  if page = 1 then
    let (s, codec) := pieceAnswers u (s, []) codec (data.take 16) useWriteKey
    (pieceAnswers u s codec (data.drop 16) useWriteKey).1.2
  else (pieceAnswers u (s, []) codec data useWriteKey).1.2

/-- An encryption of a page goes through whatever the TEE answers, and what a failed
final call left is what is stored. -/
theorem CodecEncrypt_audited (s : σ) (mem : Mem) (tag : TagMap) (codec : Codec) (fr : Frame)
    (page : BitVec 32) (data : Bytes) (useWriteKey : Bool) :
    ∃ w' codec' out, CodecEncrypt u.audited finiteMapStore ⟨(s, []), mem, tag⟩ codec fr page data
        useWriteKey = some (w', codec', out) ∧
      w'.tee.2 = pageAnswers u s codec page data useWriteKey := by
  by_cases first : page = 1
  · subst first
    simp only [CodecEncrypt, ↓reduceIte, finiteMapStore, Option.bind_eq_bind, Option.bind_some,
      pageAnswers, pieceAnswers]
    refine ⟨_, _, _, rfl, ?_⟩
    dsimp only
    rw [drop_splice_take data (length_CodecAES u.audited _ _ _ _ _),
      CodecAES_any_mac u.audited _ _ _ _ Tag.zero,
      CodecAES_any_mac u.audited (s, []) _ _ _ Tag.zero]
  · simp only [CodecEncrypt, first, ↓reduceIte, finiteMapStore, Option.bind_eq_bind,
      Option.bind_some, List.drop_zero, pageAnswers, pieceAnswers]
    exact ⟨_, _, _, rfl, by rw [CodecAES_any_mac]⟩

/-- The last answer for a piece is that of the final call, and a piece that failed is
still the text. -/
theorem CodecAES_fails (leaves : LeavesDestination u) (s : σ × List TEE_Result) (codec : Codec)
    (data : Bytes) (p_mac : Tag) (useWriteKey : Bool) :
    ∃ rc log, (CodecAES u.audited s codec true data p_mac useWriteKey).1.2 = rc :: log ∧
      (rc ≠ TEE_SUCCESS →
        (CodecAES u.audited s codec true data p_mac useWriteKey).2.2.1 = data) := by
  simp only [CodecAES, ↓reduceIte]
  exact ⟨_, _, rfl, leaves _ _ _⟩

/-- When the final call for the body fails, the body goes out in clear. -/
theorem failed_body_in_clear (leaves : LeavesDestination u)
    {w w' : World (σ × List TEE_Result) TagMap} {codec codec' : Codec} {fr : Frame}
    {page : BitVec 32} {data out : Bytes} {useWriteKey : Bool} (len : 24 ≤ data.length)
    (h : CodecEncrypt u.audited finiteMapStore w codec fr page data useWriteKey =
      some (w', codec', out)) {rc : TEE_Result} (last : w'.tee.2.head? = some rc)
    (failed : rc ≠ TEE_SUCCESS) : bodyOf page out = bodyOf page data := by
  by_cases first : page = 1
  · subst first
    simp only [CodecEncrypt, ↓reduceIte, finiteMapStore, Option.bind_eq_bind, Option.bind_some,
      Option.some.injEq, Prod.mk.injEq, Mem.setMac_int, Mem.setInt_int, if_neg fr.distinct] at h
    have lenH := length_CodecAES u.audited w.tee codec (data.take 16)
      (((w.mem.setInt fr.page 1).setMac fr.p_mac Tag.zero).mac fr.p_mac) useWriteKey
    generalize CodecAES u.audited w.tee codec true (data.take 16)
      (((w.mem.setInt fr.page 1).setMac fr.p_mac Tag.zero).mac fr.p_mac) useWriteKey = one at h lenH
    rw [drop_splice_take data lenH,
      CodecAES_any_mac u.audited one.1 one.2.1 (data.drop 16) _ Tag.zero] at h
    obtain ⟨rc', log, answers, clear⟩ := CodecAES_fails u leaves one.1 one.2.1 (data.drop 16)
      Tag.zero useWriteKey
    obtain ⟨rfl, -, rfl⟩ := h
    rw [answers] at last
    obtain rfl : rc' = rc := Option.some.inj last
    -- the body is in clear behind the first piece, and its first 8 bytes stay there
    have lenH16 : one.2.2.1.length = 16 := by rw [lenH, List.length_take]; omega
    have lenC8 : (dbHeaderOf data).length = 8 := by
      rw [dbHeaderOf, List.length_take, List.length_drop]
      omega
    have laid : splice (splice data 0 one.2.2.1) 16 (data.drop 16) = one.2.2.1 ++ data.drop 16 := by
      have whole := splice_first (data.take 16) (data.drop 16) lenH
      have rest := splice_middle one.2.2.1 (data.drop 16) [] rfl lenH16
      rw [List.take_append_drop] at whole
      rw [List.append_nil] at rest
      rw [whole, rest]
    have moved : dbHeaderOf (one.2.2.1 ++ data.drop 16) = (data.drop 16).take 8 := by
      rw [dbHeaderOf, List.drop_left' lenH16]
    rw [clear failed, laid, moved, splice_header lenH16 lenC8 lenC8, dbHeaderOf,
      List.take_append_drop, bodyOf, if_pos rfl]
    apply (take_pieces _ _).2
    · rw [List.length_take, lenH16]
      rfl
    · exact lenC8
  · simp only [CodecEncrypt, first, ↓reduceIte, finiteMapStore, Option.bind_eq_bind,
      Option.bind_some, Option.some.injEq, Prod.mk.injEq, Mem.setMac_int, Mem.setInt_int,
      List.drop_zero] at h
    obtain ⟨rc', log, answers, clear⟩ := CodecAES_fails u leaves w.tee codec data
      (((w.mem.setInt fr.page page).setMac fr.p_mac Tag.zero).mac fr.p_mac) useWriteKey
    obtain ⟨rfl, -, rfl⟩ := h
    rw [answers] at last
    obtain rfl : rc' = rc := Option.some.inj last
    rw [clear failed, splice_zero _ _ rfl]

/-- With a failed call the pager gets NULL, the tag of the page stays what it was, and
no page is returned with its body in clear. -/
def FailsSafely (tag : TagMap) (page : BitVec 32) (data : Bytes)
    (c : Called (σ × List TEE_Result) TagMap) : Prop :=
  (∃ rc ∈ c.world.tee.2, rc ≠ TEE_SUCCESS) →
    c.page = none ∧ c.world.tag page = tag page ∧
      ∀ out ∈ c.page, bodyOf page out ≠ bodyOf page data

/-- A page is handed to the pager whatever the TEE answers. -/
theorem write_audited (s : σ) (mem : Mem) (tag : TagMap) {codec : Codec} (keyed : Keyed codec)
    (fr : Frame) (page : BitVec 32) (data : Bytes) (size : data.length = codec.m_bt.pageSize)
    {nMode : Nat} (mode : nMode = 6 ∨ nMode = 7) :
    ∃ c out, sqlite3Codec u.audited finiteMapStore ⟨(s, []), mem, tag⟩ (some codec) fr data page
        nMode = some c ∧ c.page = some out ∧
      c.world.tee.2 = pageAnswers u s codec page data (nMode = 6) ∧
      (LeavesDestination u → ∀ rc ∈ c.world.tee.2.head?, rc ≠ TEE_SUCCESS →
        bodyOf page out = bodyOf page data) := by
  have least := codec.m_bt.least
  obtain ⟨w', codec', out, encrypted, answers⟩ :=
    CodecEncrypt_audited u s mem tag codec fr page data (nMode = 6)
  have whole : data.take codec.m_bt.pageSize = data := by rw [← size, List.take_length]
  have clear (leaves : LeavesDestination u) (rc : TEE_Result) (last : rc ∈ w'.tee.2.head?)
      (failed : rc ≠ TEE_SUCCESS) : bodyOf page out = bodyOf page data :=
    failed_body_in_clear u leaves (by omega) encrypted last failed
  refine ⟨⟨w', some { codec' with m_page := splice codec'.m_page 4 out }, data, some out⟩, out, ?_,
    rfl, answers, clear⟩
  have hasKey : (if nMode = 6 then codec.m_hasWriteKey else codec.m_hasReadKey) = true := by
    rw [keyed.hasWrite, keyed.hasRead, ite_self]
  rw [sqlite3Codec_encrypts _ keyed.encrypted fr data page mode hasKey, whole, encrypted]
  rfl

/-- A write fails safely just when no call of the TEE for it fails. -/
theorem fails_safely_iff (s : σ) (mem : Mem) (tag : TagMap) {codec : Codec} (keyed : Keyed codec)
    (fr : Frame) (page : BitVec 32) (data : Bytes) (size : data.length = codec.m_bt.pageSize)
    {nMode : Nat} (mode : nMode = 6 ∨ nMode = 7) :
    ∃ c, sqlite3Codec u.audited finiteMapStore ⟨(s, []), mem, tag⟩ (some codec) fr data page nMode =
        some c ∧
      (FailsSafely tag page data c ↔
        ∀ rc ∈ pageAnswers u s codec page data (nMode = 6), rc = TEE_SUCCESS) := by
  obtain ⟨c, out, called, handed, answers, -⟩ :=
    write_audited u s mem tag keyed fr page data size mode
  refine ⟨c, called, ?_⟩
  rw [← answers]
  constructor
  · intro safe rc answered
    by_contra failed
    obtain ⟨null, -⟩ := safe ⟨rc, answered, failed⟩
    cases handed.symm.trans null
  · rintro succeeded ⟨rc, answered, failed⟩
    exact absurd (succeeded rc answered) failed

end

theorem fails_safely_without_failure :
    ∃ c, sqlite3Codec (idealCalls firstByteAE).audited finiteMapStore
        ⟨(.blank, []), .blank, fun _ => none⟩ (some (.keyed Tag.zero)) .sample
        (List.replicate 512 1) 2 6 = some c ∧
      FailsSafely (fun _ => none) 2 (List.replicate 512 1) c := by
  obtain ⟨c, called, iff⟩ := fails_safely_iff (idealCalls firstByteAE) .blank .blank (fun _ => none)
    (keyed_keyed Tag.zero) .sample 2 (List.replicate 512 1) List.length_replicate
    (show 6 = 6 ∨ 6 = 7 from .inl rfl)
  refine ⟨c, called, iff.mpr ?_⟩
  have answers : pageAnswers (idealCalls firstByteAE) .blank (.keyed Tag.zero) 2
      (List.replicate 512 1) true = List.replicate 6 TEE_SUCCESS := rfl
  intro rc answered
  exact List.eq_of_mem_replicate (answers ▸ answered)

def TEE_ERROR_OUT_OF_MEMORY : TEE_Result := 0xFFFF000C

/-- A TEE whose final encryptions all fail. -/
def failingCalls : TeeCalls Setup :=
  { idealCalls firstByteAE with
    TEE_AEEncryptFinal := fun s _ src => (s, TEE_ERROR_OUT_OF_MEMORY, ⟨src, rfl⟩, Tag.zero) }

theorem failingCalls_leaves : LeavesDestination failingCalls := fun _ _ _ _ => rfl

/-- Page 2 is handed to the pager as it came. -/
theorem failed_page_goes_out :
    ∃ c, sqlite3Codec failingCalls.audited finiteMapStore
        ⟨(.blank, []), .blank, fun _ => none⟩ (some (.keyed Tag.zero)) .sample
        (List.replicate 512 1) 2 6 = some c ∧ c.page = some (List.replicate 512 1) ∧
      ¬ FailsSafely (fun _ => none) 2 (List.replicate 512 1) c := by
  obtain ⟨c, out, called, handed, answers, clear⟩ := write_audited failingCalls .blank .blank
    (fun _ => none) (keyed_keyed Tag.zero) .sample 2 (List.replicate 512 1)
    List.length_replicate (show 6 = 6 ∨ 6 = 7 from .inl rfl)
  have last : c.world.tee.2 = TEE_ERROR_OUT_OF_MEMORY :: List.replicate 5 TEE_SUCCESS := answers
  have failed : TEE_ERROR_OUT_OF_MEMORY ≠ TEE_SUCCESS := by decide
  have same : out = List.replicate 512 1 :=
    clear failingCalls_leaves TEE_ERROR_OUT_OF_MEMORY (by rw [last]; rfl) failed
  refine ⟨c, called, handed.trans (congrArg some same), ?_⟩
  intro safe
  obtain ⟨null, -⟩ := safe ⟨TEE_ERROR_OUT_OF_MEMORY, by rw [last]; exact List.mem_cons_self, failed⟩
  cases handed.symm.trans null

end TeeSqlite
