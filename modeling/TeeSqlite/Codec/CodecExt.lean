import TeeSqlite.Codec.Codec

/-! The entry points of the codec, `codecext.c`: the one that the pager calls for
every page, and the one that attaches a key to a database. -/
namespace TeeSqlite
open ByteFile

/-- What a call of `sqlite3Codec` leaves: the codec, the pager's own buffer, and
the page behind the pointer it returns. -/
structure Called (σ τ : Type) where
  world : World σ τ
  codec : Option Codec
  data : Bytes
  page : Option Bytes

section
variable {σ τ : Type} (u : TeeCalls σ) (t : TagStore τ)

/-- `data` is the pager's buffer of one page. An encryption is made in the codec's
own buffer, a decryption in the pager's. -/
def sqlite3Codec (w : World σ τ) (pCodecArg : Option Codec) (fr : Frame) (data : Bytes)
    (nPageNum : BitVec 32) (nMode : Nat) : Option (Called σ τ) :=
  match pCodecArg with
  | none => some ⟨w, none, data, some data⟩
  | some codec =>
    if codec.m_isEncrypted then
      let encrypt (useWriteKey : Bool) : Option (Called σ τ) := do
        let pageBuffer := data.take codec.m_bt.pageSize
        let (w, codec, page) ← CodecEncrypt u t w codec fr nPageNum pageBuffer useWriteKey
        some ⟨w, some { codec with m_page := splice codec.m_page 4 page }, data, some page⟩
      match nMode with
      | 0 | 2 | 3 =>
        if codec.m_hasReadKey then do
          let (w, codec, data) ← CodecDecrypt u t w codec fr nPageNum data
          some ⟨w, some codec, data, some data⟩
        else some ⟨w, some codec, data, some data⟩
      | 6 => if codec.m_hasWriteKey then encrypt true else some ⟨w, some codec, data, some data⟩
      | 7 => if codec.m_hasReadKey then encrypt false else some ⟨w, some codec, data, some data⟩
      | _ => some ⟨w, some codec, data, some data⟩
    else some ⟨w, some codec, data, some data⟩

variable {u t}

theorem sqlite3Codec_decrypts (w : World σ τ) {codec : Codec} (enc : codec.m_isEncrypted = true)
    (hasRead : codec.m_hasReadKey = true) (fr : Frame) (data : Bytes) (page : BitVec 32)
    {nMode : Nat} (mode : nMode = 0 ∨ nMode = 2 ∨ nMode = 3) :
    sqlite3Codec u t w (some codec) fr data page nMode =
      (CodecDecrypt u t w codec fr page data).map fun r =>
        ⟨r.1, some r.2.1, r.2.2, some r.2.2⟩ := by
  rcases mode with rfl | rfl | rfl
  all_goals
    simp only [sqlite3Codec, enc, hasRead, ↓reduceIte]
    cases CodecDecrypt u t w codec fr page data <;> rfl

theorem sqlite3Codec_encrypts (w : World σ τ) {codec : Codec} (enc : codec.m_isEncrypted = true)
    (fr : Frame) (data : Bytes) (page : BitVec 32) {nMode : Nat} (mode : nMode = 6 ∨ nMode = 7)
    (hasKey : (if nMode = 6 then codec.m_hasWriteKey else codec.m_hasReadKey) = true) :
    sqlite3Codec u t w (some codec) fr data page nMode =
      (CodecEncrypt u t w codec fr page (data.take codec.m_bt.pageSize) (nMode = 6)).map fun r =>
        ⟨r.1, some { r.2.1 with m_page := splice r.2.1.m_page 4 r.2.2 }, data, some r.2.2⟩ := by
  rcases mode with rfl | rfl
  · rw [if_pos rfl] at hasKey
    simp only [sqlite3Codec, enc, hasKey, ↓reduceIte, decide_true]
    cases CodecEncrypt u t w codec fr page (data.take codec.m_bt.pageSize) true <;> rfl
  · rw [if_neg (by decide)] at hasKey
    simp only [sqlite3Codec, enc, hasKey, ↓reduceIte, show ¬ (7 : Nat) = 6 by decide, decide_false]
    cases CodecEncrypt u t w codec fr page (data.take codec.m_bt.pageSize) false <;> rfl

/-- Without the key of its mode a page passes as it is. -/
theorem sqlite3Codec_raw (w : World σ τ) {codec : Codec} (fr : Frame) (data : Bytes)
    (page : BitVec 32) {nMode : Nat} (noKey : codec.m_isEncrypted = true →
      (if nMode = 6 then codec.m_hasWriteKey else codec.m_hasReadKey) = false) :
    sqlite3Codec u t w (some codec) fr data page nMode =
      some ⟨w, some codec, data, some data⟩ := by
  unfold sqlite3Codec
  by_cases enc : codec.m_isEncrypted = true
  · have lacking := noKey enc
    simp only [enc, ↓reduceIte]
    split
    case h_6 => rfl
    all_goals
      simp only [Nat.reduceEqDiff, ↓reduceIte] at lacking
      simp only [lacking, Bool.false_eq_true, ↓reduceIte]
  · simp only [enc, ↓reduceIte, Bool.false_eq_true]

/-- A relation of the TEE and the codec before to those after, which every `CodecAES` makes
and which composes. -/
structure AesRule (u : TeeCalls σ) (R : σ × Codec → σ × Codec → Prop) : Prop where
  refl : ∀ x, R x x
  trans : ∀ {x y z}, R x y → R y z → R x z
  aes : ∀ s codec encrypt data p_mac useWriteKey, R (s, codec)
    ((CodecAES u s codec encrypt data p_mac useWriteKey).1,
      (CodecAES u s codec encrypt data p_mac useWriteKey).2.1)
  buffer : ∀ {x s codec} m_page, R x (s, codec) → R x (s, { codec with m_page })

namespace AesRule
variable {R : σ × Codec → σ × Codec → Prop} {w w' : World σ τ} {codec codec' : Codec} {fr : Frame}
  {page : BitVec 32} {data out : Bytes}

theorem encrypt (rule : AesRule u R) {useWriteKey : Bool}
    (h : CodecEncrypt u t w codec fr page data useWriteKey = some (w', codec', out)) :
    R (w.tee, codec) (w'.tee, codec') := by
  unfold CodecEncrypt at h
  dsimp only at h
  by_cases first : page = 1
  · simp only [first, ↓reduceIte, Option.bind_eq_bind, Option.bind_some, Option.bind_eq_some_iff,
      Option.some.injEq, Prod.mk.injEq] at h
    obtain ⟨_, _, _, _, rfl, rfl, _⟩ := h
    exact rule.trans (rule.aes _ _ _ _ _ _) (rule.aes _ _ _ _ _ _)
  · simp only [first, ↓reduceIte, Option.bind_eq_bind, Option.bind_some, Option.bind_eq_some_iff,
      Option.some.injEq, Prod.mk.injEq] at h
    obtain ⟨_, _, rfl, rfl, _⟩ := h
    exact rule.aes _ _ _ _ _ _

theorem decrypt (rule : AesRule u R)
    (h : CodecDecrypt u t w codec fr page data = some (w', codec', out)) :
    R (w.tee, codec) (w'.tee, codec') := by
  unfold CodecDecrypt at h
  simp only [Option.bind_eq_bind, Option.bind_eq_some_iff, Option.some.injEq,
    Prod.mk.injEq] at h
  obtain ⟨_, _, rfl, rfl, _⟩ := h
  exact rule.aes _ _ _ _ _ _

/-- The relation holds of a page that passes through the codec in any mode. -/
theorem call (rule : AesRule u R) {nMode : Nat} {c : Called σ τ}
    (h : sqlite3Codec u t w (some codec) fr data page nMode = some c) :
    ∃ codec', c.codec = some codec' ∧ R (w.tee, codec) (c.world.tee, codec') := by
  have kept {c' : Called σ τ} (unchanged : some ⟨w, some codec, data, some data⟩ = some c') :
      ∃ codec', c'.codec = some codec' ∧ R (w.tee, codec) (c'.world.tee, codec') := by
    obtain rfl := Option.some.inj unchanged
    exact ⟨codec, rfl, rule.refl _⟩
  unfold sqlite3Codec at h
  dsimp only at h
  by_cases enc : codec.m_isEncrypted = true
  · rw [if_pos enc] at h
    split at h
    case h_4 | h_5 =>
      split at h
      · obtain ⟨r, encrypted, made⟩ := Option.bind_eq_some_iff.mp h
        obtain rfl := Option.some.inj made
        exact ⟨_, rfl, rule.buffer _ (rule.encrypt encrypted)⟩
      · exact kept h
    case h_6 => exact kept h
    all_goals
      split at h
      · obtain ⟨r, decrypted, made⟩ := Option.bind_eq_some_iff.mp h
        obtain rfl := Option.some.inj made
        exact ⟨_, rfl, rule.decrypt decrypted⟩
      · exact kept h
  · rw [if_neg enc] at h
    exact kept h

end AesRule

end

/-- A database of a connection: its b-tree and the codec its pager holds. -/
structure Db where
  pBt : Btree
  pCodec : Option Codec

/-- `fresh` is what `sqlite3_malloc` gave for the new codec. Returns the databases of
the connection; a database without a key gets no codec, and nothing changes. -/
def sqlite3CodecAttach (aDb : List Db) (fresh : Codec) (nDb : Nat) (zKey : Option Pointee)
    (nKey : Int) : Option (List Db) :=
  let codec := CodecInit fresh
  match aDb[nDb]? with
  | none => none
  | some db =>
    match zKey with
    | some key =>
      if 0 < nKey then
        let codec := CodecSetHasWriteKey (CodecSetHasReadKey (CodecSetIsEncrypted codec true) true)
          true
        let codec := CodecCopyKey (CodecGenerateReadKey codec key nKey) true
        some (aDb.set nDb { db with pCodec := some (CodecSetBtree codec db.pBt) })
      else some aDb
    | none =>
      if nDb ≠ 0 ∧ 0 < nKey then
        match aDb.head?.bind Db.pCodec with
        | some mainCodec =>
          if mainCodec.m_isEncrypted then
            let codec := CodecSetBtree (CodecCopy codec mainCodec) db.pBt
            some (aDb.set nDb { db with pCodec := some codec })
          else some aDb
        | none => some aDb
      else some aDb

end TeeSqlite
