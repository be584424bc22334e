import TeeSqlite.Lib.Runs
import TeeSqlite.Codec.RoundTrip

/-! Which nonce goes with which plaintext. Every encryption is set up with the one
global `iv`, so a key may be used for one text only. -/
namespace TeeSqlite
open ByteFile Runs

/-- An encryption, with what its operation was set up with. -/
structure Use where
  key : Key
  iv : Bytes
  plaintext : Bytes
  deriving DecidableEq

/-- What is to be known of the calls so far: the key and the nonce given last, and
the encryptions, the latest first. -/
structure Watch where
  key : Key
  nonce : Bytes
  uses : List Use

def Watch.start : Watch := ⟨Tag.zero, [], []⟩

/-- The calls of a TEE, with a record of the encryptions. -/
def TeeCalls.watched {σ : Type} (u : TeeCalls σ) : TeeCalls (σ × Watch) where
  TEE_AllocateOperation s old mode :=
    let (s', rc, op) := u.TEE_AllocateOperation s.1 old mode
    ((s', s.2), rc, op)
  TEE_FreeOperation s op := (u.TEE_FreeOperation s.1 op, s.2)
  TEE_AllocateTransientObject s old :=
    let (s', rc, obj) := u.TEE_AllocateTransientObject s.1 old
    ((s', s.2), rc, obj)
  TEE_FreeTransientObject s obj := (u.TEE_FreeTransientObject s.1 obj, s.2)
  TEE_PopulateTransientObject s obj key :=
    let (s', rc) := u.TEE_PopulateTransientObject s.1 obj key
    ((s', { s.2 with key }), rc)
  TEE_SetOperationKey s op obj :=
    let (s', rc) := u.TEE_SetOperationKey s.1 op obj
    ((s', s.2), rc)
  TEE_AEInit s op nonce :=
    let (s', rc) := u.TEE_AEInit s.1 op nonce
    ((s', { s.2 with nonce }), rc)
  TEE_AEEncryptFinal s op src :=
    let (s', rc, dst, tag) := u.TEE_AEEncryptFinal s.1 op src
    ((s', { s.2 with uses := ⟨s.2.key, s.2.nonce, src⟩ :: s.2.uses }), rc, dst, tag)
  TEE_AEDecryptFinal s op src tag :=
    let (s', rc, dst) := u.TEE_AEDecryptFinal s.1 op src tag
    ((s', s.2), rc, dst)

/-- The texts that an encryption of a page seals: page 1 is sealed in two pieces. -/
def piecesOf (page : BitVec 32) (data : Bytes) : List Bytes :=
  if page = 1 then [data.take 16, data.drop 16] else [data]

section
variable {σ τ : Type} (u : TeeCalls σ) (t : TagStore τ)

theorem reset_watched (s : σ × Watch) (codec : Codec) (isenc : Bool) (key : Key) :
    ∃ s' codec', reset u.watched s codec isenc key = ((s', ⟨key, iv, s.2.uses⟩), codec') ∧
      codec'.settings = codec.settings := by
  simp only [reset, TeeCalls.watched]
  split <;> split <;> exact ⟨_, _, rfl, rfl⟩

theorem CodecAES_watched (s : σ × Watch) (codec : Codec) (data : Bytes) (p_mac : Tag)
    (useWriteKey : Bool) :
    ∃ s' codec' dst mac, CodecAES u.watched s codec true data p_mac useWriteKey =
        (s', codec', dst, mac) ∧ codec'.settings = codec.settings ∧ dst.length = data.length ∧
      s'.2.uses = ⟨codec.keyFor useWriteKey, iv, data⟩ :: s.2.uses := by
  have length := length_CodecAES u.watched s codec data p_mac useWriteKey
  obtain ⟨s', codec', made, same⟩ := reset_watched u s codec true (codec.keyFor useWriteKey)
  simp only [Codec.keyFor] at made ⊢
  simp only [CodecAES, made, ↓reduceIte] at length ⊢
  exact ⟨_, _, _, _, rfl, same, length, rfl⟩

/-- What an encryption of a page adds to the record, whatever becomes of it. -/
theorem CodecEncrypt_watched {w w' : World (σ × Watch) τ} {codec codec' : Codec} {fr : Frame}
    {page : BitVec 32} {data out : Bytes} {useWriteKey : Bool}
    (h : CodecEncrypt u.watched t w codec fr page data useWriteKey = some (w', codec', out)) :
    w'.tee.2.uses =
      ((piecesOf page data).map (⟨codec.keyFor useWriteKey, iv, ·⟩)).reverse ++ w.tee.2.uses := by
  by_cases first : page = 1
  · subst first
    obtain ⟨s₁, codec₁, dst, mac, one, same, len, used⟩ := CodecAES_watched u w.tee codec
      (data.take 16) (((w.mem.setInt fr.page 1).setMac fr.p_mac Tag.zero).mac fr.p_mac) useWriteKey
    simp only [CodecEncrypt, one, ↓reduceIte, Option.bind_eq_bind, Option.bind_some,
      Option.bind_eq_some_iff] at h
    obtain ⟨header, -, map, -, made⟩ := h
    obtain ⟨s₂, codec₂, dst', mac', two, -, -, used'⟩ := CodecAES_watched u s₁ codec₁
      (data.drop 16) (header.1.mac fr.p_mac) useWriteKey
    simp only [drop_splice_take data len, two, Option.some.injEq, Prod.mk.injEq] at made
    obtain ⟨readKey, writeKey, -⟩ := settings_keys same
    have key : codec₁.keyFor useWriteKey = codec.keyFor useWriteKey := by
      simp only [Codec.keyFor, readKey, writeKey]
    rw [← made.1, used', used, key]
    rfl
  · simp only [CodecEncrypt, first, ↓reduceIte, Option.bind_eq_bind, Option.bind_some,
      Option.bind_eq_some_iff, List.drop_zero] at h
    obtain ⟨⟨mem, tag⟩, -, made⟩ := h
    obtain ⟨s₁, codec₁, dst, mac, one, -, -, used⟩ := CodecAES_watched u w.tee codec data
      (((w.mem.setInt fr.page page).setMac fr.p_mac Tag.zero).mac fr.p_mac) useWriteKey
    simp only [one, Option.some.injEq, Prod.mk.injEq] at made
    rw [← made.1]
    simpa only [piecesOf, first, ↓reduceIte, List.map_cons, List.map_nil, List.reverse_singleton,
      List.singleton_append] using used

/-- A call of `sqlite3Codec` in mode 6 or 7, with the codec as it is then: between two
calls anything may have happened to it. -/
structure PageEncryption where
  codec : Codec
  fr : Frame
  page : BitVec 32
  data : Bytes
  nMode : Nat

def PageEncryption.key (op : PageEncryption) : Key := op.codec.keyFor (op.nMode = 6)

/-- The texts the call seals: none if the codec has no key for the mode. -/
def PageEncryption.pieces (op : PageEncryption) : List Bytes :=
  if op.codec.m_isEncrypted ∧
      (if op.nMode = 6 then op.codec.m_hasWriteKey else op.codec.m_hasReadKey) then
    piecesOf op.page (op.data.take op.codec.m_bt.pageSize)
  else []

/-- Answers with the page that is to be written. -/
def encryptStep (w : World (σ × Watch) τ) (op : PageEncryption) :
    Option (World (σ × Watch) τ × Option Bytes) :=
  (sqlite3Codec u.watched t w (some op.codec) op.fr op.data op.page op.nMode).map fun c =>
    (c.world, c.page)

def Encrypts (_ : World (σ × Watch) τ) (op : PageEncryption) : Prop := op.nMode = 6 ∨ op.nMode = 7

theorem encryptStep_uses {w w' : World (σ × Watch) τ} {op : PageEncryption} {out : Option Bytes}
    (mode : op.nMode = 6 ∨ op.nMode = 7) (h : encryptStep u t w op = some (w', out)) :
    w'.tee.2.uses = (op.pieces.map (⟨op.key, iv, ·⟩)).reverse ++ w.tee.2.uses := by
  obtain ⟨codec, fr, page, data, nMode⟩ := op
  simp only [encryptStep, Option.map_eq_some_iff, Prod.mk.injEq] at h
  obtain ⟨c, call, rfl, -⟩ := h
  by_cases enc : codec.m_isEncrypted = true
  · by_cases hasKey : (if nMode = 6 then codec.m_hasWriteKey else codec.m_hasReadKey) = true
    · simp only [PageEncryption.pieces, PageEncryption.key, enc, hasKey, and_self, ↓reduceIte]
      rw [sqlite3Codec_encrypts w enc fr data page mode hasKey] at call
      obtain ⟨made, encrypted, rfl⟩ := Option.map_eq_some_iff.mp call
      exact CodecEncrypt_watched u t encrypted
    · have unused : PageEncryption.pieces ⟨codec, fr, page, data, nMode⟩ = [] :=
        if_neg fun both => hasKey both.2
      rw [sqlite3Codec_raw w fr data page fun _ => eq_false_of_ne_true hasKey] at call
      rw [unused, ← Option.some.inj call]
      rfl
  · have unused : PageEncryption.pieces ⟨codec, fr, page, data, nMode⟩ = [] :=
      if_neg fun both => enc both.1
    rw [sqlite3Codec_raw w fr data page fun own => absurd own enc] at call
    rw [unused, ← Option.some.inj call]
    rfl

/-- What was encrypted in a run are the texts of its calls, each under the key of
its call, and all with the same nonce. -/
theorem uses_of_run {s : σ} {mem : Mem} {tag : τ} {h : List (PageEncryption × Option Bytes)}
    {w : World (σ × Watch) τ} (run : Run (encryptStep u t) Encrypts ⟨(s, .start), mem, tag⟩ h w)
    (used : Use) : used ∈ w.tee.2.uses ↔ ∃ x ∈ h, ∃ p ∈ x.1.pieces, used = ⟨x.1.key, iv, p⟩ := by
  apply run.invariant fun h w =>
    used ∈ w.tee.2.uses ↔ ∃ x ∈ h, ∃ p ∈ x.1.pieces, used = ⟨x.1.key, iv, p⟩
  · constructor
    · intro none_used
      exact absurd none_used List.not_mem_nil
    · rintro ⟨x, member, -⟩
      exact absurd member List.not_mem_nil
  · intro h w op w' out ih mode answer
    rw [encryptStep_uses u t mode answer, List.mem_append, List.mem_reverse, List.mem_map, ih]
    constructor
    · rintro (⟨p, piece, rfl⟩ | ⟨x, member, older⟩)
      · exact ⟨(op, out), List.mem_cons_self, p, piece, rfl⟩
      · exact ⟨x, List.mem_cons_of_mem _ member, older⟩
    · rintro ⟨x, member, p, piece, rfl⟩
      rcases List.mem_cons.mp member with rfl | older
      · exact .inl ⟨p, piece, rfl⟩
      · exact .inr ⟨x, older, p, piece, rfl⟩

/-- Under one key, encryptions of different texts have different nonces. -/
def NoncesFresh (uses : List Use) : Prop :=
  ∀ a ∈ uses, ∀ b ∈ uses, a.key = b.key → a.plaintext ≠ b.plaintext → a.iv ≠ b.iv

/-- The calls with one key seal one text, in however many pieces. -/
def OneTextPerKey (h : List (PageEncryption × Option Bytes)) : Prop :=
  ∀ x ∈ h, ∀ y ∈ h, x.1.key = y.1.key → ∀ p ∈ x.1.pieces, ∀ q ∈ y.1.pieces, p = q

/-- The nonces are fresh just when no key is used for two texts. -/
theorem nonces_fresh_iff {s : σ} {mem : Mem} {tag : τ} {h : List (PageEncryption × Option Bytes)}
    {w : World (σ × Watch) τ} (run : Run (encryptStep u t) Encrypts ⟨(s, .start), mem, tag⟩ h w) :
    NoncesFresh w.tee.2.uses ↔ OneTextPerKey h := by
  constructor
  · intro fresh x hx y hy key p hp q hq
    by_contra differ
    have first := (uses_of_run u t run ⟨x.1.key, iv, p⟩).mpr ⟨x, hx, p, hp, rfl⟩
    have second := (uses_of_run u t run ⟨y.1.key, iv, q⟩).mpr ⟨y, hy, q, hq, rfl⟩
    exact fresh _ first _ second key differ rfl
  · intro one a ha b hb key differ
    obtain ⟨x, hx, p, hp, rfl⟩ := (uses_of_run u t run a).mp ha
    obtain ⟨y, hy, q, hq, rfl⟩ := (uses_of_run u t run b).mp hb
    exact absurd (one x hx y hy key p hp q hq) differ

end

/-- Page 1 is two texts. -/
theorem PageEncryption.page_one (op : PageEncryption) (one : op.page = 1) (used : op.pieces ≠ [])
    (whole : op.data.length = op.codec.m_bt.pageSize) :
    op.pieces = [op.data.take 16, op.data.drop 16] ∧ op.data.take 16 ≠ op.data.drop 16 := by
  constructor
  · unfold PageEncryption.pieces at used ⊢
    by_cases sealed : op.codec.m_isEncrypted ∧
        (if op.nMode = 6 then op.codec.m_hasWriteKey else op.codec.m_hasReadKey)
    · rw [if_pos sealed, ← whole, List.take_length, piecesOf, if_pos one]
    · rw [if_neg sealed] at used
      exact absurd rfl used
  · intro same
    have least := op.codec.m_bt.least
    have lengths := congrArg List.length same
    rw [List.length_take, List.length_drop] at lengths
    omega

/-- So no run with a page 1 in it keeps to one text for each key. -/
theorem page_one_breaks {h : List (PageEncryption × Option Bytes)}
    {x : PageEncryption × Option Bytes} (member : x ∈ h) (one : x.1.page = 1)
    (used : x.1.pieces ≠ []) (whole : x.1.data.length = x.1.codec.m_bt.pageSize) :
    ¬ OneTextPerKey h := by
  intro texts
  obtain ⟨pieces, differ⟩ := x.1.page_one one used whole
  apply differ
  apply texts x member x member rfl
  · rw [pieces]
    exact List.mem_cons_self
  · rw [pieces]
    exact List.mem_cons_of_mem _ List.mem_cons_self

/-- Page 2 filled with one byte, by a codec with zero keys. -/
def encryptPageTwo (b : UInt8) : PageEncryption :=
  ⟨.keyed Tag.zero, .sample, 2, List.replicate 512 b, 6⟩

def encryptPageOne : PageEncryption := ⟨.keyed Tag.zero, .sample, 1, firstPage, 6⟩

/-- The TEE and the tag map before any encryption. -/
def World.unused : World (Setup × Watch) TagMap := ⟨(.blank, .start), .blank, fun _ => none⟩

/-- Page 2 written twice with one content. -/
theorem one_text_has_fresh_nonces :
    ∃ out out' w, Run (encryptStep (idealCalls firstByteAE) finiteMapStore) Encrypts
        .unused [(encryptPageTwo 1, out'), (encryptPageTwo 1, out)] w ∧
      NoncesFresh w.tee.2.uses := by
  obtain ⟨out, out', w, run⟩ : ∃ out out' w,
      Run (encryptStep (idealCalls firstByteAE) finiteMapStore) Encrypts .unused
        [(encryptPageTwo 1, out'), (encryptPageTwo 1, out)] w :=
    ⟨_, _, _, .next (.next .start (.inl rfl) rfl) (.inl rfl) rfl⟩
  refine ⟨out, out', w, run, ?_⟩
  apply (nonces_fresh_iff _ _ run).mpr
  have text : (encryptPageTwo 1).pieces = [List.replicate 512 1] := by
    change [(List.replicate 512 (1 : UInt8)).take 512] = _
    rw [List.take_of_length_le List.length_replicate.le]
  have only {x : PageEncryption × Option Bytes} {out out' : Option Bytes}
      (hx : x ∈ [(encryptPageTwo 1, out'), (encryptPageTwo 1, out)]) {p : Bytes}
      (hp : p ∈ x.1.pieces) : p = List.replicate 512 1 := by
    have op : x.1 = encryptPageTwo 1 := by
      rcases List.mem_pair.mp hx with rfl | rfl
      · rfl
      · rfl
    rw [op, text] at hp
    exact List.mem_singleton.mp hp
  intro x hx y hy _ p hp q hq
  rw [only hx hp, only hy hq]

/-- Page 1 written once. -/
theorem first_page_reuses_its_nonce :
    ∃ out w, Run (encryptStep (idealCalls firstByteAE) finiteMapStore) Encrypts
        .unused [(encryptPageOne, out)] w ∧
      ¬ NoncesFresh w.tee.2.uses := by
  obtain ⟨out, w, run⟩ : ∃ out w, Run (encryptStep (idealCalls firstByteAE) finiteMapStore) Encrypts
      .unused [(encryptPageOne, out)] w := ⟨_, _, .next .start (.inl rfl) rfl⟩
  refine ⟨out, w, run, ?_⟩
  obtain ⟨pieces, differ⟩ := encryptPageOne.page_one rfl
    (List.cons_ne_nil _ _) firstPage_length
  have sealed (p : Bytes) (hp : p ∈ encryptPageOne.pieces) :
      ⟨Tag.zero, iv, p⟩ ∈ w.tee.2.uses :=
    (uses_of_run _ _ run _).mpr ⟨_, List.mem_singleton_self _, p, hp, rfl⟩
  rw [pieces] at sealed
  have magic := sealed (firstPage.take 16) List.mem_cons_self
  have rest := sealed (firstPage.drop 16) (List.mem_cons_of_mem _ List.mem_cons_self)
  intro fresh
  exact fresh _ magic _ rest rfl differ rfl

end TeeSqlite
