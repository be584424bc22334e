import TeeSqlite.Codec.KeyState
import TeeSqlite.Codec.Pager

/-! The pages of a database through a rekey: what the pager reads, journals and
commits, and what is left of it when the transaction fails. -/
namespace TeeSqlite
open ByteFile AuthEnc

section
variable (ae : PageAE)

/-- What a read makes of any bytes, under a key and the tag of the page. -/
def readPage (key : Key) (tag : Option Tag) (page : BitVec 32) (data : Bytes) : Bytes :=
  let (offset, placed) := locate page data
  let opened := (ae.dec key iv (placed.drop offset) (tag.getD Tag.zero)).getD (placed.drop offset)
  let placed := splice placed offset opened
  if page = 1 ∧ offset ≠ 0 ∧ dbHeaderOf data = dbHeaderOf placed then
    splice placed 0 SQLITE_FILE_HEADER
  else placed

theorem CodecDecrypt_any (w : World (Setup × List Final) TagMap) (codec : Codec) (fr : Frame)
    (page : BitVec 32) (data : Bytes) :
    ∃ w', CodecDecrypt (idealCalls ae).logged finiteMapStore w codec fr page data =
        some (w', codec.handled, readPage ae codec.m_readKey (w.tag page) page data) ∧
      w'.tag = w.tag ∧ w'.tee.2 = .decrypt (ciphertextOf page data) ((w.tag page).getD Tag.zero)
        (finalRc (ae.dec codec.m_readKey iv (ciphertextOf page data)
          ((w.tag page).getD Tag.zero))) :: w.tee.2 := by
  simp only [CodecDecrypt, finiteMapStore, Option.bind_eq_bind, Option.bind_some, Mem.setInt_int,
    ↓reduceIte, CodecAES_decrypt_ideal]
  exact ⟨_, rfl, rfl, rfl⟩

/-- A page loads as `data` through a codec, or as it is without one. -/
def Loads (w : World (Setup × List Final) TagMap) (pCodec : Option Codec) (page : BitVec 32)
    (out data : Bytes) : Prop :=
  ∀ fr, ∃ c, sqlite3Codec (idealCalls ae).logged finiteMapStore w pCodec fr out page 3 = some c ∧
    c.page = some data

theorem loads_plain_iff {w : World (Setup × List Final) TagMap} {page : BitVec 32}
    {out data : Bytes} : Loads ae w none page out data ↔ out = data := by
  constructor
  · intro loads
    obtain ⟨c, call, handed⟩ := loads .sample
    cases call
    exact Option.some.inj handed
  · rintro rfl fr
    exact ⟨_, rfl, rfl⟩

variable {w : World (Setup × List Final) TagMap} {codec : Codec}

theorem sqlite3Codec_reads (encrypted : codec.m_isEncrypted = true)
    (hasRead : codec.m_hasReadKey = true) (fr : Frame) (page : BitVec 32) (data : Bytes) :
    ∃ w', sqlite3Codec (idealCalls ae).logged finiteMapStore w (some codec) fr data page 3 =
        some ⟨w', some codec.handled, readPage ae codec.m_readKey (w.tag page) page data,
          some (readPage ae codec.m_readKey (w.tag page) page data)⟩ ∧
      w'.tag = w.tag ∧ w'.tee.2 = .decrypt (ciphertextOf page data) ((w.tag page).getD Tag.zero)
        (finalRc (ae.dec codec.m_readKey iv (ciphertextOf page data)
          ((w.tag page).getD Tag.zero))) :: w.tee.2 := by
  obtain ⟨w', decrypted, tags, log⟩ := CodecDecrypt_any ae w codec fr page data
  refine ⟨w', ?_, tags, log⟩
  rw [sqlite3Codec_decrypts w encrypted hasRead fr data page (.inr (.inr rfl)), decrypted]
  rfl

theorem loads_iff (encrypted : codec.m_isEncrypted = true) (hasRead : codec.m_hasReadKey = true)
    {page : BitVec 32} {out data : Bytes} :
    Loads ae w (some codec) page out data ↔
      readPage ae codec.m_readKey (w.tag page) page out = data := by
  constructor
  · intro loads
    obtain ⟨c, call, handed⟩ := loads .sample
    obtain ⟨w', made, -⟩ := sqlite3Codec_reads ae encrypted hasRead .sample page out
    obtain rfl := Option.some.inj (call.symm.trans made)
    exact Option.some.inj handed
  · rintro rfl fr
    obtain ⟨w', made, -⟩ := sqlite3Codec_reads ae encrypted hasRead fr page out
    exact ⟨_, made, rfl⟩

/-- Reading back is loading with a final call that succeeds. -/
theorem reads_back_any_iff (encrypted : codec.m_isEncrypted = true)
    (hasRead : codec.m_hasReadKey = true) {page : BitVec 32} {out data : Bytes} :
    ReadsBack ae w codec page 3 out data ↔
      readPage ae codec.m_readKey (w.tag page) page out = data ∧
      ∃ p, ae.dec codec.m_readKey iv (ciphertextOf page out) ((w.tag page).getD Tag.zero) =
        some p := by
  constructor
  · intro reads
    obtain ⟨c, call, handed, src, tag, log⟩ := reads .sample
    obtain ⟨w', made, -, log'⟩ := sqlite3Codec_reads ae encrypted hasRead .sample page out
    obtain rfl := Option.some.inj (call.symm.trans made)
    refine ⟨Option.some.inj handed, ?_⟩
    obtain ⟨-, -, success⟩ := Final.decrypt.inj (List.cons.inj (log'.symm.trans log)).1
    exact finalRc_success success
  · rintro ⟨rfl, p, opens⟩ fr
    obtain ⟨w', made, -, log⟩ := sqlite3Codec_reads ae encrypted hasRead fr page out
    rw [opens] at log
    exact ⟨_, made, rfl, _, _, log⟩

end

section
variable (ae : PageAE) (fr : Nat → BitVec 32 → Frame)

/-- What the pager gets of a page of the file: without a read key the page as it is. -/
def loadPage (codec : Codec) (tag : TagMap) (page : BitVec 32) (out : Bytes) : Bytes :=
  if codec.m_hasReadKey then readPage ae codec.m_readKey (tag page) page out else out

variable {w : World (Setup × List Final) TagMap} {codec : Codec}

theorem passPage_reads (encrypted : codec.m_isEncrypted = true) (page : BitVec 32) (out : Bytes) :
    (passPage ae fr w codec 3 page out).2.2 = loadPage ae codec w.tag page out ∧
      (passPage ae fr w codec 3 page out).1.tag = w.tag := by
  unfold passPage loadPage
  by_cases hasRead : codec.m_hasReadKey = true
  · obtain ⟨w', made, tags, -⟩ := sqlite3Codec_reads ae encrypted hasRead (fr 3 page) page out
    rw [made, if_pos hasRead]
    exact ⟨rfl, tags⟩
  · have raw : sqlite3Codec (idealCalls ae).logged finiteMapStore w (some codec) (fr 3 page) out
        page 3 = some ⟨w, some codec, out, some out⟩ :=
      sqlite3Codec_raw w (fr 3 page) out page fun _ => eq_false_of_ne_true hasRead
    rw [raw, if_neg hasRead]
    exact ⟨rfl, rfl⟩

/-- The codec has the key that a mode encrypts with. -/
def Codec.hasKeyFor (codec : Codec) (nMode : Nat) : Bool :=
  if nMode = 6 then codec.m_hasWriteKey else codec.m_hasReadKey

theorem passPage_seals (encrypted : codec.m_isEncrypted = true) {nMode : Nat}
    (mode : nMode = 6 ∨ nMode = 7) (hasKey : codec.hasKeyFor nMode = true) (page : BitVec 32)
    {data : Bytes} (size : data.length = codec.m_bt.pageSize) :
    let key := codec.keyFor (nMode = 6)
    (passPage ae fr w codec nMode page data).2.2 = stored ae key page data ∧
      (passPage ae fr w codec nMode page data).1.tag page = some (bodyTag ae key page data) ∧
      ∀ m, m ≠ page → m ≠ 0 → (passPage ae fr w codec nMode page data).1.tag m = w.tag m := by
  have usable : nMode = 6 ∧ codec.m_hasWriteKey = true ∨ nMode = 7 ∧ codec.m_hasReadKey = true := by
    rcases mode with rfl | rfl
    · exact .inl ⟨rfl, hasKey⟩
    · exact .inr ⟨rfl, hasKey⟩
  obtain ⟨w', codec', made, -, own, others⟩ :=
    write_ideal ae w encrypted (fr nMode page) page usable size
  unfold passPage
  rw [made]
  exact ⟨rfl, own, others⟩

/-- Without the key the page passes as it is. -/
theorem passPage_raw (nMode : Nat) (noKey : codec.hasKeyFor nMode = false) (page : BitVec 32)
    (data : Bytes) :
    passPage ae fr w codec nMode page data = (w, codec, data) := by
  have raw : sqlite3Codec (idealCalls ae).logged finiteMapStore w (some codec) (fr nMode page) data
      page nMode = some ⟨w, some codec, data, some data⟩ :=
    sqlite3Codec_raw w (fr nMode page) data page fun _ => noKey
  unfold passPage
  rw [raw]

/-- What committing a list of pages leaves: each page as mode 6 returns it. -/
structure Committed (pages : List (BitVec 32)) (codec : Codec) (s s' : Pager) : Prop where
  loaded : s'.loaded = s.loaded
  original : s'.original = s.original
  sealed : codec.m_hasWriteKey = true → ∀ m ∈ pages,
    s'.file m = stored ae codec.m_writeKey m (s.loaded m) ∧
      (m ≠ 0 → s'.world.tag m = some (bodyTag ae codec.m_writeKey m (s.loaded m)))
  raw : codec.m_hasWriteKey = false → (∀ m ∈ pages, s'.file m = s.loaded m) ∧
    s'.world.tag = s.world.tag
  others : ∀ m, m ∉ pages → s'.file m = s.file m ∧ (m ≠ 0 → s'.world.tag m = s.world.tag m)

theorem commitPages_committed (codec : Codec) (pages : List (BitVec 32)) (s : Pager)
    (encrypted : codec.m_isEncrypted = true)
    (sizes : ∀ m ∈ pages, (s.loaded m).length = codec.m_bt.pageSize) :
    Committed ae pages codec s (commitPages ae fr pages s codec).1 := by
  induction pages generalizing s codec with
  | nil =>
    refine ⟨rfl, rfl, ?_, ?_, ?_⟩
    · exact fun _ m member => absurd member List.not_mem_nil
    · exact fun _ => ⟨fun m member => absurd member List.not_mem_nil, rfl⟩
    · exact fun m _ => ⟨rfl, fun _ => rfl⟩
  | cons n rest ih =>
    have same := passPage_settings ae fr s.world codec 6 n (s.loaded n)
    obtain ⟨enc, -, write⟩ := settings_flags same
    obtain ⟨-, writeKey, bt⟩ := settings_keys same
    have tail := ih (passPage ae fr s.world codec 6 n (s.loaded n)).2.1
      { s with
        world := (passPage ae fr s.world codec 6 n (s.loaded n)).1,
        file := Function.update s.file n (passPage ae fr s.world codec 6 n (s.loaded n)).2.2 }
      (enc.trans encrypted)
      (fun m member => (sizes m (List.mem_cons_of_mem n member)).trans (by rw [bt]))
    refine ⟨tail.loaded, tail.original, ?_, ?_, ?_⟩
    · intro hasWrite m member
      obtain ⟨out, own, -⟩ := passPage_seals ae fr (w := s.world) encrypted (.inl rfl) hasWrite n
        (sizes n List.mem_cons_self)
      by_cases later : m ∈ rest
      · have sealed := tail.sealed (write.trans hasWrite) m later
        rwa [writeKey] at sealed
      · obtain rfl := (List.mem_cons.mp member).resolve_right later
        obtain ⟨file, tag⟩ := tail.others m later
        constructor
        · exact (file.trans (Function.update_self m _ s.file)).trans out
        · intro nonzero
          exact (tag nonzero).trans own
    · intro noWrite
      have pass := passPage_raw ae fr (w := s.world) 6 noWrite n (s.loaded n)
      obtain ⟨files, tags⟩ := tail.raw (write.trans noWrite)
      constructor
      · intro m member
        by_cases later : m ∈ rest
        · exact files m later
        · obtain rfl := (List.mem_cons.mp member).resolve_right later
          refine ((tail.others m later).1.trans (Function.update_self m _ s.file)).trans ?_
          rw [pass]
      · refine tags.trans ?_
        dsimp only
        rw [pass]
    · intro m absent
      rw [List.mem_cons, not_or] at absent
      obtain ⟨file, tag⟩ := tail.others m absent.2
      constructor
      · exact file.trans (Function.update_of_ne absent.1 _ s.file)
      · intro nonzero
        refine (tag nonzero).trans ?_
        cases hasWrite : codec.m_hasWriteKey with
        | true =>
          exact (passPage_seals ae fr encrypted (.inl rfl) hasWrite n
            (sizes n List.mem_cons_self)).2.2 m absent.1 nonzero
        | false =>
          dsimp only
          rw [passPage_raw ae fr 6 hasWrite]

/-- What a call of the pager keeps while it works on pages that load as `plain`: the
file, and every tag up to those that journalling a page sets. -/
structure Kept (plain : BitVec 32 → Bytes) (codec : Codec) (pages : List (BitVec 32))
    (s s' : Pager) : Prop where
  file : s'.file = s.file
  original : s'.original = s.original
  loaded : ∀ m, s'.loaded m = s.loaded m ∨ s'.loaded m = plain m
  tags : ∀ m, m ≠ 0 → s'.world.tag m = s.world.tag m ∨
    m ∈ pages ∧ codec.m_hasReadKey = true ∧
      s'.world.tag m = some (bodyTag ae codec.m_readKey m (plain m))

variable {plain : BitVec 32 → Bytes}

theorem Kept.refl (pages : List (BitVec 32)) (s : Pager) : Kept ae plain codec pages s s where
  file := rfl
  original := rfl
  loaded _ := .inl rfl
  tags _ _ := .inl rfl

theorem Kept.mono {pages pages' : List (BitVec 32)} {s s' : Pager}
    (kept : Kept ae plain codec pages s s') (more : pages ⊆ pages') :
    Kept ae plain codec pages' s s' where
  file := kept.file
  original := kept.original
  loaded := kept.loaded
  tags m nonzero := (kept.tags m nonzero).imp_right fun set => ⟨more set.1, set.2⟩

theorem Kept.trans {pages : List (BitVec 32)} {s s' s'' : Pager}
    (first : Kept ae plain codec pages s s') (next : Kept ae plain codec pages s' s'') :
    Kept ae plain codec pages s s'' where
  file := next.file.trans first.file
  original := next.original.trans first.original
  loaded m := by
    rcases next.loaded m with kept | set
    · rw [kept]
      exact first.loaded m
    · exact .inr set
  tags m nonzero := by
    rcases next.tags m nonzero with kept | set
    · rw [kept]
      exact first.tags m nonzero
    · exact .inr set

theorem Kept.of_settings {codec' : Codec} (same : codec'.settings = codec.settings)
    {pages : List (BitVec 32)} {s s' : Pager} (kept : Kept ae plain codec' pages s s') :
    Kept ae plain codec pages s s' where
  file := kept.file
  original := kept.original
  loaded := kept.loaded
  tags := by
    rw [← (settings_flags same).2.1, ← (settings_keys same).1]
    exact kept.tags

/-- A page whose tag was not set loads as before. -/
theorem Kept.loadPage_eq {codec' : Codec} (same : codec'.settings = codec.settings)
    {pages : List (BitVec 32)} {s s' : Pager} (kept : Kept ae plain codec pages s s')
    {m : BitVec 32} (nonzero : m ≠ 0) (other : m ∉ pages) :
    loadPage ae codec' s'.world.tag m (s'.file m) = loadPage ae codec s.world.tag m (s.file m) := by
  have tag := (kept.tags m nonzero).resolve_right fun set => other set.1
  unfold loadPage
  rw [kept.file, tag, (settings_flags same).2.1, (settings_keys same).1]

/-- Loading a page touches no tag. -/
theorem get_kept (f : Faults) (encrypted : codec.m_isEncrypted = true) {s : Pager} {n : BitVec 32}
    (loads : loadPage ae codec s.world.tag n (s.file n) = plain n) :
    let got := (transactions ae fr f).sqlite3PagerGet s codec n
    Kept ae plain codec [] s got.pager ∧ got.rc = f.get n ∧
      (f.get n = SQLITE_OK → got.pager.loaded n = plain n) ∧ got.pager.written = s.written := by
  obtain ⟨read, tags⟩ := passPage_reads ae fr (w := s.world) encrypted n (s.file n)
  unfold transactions Pager.get
  dsimp only
  split_ifs with ok
  · refine ⟨⟨rfl, rfl, ?_, fun m _ => .inl (congrFun tags m)⟩, ok.symm, ?_, rfl⟩
    · intro m
      by_cases own : m = n
      · subst own
        exact .inr ((Function.update_self m _ s.loaded).trans (read.trans loads))
      · exact .inl (Function.update_of_ne own _ s.loaded)
    · intro _
      exact (Function.update_self n _ s.loaded).trans (read.trans loads)
  · exact ⟨.refl ae [] s, rfl, fun fine => absurd fine ok, rfl⟩

/-- Journalling a page records the tag that its ciphertext has under the read key. -/
theorem journalPage_kept (encrypted : codec.m_isEncrypted = true) {s : Pager} {n : BitVec 32}
    (loaded : s.loaded n = plain n) (size : (plain n).length = codec.m_bt.pageSize) :
    Kept ae plain codec [n] s (s.journalPage ae fr codec n).1 := by
  refine ⟨rfl, rfl, fun m => .inl rfl, ?_⟩
  intro m nonzero
  unfold Pager.journalPage
  dsimp only
  rw [loaded]
  cases hasRead : codec.m_hasReadKey with
  | true =>
    obtain ⟨-, own, others⟩ :=
      passPage_seals ae fr (w := s.world) encrypted (.inr rfl) hasRead n size
    by_cases here : m = n
    · subst here
      exact .inr ⟨List.mem_singleton_self m, rfl, own⟩
    · exact .inl (others m here nonzero)
  | false =>
    rw [passPage_raw ae fr 7 hasRead]
    exact .inl rfl

theorem write_kept (f : Faults) (encrypted : codec.m_isEncrypted = true) {s : Pager}
    {n : BitVec 32} (loaded : s.loaded n = plain n)
    (size : (plain n).length = codec.m_bt.pageSize) :
    let written := (transactions ae fr f).sqlite3PagerWrite s codec n
    Kept ae plain codec [n] s written.pager ∧ written.rc = f.write n ∧
      (f.write n = SQLITE_OK → written.pager.written = s.written ++ [n]) := by
  have journalled := journalPage_kept ae fr encrypted loaded size
  unfold transactions Pager.write
  dsimp only
  split_ifs with ok journals
  · exact ⟨⟨journalled.file, journalled.original, journalled.loaded, journalled.tags⟩, ok.symm,
      fun _ => rfl⟩
  · exact ⟨journalled, rfl, fun fine => absurd fine ok⟩
  · exact ⟨.refl ae [n] s, rfl, fun fine => absurd fine ok⟩

/-- The pages that are rewritten: from `n` on, `left` of them, less the skipped one. -/
def pagesFrom (nSkip : BitVec 32) : Nat → BitVec 32 → List (BitVec 32)
  | 0, _ => []
  | left + 1, n =>
    if n = nSkip then pagesFrom nSkip left (n + 1) else n :: pagesFrom nSkip left (n + 1)

theorem mem_pagesFrom {nSkip : BitVec 32} {left : Nat} {n m : BitVec 32}
    (fits : n.toNat + left < 2 ^ 32) :
    m ∈ pagesFrom nSkip left n ↔ m ≠ nSkip ∧ n.toNat ≤ m.toNat ∧ m.toNat < n.toNat + left := by
  induction left generalizing n with
  | zero =>
    unfold pagesFrom
    apply iff_of_false List.not_mem_nil
    omega
  | succ left ih =>
    have next : (n + 1).toNat = n.toNat + 1 := by bv_omega
    have tail := ih (n := n + 1) (by omega)
    rw [next] at tail
    have here : m = n ↔ m.toNat = n.toNat := BitVec.toNat_inj.symm
    unfold pagesFrom
    split_ifs with skip
    · subst skip
      rw [tail, ne_eq, here]
      omega
    · rw [List.mem_cons, tail]
      constructor
      · rintro (rfl | ⟨other, low, high⟩)
        · exact ⟨skip, by omega, by omega⟩
        · exact ⟨other, by omega, by omega⟩
      · rintro ⟨other, low, high⟩
        by_cases own : m = n
        · exact .inl own
        · rw [here] at own
          exact .inr ⟨other, by omega, by omega⟩

/-- The whole loop: it leaves the file, and when it ends well every page has been
written, with what it loaded as. -/
theorem rewritePages_kept (f : Faults) (nSkip : BitVec 32) (left : Nat) {n : BitVec 32}
    (positive : n ≠ 0) (fits : n.toNat + left < 2 ^ 32) {s : Pager}
    (encrypted : codec.m_isEncrypted = true)
    (loads : ∀ m ∈ pagesFrom nSkip left n,
      loadPage ae codec s.world.tag m (s.file m) = plain m ∧
        (plain m).length = codec.m_bt.pageSize)
    (written : ∀ m ∈ s.written, s.loaded m = plain m) :
    let r := rewritePages (transactions ae fr f) nSkip left n s codec
    Kept ae plain codec (pagesFrom nSkip left n) s r.pager ∧
      (r.rc = SQLITE_OK ↔ ∀ m ∈ pagesFrom nSkip left n,
        f.get m = SQLITE_OK ∧ f.write m = SQLITE_OK) ∧
      (r.rc = SQLITE_OK → r.pager.written = s.written ++ pagesFrom nSkip left n ∧
        ∀ m ∈ r.pager.written, r.pager.loaded m = plain m) := by
  induction left generalizing n s codec with
  | zero =>
    refine ⟨.refl ae _ s, iff_of_true rfl ?_, ?_⟩
    · exact fun m member => absurd member List.not_mem_nil
    · exact fun _ => ⟨(List.append_nil _).symm, written⟩
  | succ left ih =>
    have next : (n + 1).toNat = n.toNat + 1 := by bv_omega
    have later : n + 1 ≠ 0 := by bv_omega
    unfold rewritePages
    unfold pagesFrom at loads ⊢
    dsimp only
    by_cases skip : n = nSkip
    · simp only [if_pos skip] at loads ⊢
      exact ih later (by omega) encrypted loads written
    simp only [if_neg skip] at loads ⊢
    have rest {m : BitVec 32} (member : m ∈ pagesFrom nSkip left (n + 1)) : m ≠ 0 ∧ m ∉ [n] := by
      have low := ((mem_pagesFrom (by omega)).mp member).2.1
      rw [List.mem_singleton]
      constructor
      · rintro rfl
        bv_omega
      · rintro rfl
        omega
    obtain ⟨loaded, size⟩ := loads n List.mem_cons_self
    obtain ⟨kept, rc, page, none_written⟩ := get_kept ae fr f encrypted loaded
    have same := (transactions ae fr f).get_settings s codec n
    generalize (transactions ae fr f).sqlite3PagerGet s codec n = got at *
    by_cases got_ok : f.get n = SQLITE_OK
    swap
    · rw [if_pos (rc ▸ got_ok)]
      refine ⟨kept.mono ae (List.nil_subset _), iff_of_false (rc ▸ got_ok) ?_, ?_⟩
      · exact fun fine => got_ok (fine n List.mem_cons_self).1
      · exact fun fine => absurd (rc.symm.trans fine) got_ok
    rw [if_neg (not_not.mpr (rc.trans got_ok))]
    obtain ⟨kept', rc', more⟩ := write_kept ae fr f ((settings_flags same).1.trans encrypted)
      (page got_ok) (size.trans (congrArg _ (settings_keys same).2.2.symm))
    have same' := ((transactions ae fr f).write_settings got.pager got.codec n).trans same
    generalize (transactions ae fr f).sqlite3PagerWrite got.pager got.codec n = put at *
    have both := (kept.mono ae (List.nil_subset [n])).trans ae (kept'.of_settings ae same)
    by_cases put_ok : f.write n = SQLITE_OK
    swap
    · rw [if_pos (rc' ▸ put_ok)]
      refine ⟨both.mono ae ?_, iff_of_false (rc' ▸ put_ok) ?_, ?_⟩
      · exact List.cons_subset_cons n (List.nil_subset _)
      · exact fun fine => put_ok (fine n List.mem_cons_self).2
      · exact fun fine => absurd (rc'.symm.trans fine) put_ok
    rw [if_neg (not_not.mpr (rc'.trans put_ok))]
    -- the pages still to come load as before
    have tail := ih (n := n + 1) (s := put.pager) later (by omega)
      ((settings_flags same').1.trans encrypted) ?_ ?_
    · obtain ⟨kept_rest, rc_rest, written_rest⟩ := tail
      refine ⟨?_, ?_, ?_⟩
      · apply (both.mono ae (List.cons_subset_cons n (List.nil_subset _))).trans
        exact (kept_rest.of_settings ae same').mono ae (List.subset_cons_self n _)
      · rw [rc_rest, List.forall_mem_cons]
        exact ⟨fun fine => ⟨⟨got_ok, put_ok⟩, fine⟩, fun fine => fine.2⟩
      · intro fine
        obtain ⟨all, loaded_all⟩ := written_rest fine
        refine ⟨?_, loaded_all⟩
        rw [all, more put_ok, none_written, List.append_assoc, List.singleton_append]
    · intro m member
      obtain ⟨nonzero, other⟩ := rest member
      obtain ⟨loads_m, size_m⟩ := loads m (List.mem_cons_of_mem n member)
      constructor
      · rw [both.loadPage_eq ae same' nonzero other]
        exact loads_m
      · rw [(settings_keys same').2.2]
        exact size_m
    · intro m member
      rw [more put_ok, none_written, List.mem_append, List.mem_singleton] at member
      rcases both.loaded m with same_page | set
      · rcases member with old | rfl
        · rw [same_page]
          exact written m old
        · rcases kept'.loaded m with same_page' | set
          · exact same_page'.trans (page got_ok)
          · exact set
      · exact set

/-- The pages of a database that a rekey rewrites. -/
abbrev Pager.pages (s : Pager) (nSkip : BitVec 32) : List (BitVec 32) := pagesFrom nSkip s.nPage 1

theorem Pager.mem_pages {s : Pager} {nSkip m : BitVec 32} :
    m ∈ s.pages nSkip ↔ m ≠ nSkip ∧ 1 ≤ m.toNat ∧ m.toNat ≤ s.nPage := by
  have bound := s.nPage.isLt
  have one : (1 : BitVec 32).toNat = 1 := rfl
  rw [mem_pagesFrom (by omega), one]
  exact and_congr_right fun _ => by omega

/-- The pages load, before the transaction, as pages of the right size. -/
def LoadAs (plain : BitVec 32 → Bytes) (codec : Codec) (s : Pager) (pages : List (BitVec 32)) :
    Prop :=
  ∀ m ∈ pages, loadPage ae codec s.world.tag m (s.file m) = plain m ∧
    (plain m).length = codec.m_bt.pageSize

/-- The transaction begins, and every page can be got and written. -/
def Faults.ReachesCommit (f : Faults) (pages : List (BitVec 32)) : Prop :=
  f.begin = SQLITE_OK ∧ ∀ m ∈ pages, f.get m = SQLITE_OK ∧ f.write m = SQLITE_OK

section
variable {f : Faults} {nSkip : BitVec 32} {s : Pager}

/-- The state in which a transaction begins. -/
def Pager.begun (s : Pager) : Pager := { s with original := s.file, journal := [], written := [] }

/-- A transaction of this pager, its first and its last calls put in. -/
theorem rekeyTransaction_eq :
    rekeyTransaction (transactions ae fr f) nSkip s codec =
      let rewritten :=
        if f.begin = SQLITE_OK then
          rewritePages (transactions ae fr f) nSkip s.nPage 1 s.begun codec
        else ⟨s.begun, codec, f.begin⟩
      let committed :=
        if rewritten.rc = SQLITE_OK then Pager.commit ae fr f rewritten.pager rewritten.codec
        else rewritten
      if committed.rc ≠ SQLITE_OK then
        ⟨{ committed.pager with file := committed.pager.original, journal := [], written := [] },
          committed.codec, committed.rc⟩
      else committed := rfl

/-- The loop of a transaction that has begun. -/
theorem begun_kept (encrypted : codec.m_isEncrypted = true)
    (loads : LoadAs ae plain codec s (s.pages nSkip)) :
    let r := rewritePages (transactions ae fr f) nSkip s.nPage 1 s.begun codec
    Kept ae plain codec (s.pages nSkip) s.begun r.pager ∧
      (r.rc = SQLITE_OK ↔ ∀ m ∈ s.pages nSkip, f.get m = SQLITE_OK ∧ f.write m = SQLITE_OK) ∧
      (r.rc = SQLITE_OK → r.pager.written = s.pages nSkip ∧
        ∀ m ∈ s.pages nSkip, r.pager.loaded m = plain m) := by
  have bound := s.nPage.isLt
  have one : (1 : BitVec 32).toNat = 1 := rfl
  obtain ⟨kept, rc, written⟩ := rewritePages_kept ae fr f nSkip s.nPage (n := 1)
    (s := s.begun) (by decide) (by omega) encrypted loads fun m member =>
      absurd member List.not_mem_nil
  refine ⟨kept, rc, ?_⟩
  intro ok
  obtain ⟨all, loaded⟩ := written ok
  rw [all] at loaded
  exact ⟨all, loaded⟩

/-- A transaction that goes through stores every page as mode 6 returns it. -/
theorem rekeyTransaction_committed (encrypted : codec.m_isEncrypted = true)
    (loads : LoadAs ae plain codec s (s.pages nSkip))
    (ok : (rekeyTransaction (transactions ae fr f) nSkip s codec).rc = SQLITE_OK) :
    ∃ s' codec', codec'.settings = codec.settings ∧ (∀ m ∈ s.pages nSkip, s'.loaded m = plain m) ∧
      (rekeyTransaction (transactions ae fr f) nSkip s codec).pager =
        (commitPages ae fr (s.pages nSkip) s' codec').1 := by
  obtain ⟨-, -, written⟩ := begun_kept ae fr (f := f) encrypted loads
  have same := rewritePages_settings (transactions ae fr f) nSkip s.nPage 1 s.begun codec
  rw [rekeyTransaction_eq] at ok ⊢
  dsimp only at ok written same ⊢
  generalize rewritePages (transactions ae fr f) nSkip s.nPage 1 s.begun codec = rewritten at *
  by_cases begun : f.begin = SQLITE_OK
  swap
  · simp only [if_neg begun, if_pos begun] at ok
    exact absurd ok begun
  simp only [if_pos begun] at ok ⊢
  by_cases pages : rewritten.rc = SQLITE_OK
  swap
  · simp only [if_neg pages, if_pos pages] at ok
    exact absurd ok pages
  obtain ⟨all, loaded⟩ := written pages
  simp only [if_pos pages, Pager.commit, all] at ok ⊢
  by_cases commit : f.commit = SQLITE_OK
  · refine ⟨rewritten.pager, rewritten.codec, same, loaded, ?_⟩
    simp only [if_pos commit, if_neg (not_not.mpr commit)]
  · simp only [if_neg commit] at ok
    rw [if_pos commit] at ok
    exact absurd ok commit

/-- The commit gets to the page before it fails. -/
def Faults.CommitReaches (f : Faults) (pages : List (BitVec 32)) (m : BitVec 32) : Prop :=
  f.ReachesCommit pages ∧ m ∈ pages.take f.committed

/-- What a transaction that was rolled back leaves: the file, and the tags of the new
key for the pages that the commit got to. -/
structure RolledBack (plain : BitVec 32 → Bytes) (codec : Codec) (f : Faults)
    (pages : List (BitVec 32)) (s s' : Pager) : Prop where
  file : s'.file = s.file
  sealed : codec.m_hasWriteKey = true → ∀ m, m ≠ 0 → f.CommitReaches pages m →
    s'.world.tag m = some (bodyTag ae codec.m_writeKey m (plain m))
  tags : ∀ m, m ≠ 0 → ¬ (codec.m_hasWriteKey = true ∧ f.CommitReaches pages m) →
    s'.world.tag m = s.world.tag m ∨
      codec.m_hasReadKey = true ∧
        s'.world.tag m = some (bodyTag ae codec.m_readKey m (plain m))

theorem rekeyTransaction_rolled_back (encrypted : codec.m_isEncrypted = true)
    (loads : LoadAs ae plain codec s (s.pages nSkip))
    (failed : (rekeyTransaction (transactions ae fr f) nSkip s codec).rc ≠ SQLITE_OK) :
    RolledBack ae plain codec f (s.pages nSkip) s
      (rekeyTransaction (transactions ae fr f) nSkip s codec).pager := by
  obtain ⟨kept, rc, written⟩ := begun_kept ae fr (f := f) encrypted loads
  have same := rewritePages_settings (transactions ae fr f) nSkip s.nPage 1 s.begun codec
  rw [rekeyTransaction_eq] at failed ⊢
  dsimp only at kept rc failed written same ⊢
  generalize rewritePages (transactions ae fr f) nSkip s.nPage 1 s.begun codec = rewritten at *
  by_cases begun : f.begin = SQLITE_OK
  swap
  · simp only [if_neg begun, if_pos begun]
    refine ⟨rfl, ?_, fun m _ _ => .inl rfl⟩
    exact fun _ m _ reaches => absurd reaches.1.1 begun
  simp only [if_pos begun] at failed ⊢
  have kept_tags {m : BitVec 32} (nonzero : m ≠ 0) :
      rewritten.pager.world.tag m = s.world.tag m ∨ codec.m_hasReadKey = true ∧
        rewritten.pager.world.tag m = some (bodyTag ae codec.m_readKey m (plain m)) :=
    (kept.tags m nonzero).imp_right And.right
  by_cases pages : rewritten.rc = SQLITE_OK
  swap
  · simp only [if_neg pages, if_pos pages]
    refine ⟨kept.original, ?_, fun m nonzero _ => kept_tags nonzero⟩
    exact fun _ m _ reaches => absurd (rc.mpr reaches.1.2) pages
  obtain ⟨all, loaded⟩ := written pages
  simp only [if_pos pages, Pager.commit, all] at failed ⊢
  by_cases commit : f.commit = SQLITE_OK
  · simp only [if_pos commit, if_neg (not_not.mpr commit)] at failed
    exact absurd commit failed
  simp only [if_neg commit, if_pos commit]
  have loaded_taken {m : BitVec 32} (member : m ∈ (s.pages nSkip).take f.committed) :=
    loaded m (List.mem_of_mem_take member)
  have stopped := commitPages_committed ae fr rewritten.codec ((s.pages nSkip).take f.committed)
    rewritten.pager ((settings_flags same).1.trans encrypted) ?_
  · have write := (settings_flags same).2.2
    refine ⟨stopped.original.trans kept.original, ?_, ?_⟩
    · rintro hasWrite m nonzero ⟨-, member⟩
      have sealed := (stopped.sealed (write.trans hasWrite) m member).2 nonzero
      rwa [loaded_taken member, (settings_keys same).2.1] at sealed
    · intro m nonzero unsealed
      have tag : (commitPages ae fr ((s.pages nSkip).take f.committed) rewritten.pager
          rewritten.codec).1.world.tag m = rewritten.pager.world.tag m := by
        by_cases member : m ∈ (s.pages nSkip).take f.committed
        · have noWrite : rewritten.codec.m_hasWriteKey = false := by
            rw [write, Bool.eq_false_iff]
            exact fun hasWrite => unsealed ⟨hasWrite, ⟨begun, rc.mp pages⟩, member⟩
          exact congrFun (stopped.raw noWrite).2 m
        · exact (stopped.others m member).2 nonzero
      dsimp only
      rw [tag]
      exact kept_tags nonzero
  · intro m member
    rw [loaded_taken member, (settings_keys same).2.2]
    exact (loads m (List.mem_of_mem_take member)).2

end
end
end TeeSqlite
