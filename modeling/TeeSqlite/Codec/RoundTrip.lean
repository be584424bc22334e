import TeeSqlite.Codec.TagSlot

/-! What a stored page reads back as: the page itself, and never another one when
page 1 was tampered with. -/
namespace TeeSqlite
open ByteFile AuthEnc

/-- A page size as the header of a database has it: two bytes, the high one first,
and 65536 as 1. -/
def pageSizeBytes (pageSize : Nat) : Bytes :=
  if pageSize = SQLITE_MAX_PAGE_SIZE then [0, 1]
  else [UInt8.ofNat (pageSize / 256), UInt8.ofNat (pageSize % 256)]

/-- The first page of a database, as far as the codec looks at it. The page size may
be any that SQLite admits. -/
structure FirstPage (data : Bytes) : Prop where
  magic : data.take 16 = SQLITE_FILE_HEADER
  size : ∃ bt : Btree, (data.drop 16).take 2 = pageSizeBytes bt.pageSize
  fixed : (data.drop 21).take 3 = [0x40, 0x20, 0x20]

theorem Btree.pageSize_cases (bt : Btree) : ∃ k, 9 ≤ k ∧ k ≤ 16 ∧ bt.pageSize = 2 ^ k := by
  have least : 2 ^ 9 ≤ bt.pageSize := bt.least
  have most : bt.pageSize ≤ 2 ^ 16 := bt.most
  have positive : bt.pageSize ≠ 0 := by omega
  obtain ⟨k, hk⟩ := (Nat.and_sub_one_eq_zero_iff_isPowerOfTwo positive).mp bt.power
  rw [hk] at least most
  refine ⟨k, ?_, ?_, hk⟩
  · exact (Nat.pow_le_pow_iff_right (by decide)).mp least
  · exact (Nat.pow_le_pow_iff_right (by decide)).mp most

/-- The codec reads the two bytes of every page size as that size. -/
theorem pageSizeBytes_read (bt : Btree) :
    ∃ x y : UInt8, pageSizeBytes bt.pageSize = [x, y] ∧
      x.toNat <<< 8 ||| y.toNat <<< 16 = bt.pageSize := by
  obtain ⟨k, low, high, size⟩ := bt.pageSize_cases
  rw [size]
  obtain rfl | rfl | rfl | rfl | rfl | rfl | rfl | rfl : k = 9 ∨ k = 10 ∨ k = 11 ∨ k = 12 ∨
      k = 13 ∨ k = 14 ∨ k = 15 ∨ k = 16 := by omega
  all_goals exact ⟨_, _, rfl, by decide⟩

theorem dbHeaderOf_getElem? (data : Bytes) {i : Nat} (hi : i < 8) :
    (dbHeaderOf data)[i]? = data[16 + i]? := by
  rw [dbHeaderOf, List.getElem?_take_of_lt hi, List.getElem?_drop]

theorem FirstPage.headerOk {data : Bytes} (first : FirstPage data) :
    headerOk (dbHeaderOf data) = true := by
  obtain ⟨bt, size⟩ := first.size
  obtain ⟨x, y, bytes, value⟩ := pageSizeBytes_read bt
  rw [bytes] at size
  have least := bt.least
  have most := bt.most
  have power : (bt.pageSize - 1) &&& bt.pageSize = 0 := by
    rw [Nat.and_comm]
    exact bt.power
  have sized (i : Nat) (hi : i < 2) : data[16 + i]? = [x, y][i]? := by
    rw [← size, List.getElem?_take_of_lt hi, List.getElem?_drop]
  have fixed (i : Nat) (hi : i < 3) :
      data[21 + i]? = ([0x40, 0x20, 0x20] : Bytes)[i]? := by
    rw [← first.fixed, List.getElem?_take_of_lt hi, List.getElem?_drop]
  have b0 : data[16 + 0]? = some x := sized 0 (by decide)
  have b1 : data[16 + 1]? = some y := sized 1 (by decide)
  have b5 : data[16 + 5]? = some 0x40 := fixed 0 (by decide)
  have b6 : data[16 + 6]? = some 0x20 := fixed 1 (by decide)
  have b7 : data[16 + 7]? = some 0x20 := fixed 2 (by decide)
  simp only [TeeSqlite.headerOk, dbHeaderOf_getElem? data (show 0 < 8 by decide),
    dbHeaderOf_getElem? data (show 1 < 8 by decide),
    dbHeaderOf_getElem? data (show 5 < 8 by decide),
    dbHeaderOf_getElem? data (show 6 < 8 by decide),
    dbHeaderOf_getElem? data (show 7 < 8 by decide), b0, b1, b5, b6, b7, Option.getD_some, value,
    power, least, most, decide_true, BEq.rfl, Bool.and_self]

theorem FirstPage.decodable {page : BitVec 32} {data : Bytes}
    (first : page = 1 → FirstPage data) : Decodable page data where
  magic one := (first one).magic
  header one := (first one).headerOk

section
variable (ae : PageAE)

/-- Page 1 is stored with its bytes 16..23 in clear. -/
theorem dbHeaderOf_stored (key : Key) {data : Bytes} (len : 24 ≤ data.length) :
    dbHeaderOf (stored ae key 1 data) = dbHeaderOf data := by
  simp only [stored, bodyOf, ↓reduceIte]
  apply dbHeaderOf_pieces
  all_goals
    simp only [dbHeaderOf, ae.length_enc, List.length_take, List.length_drop]
    omega

theorem length_stored (key : Key) (page : BitVec 32) {data : Bytes} (len : 24 ≤ data.length) :
    (stored ae key page data).length = data.length := by
  by_cases first : page = 1
  · simp only [stored, bodyOf, dbHeaderOf, first, ↓reduceIte, List.length_append, List.length_take,
      List.length_drop, ae.length_enc]
    omega
  · simp only [stored, bodyOf, first, ↓reduceIte, ae.length_enc]

/-- Mode 6 leaves the pager's own page alone and page 1's clear bytes in clear, and
mode 3 makes of its buffer the page again, as long as the map has the tag that was
recorded then. -/
def RoundTrips (w : World (Setup × List Final) TagMap) (codec : Codec) (fr : Frame)
    (page : BitVec 32) (data : Bytes) : Prop :=
  ∃ c codec' out, sqlite3Codec (idealCalls ae).logged finiteMapStore w (some codec) fr data page 6 =
      some c ∧ c.codec = some codec' ∧ c.data = data ∧ c.page = some out ∧
    (page = 1 → (out.drop 16).take 8 = (data.drop 16).take 8) ∧
    ∀ later fr', later.tag page = c.world.tag page →
      ∃ c', sqlite3Codec (idealCalls ae).logged finiteMapStore later (some codec') fr' out page 3 =
        some c' ∧ c'.page = some data

theorem page_round_trip (w : World (Setup × List Final) TagMap) {codec : Codec}
    (keyed : Keyed codec) (oneKey : codec.m_readKey = codec.m_writeKey) (fr : Frame)
    {page : BitVec 32} {data : Bytes} (size : data.length = codec.m_bt.pageSize)
    (first : page = 1 → FirstPage data) : RoundTrips ae w codec fr page data := by
  have least := codec.m_bt.least
  have len : 24 ≤ data.length := by omega
  obtain ⟨w', codec', write, same, recorded, -⟩ :=
    write_ideal ae w keyed.encrypted fr page (.inl ⟨rfl, keyed.hasWrite⟩) size
  have live := keyed.congr same
  have reader : codec'.m_readKey = codec.m_writeKey := (settings_keys same).1.trans oneKey
  refine ⟨_, codec', _, write, rfl, rfl, rfl, ?_, ?_⟩
  · rintro rfl
    exact dbHeaderOf_stored ae codec.m_writeKey len
  · intro later fr' kept
    obtain ⟨c, result, read, handed, -, -, whole⟩ := read_ideal ae later live.encrypted live.hasRead
      fr' codec.m_writeKey (.inr (.inr rfl)) (FirstPage.decodable first) len
      (kept.trans recorded)
    have opened : ae.dec codec'.m_readKey iv (ae.enc codec.m_writeKey iv (bodyOf page data)).1
        (bodyTag ae codec.m_writeKey page data) = some (bodyOf page data) := by
      rw [reader]
      exact (ae.dec_own _ _ _ _).mpr rfl
    exact ⟨c, read, whole opened ▸ handed⟩

end

section
variable {σ τ : Type} (u : TeeCalls σ) (t : TagStore τ)

/-- `CodecDecrypt` up to its last test: how far the decryption is from the start of
the page, and the page with it. -/
def decryptInPlace (w : World σ τ) (codec : Codec) (fr : Frame) (page : BitVec 32) (data : Bytes) :
    Option (World σ τ × Codec × Nat × Bytes) := do
  let mem := w.mem.setInt fr.page page
  let (offset, data) := locate page data
  let (mem, tmp) ← t.hm_get mem w.tag fr.page
  let (tee, codec, piece, _) :=
    CodecAES u w.tee codec false (data.drop offset) (tmp.getD Tag.zero) false
  some (⟨tee, mem, w.tag⟩, codec, offset, splice data offset piece)

/-- The last test: the clear header of the page read is that of the page decrypted. -/
def restoresMagic (w : World σ τ) (fr : Frame) (offset : Nat) (data opened : Bytes) : Prop :=
  w.mem.int fr.page = 1 ∧ offset ≠ 0 ∧ dbHeaderOf data = dbHeaderOf opened

instance (w : World σ τ) (fr : Frame) (offset : Nat) (data opened : Bytes) :
    Decidable (restoresMagic w fr offset data opened) :=
  inferInstanceAs (Decidable (_ ∧ _ ∧ _))

theorem CodecDecrypt_eq {w w' : World σ τ} {codec codec' : Codec} {fr : Frame}
    {page : BitVec 32} {data opened : Bytes} {offset : Nat}
    (h : decryptInPlace u t w codec fr page data = some (w', codec', offset, opened)) :
    CodecDecrypt u t w codec fr page data = some (w', codec',
      if restoresMagic w' fr offset data opened then splice opened 0 SQLITE_FILE_HEADER
      else opened) := by
  simp only [decryptInPlace, Option.bind_eq_bind, Option.bind_eq_some_iff] at h
  obtain ⟨found, look, made⟩ := h
  simp only [Option.some.injEq, Prod.mk.injEq] at made
  obtain ⟨rfl, rfl, rfl, rfl⟩ := made
  simp only [CodecDecrypt, look, Option.bind_eq_bind, Option.bind_some]
  rfl

end

section
variable (ae : PageAE)

/-- The final call of a decryption succeeded. -/
def Authenticated (w w' : World (Setup × List Final) TagMap) : Prop :=
  ∃ src tag, w'.tee.2 = .decrypt src tag TEE_SUCCESS :: w.tee.2

theorem finalRc_success {opened : Option Bytes} (h : finalRc opened = TEE_SUCCESS) :
    ∃ p, opened = some p := by
  cases opened with
  | none => exact absurd h (by decide)
  | some p => exact ⟨p, rfl⟩

/-- A page 1 of four pieces is decrypted behind its second piece or as a whole, as
its clear header says. -/
theorem decryptInPlace_ideal (w : World (Setup × List Final) TagMap) (codec : Codec) (fr : Frame)
    {a b c d : Bytes} (ha : a.length = 8) (hb : b.length = 8) (hc : c.length = 8) {tag : Tag}
    (recorded : w.tag 1 = some tag) :
    ∃ w' offset opened,
      decryptInPlace (idealCalls ae).logged finiteMapStore w codec fr 1 (a ++ (b ++ (c ++ d))) =
        some (w', codec.handled, offset, opened) ∧ w'.mem.int fr.page = 1 ∧
      (offset = 0 ∨ offset = 16 ∧
        w'.tee.2 = .decrypt (b ++ d) tag (finalRc (ae.dec codec.m_readKey iv (b ++ d) tag)) ::
          w.tee.2 ∧
        opened = a ++ (b ++ (ae.dec codec.m_readKey iv (b ++ d) tag).getD (b ++ d))) := by
  have header : dbHeaderOf (a ++ (b ++ (c ++ d))) = c := dbHeaderOf_pieces ha hb hc
  by_cases ok : headerOk c = true
  · have located : locate 1 (a ++ (b ++ (c ++ d))) = (16, a ++ (b ++ (b ++ d))) := by
      have lenab : (a ++ b).length = 16 := by rw [List.length_append, ha, hb]
      have moved := splice_middle (a ++ b) c d (hb.trans hc.symm) lenab
      rw [List.append_assoc, List.append_assoc] at moved
      rw [locate, header, if_pos ⟨rfl, ok⟩, List.drop_left' ha, List.take_left' hb, moved]
    have body : (a ++ (b ++ (b ++ d))).drop 16 = b ++ d := (take_pieces ha hb).2
    have lenQ := ae.length_getD_dec codec.m_readKey iv (b ++ d) tag
    generalize hQ : (ae.dec codec.m_readKey iv (b ++ d) tag).getD (b ++ d) = Q at lenQ
    have placed : splice (a ++ (b ++ (b ++ d))) 16 Q = a ++ (b ++ Q) := by
      have laid := splice_middle (a ++ b) (b ++ d) [] lenQ (by rw [List.length_append, ha, hb])
      simpa only [List.append_nil, List.append_assoc] using laid
    simp only [decryptInPlace, located, finiteMapStore, Mem.setInt_int, ↓reduceIte, recorded,
      Option.bind_eq_bind, Option.bind_some, Option.getD_some, CodecAES_decrypt_ideal, body, hQ,
      placed]
    exact ⟨_, _, _, rfl, if_pos rfl, .inr ⟨rfl, rfl, rfl⟩⟩
  · have located : locate 1 (a ++ (b ++ (c ++ d))) = (0, a ++ (b ++ (c ++ d))) := by
      rw [locate, header, if_neg]
      rintro ⟨-, good⟩
      exact ok good
    simp only [decryptInPlace, located, finiteMapStore, Mem.setInt_int, ↓reduceIte, recorded,
      Option.bind_eq_bind, Option.bind_some, Option.getD_some, CodecAES_decrypt_ideal]
    exact ⟨_, _, _, rfl, if_pos rfl, .inl rfl⟩

/-- Whatever of its length is read in place of the stored page 1, under the tag that
was recorded: with a final call that succeeds and the magic put back it is the page,
and then no byte from the eighth on was changed. -/
def NeverAnotherPage (w : World (Setup × List Final) TagMap) (codec : Codec) (fr : Frame)
    (useWriteKey : Bool) (P : Bytes) : Prop :=
  ∃ w' codec' S, CodecEncrypt (idealCalls ae).logged finiteMapStore w codec fr 1 P useWriteKey =
      some (w', codec', S) ∧
    ∀ later reader fr' X, later.tag 1 = w'.tag 1 →
      reader.m_readKey = codec.keyFor useWriteKey → X.length = S.length →
      ∃ read reader' offset opened result,
        decryptInPlace (idealCalls ae).logged finiteMapStore later reader fr' 1 X =
          some (read, reader', offset, opened) ∧
        CodecDecrypt (idealCalls ae).logged finiteMapStore later reader fr' 1 X =
          some (read, reader', result) ∧
        (Authenticated later read → restoresMagic read fr' offset X opened → result = P) ∧
        ((∃ i, 8 ≤ i ∧ X[i]? ≠ S[i]?) →
          ¬ Authenticated later read ∨ ¬ restoresMagic read fr' offset X opened)

theorem tampered_page_one (w : World (Setup × List Final) TagMap) (codec : Codec) (fr : Frame)
    (useWriteKey : Bool) {bt : Btree} {P : Bytes} (size : P.length = bt.pageSize)
    (first : FirstPage P)
    (binds : ae.Binds (codec.keyFor useWriteKey) iv (bodyTag ae (codec.keyFor useWriteKey) 1 P)
      (ae.enc (codec.keyFor useWriteKey) iv (bodyOf 1 P)).1) :
    NeverAnotherPage ae w codec fr useWriteKey P := by
  have least := bt.least
  obtain ⟨w', encrypted, recorded, -⟩ := encrypt_ideal ae w codec fr 1 useWriteKey
    (show 24 ≤ P.length by omega)
  refine ⟨w', codec.handled, _, encrypted, ?_⟩
  generalize codec.keyFor useWriteKey = key at binds recorded ⊢
  intro later reader fr' X kept own len
  have sealed := length_stored ae key 1 (show 24 ≤ P.length by omega)
  obtain ⟨a, b, c, d, rfl, ha, hb, hc⟩ := split_page (show 24 ≤ X.length by omega)
  obtain ⟨read, offset, opened, made, number, shape⟩ :=
    decryptInPlace_ideal ae later reader fr' ha hb hc (kept.trans recorded)
  have decrypted := CodecDecrypt_eq _ _ made
  -- authenticated and with the header of the body in clear, it is the stored page
  have same : Authenticated later read →
      restoresMagic read fr' offset (a ++ (b ++ (c ++ d))) opened →
      splice opened 0 SQLITE_FILE_HEADER = P ∧
        (a ++ (b ++ (c ++ d))).drop 8 = (stored ae key 1 P).drop 8 := by
    rintro ⟨src, tag, log⟩ ⟨-, moved, header⟩
    obtain ⟨-, log', rfl⟩ := shape.resolve_left moved
    rw [log'] at log
    obtain ⟨-, -, success⟩ := Final.decrypt.inj (List.cons.inj log).1
    obtain ⟨p, opens⟩ := finalRc_success success
    have body : b ++ d = (ae.enc key iv (bodyOf 1 P)).1 := by
      rw [own] at opens
      exact binds _ p opens
    have whole : ae.dec reader.m_readKey iv (b ++ d) (bodyTag ae key 1 P) = some (P.drop 16) := by
      rw [own, body]
      exact (ae.dec_own _ _ _ _).mpr rfl
    rw [whole, Option.getD_some] at header ⊢
    have clear : c = dbHeaderOf P := by
      rw [← dbHeaderOf_pieces (d := d) ha hb hc, header, dbHeaderOf, (take_pieces ha hb).2,
        dbHeaderOf]
    constructor
    · rw [← List.append_assoc, splice_first _ _ (by rw [List.length_append, ha, hb]; rfl),
        ← first.magic, List.take_append_drop]
    · have tail : (a ++ (b ++ (c ++ d))).drop 8 = b ++ (c ++ d) := List.drop_left' ha
      have head : ((ae.enc key iv (P.take 16)).1.take 8).length = 8 := by
        rw [List.length_take, ae.length_enc, List.length_take]
        omega
      simp only [stored, ↓reduceIte, ← body]
      rw [tail, List.drop_left' head, List.take_left' hb, List.drop_left' hb, clear]
  refine ⟨read, reader.handled, offset, opened, _, made, decrypted, ?_, ?_⟩
  · intro authentic restored
    rw [if_pos restored]
    exact (same authentic restored).1
  · rintro ⟨i, high, differs⟩
    by_contra both
    rw [not_or, not_not, not_not] at both
    have tails := congrArg (·[i - 8]?) (same both.1 both.2).2
    simp only [List.getElem?_drop, Nat.add_sub_cancel' high] at tails
    exact differs tails

end

/-- A first page of 512 bytes. -/
def firstPage : Bytes :=
  SQLITE_FILE_HEADER ++ ([2, 0, 1, 1, 0, 0x40, 0x20, 0x20] ++ List.replicate 488 0)

theorem firstPage_first : FirstPage firstPage where
  magic := by decide
  size := ⟨(Codec.keyed Tag.zero).m_bt, by decide⟩
  fixed := by decide

theorem firstPage_length : firstPage.length = (Codec.keyed Tag.zero).m_bt.pageSize := by
  simp only [firstPage, List.length_append, List.length_replicate]
  rfl

theorem first_page_round_trip :
    RoundTrips firstByteAE World.fresh (.keyed Tag.zero) .sample 1 firstPage :=
  page_round_trip firstByteAE World.fresh (keyed_keyed Tag.zero) rfl .sample firstPage_length
    fun _ => firstPage_first

/-- A scheme in which the first page has a tag of its own. -/
def firstPageAE : PageAE :=
  .ofTag fun _ _ p => byteTag (if p = firstPage.drop 16 then 1 else 0)

theorem firstPageAE_binds (key : Key) :
    firstPageAE.Binds key iv (bodyTag firstPageAE key 1 firstPage)
      (firstPageAE.enc key iv (bodyOf 1 firstPage)).1 := by
  intro c p opens
  have sealed := (firstPageAE.exact key iv c _ p).mp opens
  obtain ⟨rfl, tags⟩ := Prod.mk.inj sealed
  change byteTag (if p = firstPage.drop 16 then 1 else 0) =
    byteTag (if firstPage.drop 16 = firstPage.drop 16 then 1 else 0) at tags
  by_contra other
  have differs : ¬ p = firstPage.drop 16 := other
  rw [if_neg differs, if_pos rfl] at tags
  exact absurd tags (by decide)

theorem tampered_first_page :
    NeverAnotherPage firstPageAE World.fresh (.keyed Tag.zero) .sample true firstPage :=
  tampered_page_one firstPageAE World.fresh (.keyed Tag.zero) .sample true firstPage_length
    firstPage_first (firstPageAE_binds Tag.zero)

end TeeSqlite
