import TeeSqlite.Lib.Runs
import TeeSqlite.Codec.Authentic
import TeeSqlite.Codec.Ideal

/-! One tag per page number, whoever encrypts the page and for which file. Over an
ideal scheme and a perfect tag map, a stored page reads back as long as the tag in
its slot is the one its own encryption gave. -/
namespace TeeSqlite
open ByteFile AuthEnc Runs

/-- One encryption by `sqlite3Codec`, in mode 6 or 7, of a page of a database. -/
structure PageWrite (ι : Type) where
  db : ι
  nMode : Nat
  page : BitVec 32
  data : Bytes
  fr : Frame

/-- The codecs of the databases, and what they share. -/
abbrev CodecState (ι : Type) := World (Setup × List Final) TagMap × (ι → Codec)

section
variable {ι : Type} (ae : PageAE)

/-- Answers with the page behind the pointer returned. -/
def writeStep [DecidableEq ι] : CodecState ι → PageWrite ι → Option (CodecState ι × Bytes)
  | (w, codecs), op =>
    match sqlite3Codec (idealCalls ae).logged finiteMapStore w (some (codecs op.db)) op.fr op.data
        op.page op.nMode with
    | some ⟨w, some codec, _, some page⟩ => some ((w, Function.update codecs op.db codec), page)
    | _ => none

def Admitted (s : CodecState ι) (op : PageWrite ι) : Prop :=
  (op.nMode = 6 ∨ op.nMode = 7) ∧ ValidPage (s.2 op.db).m_bt.pageSize op.page op.data

/-- Passing the stored page to the codec authenticates it and gives back the page. -/
def ReadsBack (w : World (Setup × List Final) TagMap) (codec : Codec) (page : BitVec 32)
    (nMode : Nat) (out data : Bytes) : Prop :=
  ∀ fr, ∃ c, sqlite3Codec (idealCalls ae).logged finiteMapStore w (some codec) fr out page nMode =
    some c ∧ c.page = some data ∧
    ∃ src tag, c.world.tee.2 = .decrypt src tag TEE_SUCCESS :: w.tee.2

/-- The codec has both keys in use. -/
structure Keyed (codec : Codec) : Prop where
  encrypted : codec.m_isEncrypted = true
  hasRead : codec.m_hasReadKey = true
  hasWrite : codec.m_hasWriteKey = true

/-- What an encryption leaves alone of a codec. -/
def Codec.settings (codec : Codec) : Codec :=
  { codec with test_op_handle := TEE_HANDLE_NULL, test_key_handle := TEE_HANDLE_NULL, m_page := [] }

theorem settings_keys {c c' : Codec} (same : c.settings = c'.settings) :
    c.m_readKey = c'.m_readKey ∧ c.m_writeKey = c'.m_writeKey ∧ c.m_bt = c'.m_bt := by
  simp only [Codec.settings, Codec.mk.injEq] at same
  obtain ⟨-, -, readKey, -, writeKey, -, -, bt, -⟩ := same
  exact ⟨readKey, writeKey, bt⟩

theorem Keyed.congr {c c' : Codec} (h : Keyed c') (same : c.settings = c'.settings) : Keyed c where
  encrypted := (congrArg Codec.m_isEncrypted same).trans h.encrypted
  hasRead := (congrArg Codec.m_hasReadKey same).trans h.hasRead
  hasWrite := (congrArg Codec.m_hasWriteKey same).trans h.hasWrite

theorem pages_are_long (bt : Btree) {page : BitVec 32} {data : Bytes}
    (valid : ValidPage bt.pageSize page data) : 24 ≤ data.length := by
  have least := bt.least
  rw [valid.length]
  omega

/-- A read of a stored page, in any of the three modes. -/
theorem read_ideal (w : World (Setup × List Final) TagMap) {codec : Codec}
    (encrypted : codec.m_isEncrypted = true) (hasRead : codec.m_hasReadKey = true)
    (fr : Frame) {page : BitVec 32} {data : Bytes} (key : Key) {nMode : Nat}
    (mode : nMode = 0 ∨ nMode = 2 ∨ nMode = 3) (valid : Decodable page data)
    (len : 24 ≤ data.length) {tag : Tag} (recorded : w.tag page = some tag) :
    let body := (ae.enc key iv (bodyOf page data)).1
    let opened := ae.dec codec.m_readKey iv body tag
    ∃ c result, sqlite3Codec (idealCalls ae).logged finiteMapStore w (some codec) fr
        (stored ae key page data) page nMode = some c ∧ c.page = some result ∧
      c.world.tee.2 = .decrypt body tag (finalRc opened) :: w.tee.2 ∧
      bodyOf page result = opened.getD body ∧
      (opened = some (bodyOf page data) → result = data) := by
  obtain ⟨w', result, decrypted, log, body, whole⟩ :=
    decrypt_ideal ae w codec fr key valid len recorded
  refine ⟨⟨w', some codec.handled, result, some result⟩, result, ?_, rfl, log, body, whole⟩
  rw [sqlite3Codec_decrypts w encrypted hasRead fr _ page mode, decrypted]
  rfl

/-- A write of a page, for the main file with the write key or for the journal with
the read key. -/
theorem write_ideal (w : World (Setup × List Final) TagMap) {codec : Codec}
    (encrypted : codec.m_isEncrypted = true) (fr : Frame) (page : BitVec 32) {data : Bytes}
    {nMode : Nat} (mode : nMode = 6 ∧ codec.m_hasWriteKey = true ∨
      nMode = 7 ∧ codec.m_hasReadKey = true)
    (size : data.length = codec.m_bt.pageSize) :
    let key := codec.keyFor (nMode = 6)
    ∃ w' codec', sqlite3Codec (idealCalls ae).logged finiteMapStore w (some codec) fr data page
        nMode = some ⟨w', some codec', data, some (stored ae key page data)⟩ ∧
      codec'.settings = codec.settings ∧ w'.tag page = some (bodyTag ae key page data) ∧
      ∀ k, k ≠ page → k ≠ 0 → w'.tag k = w.tag k := by
  have least := codec.m_bt.least
  have whole : data.take codec.m_bt.pageSize = data := by rw [← size, List.take_length]
  obtain ⟨w', made, own, others⟩ := encrypt_ideal ae w codec fr page (nMode = 6)
    (show 24 ≤ data.length by omega)
  dsimp only
  generalize stored ae (codec.keyFor (nMode = 6)) page data = out at made ⊢
  refine ⟨w', { codec.handled with m_page := splice codec.m_page 4 out }, ?_, rfl, own, others⟩
  have hasKey : (if nMode = 6 then codec.m_hasWriteKey else codec.m_hasReadKey) = true := by
    rcases mode with ⟨rfl, hasWrite⟩ | ⟨rfl, hasRead⟩
    · exact hasWrite
    · exact hasRead
  rw [sqlite3Codec_encrypts w encrypted fr data page (mode.imp And.left And.left) hasKey, whole,
    made]
  rfl

/-- The tag in the slot decides whether a stored page reads back. -/
theorem reads_back_iff (w : World (Setup × List Final) TagMap) {codec : Codec} (keyed : Keyed codec)
    {page : BitVec 32} {data : Bytes} (key : Key) {nMode : Nat}
    (mode : nMode = 0 ∨ nMode = 2 ∨ nMode = 3) (valid : ValidPage codec.m_bt.pageSize page data)
    {tag : Tag} (recorded : w.tag page = some tag) :
    ReadsBack ae w codec page nMode (stored ae key page data) data ↔
      ae.enc codec.m_readKey iv (bodyOf page data) =
        ((ae.enc key iv (bodyOf page data)).1, tag) := by
  have read (fr : Frame) := read_ideal ae w keyed.encrypted keyed.hasRead fr key mode
    valid.decodable (pages_are_long _ valid) recorded
  dsimp only at read
  rw [← ae.dec_enc]
  generalize (ae.enc key iv (bodyOf page data)).1 = body at read ⊢
  constructor
  · intro reads
    obtain ⟨c, call, handed, src, tag', log'⟩ := reads .sample
    obtain ⟨c', result, call', handed', log, opens, -⟩ := read .sample
    obtain rfl : c = c' := Option.some.inj (call.symm.trans call')
    obtain rfl : data = result := Option.some.inj (handed.symm.trans handed')
    rw [log] at log'
    obtain ⟨entry, -⟩ := List.cons.inj log'
    simp only [Final.decrypt.injEq] at entry
    cases opened : ae.dec codec.m_readKey iv body tag with
    | none =>
      rw [opened] at entry
      exact absurd entry.2.2 (by decide)
    | some p =>
      rw [opened] at opens
      exact congrArg some opens.symm
  · intro opened fr
    obtain ⟨c, result, call, handed, log, -, whole⟩ := read fr
    refine ⟨c, call, whole opened ▸ handed, body, tag, ?_⟩
    rw [log, opened]
    rfl

/-- The key of an encryption: mode 6 takes the write key, mode 7 the read key. -/
def PageWrite.key (op : PageWrite ι) (codecs : ι → Codec) : Key :=
  (codecs op.db).keyFor (op.nMode = 6)

/-- The latest encryption of a page, by whatever codec in whatever mode. -/
def lastWrite (page : BitVec 32) (h : List (PageWrite ι × Bytes)) : Option (PageWrite ι × Bytes) :=
  h.find? fun x => x.1.page = page

/-- The history accounts for the tag map and for what was stored. -/
structure Slots (codecs : ι → Codec) (h : List (PageWrite ι × Bytes)) (s : CodecState ι) :
    Prop where
  settings : ∀ i, (s.2 i).settings = (codecs i).settings
  outs : ∀ x ∈ h, ValidPage (codecs x.1.db).m_bt.pageSize x.1.page x.1.data ∧
    x.2 = stored ae (x.1.key codecs) x.1.page x.1.data
  slot : ∀ page x, lastWrite page h = some x →
    s.1.tag page = some (bodyTag ae (x.1.key codecs) page x.1.data)

theorem Slots.step [DecidableEq ι] {codecs : ι → Codec} (keyed : ∀ i, Keyed (codecs i))
    {h : List (PageWrite ι × Bytes)} {s : CodecState ι} (slots : Slots ae codecs h s)
    {op : PageWrite ι} (admitted : Admitted s op) :
    ∃ s' out, writeStep ae s op = some (s', out) ∧ Slots ae codecs ((op, out) :: h) s' := by
  obtain ⟨w, current⟩ := s
  obtain ⟨mode, valid⟩ := admitted
  have same := slots.settings op.db
  have live : Keyed (current op.db) := (keyed op.db).congr same
  obtain ⟨readKey, writeKey, size⟩ : (current op.db).m_readKey = (codecs op.db).m_readKey ∧
      (current op.db).m_writeKey = (codecs op.db).m_writeKey ∧
      (current op.db).m_bt = (codecs op.db).m_bt := settings_keys same
  have key : (current op.db).keyFor (op.nMode = 6) = op.key codecs := by
    simp only [PageWrite.key, Codec.keyFor, readKey, writeKey]
  have usable : op.nMode = 6 ∧ (current op.db).m_hasWriteKey = true ∨
      op.nMode = 7 ∧ (current op.db).m_hasReadKey = true :=
    mode.imp (⟨·, live.hasWrite⟩) (⟨·, live.hasRead⟩)
  obtain ⟨w', codec, called, settings, own, others⟩ :=
    write_ideal ae w live.encrypted op.fr op.page usable valid.length
  rw [key] at called own
  generalize hout : stored ae (op.key codecs) op.page op.data = out at called
  refine ⟨(w', Function.update current op.db codec), out, ?_, ?_, ?_, ?_⟩
  · simp only [writeStep, called]
  · intro i
    by_cases hi : i = op.db
    · subst hi
      simp only [Function.update_self]
      exact settings.trans same
    · simp only [Function.update_of_ne hi]
      exact slots.settings i
  · intro x hx
    rcases List.mem_cons.mp hx with rfl | older
    · exact ⟨size ▸ valid, hout.symm⟩
    · exact slots.outs x older
  · intro page x last
    by_cases here : op.page = page
    · subst here
      rw [lastWrite, List.find?_cons_of_pos (by simp)] at last
      cases last
      exact own
    · rw [lastWrite, List.find?_cons_of_neg (by simpa using here)] at last
      have inHistory := List.mem_of_find?_eq_some last
      have numbered : x.1.page = page := by simpa using List.find?_some last
      have nonzero : page ≠ 0 := numbered ▸ (slots.outs x inHistory).1.numbered
      rw [others page (Ne.symm here) nonzero]
      exact slots.slot page x last

theorem Slots.of_run [DecidableEq ι] {codecs : ι → Codec} (keyed : ∀ i, Keyed (codecs i))
    {w : World (Setup × List Final) TagMap} {h : List (PageWrite ι × Bytes)} {s : CodecState ι}
    (run : Run (writeStep ae) Admitted (w, codecs) h s) : Slots ae codecs h s := by
  apply run.invariant (Slots ae codecs)
  · exact ⟨fun _ => rfl, fun x hx => absurd hx List.not_mem_nil, fun _ _ last => nomatch last⟩
  · intro h s op s' out slots admitted answer
    obtain ⟨s₁, out₁, answer₁, slots'⟩ := slots.step ae keyed admitted
    obtain ⟨rfl, rfl⟩ : s₁ = s' ∧ out₁ = out := by simpa using answer₁.symm.trans answer
    exact slots'

/-- Encryptions of valid pages can always be carried out one after the other. -/
theorem run_of_valid [DecidableEq ι] {codecs : ι → Codec} (keyed : ∀ i, Keyed (codecs i))
    (w : World (Setup × List Final) TagMap) (ops : List (PageWrite ι))
    (valid : ∀ op ∈ ops, (op.nMode = 6 ∨ op.nMode = 7) ∧
      ValidPage (codecs op.db).m_bt.pageSize op.page op.data) :
    ∃ h s, Run (writeStep ae) (fun s op => op ∈ ops ∧ Admitted s op) (w, codecs) h s ∧
      h.map Prod.fst = ops := by
  have start : ∃ h, Slots ae codecs h (w, codecs) := ⟨[], Slots.of_run ae keyed .start⟩
  obtain ⟨h, s, run, inputs, -⟩ := exists_run (writeStep ae) (fun s op => op ∈ ops ∧ Admitted s op)
    (fun s => ∃ h, Slots ae codecs h s) start ops fun s op hop ⟨h, slots⟩ => by
      obtain ⟨mode, fits⟩ := valid op hop
      have size := (settings_keys (slots.settings op.db)).2.2
      have admitted : Admitted s op := ⟨mode, size ▸ fits⟩
      obtain ⟨s', out, answer, slots'⟩ := slots.step ae keyed admitted
      exact ⟨⟨hop, admitted⟩, s', out, answer, _, slots'⟩
  exact ⟨h, s, run, inputs⟩

/-- A page of the history reads back from its stored form just when the latest
encryption of the page, whoever made it, left the tag that its own gives. -/
theorem Slots.reads_back {codecs : ι → Codec} (keyed : ∀ i, Keyed (codecs i))
    {h : List (PageWrite ι × Bytes)} {s : CodecState ι} (slots : Slots ae codecs h s)
    {x e : PageWrite ι × Bytes} (hx : x ∈ h) (last : lastWrite x.1.page h = some e) {nMode : Nat}
    (mode : nMode = 0 ∨ nMode = 2 ∨ nMode = 3) :
    ReadsBack ae s.1 (s.2 x.1.db) x.1.page nMode x.2 x.1.data ↔
      ae.enc (codecs x.1.db).m_readKey iv (bodyOf x.1.page x.1.data) =
        ((ae.enc (x.1.key codecs) iv (bodyOf x.1.page x.1.data)).1,
          bodyTag ae (e.1.key codecs) x.1.page e.1.data) := by
  obtain ⟨valid, out⟩ := slots.outs x hx
  have same := slots.settings x.1.db
  obtain ⟨readKey, -, size⟩ := settings_keys same
  rw [← size] at valid
  rw [out, reads_back_iff ae s.1 ((keyed x.1.db).congr same) (x.1.key codecs) mode valid
    (slots.slot x.1.page e last), readKey]

end

section
variable (ae : PageAE)

/-- The latest encryption of a page in one mode. -/
def lastIn {ι : Type} (nMode : Nat) (page : BitVec 32) (h : List (PageWrite ι × Bytes)) :
    Option (PageWrite ι × Bytes) :=
  h.find? fun x => x.1.nMode = nMode ∧ x.1.page = page

/-- The latest journal copy and the latest main-file copy of every page read back,
the one in mode 0, the other in mode 3. -/
def CopiesVerify (h : List (PageWrite Unit × Bytes)) (s : CodecState Unit) : Prop :=
  ∀ page,
    (∀ x ∈ lastIn 7 page h, ReadsBack ae s.1 (s.2 ()) page 0 x.2 x.1.data) ∧
    (∀ x ∈ lastIn 6 page h, ReadsBack ae s.1 (s.2 ()) page 3 x.2 x.1.data)

/-- For every page the latest encryption gave the tag that the page last journalled
has under the read key, and what was last written is, under the read key, the same
ciphertext with that tag. -/
def TagsAgree (codec : Codec) (h : List (PageWrite Unit × Bytes)) : Prop :=
  ∀ page, ∀ e ∈ lastWrite page h,
    (∀ x ∈ lastIn 7 page h, bodyTag ae codec.m_readKey page x.1.data =
      bodyTag ae (e.1.key fun _ => codec) page e.1.data) ∧
    (∀ x ∈ lastIn 6 page h, ae.enc codec.m_readKey iv (bodyOf page x.1.data) =
      ((ae.enc codec.m_writeKey iv (bodyOf page x.1.data)).1,
        bodyTag ae (e.1.key fun _ => codec) page e.1.data))

theorem lastIn_spec {ι : Type} {nMode : Nat} {page : BitVec 32} {h : List (PageWrite ι × Bytes)}
    {x : PageWrite ι × Bytes} (last : lastIn nMode page h = some x) :
    x ∈ h ∧ x.1.nMode = nMode ∧ x.1.page = page ∧ ∃ e, lastWrite page h = some e := by
  have mem := List.mem_of_find?_eq_some last
  obtain ⟨mode, here⟩ : x.1.nMode = nMode ∧ x.1.page = page := by simpa using List.find?_some last
  refine ⟨mem, mode, here, ?_⟩
  rw [← Option.isSome_iff_exists, lastWrite, List.find?_isSome]
  exact ⟨x, mem, by simpa using here⟩

/-- Journal copy and main-file copy of every page are verifiable together just when
the tags agree: there is one slot for both. -/
theorem journal_and_main_copies_verify_iff {codec : Codec} (keyed : Keyed codec)
    {w : World (Setup × List Final) TagMap} {h : List (PageWrite Unit × Bytes)}
    {s : CodecState Unit} (run : Run (writeStep ae) Admitted (w, fun _ => codec) h s) :
    CopiesVerify ae h s ↔ TagsAgree ae codec h := by
  have slots := Slots.of_run ae (fun _ => keyed) run
  have journal {page : BitVec 32} {x e : PageWrite Unit × Bytes} (hx : lastIn 7 page h = some x)
      (he : lastWrite page h = some e) :
      ReadsBack ae s.1 (s.2 ()) page 0 x.2 x.1.data ↔ bodyTag ae codec.m_readKey page x.1.data =
        bodyTag ae (e.1.key fun _ => codec) page e.1.data := by
    obtain ⟨mem, mode, rfl, -⟩ := lastIn_spec hx
    have reads := slots.reads_back ae (fun _ => keyed) mem he (.inl rfl)
    have key : x.1.key (fun _ => codec) = codec.m_readKey := by
      simp [PageWrite.key, Codec.keyFor, mode]
    rw [reads, key, ← ae.dec_enc, ae.dec_own]
    rfl
  have main {page : BitVec 32} {x e : PageWrite Unit × Bytes} (hx : lastIn 6 page h = some x)
      (he : lastWrite page h = some e) :
      ReadsBack ae s.1 (s.2 ()) page 3 x.2 x.1.data ↔
        ae.enc codec.m_readKey iv (bodyOf page x.1.data) =
          ((ae.enc codec.m_writeKey iv (bodyOf page x.1.data)).1,
            bodyTag ae (e.1.key fun _ => codec) page e.1.data) := by
    obtain ⟨mem, mode, rfl, -⟩ := lastIn_spec hx
    have reads := slots.reads_back ae (fun _ => keyed) mem he (.inr (.inr rfl))
    have key : x.1.key (fun _ => codec) = codec.m_writeKey := by
      simp [PageWrite.key, Codec.keyFor, mode]
    rw [reads, key]
  constructor
  · intro verify page e he
    constructor
    · intro x hx
      exact (journal hx he).mp ((verify page).1 x hx)
    · intro x hx
      exact (main hx he).mp ((verify page).2 x hx)
  · intro agree page
    constructor
    · intro x hx
      obtain ⟨e, he⟩ := (lastIn_spec hx).2.2.2
      exact (journal hx he).mpr ((agree page e he).1 x hx)
    · intro x hx
      obtain ⟨e, he⟩ := (lastIn_spec hx).2.2.2
      exact (main hx he).mpr ((agree page e he).2 x hx)

end

def byteTag (b : UInt8) : Tag := ⟨List.replicate 16 b, List.length_replicate⟩

/-- A scheme whose tags show the first byte sealed. -/
def firstByteAE : PageAE := .ofTag fun _ _ p => byteTag (p.headD 0)

/-- Page 2 filled with one byte. -/
def fillPage {ι : Type} (db : ι) (nMode : Nat) (b : UInt8) : PageWrite ι :=
  { db, nMode, page := 2, data := List.replicate 512 b, fr := .sample }

theorem fillPage_valid (b : UInt8) : ValidPage 512 2 (List.replicate 512 b) where
  numbered := by decide
  length := List.length_replicate
  magic := fun one => absurd one (by decide)
  header := fun one => absurd one (by decide)

theorem keyed_keyed (key : Key) : Keyed (.keyed key) := ⟨rfl, rfl, rfl⟩

/-- Memory and tag map before any encryption. -/
def World.fresh : World (Setup × List Final) TagMap := ⟨(.blank, []), .blank, fun _ => none⟩

theorem fillPage_run {ι : Type} [DecidableEq ι] (db db' : ι) {nMode nMode' : Nat}
    (mode : nMode = 6 ∨ nMode = 7) (mode' : nMode' = 6 ∨ nMode' = 7) (b b' : UInt8)
    (key : ι → Key) :
    ∃ out out' s, Run (writeStep firstByteAE)
      (fun s op => op ∈ [fillPage db' nMode' b', fillPage db nMode b] ∧ Admitted s op)
      (World.fresh, fun i => .keyed (key i))
      [(fillPage db' nMode' b', out'), (fillPage db nMode b, out)] s := by
  obtain ⟨h, s, run, inputs⟩ := run_of_valid firstByteAE (fun i => keyed_keyed (key i)) World.fresh
    [fillPage db' nMode' b', fillPage db nMode b] (by
      intro op member
      rcases List.mem_pair.mp member with rfl | rfl
      · exact ⟨mode', fillPage_valid b'⟩
      · exact ⟨mode, fillPage_valid b⟩)
  obtain ⟨y, x, rfl⟩ : ∃ y x, h = [y, x] := by
    apply List.length_eq_two.mp
    rw [← List.length_map (f := Prod.fst), inputs]
    rfl
  obtain ⟨op', out'⟩ := y
  obtain ⟨op, out⟩ := x
  simp only [List.map_cons, List.map_nil, List.cons.injEq, and_true] at inputs
  obtain ⟨rfl, rfl⟩ := inputs
  exact ⟨out, out', s, run⟩

theorem copies_of_one_content_verify :
    ∃ out out' s, Run (writeStep firstByteAE) Admitted (World.fresh, fun _ => .keyed Tag.zero)
        [(fillPage () 6 1, out'), (fillPage () 7 1, out)] s ∧
      CopiesVerify firstByteAE [(fillPage () 6 1, out'), (fillPage () 7 1, out)] s := by
  obtain ⟨out, out', s, run⟩ := fillPage_run () () (.inr rfl) (.inl rfl) 1 1 fun _ => Tag.zero
  replace run := run.mono fun _ _ admitted => admitted.2
  have filled : ∀ x ∈ [(fillPage () 6 1, out'), (fillPage () 7 1, out)],
      x.1.data = List.replicate 512 1 ∧ x.1.key (fun _ => Codec.keyed Tag.zero) = Tag.zero := by
    intro x member
    rcases List.mem_pair.mp member with rfl | rfl
    · exact ⟨rfl, rfl⟩
    · exact ⟨rfl, rfl⟩
  refine ⟨out, out', s, run, ?_⟩
  apply (journal_and_main_copies_verify_iff firstByteAE (keyed_keyed Tag.zero) run).mpr
  intro page e last
  obtain ⟨contentE, keyE⟩ := filled e (List.mem_of_find?_eq_some last)
  constructor
  · intro x journalled
    rw [(filled x (lastIn_spec journalled).1).1, contentE, keyE]
    rfl
  · intro x written
    rw [(filled x (lastIn_spec written).1).1, contentE, keyE]
    rfl

/-- Page 2 is journalled, then other content is written for it to the main file:
the journal copy no longer reads back. -/
theorem new_content_loses_the_journal_copy :
    ∃ out out' s, Run (writeStep firstByteAE) Admitted (World.fresh, fun _ => .keyed Tag.zero)
        [(fillPage () 6 2, out'), (fillPage () 7 1, out)] s ∧
      ¬ CopiesVerify firstByteAE [(fillPage () 6 2, out'), (fillPage () 7 1, out)] s := by
  obtain ⟨out, out', s, run⟩ := fillPage_run () () (.inr rfl) (.inl rfl) 1 2 fun _ => Tag.zero
  replace run := run.mono fun _ _ admitted => admitted.2
  refine ⟨out, out', s, run, ?_⟩
  intro verify
  have slots := Slots.of_run firstByteAE (fun _ => keyed_keyed Tag.zero) run
  have reads := (verify 2).1 (fillPage () 7 1, out) rfl
  have agree := (slots.reads_back firstByteAE (fun _ => keyed_keyed Tag.zero)
    (x := (fillPage () 7 1, out)) (by simp) rfl (.inl rfl)).mp reads
  have tags : byteTag 1 = byteTag 2 := congrArg Prod.snd agree
  exact absurd tags (by decide)

end TeeSqlite
