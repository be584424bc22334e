import TeeSqlite.Rpc.UntrustedReads
import TeeSqlite.Codec.RekeyPages

/-! A database file in use: every page passes the codec on its way to the file and back,
whatever the normal world makes of the file. -/
namespace TeeSqlite
open ByteFile CTypes AuthEnc Runs

/-- What a pager works on: the codec with what it shares, and the file with its handle. -/
structure PageFile (σ : Type) where
  world : World (Setup × List Final) TagMap
  codec : Codec
  storage : σ
  file : DemoFile

/-- Page `n` lies at `(n - 1) * pageSize`. -/
def PageFile.offset {σ : Type} (db : PageFile σ) (page : BitVec 32) : Nat :=
  (page.toNat - 1) * db.codec.m_bt.pageSize

/-- A page is written through mode 6, copied for the journal through mode 7, or loaded
through mode 3. -/
inductive PageCall
  | write (fr : Frame) (page : BitVec 32) (data : Bytes)
  | journal (fr : Frame) (page : BitVec 32) (data : Bytes)
  | load (fr : Frame) (page : BitVec 32) (zBuf : Bytes)

/-- What the pager gets: a code, the page behind the codec's pointer, and, what it does
not see, whether the TEE accepted the tag. -/
structure PageReply where
  rc : Rc
  page : Bytes
  authentic : Bool
  deriving DecidableEq

def accepted : List Final → Bool
  | .decrypt _ _ rc :: _ => rc = TEE_SUCCESS
  | _ => false

section
variable {σ : Type} (ae : PageAE) (u : FileCalls σ)

/-- A page that could not be read in full is loaded with zeros for the rest. -/
def pageStep : PageFile σ → PageCall → Option (PageFile σ × PageReply)
  | db, .write fr page data =>
    let (w, codec, out) := passPage ae (fun _ _ => fr) db.world db.codec 6 page data
    (demoWrite u db.storage db.file out (db.offset page)).map fun (s, p, rc) =>
      (⟨w, codec, s, p⟩, ⟨rc, [], false⟩)
  | db, .journal fr page data =>
    let (w, codec, out) := passPage ae (fun _ _ => fr) db.world db.codec 7 page data
    some (⟨w, codec, db.storage, db.file⟩, ⟨.SQLITE_OK, out, false⟩)
  | db, .load fr page zBuf =>
    let (s, p, rc, zBuf) := demoRead u db.storage db.file zBuf zBuf.length (db.offset page)
    if rc = .SQLITE_OK ∨ rc = .SQLITE_IOERR_SHORT_READ then
      let (w, codec, out) := passPage ae (fun _ _ => fr) db.world db.codec 3 page zBuf
      some (⟨w, codec, s, p⟩, ⟨.SQLITE_OK, out, accepted w.tee.2⟩)
    else some (⟨db.world, db.codec, s, p⟩, ⟨rc, [], false⟩)

def PageFile.Admits (db : PageFile σ) : PageCall → Prop
  | .write _ page data | .journal _ page data => ValidPage db.codec.m_bt.pageSize page data
  | .load _ page zBuf => page ≠ 0 ∧ zBuf.length = db.codec.m_bt.pageSize

/-- The page last encrypted under a number, for the file or for the journal. -/
def lastSealed (page : BitVec 32) : List (PageCall × PageReply) → Option Bytes
  | [] => none
  | (.write _ n data, _) :: h | (.journal _ n data, _) :: h =>
    if n = page then some data else lastSealed page h
  | (.load _ _ _, _) :: h => lastSealed page h

/-- A codec in use with one key. -/
structure InUse (key : Key) (codec : Codec) : Prop where
  keyed : Keyed codec
  read : codec.m_readKey = key
  write : codec.m_writeKey = key

/-- The tag map has the tag of what was last encrypted under each number. -/
structure TagsCurrent (key : Key) (bt : Btree) (h : List (PageCall × PageReply))
    (db : PageFile σ) : Prop where
  codec : InUse key db.codec
  btree : db.codec.m_bt = bt
  slot : ∀ page data, lastSealed page h = some data →
    ValidPage bt.pageSize page data ∧ db.world.tag page = some (bodyTag ae key page data)

variable {ae u} {key : Key} {bt : Btree} {codec codec' : Codec} {db db' : PageFile σ}
  {h : List (PageCall × PageReply)} {page : BitVec 32} {data : Bytes}

theorem InUse.settings (one : InUse key codec) (same : codec'.settings = codec.settings) :
    InUse key codec' := by
  obtain ⟨read, write, -⟩ := settings_keys same
  exact ⟨one.keyed.congr same, read.trans one.read, write.trans one.write⟩

theorem passPage_loads (ae : PageAE) (w : World (Setup × List Final) TagMap)
    (one : InUse key codec) (fr : Frame) (page : BitVec 32) (out : Bytes) :
    ∃ w', passPage ae (fun _ _ => fr) w codec 3 page out =
        (w', codec.handled, readPage ae key (w.tag page) page out) ∧ w'.tag = w.tag ∧
      w'.tee.2 = .decrypt (ciphertextOf page out) ((w.tag page).getD Tag.zero)
        (finalRc (ae.dec key iv (ciphertextOf page out) ((w.tag page).getD Tag.zero))) ::
          w.tee.2 := by
  obtain ⟨w', made, tags, log⟩ :=
    sqlite3Codec_reads ae (w := w) one.keyed.encrypted one.keyed.hasRead fr page out
  rw [one.read] at made log
  refine ⟨w', ?_, tags, log⟩
  rw [passPage, made]

theorem passPage_encrypts (ae : PageAE) (w : World (Setup × List Final) TagMap)
    (one : InUse key codec) (fr : Frame) (page : BitVec 32) {nMode : Nat}
    (mode : nMode = 6 ∨ nMode = 7) (size : data.length = codec.m_bt.pageSize) :
    ∃ w' codec', passPage ae (fun _ _ => fr) w codec nMode page data =
        (w', codec', stored ae key page data) ∧ codec'.settings = codec.settings ∧
      w'.tag page = some (bodyTag ae key page data) ∧
      ∀ m, m ≠ page → m ≠ 0 → w'.tag m = w.tag m := by
  have usable : nMode = 6 ∧ codec.m_hasWriteKey = true ∨ nMode = 7 ∧ codec.m_hasReadKey = true :=
    mode.imp (⟨·, one.keyed.hasWrite⟩) (⟨·, one.keyed.hasRead⟩)
  have same : codec.keyFor (nMode = 6) = key := by
    rw [Codec.keyFor, one.read, one.write, ite_self]
  obtain ⟨w', codec', made, settings, own, others⟩ :=
    write_ideal ae w one.keyed.encrypted fr page usable size
  rw [same] at made own
  refine ⟨w', codec', ?_, settings, own, others⟩
  rw [passPage, made]

/-- An encryption gives its page's slot the new tag. -/
theorem TagsCurrent.seals (acc : TagsCurrent ae key bt h db)
    (valid : ValidPage bt.pageSize page data) {w : World (Setup × List Final) TagMap}
    (same : codec'.settings = db.codec.settings)
    (own : w.tag page = some (bodyTag ae key page data))
    (others : ∀ m, m ≠ page → m ≠ 0 → w.tag m = db.world.tag m) {h' : List (PageCall × PageReply)}
    (last : ∀ n, lastSealed n h' = if page = n then some data else lastSealed n h) (s : σ)
    (p : DemoFile) : TagsCurrent ae key bt h' ⟨w, codec', s, p⟩ := by
  refine ⟨acc.codec.settings same, (settings_keys same).2.2.trans acc.btree, ?_⟩
  intro n data' latest
  rw [last] at latest
  by_cases here : page = n
  · subst here
    rw [if_pos rfl] at latest
    cases latest
    exact ⟨valid, own⟩
  · rw [if_neg here] at latest
    obtain ⟨valid', slot⟩ := acc.slot n data' latest
    exact ⟨valid', (others n (Ne.symm here) valid'.numbered).trans slot⟩

theorem TagsCurrent.step (acc : TagsCurrent ae key bt h db) {call : PageCall} {reply : PageReply}
    (admitted : db.Admits call) (answer : pageStep ae u db call = some (db', reply)) :
    TagsCurrent ae key bt ((call, reply) :: h) db' := by
  cases call with
  | write fr page data =>
    have size := admitted.length
    obtain ⟨w, codec, made, same, own, others⟩ :=
      passPage_encrypts ae db.world acc.codec fr page (.inl rfl) size
    simp only [pageStep, made] at answer
    obtain ⟨⟨s, p, rc⟩, -, made⟩ := Option.map_eq_some_iff.mp answer
    cases made
    exact acc.seals (acc.btree ▸ admitted) same own others (fun _ => rfl) s p
  | journal fr page data =>
    have size := admitted.length
    obtain ⟨w, codec, made, same, own, others⟩ :=
      passPage_encrypts ae db.world acc.codec fr page (.inr rfl) size
    simp only [pageStep, made] at answer
    cases answer
    exact acc.seals (acc.btree ▸ admitted) same own others (fun _ => rfl) _ _
  | load fr page zBuf =>
    simp only [pageStep] at answer
    generalize demoRead u db.storage db.file zBuf zBuf.length (db.offset page) = r at answer
    obtain ⟨s, p, rc, out⟩ := r
    dsimp only at answer
    by_cases read : rc = .SQLITE_OK ∨ rc = .SQLITE_IOERR_SHORT_READ
    · obtain ⟨w, made, tags, -⟩ := passPage_loads ae db.world acc.codec fr page out
      rw [if_pos read, made] at answer
      cases answer
      refine ⟨acc.codec.settings rfl, acc.btree, fun n data latest => ?_⟩
      obtain ⟨valid, slot⟩ := acc.slot n data latest
      exact ⟨valid, (congrFun tags n).trans slot⟩
    · rw [if_neg read] at answer
      cases answer
      exact ⟨acc.codec, acc.btree, acc.slot⟩

theorem TagsCurrent.of_run {db₀ : PageFile σ} (one : InUse key db₀.codec)
    (run : Run (pageStep ae u) PageFile.Admits db₀ h db) :
    TagsCurrent ae key db₀.codec.m_bt h db := by
  induction run with
  | start => exact ⟨one, rfl, fun _ _ none => by cases none⟩
  | next _ admitted answer ih => exact ih.step admitted answer

/-- Bytes that the TEE accepts under the tag of a page decrypt to its body. -/
theorem readPage_fresh {out : Bytes} (len : out.length = data.length) (long : 24 ≤ data.length)
    (binds : ae.Binds key iv (bodyTag ae key page data) (ae.enc key iv (bodyOf page data)).1)
    {p : Bytes}
    (opens : ae.dec key iv (ciphertextOf page out) (bodyTag ae key page data) = some p) :
    bodyOf page (readPage ae key (some (bodyTag ae key page data)) page out) =
      bodyOf page data := by
  have cipher := binds _ p opens
  have whole : p = bodyOf page data := by
    have own := (ae.dec_own key iv (bodyOf page data) (bodyTag ae key page data)).mpr rfl
    rw [cipher] at opens
    exact Option.some.inj (opens.symm.trans own)
  have lenP : p.length = (bodyOf page data).length := congrArg List.length whole
  have lenC := (congrArg List.length cipher).trans (ae.length_enc key iv (bodyOf page data))
  rw [← whole]
  simp only [readPage, Option.getD_some]
  rw [← ciphertextOf, opens, Option.getD_some]
  by_cases first : page = 1
  · subst first
    simp only [bodyOf, ↓reduceIte, List.length_drop] at lenP lenC ⊢
    by_cases ok : headerOk (dbHeaderOf out) = true
    · have located : locate 1 out = (16, splice out 16 ((out.drop 8).take 8)) := if_pos ⟨rfl, ok⟩
      simp only [ciphertextOf, located] at lenC ⊢
      generalize splice out 16 ((out.drop 8).take 8) = placed at lenC ⊢
      have tail : (splice placed 16 p).drop 16 = p := drop_splice placed (lenP.trans lenC.symm)
      split
      · rw [List.length_drop] at lenC
        have fits : 16 + p.length ≤ placed.length := by omega
        have room : 0 + SQLITE_FILE_HEADER.length ≤ (splice placed 16 p).length := by
          rw [length_splice placed 16 p fits]
          show 16 ≤ placed.length
          omega
        rw [drop_splice_past _ _ _ room (Nat.le_refl 16), tail]
      · exact tail
    · have located : locate 1 out = (0, out) := if_neg fun both => ok both.2
      simp only [ciphertextOf, located, List.drop_zero] at lenC
      omega
  · have located : locate page out = (0, out) := if_neg fun both => first both.1
    simp only [bodyOf, first, ↓reduceIte, false_and, located] at lenP ⊢
    exact splice_zero out p (lenP.trans len.symm)

theorem accepted_final {opened : Option Bytes} (src : Bytes) (tag : Tag) (log : List Final) :
    accepted (.decrypt src tag (finalRc opened) :: log) = true ↔ ∃ p, opened = some p := by
  cases opened with
  | none => simp [accepted, finalRc, TEE_ERROR_MAC_INVALID, TEE_SUCCESS]
  | some p => simp [accepted, finalRc]

theorem length_demoRead {rpc : RpcCmd σ} {alloc : AllocPayload} {s s' : σ} {p p' : DemoFile}
    {zBuf out : Bytes} {iOfst : Int} {rc : Rc} (read : demoRead (utee rpc alloc).toFileCalls s p
      zBuf zBuf.length iOfst = (s', p', rc, out)) : out.length = zBuf.length := by
  have cases_of := demoRead_cases _ s p zBuf _ iOfst read
  have whole := (readCall_confined rpc alloc s p (Int.le_refl (zBuf.length : Int)) iOfst).1
  dsimp only at cases_of whole
  generalize (readCall (utee rpc alloc).toFileCalls s p zBuf zBuf.length iOfst).2.2 = got
    at cases_of whole
  obtain ⟨-, -, rfl | rfl⟩ | ⟨-, -, rfl⟩ | ⟨-, -, rfl⟩ | ⟨-, nonneg, less, rfl⟩ := cases_of
  · rfl
  · exact whole
  · exact whole
  · exact whole
  · rw [length_splice _ _ _ (by rw [List.length_replicate]; omega), whole]

/-- Whatever the normal world answers, a page that the TEE accepts is the one last
encrypted under its number. -/
theorem accepted_pages_are_fresh (rpc : RpcCmd σ) (alloc : AllocPayload) {db₀ : PageFile σ}
    (one : InUse key db₀.codec)
    (run : Run (pageStep ae (utee rpc alloc).toFileCalls) PageFile.Admits db₀ h db)
    {later earlier : List (PageCall × PageReply)} {fr : Frame} {zBuf : Bytes} {reply : PageReply}
    (here : h = later ++ (.load fr page zBuf, reply) :: earlier)
    (last : lastSealed page earlier = some data)
    (binds : ae.Binds key iv (bodyTag ae key page data) (ae.enc key iv (bodyOf page data)).1)
    (authentic : reply.authentic = true) : bodyOf page reply.page = bodyOf page data := by
  subst here
  obtain ⟨before, after, run, admitted, answer⟩ := run.moment
  have acc := TagsCurrent.of_run one run
  obtain ⟨valid, slot⟩ := acc.slot page data last
  have size : zBuf.length = data.length := by rw [admitted.2, valid.length, acc.btree]
  have long := pages_are_long _ valid
  simp only [pageStep] at answer
  generalize got : demoRead (utee rpc alloc).toFileCalls before.storage before.file zBuf
    zBuf.length (before.offset page) = r at answer
  obtain ⟨s, p, rc, out⟩ := r
  have whole := length_demoRead got
  dsimp only at answer
  by_cases read : rc = .SQLITE_OK ∨ rc = .SQLITE_IOERR_SHORT_READ
  · obtain ⟨w, made, -, log⟩ := passPage_loads ae before.world acc.codec fr page out
    rw [slot, Option.getD_some] at log
    rw [if_pos read, made, slot, log] at answer
    cases answer
    obtain ⟨p, opens⟩ := (accepted_final (ciphertextOf page out) (bodyTag ae key page data)
      before.world.tee.2).mp authentic
    exact readPage_fresh (whole.trans size) long binds opens
  · rw [if_neg read] at answer
    cases answer
    cases authentic

end

def ones : Bytes := List.replicate 512 1

/-- A scheme in which a page of ones has a tag of its own. -/
def onesAE : PageAE := .ofTag fun _ _ p => byteTag (if p = ones then 1 else 0)

theorem onesAE_binds (key : Key) :
    onesAE.Binds key iv (bodyTag onesAE key 2 ones) (onesAE.enc key iv (bodyOf 2 ones)).1 := by
  intro c p opens
  obtain ⟨rfl, tags⟩ := Prod.mk.inj ((onesAE.exact key iv c _ p).mp opens)
  change byteTag (if p = ones then 1 else 0) = byteTag (if ones = ones then 1 else 0) at tags
  by_contra other
  have differs : ¬ p = ones := other
  rw [if_neg differs, if_pos rfl] at tags
  exact absurd tags (by decide)

/-- A normal world that answers 512 and ones, whatever it is asked. -/
def onesWorld : RpcCmd Unit := fun s m =>
  (s, ⟨m.shm.map fun b => List.replicate b.length 1, [.value .INOUT ⟨0, 512, 0⟩]⟩, 0)

def onesFile : PageFile Unit := ⟨World.fresh, .keyed Tag.zero, (), ⟨3, none, 0, 0⟩⟩

theorem onesFile_inUse : InUse Tag.zero onesFile.codec := ⟨keyed_keyed Tag.zero, rfl, rfl⟩

theorem ones_are_accepted : ∃ db reply reply', reply.authentic = true ∧
    Run (pageStep onesAE (utee onesWorld freshBlocks).toFileCalls) PageFile.Admits onesFile
      [(.load .sample 2 ones, reply), (.write .sample 2 ones, reply')] db := by
  have replies : ((pageStep onesAE (utee onesWorld freshBlocks).toFileCalls onesFile
      (.write .sample 2 ones)).bind fun next => (pageStep onesAE
        (utee onesWorld freshBlocks).toFileCalls next.1 (.load .sample 2 ones)).map
          fun last => last.2.authentic) = some true := by decide +kernel
  obtain ⟨⟨db, reply'⟩, first, rest⟩ := Option.bind_eq_some_iff.mp replies
  obtain ⟨⟨db', reply⟩, second, authentic⟩ := Option.map_eq_some_iff.mp rest
  have valid : onesFile.Admits (.write .sample 2 ones) := fillPage_valid 1
  have written := Run.start.next valid first
  have size := (TagsCurrent.of_run onesFile_inUse written).btree
  refine ⟨db', reply, reply', authentic, written.next ⟨by decide, ?_⟩ second⟩
  rw [size]
  exact List.length_replicate

theorem accepted_ones_are_fresh : ∃ db reply reply',
    Run (pageStep onesAE (utee onesWorld freshBlocks).toFileCalls) PageFile.Admits onesFile
      [(.load .sample 2 ones, reply), (.write .sample 2 ones, reply')] db ∧
    reply.authentic = true ∧ bodyOf 2 reply.page = bodyOf 2 ones := by
  obtain ⟨db, reply, reply', authentic, run⟩ := ones_are_accepted
  exact ⟨db, reply, reply', run, authentic, accepted_pages_are_fresh onesWorld freshBlocks
    onesFile_inUse run (show _ = [] ++ _ from rfl) rfl (onesAE_binds Tag.zero) authentic⟩

end TeeSqlite
