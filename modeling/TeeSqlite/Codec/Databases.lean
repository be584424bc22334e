import TeeSqlite.Codec.TagSlot

/-! Two databases attached in one TA. Their codecs have keys of their own, and the
tag map is one for both. -/
namespace TeeSqlite
open ByteFile AuthEnc Runs

/-- A database whose codec, if it has one, was attached: it is in use, with one key
for both directions. -/
def Db.Attached (db : Db) : Prop :=
  ∀ codec ∈ db.pCodec, Keyed codec ∧ codec.m_readKey = codec.m_writeKey

theorem attach_keeps_attached {aDb aDb' : List Db} {fresh : Codec} {nDb : Nat}
    {zKey : Option Pointee} {nKey : Int} (attached : ∀ db ∈ aDb, db.Attached)
    (h : sqlite3CodecAttach aDb fresh nDb zKey nKey = some aDb') : ∀ db ∈ aDb', db.Attached := by
  have replaced {codec : Codec} (ok : Keyed codec ∧ codec.m_readKey = codec.m_writeKey)
      (bt : Btree) :
      ∀ db ∈ aDb.set nDb ⟨bt, some codec⟩, db.Attached := by
    intro db member
    rcases List.mem_or_eq_of_mem_set member with old | rfl
    · exact attached db old
    · intro codec' held
      cases held
      exact ok
  unfold sqlite3CodecAttach at h
  cases hdb : aDb[nDb]? with
  | none =>
    rw [hdb] at h
    cases h
  | some db =>
    rw [hdb] at h
    cases zKey with
    | some key =>
      dsimp only at h
      split_ifs at h
      · cases h
        exact replaced ⟨⟨rfl, rfl, rfl⟩, rfl⟩ db.pBt
      · cases h
        exact attached
    | none =>
      dsimp only at h
      split_ifs at h
      · cases main : aDb.head?.bind Db.pCodec with
        | none =>
          rw [main] at h
          cases h
          exact attached
        | some mainCodec =>
          obtain ⟨first, head, held⟩ := Option.bind_eq_some_iff.mp main
          obtain ⟨keyed, keys⟩ := attached first (List.mem_of_head? head) mainCodec held
          rw [main] at h
          simp only [keyed.encrypted, ↓reduceIte] at h
          cases h
          apply replaced
          exact ⟨⟨keyed.encrypted, keyed.hasRead, keyed.hasWrite⟩, keys⟩
      · cases h
        exact attached

/-- The codecs of a main database and of one attached to it, with a key of its own
or with the main database's. -/
def TwoDatabases (codecs : Bool → Codec) : Prop :=
  ∃ bt bt' fresh fresh' zKey nKey zKey' nKey' mid,
    sqlite3CodecAttach [⟨bt, none⟩, ⟨bt', none⟩] fresh 0 (some zKey) nKey = some mid ∧
    sqlite3CodecAttach mid fresh' 1 zKey' nKey' =
      some [⟨bt, some (codecs false)⟩, ⟨bt', some (codecs true)⟩]

theorem TwoDatabases.keyed {codecs : Bool → Codec} (two : TwoDatabases codecs) (db : Bool) :
    Keyed (codecs db) ∧ (codecs db).m_readKey = (codecs db).m_writeKey := by
  obtain ⟨bt, bt', fresh, fresh', zKey, nKey, zKey', nKey', mid, main, second⟩ := two
  have plain : ∀ db ∈ [(⟨bt, none⟩ : Db), ⟨bt', none⟩], db.Attached := by
    intro db member codec held
    rcases List.mem_pair.mp member with rfl | rfl
    · cases held
    · cases held
  have both := attach_keeps_attached (attach_keeps_attached plain main) second
  cases db with
  | false => exact both ⟨bt, some (codecs false)⟩ (by simp) _ rfl
  | true => exact both ⟨bt', some (codecs true)⟩ (by simp) _ rfl

section
variable (ae : PageAE)

/-- Only encryptions for the main files, mode 6. -/
def AdmittedMain (s : CodecState Bool) (op : PageWrite Bool) : Prop :=
  op.nMode = 6 ∧ ValidPage (s.2 op.db).m_bt.pageSize op.page op.data

/-- The latest encryption of a page by one of the databases. -/
def lastBy (db : Bool) (page : BitVec 32) (h : List (PageWrite Bool × Bytes)) :
    Option (PageWrite Bool × Bytes) :=
  h.find? fun x => x.1.db = db ∧ x.1.page = page

/-- Each database reads back what it last wrote to each of its pages. -/
def DatabasesReadBack (h : List (PageWrite Bool × Bytes)) (s : CodecState Bool) : Prop :=
  ∀ db page, ∀ x ∈ lastBy db page h, ReadsBack ae s.1 (s.2 db) page 3 x.2 x.1.data

/-- Under the keys used, the page a database last wrote and the page last written
under that number by any of them have one tag. -/
def DatabasesAgree (codecs : Bool → Codec) (h : List (PageWrite Bool × Bytes)) : Prop :=
  ∀ db page, ∀ x ∈ lastBy db page h, ∀ e ∈ lastWrite page h,
    bodyTag ae (codecs db).m_writeKey page x.1.data =
      bodyTag ae (codecs e.1.db).m_writeKey page e.1.data

theorem lastBy_spec {db : Bool} {page : BitVec 32} {h : List (PageWrite Bool × Bytes)}
    {x : PageWrite Bool × Bytes} (last : lastBy db page h = some x) :
    x ∈ h ∧ x.1.db = db ∧ x.1.page = page ∧ ∃ e, lastWrite page h = some e := by
  have mem := List.mem_of_find?_eq_some last
  obtain ⟨own, here⟩ : x.1.db = db ∧ x.1.page = page := by simpa using List.find?_some last
  refine ⟨mem, own, here, ?_⟩
  rw [← Option.isSome_iff_exists, lastWrite, List.find?_isSome]
  exact ⟨x, mem, by simpa using here⟩

theorem main_writes_only {codecs : Bool → Codec} {w : World (Setup × List Final) TagMap}
    {h : List (PageWrite Bool × Bytes)} {s : CodecState Bool}
    (run : Run (writeStep ae) AdmittedMain (w, codecs) h s) : ∀ x ∈ h, x.1.nMode = 6 := by
  apply run.invariant (fun h _ => ∀ x ∈ h, x.1.nMode = 6)
  · exact fun x hx => absurd hx List.not_mem_nil
  · intro h s op s' out older admitted _ x member
    rcases List.mem_cons.mp member with rfl | old
    · exact admitted.1
    · exact older x old

/-- Two databases of one TA read back their own pages just when the tags of equally
numbered pages agree: the map has no slot of its own for either. -/
theorem databases_read_back_iff {codecs : Bool → Codec} (two : TwoDatabases codecs)
    {w : World (Setup × List Final) TagMap} {h : List (PageWrite Bool × Bytes)}
    {s : CodecState Bool} (run : Run (writeStep ae) AdmittedMain (w, codecs) h s) :
    DatabasesReadBack ae h s ↔ DatabasesAgree ae codecs h := by
  have keyed (db : Bool) : Keyed (codecs db) := (two.keyed db).1
  have slots := Slots.of_run ae keyed (run.mono fun s op admitted => ⟨.inl admitted.1, admitted.2⟩)
  have key {x : PageWrite Bool × Bytes} (mem : x ∈ h) :
      x.1.key codecs = (codecs x.1.db).m_writeKey := by
    simp [PageWrite.key, Codec.keyFor, main_writes_only ae run x mem]
  have own {db : Bool} {page : BitVec 32} {x e : PageWrite Bool × Bytes}
      (hx : lastBy db page h = some x) (he : lastWrite page h = some e) :
      ReadsBack ae s.1 (s.2 db) page 3 x.2 x.1.data ↔
        bodyTag ae (codecs db).m_writeKey page x.1.data =
          bodyTag ae (codecs e.1.db).m_writeKey page e.1.data := by
    obtain ⟨mem, rfl, rfl, -⟩ := lastBy_spec hx
    rw [slots.reads_back ae keyed mem he (.inr (.inr rfl)), key mem,
      key (List.mem_of_find?_eq_some he), (two.keyed x.1.db).2, ← ae.dec_enc, ae.dec_own]
    rfl
  constructor
  · intro back db page x hx e he
    exact (own hx he).mp (back db page x hx)
  · intro agree db page x hx
    obtain ⟨e, he⟩ := (lastBy_spec hx).2.2.2
    exact (own hx he).mpr (agree db page x hx e he)

end
/-- The main database has the zero key and the second inherits it. -/
theorem zero_key_for_both : TwoDatabases fun _ => .keyed Tag.zero :=
  ⟨(Codec.keyed Tag.zero).m_bt, (Codec.keyed Tag.zero).m_bt, .keyed Tag.zero, .keyed Tag.zero,
    fun _ => 0, 16, none, 1, _, rfl, rfl⟩

theorem fillPage_main_run (b b' : UInt8) :
    ∃ out out' s, Run (writeStep firstByteAE) AdmittedMain (World.fresh, fun _ => .keyed Tag.zero)
      [(fillPage true 6 b', out'), (fillPage false 6 b, out)] s := by
  obtain ⟨out, out', s, run⟩ := fillPage_run false true (.inl rfl) (.inl rfl) b b' fun _ => Tag.zero
  refine ⟨out, out', s, run.mono fun s op admitted => ⟨?_, admitted.2.2⟩⟩
  rcases List.mem_pair.mp admitted.1 with rfl | rfl
  · rfl
  · rfl

theorem databases_with_one_content_read_back :
    ∃ out out' s, Run (writeStep firstByteAE) AdmittedMain (World.fresh, fun _ => .keyed Tag.zero)
        [(fillPage true 6 1, out'), (fillPage false 6 1, out)] s ∧
      DatabasesReadBack firstByteAE [(fillPage true 6 1, out'), (fillPage false 6 1, out)] s := by
  obtain ⟨out, out', s, run⟩ := fillPage_main_run 1 1
  have filled : ∀ x ∈ [(fillPage true 6 1, out'), (fillPage false 6 1, out)],
      x.1.data = List.replicate 512 1 := by
    intro x member
    rcases List.mem_pair.mp member with rfl | rfl
    · rfl
    · rfl
  refine ⟨out, out', s, run, ?_⟩
  apply (databases_read_back_iff firstByteAE zero_key_for_both run).mpr
  intro db page x hx e he
  rw [filled x (lastBy_spec hx).1, filled e (List.mem_of_find?_eq_some he)]

/-- Both databases write their page 2, and the main one can no longer read its own. -/
theorem second_database_takes_the_slot :
    ∃ out out' s, Run (writeStep firstByteAE) AdmittedMain (World.fresh, fun _ => .keyed Tag.zero)
        [(fillPage true 6 2, out'), (fillPage false 6 1, out)] s ∧
      TwoDatabases (fun _ => .keyed Tag.zero) ∧
      ¬ DatabasesReadBack firstByteAE [(fillPage true 6 2, out'), (fillPage false 6 1, out)] s := by
  obtain ⟨out, out', s, run⟩ := fillPage_main_run 1 2
  refine ⟨out, out', s, run, zero_key_for_both, ?_⟩
  intro back
  have slots := Slots.of_run firstByteAE (fun _ => keyed_keyed Tag.zero)
    (run.mono fun s op admitted => ⟨.inl admitted.1, admitted.2⟩)
  have reads := back false 2 (fillPage false 6 1, out) rfl
  have agree := (slots.reads_back firstByteAE (fun _ => keyed_keyed Tag.zero)
    (x := (fillPage false 6 1, out)) (by simp) rfl (.inr (.inr rfl))).mp reads
  have tags : byteTag 1 = byteTag 2 := congrArg Prod.snd agree
  exact absurd tags (by decide)

end TeeSqlite
