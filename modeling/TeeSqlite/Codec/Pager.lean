import TeeSqlite.Codec.Rekey
import TeeSqlite.Codec.RoundTrip

/-! The pager of a rekey. A page is read through mode 3, journalled through mode 7 and
committed through mode 6, and a rollback puts the file back. -/
namespace TeeSqlite
open ByteFile AuthEnc

section
variable {σ τ : Type} (u : TeeCalls σ) (t : TagStore τ)

theorem CodecAES_settings (s : σ) (codec : Codec) (encrypt : Bool) (data : Bytes) (p_mac : Tag)
    (useWriteKey : Bool) :
    (CodecAES u s codec encrypt data p_mac useWriteKey).2.1.settings = codec.settings := by
  unfold CodecAES
  dsimp only
  split
  · rfl
  · rfl

theorem settings_rule : AesRule u fun x y => y.2.settings = x.2.settings where
  refl _ := rfl
  trans first second := second.trans first
  aes s codec encrypt data p_mac useWriteKey :=
    CodecAES_settings u s codec encrypt data p_mac useWriteKey
  buffer _ same := same

/-- No mode touches the keys and the flags. -/
theorem sqlite3Codec_settings {w : World σ τ} {codec : Codec} {fr : Frame} {data : Bytes}
    {page : BitVec 32} {nMode : Nat} {c : Called σ τ}
    (h : sqlite3Codec u t w (some codec) fr data page nMode = some c) :
    ∃ codec', c.codec = some codec' ∧ codec'.settings = codec.settings :=
  (settings_rule u).call h

end

/-- What the pager and its codec keep during a rekey: what they share with others, the
stored pages, those of before the transaction, the pages loaded, the rollback journal
with its latest page first, and the pages written, in their order. -/
structure Pager where
  world : World (Setup × List Final) TagMap
  nPage : Fin (2 ^ 31)
  file : BitVec 32 → Bytes
  original : BitVec 32 → Bytes
  loaded : BitVec 32 → Bytes
  journal : List (BitVec 32 × Bytes)
  written : List (BitVec 32)

/-- How the calls of one transaction end. A write that fails may have journalled its
page already, and a commit may fail after any number of pages. -/
structure Faults where
  begin : ResultCode
  get : BitVec 32 → ResultCode
  write : BitVec 32 → ResultCode
  journals : BitVec 32 → Bool
  commit : ResultCode
  committed : Nat

section
variable (ae : PageAE) (fr : Nat → BitVec 32 → Frame)

/-- The codec is called for a page in some mode; the page behind its pointer comes last. -/
def passPage (w : World (Setup × List Final) TagMap) (codec : Codec) (nMode : Nat)
    (page : BitVec 32) (data : Bytes) : World (Setup × List Final) TagMap × Codec × Bytes :=
  match sqlite3Codec (idealCalls ae).logged finiteMapStore w (some codec) (fr nMode page) data page
      nMode with
  | some ⟨w, some codec, _, some out⟩ => (w, codec, out)
  | _ => (w, codec, data)

theorem passPage_settings (w : World (Setup × List Final) TagMap) (codec : Codec) (nMode : Nat)
    (page : BitVec 32) (data : Bytes) :
    (passPage ae fr w codec nMode page data).2.1.settings = codec.settings := by
  unfold passPage
  split
  · rename_i called
    obtain ⟨codec', held, same⟩ := sqlite3Codec_settings _ _ called
    obtain rfl := Option.some.inj held
    exact same
  · rfl

/-- Mode 6 is applied to the pages of a list, and what it returns is stored. -/
def commitPages : List (BitVec 32) → Pager → Codec → Pager × Codec
  | [], s, codec => (s, codec)
  | n :: rest, s, codec =>
    let r := passPage ae fr s.world codec 6 n (s.loaded n)
    commitPages rest { s with world := r.1, file := Function.update s.file n r.2.2 } r.2.1

theorem commitPages_settings (pages : List (BitVec 32)) (s : Pager) (codec : Codec) :
    (commitPages ae fr pages s codec).2.settings = codec.settings := by
  induction pages generalizing s codec with
  | nil => rfl
  | cons n rest ih =>
    unfold commitPages
    dsimp only
    rw [ih, passPage_settings]

def Pager.get (f : Faults) (s : Pager) (codec : Codec) (n : BitVec 32) : PagerResult Pager :=
  if f.get n = SQLITE_OK then
    let r := passPage ae fr s.world codec 3 n (s.file n)
    ⟨{ s with world := r.1, loaded := Function.update s.loaded n r.2.2 }, r.2.1, SQLITE_OK⟩
  else ⟨s, codec, f.get n⟩

def Pager.journalPage (s : Pager) (codec : Codec) (n : BitVec 32) : Pager × Codec :=
  let r := passPage ae fr s.world codec 7 n (s.loaded n)
  ({ s with world := r.1, journal := (n, r.2.2) :: s.journal }, r.2.1)

def Pager.write (f : Faults) (s : Pager) (codec : Codec) (n : BitVec 32) : PagerResult Pager :=
  if f.write n = SQLITE_OK then
    let r := s.journalPage ae fr codec n
    ⟨{ r.1 with written := r.1.written ++ [n] }, r.2, SQLITE_OK⟩
  else if f.journals n then
    let r := s.journalPage ae fr codec n
    ⟨r.1, r.2, f.write n⟩
  else ⟨s, codec, f.write n⟩

def Pager.commit (f : Faults) (s : Pager) (codec : Codec) : PagerResult Pager :=
  let r :=
    if f.commit = SQLITE_OK then commitPages ae fr s.written s codec
    else commitPages ae fr (s.written.take f.committed) s codec
  ⟨r.1, r.2, f.commit⟩

/-- The calls of such a pager. -/
def transactions (f : Faults) : PagerCalls Pager where
  sqlite3BtreeBeginTrans s codec :=
    ⟨{ s with original := s.file, journal := [], written := [] }, codec, f.begin⟩
  sqlite3PagerPagecount s := s.nPage
  sqlite3PagerGet := Pager.get ae fr f
  sqlite3PagerWrite := Pager.write ae fr f
  sqlite3BtreeCommit := Pager.commit ae fr f
  sqlite3BtreeRollback s codec :=
    ({ s with file := s.original, journal := [], written := [] }, codec)
  begin_settings _ _ := rfl
  get_settings s codec n := by
    unfold Pager.get
    split
    · exact passPage_settings ae fr _ _ _ _ _
    · rfl
  write_settings s codec n := by
    unfold Pager.write Pager.journalPage
    split_ifs
    · exact passPage_settings ae fr _ _ _ _ _
    · exact passPage_settings ae fr _ _ _ _ _
    · rfl
  commit_settings s codec := by
    unfold Pager.commit
    dsimp only
    split
    · exact commitPages_settings ae fr _ _ _
    · exact commitPages_settings ae fr _ _ _
  rollback_settings _ _ := rfl

end
end TeeSqlite
