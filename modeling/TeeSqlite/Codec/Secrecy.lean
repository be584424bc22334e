import TeeSqlite.Codec.PageFile

/-! What the normal world gets to see of a database. The main file and the journal get the
pages only as the codec made them, and a read asks with zeros: two databases whose pages are
the same once they are encrypted look the same from outside, whatever the normal world does
with what it sees. -/
namespace TeeSqlite
open ByteFile CTypes AuthEnc Runs

/-- A database file with its journal. -/
structure JournaledFile (σ : Type) extends PageFile σ where
  journal : DemoFile

/-- A call on the pages, a page for the journal at an offset of it, or a sync. -/
inductive JournaledCall
  | page (call : PageCall)
  | append (fr : Frame) (page : BitVec 32) (data : Bytes) (ofst : Nat)
  | syncFile
  | syncJournal

section
variable {σ : Type} (ae : PageAE) (u : FileCalls σ)

def journaledStep : JournaledFile σ → JournaledCall → Option (JournaledFile σ × PageReply)
  | db, .page call => (pageStep ae u db.toPageFile call).map fun (file, reply) =>
    ({ db with toPageFile := file }, reply)
  | db, .append fr page data ofst =>
    let (w, codec, out) := passPage ae (fun _ _ => fr) db.world db.codec 7 page data
    (demoWrite u db.storage db.journal out ofst).map fun (s, journal, rc) =>
      (⟨⟨w, codec, s, db.file⟩, journal⟩, ⟨rc, [], false⟩)
  | db, .syncFile =>
    let (storage, file, rc) := demoSync u db.storage db.file
    some ({ db with storage, file }, ⟨rc, [], false⟩)
  | db, .syncJournal =>
    let (storage, journal, rc) := demoSync u db.storage db.journal
    some ({ db with storage, journal }, ⟨rc, [], false⟩)

def JournaledFile.Admits (db : JournaledFile σ) : JournaledCall → Prop
  | .page call => db.toPageFile.Admits call
  | .append _ page data _ => ValidPage db.codec.m_bt.pageSize page data
  | _ => True

/-- A call as it is seen without the key: a page for the memory of SQLite is not. -/
inductive SealedCall
  | write (page : BitVec 32) (out : Bytes)
  | copy
  | load (page : BitVec 32)
  | append (out : Bytes) (ofst : Nat)
  | syncFile
  | syncJournal

def JournaledCall.sealed (key : Key) : JournaledCall → SealedCall
  | .page (.write _ n data) => .write n (stored ae key n data)
  | .page (.journal _ _ _) => .copy
  | .page (.load _ n _) => .load n
  | .append _ n data ofst => .append (stored ae key n data) ofst
  | .syncFile => .syncFile
  | .syncJournal => .syncJournal

/-- The same calls on the files alone, made without codec, key or page. -/
def sealedStep (pageSize : Nat) : σ × DemoFile × DemoFile → SealedCall →
    Option ((σ × DemoFile × DemoFile) × Rc)
  | (s, file, journal), .write page out =>
    (demoWrite u s file out (((page.toNat - 1) * pageSize : Nat) : Int)).map fun (s, file, rc) =>
      ((s, file, journal), rc)
  | s, .copy => some (s, .SQLITE_OK)
  | (s, file, journal), .load page =>
    let (s, file, rc, _) := demoRead u s file (List.replicate pageSize 0) pageSize
      (((page.toNat - 1) * pageSize : Nat) : Int)
    some ((s, file, journal), rc)
  | (s, file, journal), .append out ofst =>
    (demoWrite u s journal out ofst).map fun (s, journal, rc) => ((s, file, journal), rc)
  | (s, file, journal), .syncFile =>
    let (s, file, rc) := demoSync u s file
    some ((s, file, journal), rc)
  | (s, file, journal), .syncJournal =>
    let (s, journal, rc) := demoSync u s journal
    some ((s, file, journal), rc)

end

section
variable {σ : Type} {ae : PageAE} {key : Key} (rpc : RpcCmd σ) (alloc : AllocPayload)

/-- What is in the caller's buffer does not get into the request of a read. -/
theorem read_request (s : σ) (fd : Int) (buf buf' : Bytes) (n : Nat) :
    ((utee rpc alloc).utee_vfs_read s fd buf n).1 = ((utee rpc alloc).utee_vfs_read s fd buf' n).1 ∧
      ((utee rpc alloc).utee_vfs_read s fd buf n).2.1 =
        ((utee rpc alloc).utee_vfs_read s fd buf' n).2.1 := by
  simp only [utee, syscall_vfs_read, withPayload]
  cases alloc 0 n with
  | none => exact ⟨rfl, rfl⟩
  | some va =>
    dsimp only
    split_ifs
    · exact ⟨rfl, rfl⟩
    · exact ⟨rfl, rfl⟩

theorem demoRead_request (s : σ) (p : DemoFile) (zBuf zBuf' : Bytes) (iAmt iOfst : Int) :
    (demoRead (utee rpc alloc).toFileCalls s p zBuf iAmt iOfst).1 =
      (demoRead (utee rpc alloc).toFileCalls s p zBuf' iAmt iOfst).1 := by
  unfold demoRead
  generalize demoFlushBuffer (utee rpc alloc).toFileCalls s p = r
  obtain ⟨s₁, p, rc⟩ := r
  dsimp only
  -- once the read is made, the branches differ only in what they make of the answer
  split_ifs
  all_goals first
    | rfl
    | exact (read_request rpc alloc _ p.fd zBuf zBuf' iAmt.toNat).1

/-- The codec stays in use with its key. -/
theorem InUse.step {u : FileCalls σ} {db db' : PageFile σ} (one : InUse key db.codec)
    {call : PageCall} (admitted : db.Admits call) {reply : PageReply}
    (answer : pageStep ae u db call = some (db', reply)) :
    InUse key db'.codec ∧ db'.codec.m_bt = db.codec.m_bt := by
  have current : TagsCurrent ae key db.codec.m_bt [] db := ⟨one, rfl, fun _ _ none => by cases none⟩
  have next := current.step admitted answer
  exact ⟨next.codec, next.btree⟩

/-- What a database looks like from outside. -/
def JournaledFile.view (db : JournaledFile σ) : σ × DemoFile × DemoFile :=
  (db.storage, db.file, db.journal)

/-- One call looks like the sealed call. -/
theorem sealed_step {db db' : JournaledFile σ} (one : InUse key db.codec) {call : JournaledCall}
    (admitted : db.Admits call) {reply : PageReply}
    (answer : journaledStep ae (utee rpc alloc).toFileCalls db call = some (db', reply)) :
    (InUse key db'.codec ∧ db'.codec.m_bt = db.codec.m_bt) ∧
      ∃ rc, sealedStep (utee rpc alloc).toFileCalls db.codec.m_bt.pageSize db.view
        (call.sealed ae key) = some (db'.view, rc) := by
  obtain ⟨⟨world, codec, storage, file⟩, journal⟩ := db
  cases call with
  | page call =>
    obtain ⟨⟨after, reply'⟩, stepped, made⟩ := Option.map_eq_some_iff.mp answer
    cases made
    refine ⟨one.step admitted stepped, ?_⟩
    cases call with
    | write fr page data =>
      have size := admitted.length
      obtain ⟨w, codec', encrypted, -⟩ := passPage_encrypts ae world one fr page (.inl rfl) size
      simp only [pageStep, encrypted] at stepped
      obtain ⟨⟨s, p, rc⟩, wrote, made⟩ := Option.map_eq_some_iff.mp stepped
      cases made
      rw [PageFile.offset] at wrote
      refine ⟨rc, ?_⟩
      simp only [JournaledFile.view, JournaledCall.sealed, sealedStep]
      rw [wrote]
      rfl
    | journal fr page data =>
      cases stepped
      exact ⟨_, rfl⟩
    | load fr page zBuf =>
      have size : zBuf.length = codec.m_bt.pageSize := admitted.2
      have blind := demoRead_request rpc alloc storage file zBuf
        (List.replicate codec.m_bt.pageSize 0) zBuf.length
        (((page.toNat - 1) * codec.m_bt.pageSize : Nat) : Int)
      have handle := read_handle (utee rpc alloc).toFileCalls storage file zBuf zBuf.length
        (((page.toNat - 1) * codec.m_bt.pageSize : Nat) : Int)
      have handle' := read_handle (utee rpc alloc).toFileCalls storage file
        (List.replicate codec.m_bt.pageSize 0) zBuf.length
        (((page.toNat - 1) * codec.m_bt.pageSize : Nat) : Int)
      simp only [pageStep, PageFile.offset, ← size] at stepped
      simp only [JournaledFile.view, JournaledCall.sealed, sealedStep, ← size]
        at blind handle handle' ⊢
      generalize demoRead (utee rpc alloc).toFileCalls storage file zBuf zBuf.length _ = r
        at blind handle stepped
      obtain ⟨s, p, rc, out⟩ := r
      generalize demoRead (utee rpc alloc).toFileCalls storage file
        (List.replicate zBuf.length 0) zBuf.length _ = r' at blind handle' ⊢
      obtain ⟨s', p', rc', out'⟩ := r'
      obtain rfl : s = s' := blind
      obtain rfl : p = file.drained := handle
      obtain rfl : p' = file.drained := handle'
      refine ⟨rc', ?_⟩
      dsimp only at stepped
      split_ifs at stepped
      · cases stepped
        rfl
      · cases stepped
        rfl
  | append fr page data ofst =>
    have size := admitted.length
    obtain ⟨w, codec', encrypted, same, -⟩ := passPage_encrypts ae world one fr page (.inr rfl) size
    simp only [journaledStep, encrypted] at answer
    obtain ⟨⟨s, p, rc⟩, wrote, made⟩ := Option.map_eq_some_iff.mp answer
    cases made
    refine ⟨⟨one.settings same, (settings_keys same).2.2⟩, rc, ?_⟩
    simp only [JournaledFile.view, JournaledCall.sealed, sealedStep, wrote]
    rfl
  | syncFile =>
    cases answer
    exact ⟨⟨one, rfl⟩, _, rfl⟩
  | syncJournal =>
    cases answer
    exact ⟨⟨one, rfl⟩, _, rfl⟩

/-- The normal world could run along with the sealed calls alone. -/
theorem sealed_run {db₀ db : JournaledFile σ} (one : InUse key db₀.codec)
    {h : List (JournaledCall × PageReply)}
    (run : Run (journaledStep ae (utee rpc alloc).toFileCalls) JournaledFile.Admits db₀ h db) :
    (InUse key db.codec ∧ db.codec.m_bt = db₀.codec.m_bt) ∧
      ∃ h', Run (sealedStep (utee rpc alloc).toFileCalls db₀.codec.m_bt.pageSize) Free db₀.view h'
        db.view ∧ h'.map Prod.fst = h.map fun e => e.1.sealed ae key := by
  induction run with
  | start => exact ⟨⟨one, rfl⟩, [], .start, rfl⟩
  | next _ admitted answer ih =>
    obtain ⟨⟨one', btree⟩, h', run', calls⟩ := ih
    obtain ⟨⟨one'', btree'⟩, rc, stepped⟩ := sealed_step rpc alloc one' admitted answer
    rw [btree] at stepped btree'
    refine ⟨⟨one'', btree'⟩, _, run'.next trivial stepped, ?_⟩
    rw [List.map_cons, List.map_cons, calls]

/-- **Secrecy.** Under any two schemes and keys, two databases whose calls are the same once
their pages are encrypted leave the normal world in the same state, whatever it is and
records; and their files owe it the same bytes. -/
theorem same_ciphertexts_same_view {ae' : PageAE} {key' : Key} {db₀ db db₀' db' : JournaledFile σ}
    (one : InUse key db₀.codec) (one' : InUse key' db₀'.codec) (alike : db₀.view = db₀'.view)
    (size : db₀.codec.m_bt.pageSize = db₀'.codec.m_bt.pageSize)
    {h h' : List (JournaledCall × PageReply)}
    (run : Run (journaledStep ae (utee rpc alloc).toFileCalls) JournaledFile.Admits db₀ h db)
    (run' : Run (journaledStep ae' (utee rpc alloc).toFileCalls) JournaledFile.Admits db₀' h' db')
    (same : (h.map fun e => e.1.sealed ae key) = h'.map fun e => e.1.sealed ae' key') :
    db.storage = db'.storage ∧ db.file = db'.file ∧ db.journal = db'.journal := by
  obtain ⟨-, seen, outside, calls⟩ := sealed_run rpc alloc one run
  obtain ⟨-, seen', outside', calls'⟩ := sealed_run rpc alloc one' run'
  rw [alike, size] at outside
  obtain ⟨-, view⟩ := outside.unique outside' (calls.trans (same.trans calls'.symm))
  obtain ⟨storage, files⟩ := Prod.mk.inj view
  exact ⟨storage, Prod.mk.inj files⟩

end

/-- Every byte is masked with the first byte of the key. -/
def mask (key : Key) (data : Bytes) : Bytes := data.map (· ^^^ key.1.headD 0)

theorem mask_mask (key : Key) (data : Bytes) : mask key (mask key data) = data := by
  rw [mask, mask, List.map_map]
  apply List.map_id''
  intro byte
  rw [Function.comp_apply, UInt8.xor_assoc, UInt8.xor_self, UInt8.xor_zero]

def maskAE : PageAE where
  enc key _ p := (mask key p, Tag.zero)
  dec key _ c t := if t = Tag.zero then some (mask key c) else none
  length_enc key _ p := List.length_map _
  exact key _ c t p := by
    constructor
    · intro opens
      split_ifs at opens with zero
      rw [← Option.some.inj opens, mask_mask, zero]
    · intro sealed
      obtain ⟨rfl, rfl⟩ := Prod.mk.inj sealed
      rw [if_pos rfl, mask_mask]

/-- A normal world that keeps every request. -/
def recorder : RpcCmd (List Request) := fun seen m =>
  (m :: seen, ⟨m.shm, [.value .INOUT ⟨0, 512, 0⟩]⟩, 0)

def maskedFile (key : Key) : JournaledFile (List Request) :=
  ⟨⟨World.fresh, .keyed key, [], ⟨3, none, 0, 0⟩⟩, ⟨4, none, 0, 0⟩⟩

/-- A page of zeros under one key and a page of ones under another, both journalled. -/
theorem masked_pages_look_alike : ∃ db db' reply reply',
    Run (journaledStep maskAE (utee recorder freshBlocks).toFileCalls) JournaledFile.Admits
      (maskedFile (byteTag 1)) [(.append .sample 2 (List.replicate 512 0) 0, reply)] db ∧
    Run (journaledStep maskAE (utee recorder freshBlocks).toFileCalls) JournaledFile.Admits
      (maskedFile Tag.zero) [(.append .sample 2 ones 0, reply')] db' ∧
    db.storage = db'.storage ∧ db.storage ≠ [] := by
  have seen : ((journaledStep maskAE (utee recorder freshBlocks).toFileCalls
      (maskedFile (byteTag 1)) (.append .sample 2 (List.replicate 512 0) 0)).map fun next =>
        next.1.storage.length) = some 1 := by decide +kernel
  have seen' : (journaledStep maskAE (utee recorder freshBlocks).toFileCalls
      (maskedFile Tag.zero) (.append .sample 2 ones 0)).isSome = true := by decide +kernel
  obtain ⟨⟨db, reply⟩, step, one⟩ := Option.map_eq_some_iff.mp seen
  obtain ⟨⟨db', reply'⟩, step'⟩ := Option.isSome_iff_exists.mp seen'
  have zeros : (maskedFile (byteTag 1)).Admits (.append .sample 2 (List.replicate 512 0) 0) :=
    fillPage_valid 0
  have filled : (maskedFile Tag.zero).Admits (.append .sample 2 ones 0) := fillPage_valid 1
  have run := Run.start.next zeros step
  have run' := Run.start.next filled step'
  have sealed : stored maskAE (byteTag 1) 2 (List.replicate 512 0) =
    stored maskAE Tag.zero 2 ones := by decide +kernel
  obtain ⟨same, -⟩ := same_ciphertexts_same_view recorder freshBlocks
    ⟨keyed_keyed (byteTag 1), rfl, rfl⟩ ⟨keyed_keyed Tag.zero, rfl, rfl⟩
    (show (maskedFile (byteTag 1)).view = (maskedFile Tag.zero).view from rfl) rfl run run'
    (congrArg (fun out => [SealedCall.append out 0]) sealed)
  refine ⟨db, db', reply, reply', run, run', same, ?_⟩
  exact List.ne_nil_of_length_pos (by dsimp only at one; omega)

end TeeSqlite
