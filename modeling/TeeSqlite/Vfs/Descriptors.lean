import TeeSqlite.Lib.Descriptors
import TeeSqlite.Vfs.Host

/-! The descriptors of the VFS. Whatever the normal world answers, and also where a flush or a
sync fails, a file uses and closes only the descriptor it was opened with, and closes it once. -/
namespace TeeSqlite
open ByteFile CTypes Runs Descriptors

section
variable {σ : Type}

/-- The system calls with a log of what they do with descriptors. A close leaves the
descriptor closed also when it fails. -/
def Utee.watched (u : Utee σ) : Utee (σ × Log Int) where
  utee_vfs_lseek s fd offset whence :=
    let (t, ofst) := u.utee_vfs_lseek s.1 fd offset whence
    ((t, .used fd :: s.2), ofst)
  utee_vfs_write s fd buf :=
    let (t, n) := u.utee_vfs_write s.1 fd buf
    ((t, .used fd :: s.2), n)
  utee_vfs_read s fd buf n :=
    let (t, ret, buf) := u.utee_vfs_read s.1 fd buf n
    ((t, .used fd :: s.2), ret, buf)
  utee_vfs_fsync s fd :=
    let (t, rc) := u.utee_vfs_fsync s.1 fd
    ((t, .used fd :: s.2), rc)
  utee_vfs_filesize s fd :=
    let (t, rc) := u.utee_vfs_filesize s.1 fd
    ((t, .used fd :: s.2), rc)
  utee_vfs_close s fd :=
    let (t, rc) := u.utee_vfs_close s.1 fd
    ((t, .closed fd :: s.2), rc)
  utee_vfs_open s path oflag mode :=
    let (t, fd) := u.utee_vfs_open s.1 path oflag mode
    ((t, if fd < 0 then s.2 else .opened fd :: s.2), fd)
  utee_vfs_unlink s name errno :=
    let (t, rc, errno) := u.utee_vfs_unlink s.1 name errno
    ((t, s.2), rc, errno)
  utee_vfs_access s name type :=
    let (t, rc) := u.utee_vfs_access s.1 name type
    ((t, s.2), rc)
  utee_vfs_getcwd s buf :=
    let (t, found, buf) := u.utee_vfs_getcwd s.1 buf
    ((t, s.2), found, buf)

variable (u : Utee σ) (s : σ × Log Int)

theorem directWrite_uses (p : DemoFile) (zBuf : Bytes) (iAmt iOfst : Int) :
    Uses p.fd s.2 (demoDirectWrite u.watched.toFileCalls s p zBuf iAmt iOfst).1.2 := by
  unfold demoDirectWrite
  dsimp only
  split_ifs
  · exact .more .none
  · exact .more (.more .none)
  · exact .more (.more .none)

theorem flush_uses (p : DemoFile) :
    Uses p.fd s.2 (demoFlushBuffer u.watched.toFileCalls s p).1.2 := by
  rw [demoFlushBuffer]
  split_ifs
  · exact directWrite_uses u s p _ _ _
  · exact .none

theorem read_uses (p : DemoFile) (zBuf : Bytes) (iAmt iOfst : Int) :
    Uses p.fd s.2 (demoRead u.watched.toFileCalls s p zBuf iAmt iOfst).1.2 := by
  have flushed := flush_uses u s p
  have handle := flush_handle u.watched.toFileCalls s p
  unfold demoRead
  generalize demoFlushBuffer u.watched.toFileCalls s p = r at flushed handle ⊢
  obtain ⟨⟨t, log⟩, p', rc⟩ := r
  obtain rfl : p' = p.drained := handle
  dsimp only at flushed ⊢
  split_ifs
  all_goals first
    | exact flushed
    | exact flushed.more
    | exact flushed.more.more

theorem sync_uses (p : DemoFile) :
    Uses p.fd s.2 (demoSync u.watched.toFileCalls s p).1.2 := by
  have flushed := flush_uses u s p
  have handle := flush_handle u.watched.toFileCalls s p
  unfold demoSync
  generalize demoFlushBuffer u.watched.toFileCalls s p = r at flushed handle ⊢
  obtain ⟨⟨t, log⟩, p', rc⟩ := r
  obtain rfl : p' = p.drained := handle
  dsimp only at flushed ⊢
  split_ifs
  · exact flushed
  · exact flushed.more
  · exact flushed.more

theorem fileSize_uses (p : DemoFile) (pSize : Int) :
    Uses p.fd s.2 (demoFileSize u.watched.toFileCalls s p pSize).1.2 := by
  have flushed := flush_uses u s p
  have handle := flush_handle u.watched.toFileCalls s p
  unfold demoFileSize
  generalize demoFlushBuffer u.watched.toFileCalls s p = r at flushed handle ⊢
  obtain ⟨⟨t, log⟩, p', rc⟩ := r
  obtain rfl : p' = p.drained := handle
  dsimp only at flushed ⊢
  split_ifs
  · exact flushed
  · exact flushed.more
  · exact flushed.more

/-- The descriptor is closed also when the flush fails. -/
theorem close_uses (p : DemoFile) : ∃ log, Uses p.fd s.2 log ∧
    (demoClose u.watched.toFileCalls s p).1.2 = .closed p.fd :: log := by
  have flushed := flush_uses u s p
  have handle := flush_handle u.watched.toFileCalls s p
  unfold demoClose
  generalize demoFlushBuffer u.watched.toFileCalls s p = r at flushed handle ⊢
  obtain ⟨⟨t, log⟩, p', rc⟩ := r
  obtain rfl : p' = p.drained := handle
  exact ⟨log, flushed, rfl⟩

/-- Every pass flushes or copies. -/
theorem writeLoop_uses (fuel : Nat) (p : DemoFile) (z : Bytes) (n i : Int)
    {s' : σ × Log Int} {p' : DemoFile} {rc : Rc}
    (wrote : demoWriteLoop u.watched.toFileCalls fuel s p z n i = some (s', p', rc)) :
    Uses p.fd s.2 s'.2 ∧ p'.fd = p.fd := by
  induction fuel generalizing s p z n i with
  | zero =>
    rw [demoWriteLoop] at wrote
    split_ifs at wrote
    cases wrote
    exact ⟨.none, rfl⟩
  | succ fuel ih =>
    rw [demoWriteLoop] at wrote
    have settled : Uses p.fd s.2 (settle u.watched.toFileCalls s p i).1.2 ∧
        (settle u.watched.toFileCalls s p i).2.1.fd = p.fd := by
      unfold settle
      split_ifs
      · exact ⟨flush_uses u s p, by rw [flush_handle]; rfl⟩
      · exact ⟨.none, rfl⟩
    rw [show (if p.nBuffer = SQLITE_TEEVFS_BUFFERSZ ∨ p.iBufferOfst + p.nBuffer ≠ i then
      demoFlushBuffer u.watched.toFileCalls s p else (s, p, .SQLITE_OK)) =
        settle u.watched.toFileCalls s p i from rfl] at wrote
    generalize settle u.watched.toFileCalls s p i = r at settled wrote
    obtain ⟨⟨t, log⟩, p₁, rc₁⟩ := r
    obtain ⟨uses, same⟩ := settled
    dsimp only at uses same wrote
    generalize (if (SQLITE_TEEVFS_BUFFERSZ : Int) - p₁.nBuffer > n then n
      else SQLITE_TEEVFS_BUFFERSZ - p₁.nBuffer) = nCopy at wrote
    split_ifs at wrote
    · cases wrote
      exact ⟨.none, rfl⟩
    · cases wrote
      exact ⟨uses, same⟩
    · cases copied : memcpy (p₁.aBuffer.getD []) p₁.nBuffer z nCopy with
      | none =>
        rw [copied] at wrote
        cases wrote
      | some aBuffer =>
        rw [copied] at wrote
        obtain ⟨rest, same'⟩ := ih _ _ _ _ _ wrote
        exact ⟨uses.trans (same ▸ rest), same'.trans same⟩

theorem write_uses (p : DemoFile) (zBuf : Bytes) (iOfst : Int) {s' : σ × Log Int}
    {p' : DemoFile} {rc : Rc}
    (wrote : demoWrite u.watched.toFileCalls s p zBuf iOfst = some (s', p', rc)) :
    Uses p.fd s.2 s'.2 ∧ p'.fd = p.fd := by
  unfold demoWrite at wrote
  cases buffered : p.aBuffer with
  | none =>
    rw [buffered] at wrote
    cases wrote
    exact ⟨directWrite_uses u s p zBuf _ _, rfl⟩
  | some buf =>
    rw [buffered] at wrote
    exact writeLoop_uses u s _ p zBuf _ _ wrote

theorem open_opens (malloc : Option Block) (zName : Option CStr) (flags : Nat) :
    let r := demoOpen u.watched s malloc zName flags
    r.2.2 ≠ .SQLITE_OK ∧ r.2.1 = none ∧ r.1.2 = s.2 ∨
      r.2.2 = .SQLITE_OK ∧ ∃ p, r.2.1 = some p ∧ r.1.2 = .opened p.fd :: s.2 := by
  cases zName with
  | none =>
    left
    exact ⟨Rc.noConfusion, rfl, rfl⟩
  | some zName =>
    unfold demoOpen
    dsimp only
    generalize (if flags &&& SQLITE_OPEN_MAIN_JOURNAL ≠ 0 then malloc else none) = aBuf
    split_ifs with unbuffered failed
    · left
      exact ⟨Rc.noConfusion, rfl, rfl⟩
    · left
      exact ⟨Rc.noConfusion, rfl, if_pos failed⟩
    · right
      exact ⟨rfl, _, rfl, if_neg failed⟩

/-- The directory is opened, synced and closed, or not opened. -/
theorem delete_visits (zPath : CStr) (dirSync : Bool) :
    (demoDelete u.watched s zPath dirSync).1.2 = s.2 ∨
      ∃ fd log, Uses fd (.opened fd :: s.2) log ∧
        (demoDelete u.watched s zPath dirSync).1.2 = .closed fd :: log := by
  unfold demoDelete
  generalize unlinked : u.watched.utee_vfs_unlink s zPath 0 = r
  obtain ⟨⟨t, log⟩, rc, errno⟩ := r
  obtain rfl : log = s.2 := congrArg (fun r => r.1.2) unlinked.symm
  dsimp only
  by_cases missing : rc ≠ 0 ∧ errno = ENOENT
  · rw [if_pos missing]
    exact .inl rfl
  · rw [if_neg missing]
    dsimp only
    split_ifs
    · cases dir : cutAtSlash (zPath.take (MAXPATHNAME - 1)) with
      | none => exact .inl rfl
      | some zDir =>
        dsimp only
        split_ifs with failed
        · left
          exact if_pos failed
        · right
          have opened : (u.watched.utee_vfs_open (t, s.2) zDir O_RDONLY 0).1.2 =
            .opened (u.watched.utee_vfs_open (t, s.2) zDir O_RDONLY 0).2 :: s.2 := if_neg failed
          refine ⟨_, _, ?_, rfl⟩
          apply Uses.more
          rw [opened]
          exact .none
    · exact .inl rfl

end

/-- A method is called on a file that is open, and `xOpen` on one that is not. -/
def Method.Careful {σ : Type} (s : σ × Files) : Method → Prop
  | .xOpen pFile _ _ _ => s.2 pFile = none
  | _ => True

/-- The descriptor of an open file. -/
def fds (files : Files) : Nat → Option Int := fun pFile => (files pFile).map DemoFile.fd

section
variable {files : Files} {pFile : Nat} {p p' : DemoFile}

theorem fds_update (own : Option DemoFile) :
    fds (Function.update files pFile own) =
      Function.update (fds files) pFile (own.map DemoFile.fd) := by
  funext i
  by_cases same : i = pFile
  · rw [fds, same, Function.update_self, Function.update_self]
  · rw [fds, Function.update_of_ne same, Function.update_of_ne same, fds]

theorem fds_of_open (opened : files pFile = some p) : fds files pFile = some p.fd := by
  rw [fds, opened, Option.map_some]

/-- A handle is exchanged for one of the same descriptor. -/
theorem fds_kept (opened : files pFile = some p) (same : p'.fd = p.fd) :
    fds (Function.update files pFile (some p')) = fds files := by
  rw [fds_update, Option.map_some, same, ← fds_of_open opened, Function.update_eq_self]

end

section
variable {σ : Type} {u : Utee σ} {s s' : (σ × Log Int) × Files}

/-- One call keeps the descriptors with their files. -/
theorem held_step (held : Held s.1.2 (fds s.2)) {call : Method} (careful : call.Careful s)
    {r : Reply} (answer : vfsStep (sqlite3_demovfs u.watched) s call = some (s', r)) :
    Held s'.1.2 (fds s'.2) := by
  obtain ⟨s, files⟩ := s
  dsimp only at held
  cases call with
  | xOpen pFile malloc zName flags =>
    have opens := open_opens u s (malloc.map Prod.fst) zName flags
    generalize made : (sqlite3_demovfs u.watched).xOpen s malloc zName flags = after
    rw [vfsStep, made] at answer
    rw [show demoOpen u.watched s (malloc.map Prod.fst) zName flags = after from made] at opens
    obtain ⟨⟨t, log⟩, p, rc⟩ := after
    have unopened : fds files pFile = none := Option.map_eq_none_iff.mpr careful
    dsimp only at opens
    cases answer
    obtain ⟨failed, rfl, rfl⟩ | ⟨rfl, p, rfl, rfl⟩ := opens
    · dsimp only
      split_ifs
      · rw [fds_update, Option.map_none, ← unopened, Function.update_eq_self]
        exact held
      · exact held
    · rw [if_pos (.inl rfl), fds_update]
      exact held.acquire unopened p.fd
  | xDelete zPath dirSync =>
    have visits := delete_visits u s zPath dirSync
    cases answer
    obtain same | ⟨fd, log, uses, closed⟩ := visits
    · exact same.symm ▸ held
    · exact closed.symm ▸ held.visit uses
  | xAccess zPath flags =>
    cases answer
    exact held
  | xClose pFile =>
    obtain ⟨p, opened, made⟩ := Option.map_eq_some_iff.mp answer
    obtain ⟨log, uses, closed⟩ := close_uses u s p
    generalize called : (sqlite3_demovfs u.watched).xClose s p = after at made
    rw [show demoClose u.watched.toFileCalls s p = after from called] at closed
    cases made
    have own := fds_of_open opened
    have released := (held.use own uses).release own
    dsimp only
    rw [fds_update]
    exact closed.symm ▸ released
  | xRead pFile zBuf iOfst =>
    obtain ⟨p, opened, made⟩ := Option.map_eq_some_iff.mp answer
    have uses := read_uses u s p zBuf zBuf.length iOfst
    have handle := read_handle u.watched.toFileCalls s p zBuf zBuf.length iOfst
    generalize called : (sqlite3_demovfs u.watched).xRead s p zBuf zBuf.length iOfst = after at made
    rw [show demoRead u.watched.toFileCalls s p zBuf zBuf.length iOfst = after from called]
      at uses handle
    cases made
    dsimp only
    rw [fds_kept opened (by rw [handle]; rfl)]
    exact held.use (fds_of_open opened) uses
  | xWrite pFile zBuf iOfst =>
    obtain ⟨p, opened, made⟩ := Option.bind_eq_some_iff.mp answer
    obtain ⟨⟨t, p', rc⟩, wrote, same⟩ := Option.map_eq_some_iff.mp made
    obtain ⟨uses, kept⟩ := write_uses u s p zBuf iOfst wrote
    cases same
    dsimp only
    rw [fds_kept opened kept]
    exact held.use (fds_of_open opened) uses
  | xSync pFile =>
    obtain ⟨p, opened, made⟩ := Option.map_eq_some_iff.mp answer
    have uses := sync_uses u s p
    have handle := sync_handle u.watched.toFileCalls s p
    generalize called : (sqlite3_demovfs u.watched).xSync s p = after at made
    rw [show demoSync u.watched.toFileCalls s p = after from called] at uses handle
    cases made
    dsimp only
    rw [fds_kept opened (by rw [handle]; rfl)]
    exact held.use (fds_of_open opened) uses
  | xFileSize pFile pSize =>
    obtain ⟨p, opened, made⟩ := Option.map_eq_some_iff.mp answer
    have uses := fileSize_uses u s p pSize
    have handle := fileSize_handle u.watched.toFileCalls s p pSize
    generalize called : (sqlite3_demovfs u.watched).xFileSize s p pSize = after at made
    rw [show demoFileSize u.watched.toFileCalls s p pSize = after from called] at uses handle
    cases made
    dsimp only
    rw [fds_kept opened (by rw [handle]; rfl)]
    exact held.use (fds_of_open opened) uses

/-- Whatever the system calls answer: what is used or closed is open, and a descriptor has
been opened once more than closed for each open file that has it. So none is closed twice, and
none is left when no file is open. -/
theorem descriptors_have_files {s₀ : σ} {h : List (Method × Reply)}
    (run : Run (vfsStep (sqlite3_demovfs u.watched)) (fun s call => call.Careful s)
      ((s₀, []), fun _ => none) h s) :
    Disciplined s.1.2 ∧
      (∀ fd, opens fd s.1.2 = closes fd s.1.2 +
        {pFile | ∃ p, s.2 pFile = some p ∧ p.fd = fd}.ncard) ∧
      ((∀ pFile, s.2 pFile = none) → ∀ fd, opens fd s.1.2 = closes fd s.1.2) := by
  have held : Held s.1.2 (fds s.2) := by
    apply run.invariant fun _ s => Held s.1.2 (fds s.2)
    · exact .start
    · intro _ s call s' r held careful answer
      exact held_step held careful answer
  have files (fd : Int) : {pFile | fds s.2 pFile = some fd} =
      {pFile | ∃ p, s.2 pFile = some p ∧ p.fd = fd} := by
    ext pFile
    exact Option.map_eq_some_iff
  refine ⟨held.disciplined, ?_, ?_⟩
  · intro fd
    rw [← files]
    exact held.balance fd
  · intro unopened fd
    have none_open : {pFile | fds s.2 pFile = some fd} = ∅ := by
      ext pFile
      simp [fds, unopened]
    rw [held.balance, none_open, Set.ncard_empty, Nat.add_zero]

/-- Every file opens as the descriptor 3, and nothing can be read or written. -/
def onlyOpens : Utee Unit where
  utee_vfs_lseek _ _ _ _ := ((), -1)
  utee_vfs_write _ _ _ := ((), -1)
  utee_vfs_read _ _ buf _ := ((), -1, buf)
  utee_vfs_fsync _ _ := ((), -1)
  utee_vfs_filesize _ _ := ((), -1)
  utee_vfs_close _ _ := ((), -1)
  utee_vfs_open _ _ _ _ := ((), 3)
  utee_vfs_unlink _ _ errno := ((), 0, errno)
  utee_vfs_access _ _ _ := ((), -1)
  utee_vfs_getcwd _ buf := ((), false, buf)

/-- Two files, a write that fails and a directory; one file is closed. -/
def oneOfTwoClosed : List Method :=
  [.xOpen 0 none (some ⟨[97], by decide⟩) 2, .xOpen 1 none (some ⟨[97], by decide⟩) 2,
    .xWrite 0 [7] 0, .xDelete ⟨[47, 97], by decide⟩ true, .xClose 0]

theorem failing_files_are_closed : ∃ (h : List (Method × Reply)) (s : (Unit × Log Int) × Files),
    (h.map Prod.fst).reverse = oneOfTwoClosed ∧
    s.1.2 = [.closed 3, .closed 3, .used 3, .opened 3, .used 3, .opened 3, .opened 3] ∧
    Disciplined s.1.2 ∧ opens 3 s.1.2 = closes 3 s.1.2 + {pFile | ∃ p, s.2 pFile = some p ∧
      p.fd = 3}.ncard := by
  obtain ⟨h, s, run, calls, log⟩ : ∃ h s,
      Run (vfsStep (sqlite3_demovfs onlyOpens.watched)) (fun s call => call.Careful s)
        (((), []), fun _ => none) h s ∧ (h.map Prod.fst).reverse = oneOfTwoClosed ∧
      s.1.2 = [.closed 3, .closed 3, .used 3, .opened 3, .used 3, .opened 3, .opened 3] := by
    refine ⟨_, _, .next (i := .xClose 0) (.next (i := .xDelete ⟨[47, 97], by decide⟩ true)
      (.next (i := .xWrite 0 [7] 0) (.next (i := .xOpen 1 none (some ⟨[97], by decide⟩) 2)
        (.next (i := .xOpen 0 none (some ⟨[97], by decide⟩) 2) .start ?_ rfl) ?_ rfl)
        ?_ rfl) ?_ rfl) ?_ rfl, rfl, rfl⟩
    · exact rfl
    · exact rfl
    · trivial
    · trivial
    · trivial
  obtain ⟨disciplined, balance, -⟩ := descriptors_have_files run
  exact ⟨h, s, calls, log, disciplined, balance 3⟩

end
end TeeSqlite
