import TeeSqlite.Rpc.Remote

/-! `demoDelete` on a file system that keeps a record of its calls: what the result says
about the file and about the directory it was in. -/
namespace TeeSqlite
open ByteFile CTypes

/-- A result that is an `int`. -/
def OsResult.code (r : OsResult) : Int := (low r.ret).toInt

/-- The calls that reached the C library with what they gave, the first one first. -/
abbrev CallLog := List (LibcCall × OsResult)

/-- A file system with a record of its calls. -/
def observed {σ : Type} (fs : FileSystem σ) : FileSystem (σ × CallLog) := fun s call =>
  let (s', r) := fs s.1 call
  ((s', s.2 ++ [(call, r)]), r)

/-- A call of `demoDelete` in the TA: the calls it causes and its result. -/
def deletion {σ : Type} (fs : FileSystem σ) (alloc : AllocPayload) (s : σ) (zPath : CStr)
    (dirSync : Bool) : CallLog × Rc :=
  let (s, rc) := demoDelete (utee (supplicantOn (observed fs)) alloc) (s, []) zPath dirSync
  (s.2, rc)

/-- `dir` is the directory of an absolute path: the path up to its last slash, or the
root directory when that is the only one. -/
def DirectoryOf (zPath dir : CStr) : Prop :=
  ∃ front name, zPath.bytes = front ++ 47 :: name ∧ 47 ∉ name ∧
    dir.bytes = if front = [] then [47] else front

namespace CallLog
variable (log : CallLog)

def Unlinked (zPath : CStr) : Prop := ∃ r, (.unlink zPath, r) ∈ log ∧ r.code = 0

/-- The file does not exist afterwards: it was unlinked, or there was none. -/
def Gone (zPath : CStr) : Prop :=
  ∃ r, (.unlink zPath, r) ∈ log ∧ (r.code = 0 ∨ r.errno.toInt = ENOENT)

/-- A directory was opened, and `fsync` of its descriptor returned 0. -/
def Synced (dir : CStr) : Prop :=
  ∃ oflag arg1 r r', [(.open_ dir oflag arg1, r), (.fsync (low r.ret), r')].Sublist log ∧
    0 ≤ r.code ∧ r'.code = 0

/-- Every descriptor that was opened is closed. -/
def Closed : Prop :=
  ∀ path oflag arg1 r, (LibcCall.open_ path oflag arg1, r) ∈ log → 0 ≤ r.code →
    ∃ r', [(.open_ path oflag arg1, r), (.close (low r.ret), r')].Sublist log

end CallLog

/-- The result is success exactly when the file is gone and, where that is asked for, its
deletion is synced; and no descriptor is lost. -/
structure Faithful (result : CallLog × Rc) (zPath dir : CStr) (dirSync : Bool) : Prop where
  reports : result.2 = .SQLITE_OK ↔ result.1.Gone zPath ∧
    (dirSync → result.1.Unlinked zPath → result.1.Synced dir)
  closed : result.1.Closed

theorem faithful_iff_reports {result : CallLog × Rc} {zPath dir : CStr} {dirSync : Bool}
    (closed : result.1.Closed) : Faithful result zPath dir dirSync ↔
      (result.2 = .SQLITE_OK ↔ result.1.Gone zPath ∧
        (dirSync → result.1.Unlinked zPath → result.1.Synced dir)) := by
  constructor
  · intro faithful
    exact faithful.reports
  · intro reports
    exact ⟨reports, closed⟩

/-- Where a sync is asked for, it is the directory of the file that is opened. -/
def OpensDirectory (result : CallLog × Rc) (zPath dir : CStr) (dirSync : Bool) : Prop :=
  dirSync → result.1.Unlinked zPath →
    ∃ oflag arg1 r, (LibcCall.open_ dir oflag arg1, r) ∈ result.1

/-- What is left of a path is all that stands before its last slash. -/
theorem cutAtSlash_eq {z : CStr} {front name : Bytes} (split : z.bytes = front ++ 47 :: name)
    (last : 47 ∉ name) : cutAtSlash z = some (z.take front.length) := by
  have found : z.bytes.reverse.findIdx (· = 47) = name.length := by
    have reversed : z.bytes.reverse = name.reverse ++ 47 :: front.reverse := by simp [split]
    have absent : name.reverse.findIdx (· = 47) = name.reverse.length := by
      apply List.findIdx_eq_length_of_false
      intro b member
      exact decide_eq_false fun slash => last (List.mem_reverse.mp (slash ▸ member))
    rw [reversed, List.findIdx_append, absent, if_neg (Nat.lt_irrefl _), List.length_reverse,
      List.findIdx_cons]
    simp
  have size : z.bytes.length = front.length + 1 + name.length := by
    rw [split, List.length_append, List.length_cons]
    omega
  have member : 47 ∈ z.bytes := by simp [split]
  rw [cutAtSlash, if_pos member, found, size]
  congr 2
  omega

section
variable {zPath dir : CStr}

/-- The byte that the cut to 511 drops from a path of 512 is not its last slash. -/
theorem directory_name {front name : Bytes} (short : zPath.bytes.length ≤ MAXPATHNAME)
    (file : zPath.bytes.getLast? ≠ some 47) (split : zPath.bytes = front ++ 47 :: name)
    (last : 47 ∉ name) :
    ∃ zDir, cutAtSlash (zPath.take (MAXPATHNAME - 1)) = some zDir ∧ zDir.bytes = front := by
  have named : name ≠ [] := by
    rintro rfl
    simp [split] at file
  have size : zPath.bytes.length = front.length + 1 + name.length := by
    rw [split, List.length_append, List.length_cons]
    omega
  have inside : front.length < MAXPATHNAME - 1 := by
    have := List.length_pos_iff.mpr named
    unfold MAXPATHNAME at short ⊢
    omega
  have cut : (zPath.take (MAXPATHNAME - 1)).bytes =
      front ++ 47 :: name.take (MAXPATHNAME - 1 - front.length - 1) := by
    rw [CStr.bytes_take, split, List.take_append, List.take_of_length_le (Nat.le_of_lt inside),
      List.take_cons (by omega)]
  refine ⟨_, cutAtSlash_eq cut fun member => last (List.mem_of_mem_take member), ?_⟩
  rw [CStr.bytes_take, cut, List.take_left]

end

section
variable {σ : Type} {fs : FileSystem σ} {alloc : AllocPayload} {s : σ} {zPath : CStr}

/-- Through the requests the calls of `demoDelete` are those of the C library. -/
theorem deletion_eq (ok : Allocates alloc) (dirSync : Bool) :
    deletion fs alloc s zPath dirSync =
      ((demoDelete (libc (observed fs)) (s, []) zPath dirSync).1.2,
        (demoDelete (libc (observed fs)) (s, []) zPath dirSync).2) := by
  obtain ⟨open_, unlink, -⟩ := path_calls_interchangeable (observed fs) ok
  obtain ⟨-, fsync, close⟩ := descriptor_calls_interchangeable (observed fs) alloc
  have same : demoDelete (utee (supplicantOn (observed fs)) alloc) =
      demoDelete (libc (observed fs)) := by
    funext s zPath dirSync
    simp only [demoDelete, open_, unlink, fsync, close]
  rw [deletion, same]

theorem deletion_of_kept (ok : Allocates alloc) (dirSync : Bool)
    (kept : (fs s (.unlink zPath)).2.code ≠ 0) :
    deletion fs alloc s zPath dirSync = ([(.unlink zPath, (fs s (.unlink zPath)).2)],
      if (fs s (.unlink zPath)).2.errno.toInt = ENOENT then .SQLITE_OK
      else .SQLITE_IOERR_DELETE) := by
  rw [deletion_eq ok]
  unfold OsResult.code at kept
  by_cases absent : (fs s (.unlink zPath)).2.errno.toInt = ENOENT
  · simp [-BitVec.toInt_setWidth, demoDelete, libc, observed, kept, absent]
  · simp [-BitVec.toInt_setWidth, demoDelete, libc, observed, kept, absent]

theorem deletion_unsynced (ok : Allocates alloc) (done : (fs s (.unlink zPath)).2.code = 0) :
    deletion fs alloc s zPath false =
      ([(.unlink zPath, (fs s (.unlink zPath)).2)], .SQLITE_OK) := by
  rw [deletion_eq ok]
  unfold OsResult.code at done
  simp [-BitVec.toInt_setWidth, demoDelete, libc, observed, done]

/-- The state in which the directory is opened, and what opening it gives. -/
def opening {σ : Type} (fs : FileSystem σ) (s : σ) (zPath zDir : CStr) : σ × OsResult :=
  fs (fs s (.unlink zPath)).1 (.open_ zDir 0#32 0#32)

/-- What `fsync` of the descriptor gives. -/
def syncing {σ : Type} (fs : FileSystem σ) (s : σ) (zPath zDir : CStr) : σ × OsResult :=
  fs (opening fs s zPath zDir).1 (.fsync (low (opening fs s zPath zDir).2.ret))

def closing {σ : Type} (fs : FileSystem σ) (s : σ) (zPath zDir : CStr) : σ × OsResult :=
  fs (syncing fs s zPath zDir).1 (.close (low (opening fs s zPath zDir).2.ret))

variable {zDir : CStr}

theorem deletion_unopened (ok : Allocates alloc) (done : (fs s (.unlink zPath)).2.code = 0)
    (cut : cutAtSlash (zPath.take (MAXPATHNAME - 1)) = some zDir)
    (failed : (opening fs s zPath zDir).2.code < 0) :
    deletion fs alloc s zPath true = ([(.unlink zPath, (fs s (.unlink zPath)).2),
      (.open_ zDir 0#32 0#32, (opening fs s zPath zDir).2)], .SQLITE_IOERR_DELETE) := by
  rw [deletion_eq ok]
  unfold OsResult.code at done
  unfold OsResult.code opening at failed
  unfold opening
  simp [-BitVec.toInt_setWidth, demoDelete, libc, observed, done, cut, O_RDONLY, failed]

theorem deletion_synced (ok : Allocates alloc) (done : (fs s (.unlink zPath)).2.code = 0)
    (cut : cutAtSlash (zPath.take (MAXPATHNAME - 1)) = some zDir)
    (opened : 0 ≤ (opening fs s zPath zDir).2.code) :
    deletion fs alloc s zPath true = ([(.unlink zPath, (fs s (.unlink zPath)).2),
      (.open_ zDir 0#32 0#32, (opening fs s zPath zDir).2),
      (.fsync (low (opening fs s zPath zDir).2.ret), (syncing fs s zPath zDir).2),
      (.close (low (opening fs s zPath zDir).2.ret), (closing fs s zPath zDir).2)],
      if (syncing fs s zPath zDir).2.code = 0 then .SQLITE_OK else .SQLITE_IOERR_DELETE) := by
  rw [deletion_eq ok]
  unfold OsResult.code at done
  unfold OsResult.code opening at opened
  unfold closing syncing opening OsResult.code
  simp [-BitVec.toInt_setWidth, demoDelete, libc, observed, done, cut, O_RDONLY,
    Int.not_lt.mpr opened]

variable {dir : CStr} {dirSync : Bool}

/-- A file that could not be unlinked leaves nothing to sync. -/
theorem faithful_of_kept (ok : Allocates alloc) (kept : (fs s (.unlink zPath)).2.code ≠ 0) :
    Faithful (deletion fs alloc s zPath dirSync) zPath dir dirSync ∧
      OpensDirectory (deletion fs alloc s zPath dirSync) zPath dir dirSync := by
  rw [deletion_of_kept ok dirSync kept]
  have linked : ¬ CallLog.Unlinked [(.unlink zPath, (fs s (.unlink zPath)).2)] zPath := by
    simpa [CallLog.Unlinked] using kept
  refine ⟨⟨?_, ?_⟩, ?_⟩
  · by_cases absent : (fs s (.unlink zPath)).2.errno.toInt = ENOENT
    · simp [CallLog.Gone, linked, absent]
    · simp [CallLog.Gone, kept, absent]
  · simp [CallLog.Closed]
  · intro _ unlinked
    exact absurd unlinked linked

theorem faithful_unsynced (ok : Allocates alloc) (done : (fs s (.unlink zPath)).2.code = 0) :
    Faithful (deletion fs alloc s zPath false) zPath dir false ∧
      OpensDirectory (deletion fs alloc s zPath false) zPath dir false := by
  rw [deletion_unsynced ok done]
  refine ⟨⟨?_, ?_⟩, ?_⟩
  · simp [CallLog.Gone, done]
  · simp [CallLog.Closed]
  · simp [OpensDirectory]

/-- The directory opened was opened, and synced. -/
def OnDisk {σ : Type} (fs : FileSystem σ) (s : σ) (zPath zDir : CStr) : Prop :=
  0 ≤ (opening fs s zPath zDir).2.code ∧ (syncing fs s zPath zDir).2.code = 0

section
variable {u o f c : OsResult} {log : CallLog}

theorem gone_cons (done : u.code = 0) : CallLog.Gone ((.unlink zPath, u) :: log) zPath :=
  ⟨u, List.mem_cons_self, .inl done⟩

theorem unlinked_cons (done : u.code = 0) : CallLog.Unlinked ((.unlink zPath, u) :: log) zPath :=
  ⟨u, List.mem_cons_self, done⟩

theorem closed_unopened (failed : ¬ 0 ≤ o.code) :
    CallLog.Closed [(.unlink zPath, u), (.open_ zDir 0#32 0#32, o)] := by
  intro path oflag arg1 r inLog opened
  simp only [List.mem_cons, Prod.mk.injEq, reduceCtorEq, List.not_mem_nil, false_and, false_or,
    or_false] at inLog
  rw [inLog.2] at opened
  exact absurd opened failed

theorem not_synced_unopened :
    ¬ CallLog.Synced [(.unlink zPath, u), (.open_ zDir 0#32 0#32, o)] dir := by
  rintro ⟨oflag, arg1, r, r', inLog, -⟩
  have second := inLog.subset (List.mem_cons_of_mem _ List.mem_cons_self)
  simp at second

theorem synced_iff : CallLog.Synced [(.unlink zPath, u), (.open_ zDir 0#32 0#32, o),
      (.fsync (low o.ret), f), (.close (low o.ret), c)] dir ↔
    zDir = dir ∧ 0 ≤ o.code ∧ f.code = 0 := by
  constructor
  · rintro ⟨oflag, arg1, r, r', inLog, opened, synced⟩
    have first := inLog.subset List.mem_cons_self
    have second := inLog.subset (List.mem_cons_of_mem _ List.mem_cons_self)
    simp only [List.mem_cons, Prod.mk.injEq, LibcCall.open_.injEq, LibcCall.fsync.injEq,
      reduceCtorEq, List.not_mem_nil, false_and, false_or, or_false] at first second
    obtain ⟨⟨rfl, -, -⟩, rfl⟩ := first
    obtain ⟨-, rfl⟩ := second
    exact ⟨rfl, opened, synced⟩
  · rintro ⟨rfl, opened, synced⟩
    exact ⟨_, _, o, f, .cons _ (.cons_cons _ (.cons_cons _ (List.nil_sublist _))), opened, synced⟩

theorem closed_log : CallLog.Closed [(.unlink zPath, u), (.open_ zDir 0#32 0#32, o),
    (.fsync (low o.ret), f), (.close (low o.ret), c)] := by
  intro path oflag arg1 r inLog _
  simp only [List.mem_cons, Prod.mk.injEq, LibcCall.open_.injEq, reduceCtorEq, List.not_mem_nil,
    false_and, false_or, or_false] at inLog
  obtain ⟨⟨rfl, rfl, rfl⟩, rfl⟩ := inLog
  exact ⟨c, .cons _ (.cons_cons _ (.cons _ (.cons_cons _ (List.nil_sublist _))))⟩

end

/-- With a sync the outcome hangs on which directory is opened. -/
theorem faithful_synced_iff (dir : CStr) (ok : Allocates alloc)
    (done : (fs s (.unlink zPath)).2.code = 0)
    (cut : cutAtSlash (zPath.take (MAXPATHNAME - 1)) = some zDir) :
    (Faithful (deletion fs alloc s zPath true) zPath dir true ↔
      ¬ (zDir ≠ dir ∧ OnDisk fs s zPath zDir)) ∧
    (OpensDirectory (deletion fs alloc s zPath true) zPath dir true ↔ zDir = dir) := by
  by_cases opened : 0 ≤ (opening fs s zPath zDir).2.code
  · rw [deletion_synced ok done cut opened]
    constructor
    · have success (sync : Prop) : ((if (syncing fs s zPath zDir).2.code = 0 then Rc.SQLITE_OK
            else .SQLITE_IOERR_DELETE) = .SQLITE_OK ↔ sync) ↔
          ((syncing fs s zPath zDir).2.code = 0 ↔ sync) := by
        split
        · rename_i synced
          simp [synced]
        · rename_i failed
          simp [failed]
      rw [faithful_iff_reports closed_log, success, synced_iff, OnDisk]
      simp only [gone_cons done, unlinked_cons done, opened, true_and, forall_const]
      by_cases same : zDir = dir <;> simp [same]
    · simpa [OpensDirectory, unlinked_cons done] using eq_comm
  · rw [deletion_unopened ok done cut (Int.not_le.mp opened)]
    constructor
    · rw [faithful_iff_reports (closed_unopened opened), OnDisk]
      simp [unlinked_cons done, not_synced_unopened, opened]
    · simpa [OpensDirectory, unlinked_cons done] using eq_comm

/-- A sync is asked for, and the file is unlinked from the root directory. -/
structure FromRoot {σ : Type} (fs : FileSystem σ) (s : σ) (zPath : CStr) (dirSync : Bool) :
    Prop where
  asked : dirSync = true
  unlinked : (fs s (.unlink zPath)).2.code = 0
  single : zPath.bytes.count 47 = 1

/-- The name that is opened is the directory of the path, but for a path with one slash:
what is left of that is the empty string. -/
theorem opened_directory (absolute : zPath.bytes.head? = some 47)
    (short : zPath.bytes.length ≤ MAXPATHNAME) (file : zPath.bytes.getLast? ≠ some 47) :
    ∃ dir zDir, DirectoryOf zPath dir ∧ cutAtSlash (zPath.take (MAXPATHNAME - 1)) = some zDir ∧
      (zDir ≠ dir ↔ zPath.bytes.count 47 = 1) ∧ (zPath.bytes.count 47 = 1 → zDir = .empty) := by
  obtain ⟨back, front, split, last⟩ :=
    List.eq_append_cons_of_mem (List.mem_reverse.mpr (List.mem_of_head? absolute))
  have split : zPath.bytes = front.reverse ++ 47 :: back.reverse := by
    rw [← List.reverse_reverse zPath.bytes, split]
    simp
  have last : 47 ∉ back.reverse := fun member => last (List.mem_reverse.mp member)
  generalize front.reverse = front at split
  generalize back.reverse = name at split last
  obtain ⟨zDir, cut, kept⟩ := directory_name short file split last
  have slashes : zPath.bytes.count 47 = front.count 47 + 1 := by
    rw [split, List.count_append, List.count_cons_self, List.count_eq_zero.mpr last]
  have noNul : 0 ∉ if front = [] then [47] else front := by
    split_ifs
    · simp
    · intro member
      exact zPath.noNul (split ▸ List.mem_append_left _ member)
  have single : front = [] ↔ zPath.bytes.count 47 = 1 := by
    rw [slashes, Nat.add_eq_right, List.count_eq_zero]
    constructor
    · rintro rfl
      exact List.not_mem_nil
    · intro none
      cases front with
      | nil => rfl
      | cons b front =>
        have first : b = 47 := by simpa [split] using absolute
        exact absurd (first ▸ List.mem_cons_self) none
  refine ⟨⟨_, noNul⟩, zDir, ⟨front, name, split, last, rfl⟩, cut, ?_, ?_⟩
  · rw [← single]
    constructor
    · intro differs
      by_contra below
      exact differs (CStr.ext (kept.trans (if_neg below).symm))
    · intro root same
      have bytes : zDir.bytes = [47] := by
        rw [same]
        exact if_pos root
      rw [kept, root] at bytes
      cases bytes
  · intro root
    apply CStr.ext
    rw [kept, single.mpr root]
    rfl

variable (fs s zPath dirSync) in
/-- **Deletion.** The directory of the file is opened, and the result tells what became of
the deletion, unless the file was in the root directory and a sync is asked for; then the
root directory is not opened, and the result is wrong when what is opened is synced. -/
theorem delete_iff (ok : Allocates alloc) (absolute : zPath.bytes.head? = some 47)
    (short : zPath.bytes.length ≤ MAXPATHNAME) (file : zPath.bytes.getLast? ≠ some 47) :
    ∃ dir, DirectoryOf zPath dir ∧
      (Faithful (deletion fs alloc s zPath dirSync) zPath dir dirSync ∧
        OpensDirectory (deletion fs alloc s zPath dirSync) zPath dir dirSync ↔
          ¬ FromRoot fs s zPath dirSync) ∧
      (Faithful (deletion fs alloc s zPath dirSync) zPath dir dirSync ↔
        ¬ (FromRoot fs s zPath dirSync ∧ OnDisk fs s zPath .empty)) := by
  obtain ⟨dir, zDir, parent, cut, other, empty⟩ := opened_directory absolute short file
  refine ⟨dir, parent, ?_⟩
  by_cases unlinked : (fs s (.unlink zPath)).2.code = 0
  · cases dirSync with
    | false =>
      have notRoot : ¬ FromRoot fs s zPath false := fun root => absurd root.asked (by decide)
      simp only [faithful_unsynced ok unlinked, notRoot, not_false_eq_true, and_self, false_and]
    | true =>
      obtain ⟨faithful, opens⟩ := faithful_synced_iff dir ok unlinked cut
      have root : FromRoot fs s zPath true ↔ zDir ≠ dir :=
        ⟨fun root => other.mpr root.single, fun differs => ⟨rfl, unlinked, other.mp differs⟩⟩
      rw [faithful, opens, root]
      constructor
      · by_cases same : zDir = dir <;> simp [same]
      · refine not_congr (and_congr_right fun differs => ?_)
        rw [empty (other.mp differs)]
  · have notRoot : ¬ FromRoot fs s zPath dirSync := fun root => unlinked root.unlinked
    simp only [faithful_of_kept ok unlinked, notRoot, not_false_eq_true, and_self, false_and]

end

/-- A normal world in which every call succeeds, but for opening what is no directory. -/
def hostWith (directory : CStr → Bool) : FileSystem Unit := fun _ call =>
  match call with
  | .open_ path _ _ =>
    if directory path then ((), ⟨3, 0, [], [], 0, none⟩) else ((), ⟨-1, 2, [], [], 0, none⟩)
  | _ => ((), ⟨0, 0, [], [], 0, none⟩)

theorem deletion_in_a_directory : ∃ dir, DirectoryOf ⟨[47, 100, 47, 97], by decide⟩ dir ∧
    Faithful (deletion (hostWith fun path => path ≠ .empty) freshBlocks ()
      ⟨[47, 100, 47, 97], by decide⟩ true) ⟨[47, 100, 47, 97], by decide⟩ dir true ∧
    OpensDirectory (deletion (hostWith fun path => path ≠ .empty) freshBlocks ()
      ⟨[47, 100, 47, 97], by decide⟩ true) ⟨[47, 100, 47, 97], by decide⟩ dir true := by
  obtain ⟨dir, parent, whole, -⟩ := delete_iff (hostWith fun path => path ≠ .empty) ()
    ⟨[47, 100, 47, 97], by decide⟩ true allocates_freshBlocks rfl (by decide) (by decide)
  have inside := whole.mpr fun root => absurd root.single (by decide)
  exact ⟨dir, parent, inside⟩

/-- Where the empty string is no directory, `/a` is unlinked and the root directory is not
opened; where it is one, success is reported without the root directory being synced. -/
theorem root_is_not_synced :
    DirectoryOf ⟨[47, 97], by decide⟩ ⟨[47], by decide⟩ ∧
    ¬ OpensDirectory (deletion (hostWith fun path => path ≠ .empty) freshBlocks ()
      ⟨[47, 97], by decide⟩ true) ⟨[47, 97], by decide⟩ ⟨[47], by decide⟩ true ∧
    ¬ Faithful (deletion (hostWith fun _ => true) freshBlocks () ⟨[47, 97], by decide⟩ true)
      ⟨[47, 97], by decide⟩ ⟨[47], by decide⟩ true := by
  have cut : cutAtSlash (CStr.take ⟨[47, 97], by decide⟩ (MAXPATHNAME - 1)) = some .empty := by
    decide
  refine ⟨⟨[], [97], rfl, by decide, rfl⟩, ?_, ?_⟩
  · rw [(faithful_synced_iff _ allocates_freshBlocks rfl cut).2]
    decide
  · rw [(faithful_synced_iff _ allocates_freshBlocks rfl cut).1, not_not]
    exact ⟨by decide, by decide, by decide⟩

end TeeSqlite
