import TeeSqlite.Rpc.Payloads

/-! For which calls every payload is freed once, no copy goes astray, and a failed
allocation is reported with the caller's buffers as they were. -/
namespace TeeSqlite.Payloads
open ByteFile CTypes Brackets Run

/-- What a call returns for a failure, with the caller's buffers as they were. A pointer
is NULL. -/
def failure : VfsCall → Outcome
  | .getcwd buf => .long 0 buf.1
  | .getenv _ => .long 0 []
  | .stat _ buf | .fstat _ buf => .long (-1) buf.1
  | .read _ buf | .pread _ buf _ => .long (-1) buf.1
  | .unlink _ errno => { Outcome.long (-1) [] with errno }
  | .gettimeofday tv tz =>
    { Outcome.long (-1) tv.1 with out2 := (tz.map Subtype.val).getD [] }
  | .fcntl_flock _ _ flock => .long (-1) flock.1
  | _ => .long (-1) []

section
variable {σ : Type} (rpc : RpcCmd σ) (alloc : AllocPayload) (malloc : Nat → Bool)

/-- The calls without payloads are only requests. -/
def run (s : σ) : VfsCall → Run (σ × Outcome)
  | .open_ path oflag arg1 =>
    (syscall_vfs_open rpc alloc s path oflag arg1).map fun r => (r.1, .int r.2 [])
  | .access name type =>
    (syscall_vfs_access rpc alloc s name type).map fun r => (r.1, .int r.2 [])
  | .getcwd buf => (syscall_vfs_getcwd rpc alloc s buf.1).map fun r => (r.1, .long 1 r.2)
  | .stat file_name buf =>
    (syscall_vfs_stat rpc alloc s file_name buf.1).map fun r => (r.1, .int r.2.1 r.2.2)
  | .fstat fd buf =>
    (syscall_vfs_fstat rpc alloc s fd buf.1).map fun r => (r.1, .int r.2.1 r.2.2)
  | .write fd buf => (syscall_vfs_write rpc alloc s fd buf.1).map fun r => (r.1, .long r.2 [])
  | .mkdir path mode =>
    (syscall_vfs_mkdir rpc alloc s path mode).map fun r => (r.1, .int r.2 [])
  | .rmdir path => (syscall_vfs_rmdir rpc alloc s path).map fun r => (r.1, .int r.2 [])
  | .unlink name errno =>
    (syscall_vfs_unlink rpc alloc s name errno).map fun r =>
      (r.1, { Outcome.int r.2.1 [] with errno := r.2.2 })
  | .read fd buf =>
    (syscall_vfs_read rpc alloc s fd buf.1 buf.1.length).map fun r => (r.1, .long r.2.1 r.2.2)
  | .getenv name =>
    (syscall_vfs_getenv rpc alloc malloc s name).map fun r =>
      (r.1, .long (if r.2.isSome then 1 else 0) (r.2.getD []))
  | .pread fd buf offset =>
    (syscall_vfs_pread rpc alloc s fd buf.1 buf.1.length offset).map fun r =>
      (r.1, .long r.2.1 r.2.2)
  | .pwrite fd buf offset =>
    (syscall_vfs_pwrite rpc alloc s fd buf.1 offset).map fun r => (r.1, .long r.2 [])
  | .truncate path size =>
    (syscall_vfs_truncate rpc alloc s path size).map fun r => (r.1, .int r.2 [])
  | .gettimeofday tv tz =>
    (syscall_vfs_gettimeofday rpc alloc s tv.1 (tz.map Subtype.val)).map fun r =>
      (r.1, { Outcome.int r.2.1 r.2.2.1 with out2 := r.2.2.2.getD [] })
  | .fcntl_flock fd cmd _ =>
    (syscall_vfs_fcntl_flock rpc alloc s fd cmd).map fun r => (r.1, .int r.2.1 r.2.2)
  | .utimes filename times =>
    (syscall_vfs_utimes rpc alloc s filename times.1).map fun r => (r.1, .int r.2 [])
  | call => ⟨[.rpc], call.run rpc alloc s⟩

/-- The length that the normal world answers to the first request of `getenv`. -/
def valueLength (s : σ) (name : CStr) (va_name : Bytes) : Nat :=
  (value0 (rpc s ⟨[splice va_name 0 name.mem],
    [THREAD_PARAM_VALUE .INOUT (OPTEE_VFS .GETENV) 0 0, THREAD_PARAM_MEMREF .IN (some 0),
      THREAD_PARAM_MEMREF .OUT none]⟩).2.1.params).b.toNat

/-- `getcwd` and the lock get their payload, and `getenv` gets memory for the value when it
got both payloads. -/
def Supplied (s : σ) : VfsCall → Prop
  | .getcwd buf => Given alloc 0 buf.1.length
  | .fcntl_flock .. => Given alloc 0 SIZEOF_FLOCK
  | .getenv name => ∀ va, alloc 0 name.mem.length = some va → name.mem.length ≤ va.length →
      Given alloc 1 (valueLength rpc s name va) →
      malloc (valueLength rpc s name va) ∨ valueLength rpc s name va = 0
  | _ => True

end

/-- The calls return what they return without the account of their payloads. -/
theorem run_result {σ : Type} (rpc : RpcCmd σ) (alloc : AllocPayload) {malloc : Nat → Bool}
    (memory : ∀ n, malloc n = true) (s : σ) (call : VfsCall) :
    (run rpc alloc malloc s call).result = call.run rpc alloc s := by
  cases call with
  | open_ | access | mkdir | rmdir | truncate =>
    exact congrArg (Option.map _) (congrArg (Option.map _) (pathCall_result rpc alloc s _ _ _ _))
  | getcwd => exact congrArg (Option.map _) (getcwd_result rpc alloc s _)
  | stat => exact congrArg (Option.map _) (stat_result rpc alloc s _ _)
  | fstat => exact congrArg (Option.map _) (fstat_result rpc alloc s _ _)
  | write => exact congrArg (Option.map _) (write_result rpc alloc s _ _)
  | unlink => exact congrArg (Option.map _) (unlink_result rpc alloc s _ _)
  | read => exact congrArg (Option.map _) (read_result rpc alloc s _ _ _)
  | getenv => exact congrArg (Option.map _) (getenv_result rpc alloc s memory _)
  | pread => exact congrArg (Option.map _) (pread_result rpc alloc s _ _ _ _)
  | pwrite => exact congrArg (Option.map _) (pwrite_result rpc alloc s _ _ _)
  | gettimeofday => exact congrArg (Option.map _) (gettimeofday_result rpc alloc s _ _)
  | fcntl_flock => exact congrArg (Option.map _) (fcntl_flock_result rpc alloc s _ _)
  | utimes => exact congrArg (Option.map _) (utimes_result rpc alloc s _ _)
  | _ => rfl

/-- The rules for payloads, and what a failed allocation leads to. -/
structure PayloadDiscipline {σ : Type} (call : VfsCall) (r : Run (σ × Outcome)) : Prop where
  payloads : Disciplined r.uses
  refused : r.Refused → ∃ s, r.result = some (s, failure call)

/-- A part of a wrapper that returns, while the payloads in `held` are freed around it and
those in `mapped` have their address. -/
structure Tidy {σ α : Type} (held mapped : List Nat) (failed : α) (r : Run (σ × α)) : Prop where
  within : Within held mapped r.uses
  refused : r.Refused → ∃ s, r.result = some (s, failed)
  returns : ∃ o, r.result = some o

namespace Tidy
variable {σ α : Type} {held mapped : List Nat} {failed : α} {r : Run (σ × α)} {i n : Nat}

theorem ret (o : σ × α) : Tidy held mapped failed (Run.ret o) where
  within := .nil
  refused := by
    rintro ⟨e, mem, -⟩
    cases mem
  returns := ⟨o, rfl⟩

/-- An event that is no allocation refuses nothing. -/
theorem refused_emit {e : Event} (other : e.refused = false) (tidy : Tidy held mapped failed r)
    (refused : (emit e r).Refused) : ∃ s, (emit e r).result = some (s, failed) := by
  obtain ⟨e', mem, refused⟩ := refused
  rcases List.mem_cons.mp mem with rfl | mem
  · exact absurd refused (by simp [other])
  · exact tidy.refused ⟨e', mem, refused⟩

theorem mobj_get_va (tidy : Tidy held (i :: mapped) failed r) :
    Tidy held mapped failed (Payloads.mobj_get_va i r) where
  within := tidy.within.map
  refused := tidy.refused_emit rfl
  returns := tidy.returns

theorem memset (tidy : Tidy held mapped failed r) (acquired : i ∈ held) (map : i ∈ mapped) :
    Tidy held mapped failed (Payloads.memset i n r) where
  within := tidy.within.access acquired map
  refused := tidy.refused_emit rfl
  returns := tidy.returns

theorem memcpy (tidy : Tidy held mapped failed r) (acquired : i ∈ held) (map : i ∈ mapped) :
    Tidy held mapped failed (Payloads.memcpy i n r) where
  within := tidy.within.access acquired map
  refused := tidy.refused_emit rfl
  returns := tidy.returns

theorem rpc (tidy : Tidy held mapped failed r) : Tidy held mapped failed (emit .rpc r) where
  within := tidy.within
  refused := tidy.refused_emit rfl
  returns := tidy.returns

theorem thread_rpc_cmd {rpc : RpcCmd σ} {s : σ} {shm : List Bytes} {params : List ThreadParam}
    {body : σ → List Bytes → ParamValue → Run (σ × α)}
    (tidy : ∀ s shm val0, Tidy held mapped failed (body s shm val0)) :
    Tidy held mapped failed (Payloads.thread_rpc_cmd rpc s shm params body) :=
  .rpc (tidy _ _ _)

theorem map {β : Type} {failed' : β} {f : σ × α → σ × β} (tidy : Tidy held mapped failed r)
    (fails : ∀ s, f (s, failed) = (s, failed')) : Tidy held mapped failed' (r.map f) where
  within := tidy.within
  refused refused := by
    obtain ⟨s, result⟩ := tidy.refused refused
    exact ⟨s, by rw [Run.map, result, Option.map_some, fails]⟩
  returns := by
    obtain ⟨o, result⟩ := tidy.returns
    exact ⟨f o, by rw [Run.map, result, Option.map_some]⟩

/-- A payload around a body. -/
theorem withPayload {alloc : AllocPayload} {s : σ} {body : Bytes → Run (σ × α)}
    (fresh : i ∉ held)
    (tidy : ∀ va, alloc i n = some va → n ≤ va.length →
      Tidy (i :: held) mapped failed (body va)) :
    Tidy held mapped failed (Payloads.withPayload alloc i n (s, failed) body) := by
  by_cases given : Given alloc i n
  · obtain ⟨va, gave, enough⟩ := given
    have inside := tidy va gave enough
    obtain ⟨o, returned⟩ := inside.returns
    rw [withPayload_of_body gave enough returned]
    refine ⟨?_, ?_, o, rfl⟩
    · have bracket := Within.bracket fresh inside.within
      simpa [Run.uses, Event.use] using bracket
    · rintro ⟨e, mem, refused⟩
      have mem : e ∈ (body va).events := by
        rcases List.mem_append.mp mem with mem | mem
        · rcases List.mem_cons.mp mem with rfl | mem
          · simp [Event.refused, Nat.not_lt.mpr enough] at refused
          · exact mem
        · rw [List.mem_singleton.mp mem] at refused
          cases refused
      rw [← returned]
      exact inside.refused ⟨e, mem, refused⟩
  · rw [withPayload_missing given]
    refine ⟨?_, fun _ => ⟨s, rfl⟩, _, rfl⟩
    -- a block that is too short is freed at once, and NULL is nothing
    cases alloc i n with
    | none => exact .nil
    | some va => exact .bracket fresh .nil

theorem discipline {call : VfsCall} {r : Run (σ × Outcome)} (tidy : Tidy [] [] (failure call) r) :
    PayloadDiscipline call r := ⟨tidy.within.disciplined, tidy.refused⟩

end Tidy

section
variable {σ : Type} (rpc : RpcCmd σ) (alloc : AllocPayload) (s : σ)

theorem tidy_pathCall (op : VfsOp) (path : CStr) (before after : List ThreadParam) :
    Tidy [] [] ⟨0, -1, 0⟩ (pathCall rpc alloc op s path before after) := by
  apply Tidy.withPayload (by simp)
  intro va_path _ _
  exact .mobj_get_va (.memcpy (.thread_rpc_cmd fun _ _ _ => .ret _) (by simp) (by simp))

theorem tidy_pathCall_low (op : VfsOp) (path : CStr) (before after : List ThreadParam) :
    Tidy [] [] (-1) ((pathCall rpc alloc op s path before after).map
      fun r => (r.1, low r.2.b)) :=
  (tidy_pathCall rpc alloc s op path before after).map fun s =>
    congrArg (s, ·) (show low (-1) = -1 by decide)

theorem tidy_fstat (fd : BitVec 32) (buf : Bytes) :
    Tidy [] [] (-1, buf) (syscall_vfs_fstat rpc alloc s fd buf) := by
  apply Tidy.withPayload (by simp)
  intro va_buf _ _
  refine .mobj_get_va (.memset (.thread_rpc_cmd fun _ _ _ => ?_) (by simp) (by simp))
  exact .memcpy (.ret _) (by simp) (by simp)

theorem tidy_write (fd : BitVec 32) (buf : Bytes) :
    Tidy [] [] (-1) (syscall_vfs_write rpc alloc s fd buf) := by
  apply Tidy.withPayload (by simp)
  intro va_buf _ _
  refine .mobj_get_va (.memset (.memcpy ?_ (by simp) (by simp)) (by simp) (by simp))
  exact .thread_rpc_cmd fun _ _ _ => .ret _

theorem tidy_unlink (name : CStr) (errno : BitVec 32) :
    Tidy [] [] (-1, errno) (syscall_vfs_unlink rpc alloc s name errno) := by
  apply Tidy.withPayload (by simp)
  intro va_name _ _
  exact .mobj_get_va (.memcpy (.thread_rpc_cmd fun _ _ _ => .ret _) (by simp) (by simp))

theorem tidy_read (fd : BitVec 32) (buf : Bytes) (n : Nat) :
    Tidy [] [] (-1, buf) (syscall_vfs_read rpc alloc s fd buf n) := by
  apply Tidy.withPayload (by simp)
  intro va_buf _ _
  refine .mobj_get_va (.memset (.thread_rpc_cmd fun _ _ _ => ?_) (by simp) (by simp))
  exact .memcpy (.ret _) (by simp) (by simp)

theorem tidy_pread (fd : BitVec 32) (buf : Bytes) (n : Nat) (offset : BitVec 64) :
    Tidy [] [] (-1, buf) (syscall_vfs_pread rpc alloc s fd buf n offset) := by
  apply Tidy.withPayload (by simp)
  intro va_buf _ _
  refine .mobj_get_va (.memset (.thread_rpc_cmd fun _ _ _ => ?_) (by simp) (by simp))
  exact .mobj_get_va (.memcpy (.ret _) (by simp) (by simp))

theorem tidy_pwrite (fd : BitVec 32) (buf : Bytes) (offset : BitVec 64) :
    Tidy [] [] (-1) (syscall_vfs_pwrite rpc alloc s fd buf offset) := by
  apply Tidy.withPayload (by simp)
  intro va_path _ _
  exact .mobj_get_va (.memcpy (.thread_rpc_cmd fun _ _ _ => .ret _) (by simp) (by simp))

theorem tidy_stat (file_name : CStr) (buf : Bytes) :
    Tidy [] [] (-1, buf) (syscall_vfs_stat rpc alloc s file_name buf) := by
  apply Tidy.withPayload (by simp)
  intro va_filename _ _
  refine .mobj_get_va (.memcpy ?_ (by simp) (by simp))
  apply Tidy.withPayload (by simp)
  intro va_buf _ _
  refine .mobj_get_va (.memset (.thread_rpc_cmd fun _ _ _ => ?_) (by simp) (by simp))
  exact .memcpy (.ret _) (by simp) (by simp)

theorem tidy_gettimeofday (tv : Bytes) (tz : Option Bytes) :
    Tidy [] [] (-1, tv, tz) (syscall_vfs_gettimeofday rpc alloc s tv tz) := by
  apply Tidy.withPayload (by simp)
  intro va_tv _ _
  refine .mobj_get_va (.memset ?_ (by simp) (by simp))
  apply Tidy.withPayload (by simp)
  intro va_tz _ _
  refine .mobj_get_va (.memset (.thread_rpc_cmd fun _ _ _ => ?_) (by simp) (by simp))
  refine .memcpy ?_ (by simp) (by simp)
  cases tz with
  | none => exact .ret _
  | some tz => exact .memcpy (.ret _) (by simp) (by simp)

theorem tidy_utimes (filename : CStr) (times : Bytes) :
    Tidy [] [] (-1) (syscall_vfs_utimes rpc alloc s filename times) := by
  apply Tidy.withPayload (by simp)
  intro va_filename _ _
  refine .mobj_get_va (.memset (.memcpy ?_ (by simp) (by simp)) (by simp) (by simp))
  apply Tidy.withPayload (by simp)
  intro va_times _ _
  refine .mobj_get_va (.memset (.memcpy ?_ (by simp) (by simp)) (by simp) (by simp))
  exact .thread_rpc_cmd fun _ _ _ => .ret _

theorem tidy_getenv {malloc : Nat → Bool} (name : CStr)
    (supplied : Supplied rpc alloc malloc s (.getenv name)) :
    Tidy [] [] none (syscall_vfs_getenv rpc alloc malloc s name) := by
  apply Tidy.withPayload (by simp)
  intro va_name gave enough
  refine .mobj_get_va (.memcpy (.rpc ?_) (by simp) (by simp))
  apply Tidy.withPayload (by simp)
  intro ret_block gave' enough'
  refine .thread_rpc_cmd fun _ _ _ => .mobj_get_va (.memcpy ?_ (by simp) (by simp))
  split
  · exact .ret _
  · rename_i no_memory
    rcases supplied va_name gave enough ⟨ret_block, gave', enough'⟩ with memory | empty
    · exact absurd memory no_memory
    · rw [if_pos (by exact empty)]
      exact .ret _

/-- A payload that was given, filled, and copied back. -/
theorem discipline_of_events {call : VfsCall} {r : Run (σ × Outcome)} {n size : Nat}
    (enough : n ≤ size)
    (events : r.events = [.alloc 0 n (some size), .mobj_get_va 0, .memset (some 0) n, .rpc,
      .memcpy (some 0) n, .free (some 0)]) : PayloadDiscipline call r where
  payloads := by
    have inside : Within [0] [] [Touch.map 0, .access (some 0), .access (some 0)] :=
      .map (.access (.access .nil (by simp) (by simp)) (by simp) (by simp))
    rw [Run.uses, events]
    exact (Within.bracket (by simp) inside).disciplined
  refused := by
    rintro ⟨e, mem, refused⟩
    simp only [events, List.mem_cons, List.not_mem_nil, or_false] at mem
    rcases mem with rfl | rfl | rfl | rfl | rfl | rfl
    · exact absurd enough (by simpa [Event.refused] using refused)
    all_goals cases refused

theorem getcwd_disciplined {buf : Buffer} (given : Given alloc 0 buf.1.length)
    (malloc : Nat → Bool) :
    PayloadDiscipline (.getcwd buf) (run rpc alloc malloc s (.getcwd buf)) := by
  obtain ⟨va, gave, enough⟩ := given
  apply discipline_of_events enough
  simp [run, syscall_vfs_getcwd, Run.map, withPayload, payload, gave, Nat.not_lt.mpr enough,
    Payloads.mobj_get_va, Payloads.memset, Payloads.memcpy, thread_rpc_cmd, emit, ret, Run.bind]

theorem fcntl_flock_disciplined (fd cmd : BitVec 32) (flock : CStruct SIZEOF_FLOCK)
    (given : Given alloc 0 SIZEOF_FLOCK) (malloc : Nat → Bool) :
    PayloadDiscipline (.fcntl_flock fd cmd flock)
      (run rpc alloc malloc s (.fcntl_flock fd cmd flock)) := by
  obtain ⟨va, gave, enough⟩ := given
  apply discipline_of_events enough
  simp [run, syscall_vfs_fcntl_flock, Run.map, payload, gave, Nat.not_lt.mpr enough,
    Payloads.mobj_get_va, Payloads.memset, Payloads.memcpy, thread_rpc_cmd, emit, ret, Run.bind]

/-- A call that gets what it needs. -/
theorem supplied_disciplined {malloc : Nat → Bool} (call : VfsCall)
    (supplied : Supplied rpc alloc malloc s call) :
    PayloadDiscipline call (run rpc alloc malloc s call) := by
  have int (s : σ) (out : Bytes) : (s, Outcome.int (-1) out) = (s, Outcome.long (-1) out) :=
    congrArg (fun ret => (s, Outcome.long ret out)) (by decide)
  cases call with
  | getcwd buf => exact getcwd_disciplined rpc alloc s supplied malloc
  | fcntl_flock fd cmd flock =>
    exact fcntl_flock_disciplined rpc alloc s fd cmd flock supplied malloc
  | getenv name => exact ((tidy_getenv rpc alloc s name supplied).map fun _ => rfl).discipline
  | open_ | access | mkdir | rmdir | truncate =>
    exact ((tidy_pathCall_low rpc alloc s _ _ _ _).map fun s => int s []).discipline
  | utimes filename times =>
    exact ((tidy_utimes rpc alloc s filename times.1).map fun s => int s []).discipline
  | fstat fd buf => exact ((tidy_fstat rpc alloc s fd buf.1).map fun s => int s buf.1).discipline
  | stat file_name buf =>
    exact ((tidy_stat rpc alloc s file_name buf.1).map fun s => int s buf.1).discipline
  | unlink name errno =>
    refine ((tidy_unlink rpc alloc s name errno).map fun s => ?_).discipline
    exact congrArg (fun o => (o.1, { o.2 with errno })) (int s [])
  | gettimeofday tv tz =>
    refine ((tidy_gettimeofday rpc alloc s tv.1 (tz.map Subtype.val)).map fun s => ?_).discipline
    exact congrArg (fun o => (o.1, { o.2 with out2 := (tz.map Subtype.val).getD [] })) (int s tv.1)
  | write fd buf => exact ((tidy_write rpc alloc s fd buf.1).map fun _ => rfl).discipline
  | pwrite fd buf offset =>
    exact ((tidy_pwrite rpc alloc s fd buf.1 offset).map fun _ => rfl).discipline
  | read fd buf =>
    exact ((tidy_read rpc alloc s fd buf.1 buf.1.length).map fun _ => rfl).discipline
  | pread fd buf offset =>
    exact ((tidy_pread rpc alloc s fd buf.1 buf.1.length offset).map fun _ => rfl).discipline
  | _ =>
    refine ⟨Within.nil.disciplined, ?_⟩
    rintro ⟨e, mem, refused⟩
    rw [List.mem_singleton.mp mem] at refused
    cases refused

theorem getcwd_not_disciplined {buf : Buffer} (missing : ¬ Given alloc 0 buf.1.length)
    (malloc : Nat → Bool) :
    ¬ PayloadDiscipline (.getcwd buf) (run rpc alloc malloc s (.getcwd buf)) := by
  have ran : run rpc alloc malloc s (.getcwd buf) = ⟨[.alloc 0 _ _, .free _], some (s, _)⟩ :=
    congrArg (Run.map _) (withPayload_missing missing _ _)
  intro disciplined
  rw [ran] at disciplined
  obtain ⟨s', result⟩ := disciplined.refused
    ⟨_, List.mem_cons_self, refused_of_missing missing⟩
  -- the caller's pointer is returned
  have ret : (1 : BitVec 64) = 0 := congrArg (fun r => (r.map fun o => o.2.ret).getD 1) result
  exact absurd ret (by decide)

theorem fcntl_flock_not_disciplined {fd cmd : BitVec 32} {flock : CStruct SIZEOF_FLOCK}
    (missing : ¬ Given alloc 0 SIZEOF_FLOCK) (malloc : Nat → Bool) :
    ¬ PayloadDiscipline (.fcntl_flock fd cmd flock)
      (run rpc alloc malloc s (.fcntl_flock fd cmd flock)) := by
  have ran : run rpc alloc malloc s (.fcntl_flock fd cmd flock) =
      ⟨[.alloc 0 _ _, .memcpy none SIZEOF_FLOCK], none⟩ :=
    congrArg (Run.map _) (payload_missing missing _ _ _)
  intro disciplined
  rw [ran] at disciplined
  -- the copy is the last use
  let first := Event.alloc 0 SIZEOF_FLOCK ((alloc 0 SIZEOF_FLOCK).map List.length)
  have uses : [first, .memcpy none SIZEOF_FLOCK].filterMap Event.use =
      [first].filterMap Event.use ++ [.access none] := by
    rw [← List.singleton_append, List.filterMap_append]
    rfl
  obtain ⟨i, unset, -⟩ := disciplined.payloads.reached _ none [] uses
  cases unset

/-- The copy to NULL, with both payloads there. -/
theorem getenv_not_disciplined {malloc : Nat → Bool} {name : CStr}
    (missing : ¬ Supplied rpc alloc malloc s (.getenv name)) :
    ¬ PayloadDiscipline (.getenv name) (run rpc alloc malloc s (.getenv name)) := by
  simp only [Supplied, not_forall, not_or, exists_prop] at missing
  obtain ⟨va, gave, enough, ⟨ret_block, gave', enough'⟩, no_memory, nonempty⟩ := missing
  have copy {o o' : σ × Option Bytes} :
      (if malloc (valueLength rpc s name va) then ret o
        else if valueLength rpc s name va = 0 then ret o' else crash) = ⟨[], none⟩ := by
    rw [if_neg no_memory, if_neg nonempty, crash]
  have ran : syscall_vfs_getenv rpc alloc malloc s name = ⟨_, none⟩ :=
    withPayload_of_crash gave enough (emit_eq (emit_eq (emit_eq
      (withPayload_of_crash gave' enough' (emit_eq (emit_eq (emit_eq copy)))))))
  have uses : (run rpc alloc malloc s (.getenv name)).uses =
      [.acquire 0, .map 0, .access (some 0), .acquire 1, .map 1, .access (some 1)] := by
    rw [run, ran]
    rfl
  intro disciplined
  have released := disciplined.payloads.released 0 (by simp [uses])
  rw [uses] at released
  exact absurd released (by decide)

/-- **The discipline of the payloads.** -/
theorem payloadDiscipline_iff (malloc : Nat → Bool) (call : VfsCall) :
    PayloadDiscipline call (run rpc alloc malloc s call) ↔ Supplied rpc alloc malloc s call := by
  constructor
  · intro disciplined
    by_contra missing
    cases call with
    | getcwd buf => exact getcwd_not_disciplined rpc alloc s missing malloc disciplined
    | fcntl_flock fd cmd flock =>
      exact fcntl_flock_not_disciplined rpc alloc s missing malloc disciplined
    | getenv name => exact getenv_not_disciplined rpc alloc s missing disciplined
    | _ => exact missing trivial
  · exact supplied_disciplined rpc alloc s call

end

/-- No memory in the secure world for a lock that is read. -/
theorem flock_copied_from_nowhere :
    ¬ PayloadDiscipline (.fcntl_flock 3 5 ⟨List.replicate SIZEOF_FLOCK 0, by simp⟩)
      (run (fun _ m => ((), m, TEEC_SUCCESS)) (fun _ _ => none) (fun _ => true) ()
        (.fcntl_flock 3 5 ⟨List.replicate SIZEOF_FLOCK 0, by simp⟩)) := by
  apply fcntl_flock_not_disciplined
  rintro ⟨va, gave, -⟩
  cases gave

end TeeSqlite.Payloads
