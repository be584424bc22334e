import TeeSqlite.Rpc.Marshalling
import TeeSqlite.Vfs.DemoFile

/-! Requests that fail: what the wrappers return then, and what the VFS over them
reports to SQLite. -/
namespace TeeSqlite
open ByteFile CTypes

section
variable {σ : Type} (rpc : RpcCmd σ) (alloc : AllocPayload)

/-- The system calls of the VFS, as requests. `utee_vfs_write` returns an `int`. -/
def utee : Utee σ where
  utee_vfs_lseek s fd offset whence :=
    let (s, ret) :=
      syscall_vfs_lseek rpc s (BitVec.ofInt 32 fd) (BitVec.ofInt 64 offset) (BitVec.ofInt 32 whence)
    (s, ret.toInt)
  utee_vfs_write s fd buf :=
    let (s, ret) := syscall_vfs_write rpc alloc s (BitVec.ofInt 32 fd) buf
    (s, (low ret).toInt)
  utee_vfs_read s fd buf n :=
    let (s, ret, buf) := syscall_vfs_read rpc alloc s (BitVec.ofInt 32 fd) buf n
    (s, ret.toInt, buf)
  utee_vfs_fsync s fd :=
    let (s, ret) := syscall_vfs_fsync rpc s (BitVec.ofInt 32 fd)
    (s, ret.toInt)
  utee_vfs_filesize s fd :=
    let (s, ret) := syscall_vfs_filesize rpc s (BitVec.ofInt 32 fd)
    (s, ret.toInt)
  utee_vfs_close s fd :=
    let (s, ret) := syscall_vfs_close rpc s (BitVec.ofInt 32 fd)
    (s, ret.toInt)
  utee_vfs_open s path oflag arg1 :=
    let (s, ret) :=
      syscall_vfs_open rpc alloc s path (BitVec.ofNat 32 oflag) (BitVec.ofNat 32 arg1)
    (s, ret.toInt)
  utee_vfs_unlink s name errno :=
    let (s, ret, errno) := syscall_vfs_unlink rpc alloc s name (BitVec.ofInt 32 errno)
    (s, ret.toInt, errno.toInt)
  utee_vfs_access s name type :=
    let (s, ret) := syscall_vfs_access rpc alloc s name (BitVec.ofNat 32 type)
    (s, ret.toInt)
  utee_vfs_getcwd s buf :=
    let (s, buf) := syscall_vfs_getcwd rpc alloc s buf
    (s, true, buf)

/-- The next request fails, whatever it is, and parameter 0 comes back as it was sent. -/
def Refuses (s : σ) : Prop :=
  ∀ m, (rpc s m).2.2 ≠ TEEC_SUCCESS ∧ (rpc s m).2.1.params.head? = m.params.head?

end

@[simp] theorem sext_zero : sext 0#32 = 0#64 := by decide

theorem value0_of_head {params params' : List ThreadParam} (same : params.head? = params'.head?) :
    value0 params = value0 params' := by
  cases params with
  | nil =>
    cases params' with
    | nil => rfl
    | cons head tail => cases same
  | cons head tail =>
    cases params' with
    | nil => cases same
    | cons head' tail' =>
      cases same
      cases head <;> rfl

/-- What a wrapper reads after a failed request is what it put in slots `b` and `c`. -/
theorem Refuses.value0_eq {σ : Type} {rpc : RpcCmd σ} {s : σ} (refuses : Refuses rpc s)
    (shm : List Bytes) (op : VfsOp) (rest : List ThreadParam) :
    value0 (rpc s ⟨shm, .value .INOUT ⟨OPTEE_VFS op, 0#64, 0#64⟩ :: rest⟩).2.1.params =
      ⟨OPTEE_VFS op, 0#64, 0#64⟩ :=
  value0_of_head (refuses _).2

/-- Two blocks of which one is missing. -/
theorem twoPayloads_exit {alloc : AllocPayload} {n n' : Nat}
    (missing : Given alloc 0 n → ¬ Given alloc 1 n') {α : Type} (exit : α)
    (body : Bytes → Bytes → α) :
    (withPayload alloc 0 n exit fun va => withPayload alloc 1 n' exit (body va)) = exit := by
  by_cases first : Given alloc 0 n
  · obtain ⟨va, -, -, payload⟩ := first.withPayload_eq
    rw [payload, withPayload_exit (missing first)]
  · exact withPayload_exit first _ _

namespace VfsCall

/-- The calls that have -1 for a failure. -/
def HasFailure : VfsCall → Prop
  | getcwd _ | geteuid | getpid | getenv _ | sleep _ | time _ | usleep _ => False
  | _ => True

/-- The sizes of the shared blocks that are allocated before the request. -/
def blocks : VfsCall → List Nat
  | open_ path _ _ | access path _ | mkdir path _ | rmdir path | unlink path _ | getenv path
  | truncate path _ => [path.mem.length]
  | getcwd buf | write _ buf | read _ buf | pread _ buf _ | pwrite _ buf _ => [buf.1.length]
  | stat file_name _ => [file_name.mem.length, SIZEOF_MY_STAT]
  | fstat _ _ => [SIZEOF_MY_STAT]
  | gettimeofday _ _ => [SIZEOF_TIMEVAL, SIZEOF_TIMEZONE]
  | fcntl_flock _ _ _ => [SIZEOF_FLOCK]
  | utimes filename _ => [filename.mem.length, 8]
  | _ => []

/-- The blocks are there, so that the request is made. -/
def Sent (alloc : AllocPayload) (call : VfsCall) : Prop :=
  ∀ block ∈ call.blocks.zipIdx, Given alloc block.2 block.1

section
variable {σ : Type} {rpc : RpcCmd σ} {alloc : AllocPayload} {s : σ}

theorem failed_request_returns_zero (refuses : Refuses rpc s) (call : VfsCall)
    (fallible : call.HasFailure) (sent : call.Sent alloc) :
    ∃ s' o, call.run rpc alloc s = some (s', o) ∧ o.ret = 0 := by
  have slots := refuses.value0_eq
  cases call with
  | getcwd | geteuid | getpid | getenv | sleep | time | usleep => exact fallible.elim
  | close | ftruncate | fchmod | fchown | lseek | fsync | fcntl_void | fcntl_int | filesize =>
    simp [-value0, syscall_vfs_close, syscall_vfs_ftruncate, syscall_vfs_fchmod,
      syscall_vfs_fchown, syscall_vfs_lseek, syscall_vfs_fsync, syscall_vfs_fcntl_void,
      syscall_vfs_fcntl_int, syscall_vfs_filesize, slots]
  | open_ | access | fstat | write | mkdir | rmdir | unlink | read | pread | pwrite | truncate
  | fcntl_flock =>
    simp [Sent, blocks] at sent
    obtain ⟨va, -, -, payload⟩ := sent.withPayload_eq
    simp [-value0, syscall_vfs_open, syscall_vfs_access, syscall_vfs_fstat, syscall_vfs_write,
      syscall_vfs_mkdir, syscall_vfs_rmdir, syscall_vfs_unlink, syscall_vfs_read,
      syscall_vfs_pread, syscall_vfs_pwrite, syscall_vfs_truncate, syscall_vfs_fcntl_flock,
      payload, slots]
  | stat | gettimeofday | utimes =>
    simp [Sent, blocks] at sent
    obtain ⟨va, -, -, payload⟩ := sent.1.withPayload_eq
    obtain ⟨va', -, -, payload'⟩ := sent.2.withPayload_eq
    simp [-value0, syscall_vfs_stat, syscall_vfs_gettimeofday, syscall_vfs_utimes, payload,
      payload', slots]

end
end VfsCall

section
variable {σ : Type} {rpc : RpcCmd σ} {alloc : AllocPayload}

end

/-- Every request is refused, for its parameters. -/
def badParameters : RpcCmd Unit := fun s m => (s, m, TEEC_ERROR_BAD_PARAMETERS)

theorem refuses_badParameters (s : Unit) : Refuses badParameters s := by
  intro m
  exact ⟨by simp [badParameters, TEEC_ERROR_BAD_PARAMETERS, TEEC_SUCCESS], rfl⟩

end TeeSqlite
