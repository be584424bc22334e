import TeeSqlite.Rpc.Syscalls
import TeeSqlite.Rpc.Supplicant

/-! The two sides together: for which calls the normal world makes the caller's own
call of the C library, once, and the caller gets its result. -/
namespace TeeSqlite
open ByteFile CTypes

/-- A buffer whose length a `size_t` can hold. -/
abbrev Buffer := { b : Bytes // b.length < 2 ^ 64 }

/-- A structure of `n` bytes. -/
abbrev CStruct (n : Nat) := { b : Bytes // b.length = n }

/-- A call of a TA with its arguments; a buffer comes with what it held before. -/
inductive VfsCall
  | open_ (path : CStr) (oflag arg1 : BitVec 32)
  | close (fd : BitVec 32)
  | access (name : CStr) (type : BitVec 32)
  | getcwd (buf : Buffer)
  | stat (file_name : CStr) (buf : CStruct SIZEOF_MY_STAT)
  | fstat (fd : BitVec 32) (buf : CStruct SIZEOF_MY_STAT)
  | write (fd : BitVec 32) (buf : Buffer)
  | mkdir (path : CStr) (mode : BitVec 32)
  | rmdir (path : CStr)
  | unlink (name : CStr) (errno : BitVec 32)
  | ftruncate (fd : BitVec 32) (size : BitVec 64)
  | read (fd : BitVec 32) (buf : Buffer)
  | fchmod (fd mode : BitVec 32)
  | fchown (fd owner group : BitVec 32)
  | geteuid
  | getpid
  | getenv (name : CStr)
  | lseek (fd : BitVec 32) (offset : BitVec 64) (whence : BitVec 32)
  | fsync (fd : BitVec 32)
  | sleep (seconds : BitVec 32)
  | pread (fd : BitVec 32) (buf : Buffer) (offset : BitVec 64)
  | pwrite (fd : BitVec 32) (buf : Buffer) (offset : BitVec 64)
  | truncate (path : CStr) (size : BitVec 64)
  | gettimeofday (tv : CStruct SIZEOF_TIMEVAL) (tz : Option (CStruct SIZEOF_TIMEZONE))
  | fcntl_void (fd cmd : BitVec 32)
  | fcntl_int (fd cmd pa : BitVec 32)
  | fcntl_flock (fd cmd : BitVec 32) (flock : CStruct SIZEOF_FLOCK)
  | utimes (filename : CStr) (times : CStruct SIZEOF_TIMES)
  | time (t : Option (CStruct 8))
  | usleep (usec : BitVec 64)
  | filesize (fd : BitVec 32)

/-- What a TA gets: a result of 32 bits is sign-extended, a pointer is 0 when it is
NULL; `errno` is the cell of `unlink`, `out` and `out2` are the caller's buffers. -/
structure Outcome where
  ret : BitVec 64
  errno : BitVec 32
  out : Bytes
  out2 : Bytes

def Outcome.long (ret : BitVec 64) (out : Bytes) : Outcome := ⟨ret, 0, out, []⟩
def Outcome.int (ret : BitVec 32) (out : Bytes) : Outcome := .long (sext ret) out

namespace VfsCall

def op : VfsCall → VfsOp
  | open_ .. => .OPEN | close _ => .CLOSE | access .. => .ACCESS | getcwd _ => .GETCWD
  | stat .. => .STAT | fstat .. => .FSTAT | write .. => .WRITE | mkdir .. => .MKDIR
  | rmdir _ => .RMDIR | unlink .. => .UNLINK | ftruncate .. => .FTRUNCATE | read .. => .READ
  | fchmod .. => .FCHMOD | fchown .. => .FCHOWN | geteuid => .GETEUID | getpid => .GETPID
  | getenv _ => .GETENV | lseek .. => .LSEEK | fsync _ => .FSYNC | sleep _ => .SLEEP
  | pread .. => .PREAD | pwrite .. => .PWRITE | truncate .. => .TRUNCATE
  | gettimeofday .. => .GETTIMEOFDAY | fcntl_void .. => .FCNTL_VOID | fcntl_int .. => .FCNTL_INT
  | fcntl_flock .. => .FCNTL_FLOCK | utimes .. => .UTIMES | time _ => .TIME | usleep _ => .USLEEP
  | filesize _ => .FILESIZE

/-- The call of the C library that the caller means. -/
def libc : VfsCall → LibcCall
  | open_ path oflag arg1 => .open_ path oflag arg1
  | close fd => .close fd
  | access name type => .access name type
  | getcwd buf => .getcwd (BitVec.ofNat 64 buf.1.length)
  | stat file_name _ => .stat file_name
  | fstat fd _ => .fstat fd
  | write fd buf => .write fd buf.1
  | mkdir path mode => .mkdir path mode
  | rmdir path => .rmdir path
  | unlink name _ => .unlink name
  | ftruncate fd size => .ftruncate fd size
  | read fd buf => .read fd (BitVec.ofNat 64 buf.1.length)
  | fchmod fd mode => .fchmod fd mode
  | fchown fd owner group => .fchown fd owner group
  | geteuid => .geteuid
  | getpid => .getpid
  | getenv name => .getenv name
  | lseek fd offset whence => .lseek fd offset whence
  | fsync fd => .fsync fd
  | sleep seconds => .sleep seconds
  | pread fd buf offset => .pread fd (BitVec.ofNat 64 buf.1.length) offset
  | pwrite fd buf offset => .pwrite fd buf.1 offset
  | truncate path size => .truncate path size
  | gettimeofday .. => .gettimeofday
  | fcntl_void fd cmd => .fcntl_void fd cmd
  | fcntl_int fd cmd pa => .fcntl_int fd cmd pa
  | fcntl_flock fd cmd flock => .fcntl_flock fd cmd flock.1
  | utimes filename times => .utimes filename times.1
  | time _ => .time
  | usleep usec => .usleep usec
  | filesize fd => .fstat fd

/-- The call as the secure side carries it out. -/
def run {σ : Type} (rpc : RpcCmd σ) (alloc : AllocPayload) (s : σ) : VfsCall → Option (σ × Outcome)
  | open_ path oflag arg1 =>
    let (s, ret) := syscall_vfs_open rpc alloc s path oflag arg1
    some (s, .int ret [])
  | close fd =>
    let (s, ret) := syscall_vfs_close rpc s fd
    some (s, .int ret [])
  | access name type =>
    let (s, ret) := syscall_vfs_access rpc alloc s name type
    some (s, .int ret [])
  | getcwd buf =>
    let (s, out) := syscall_vfs_getcwd rpc alloc s buf.1
    some (s, .long 1 out)
  | stat file_name buf =>
    let (s, ret, out) := syscall_vfs_stat rpc alloc s file_name buf.1
    some (s, .int ret out)
  | fstat fd buf =>
    let (s, ret, out) := syscall_vfs_fstat rpc alloc s fd buf.1
    some (s, .int ret out)
  | write fd buf =>
    let (s, ret) := syscall_vfs_write rpc alloc s fd buf.1
    some (s, .long ret [])
  | mkdir path mode =>
    let (s, ret) := syscall_vfs_mkdir rpc alloc s path mode
    some (s, .int ret [])
  | rmdir path =>
    let (s, ret) := syscall_vfs_rmdir rpc alloc s path
    some (s, .int ret [])
  | unlink name errno =>
    let (s, ret, errno) := syscall_vfs_unlink rpc alloc s name errno
    some (s, { Outcome.int ret [] with errno })
  | ftruncate fd size =>
    let (s, ret) := syscall_vfs_ftruncate rpc s fd size
    some (s, .int ret [])
  | read fd buf =>
    let (s, ret, out) := syscall_vfs_read rpc alloc s fd buf.1 buf.1.length
    some (s, .long ret out)
  | fchmod fd mode =>
    let (s, ret) := syscall_vfs_fchmod rpc s fd mode
    some (s, .int ret [])
  | fchown fd owner group =>
    let (s, ret) := syscall_vfs_fchown rpc s fd owner group
    some (s, .int ret [])
  | geteuid =>
    let (s, ret) := syscall_vfs_geteuid rpc s
    some (s, .int ret [])
  | getpid =>
    let (s, ret) := syscall_vfs_getpid rpc s
    some (s, .int ret [])
  | getenv name =>
    let (s, ret) := syscall_vfs_getenv rpc alloc s name
    some (s, .long (if ret.isSome then 1 else 0) (ret.getD []))
  | lseek fd offset whence =>
    let (s, ret) := syscall_vfs_lseek rpc s fd offset whence
    some (s, .long ret [])
  | fsync fd =>
    let (s, ret) := syscall_vfs_fsync rpc s fd
    some (s, .int ret [])
  | sleep seconds =>
    let (s, ret) := syscall_vfs_sleep rpc s seconds
    some (s, .int ret [])
  | pread fd buf offset =>
    let (s, ret, out) := syscall_vfs_pread rpc alloc s fd buf.1 buf.1.length offset
    some (s, .long ret out)
  | pwrite fd buf offset =>
    let (s, ret) := syscall_vfs_pwrite rpc alloc s fd buf.1 offset
    some (s, .long ret [])
  | truncate path size =>
    let (s, ret) := syscall_vfs_truncate rpc alloc s path size
    some (s, .int ret [])
  | gettimeofday tv tz =>
    let (s, ret, out, out2) := syscall_vfs_gettimeofday rpc alloc s tv.1 (tz.map Subtype.val)
    some (s, { Outcome.int ret out with out2 := out2.getD [] })
  | fcntl_void fd cmd =>
    let (s, ret) := syscall_vfs_fcntl_void rpc s fd cmd
    some (s, .int ret [])
  | fcntl_int fd cmd pa =>
    let (s, ret) := syscall_vfs_fcntl_int rpc s fd cmd pa
    some (s, .int ret [])
  | fcntl_flock fd cmd _ =>
    (syscall_vfs_fcntl_flock rpc alloc s fd cmd).map fun (s, ret, out) => (s, .int ret out)
  | utimes filename times =>
    let (s, ret) := syscall_vfs_utimes rpc alloc s filename times.1
    some (s, .int ret [])
  | time t =>
    let (s, ret, out) := syscall_vfs_time rpc s (t.map Subtype.val)
    some (s, .long ret (out.getD []))
  | usleep usec => some (syscall_vfs_usleep rpc s usec, .long 0 [])
  | filesize fd =>
    let (s, ret) := syscall_vfs_filesize rpc s fd
    some (s, .long ret [])

/-- The caller has the result of the C library, and what was written through each
pointer is at the start of the caller's buffer. -/
def Delivers (r : OsResult) (o : Outcome) : VfsCall → Prop
  | getcwd buf => (o.ret = 0 ↔ r.ret = 0) ∧ r.out.take buf.1.length <+: o.out
  | stat .. | fstat .. => o.ret = r.int ∧ r.out.take SIZEOF_STAT <+: o.out
  | read _ buf | pread _ buf _ => o.ret = r.ret ∧ r.out.take buf.1.length <+: o.out
  | write .. | pwrite .. | lseek .. => o.ret = r.ret
  | unlink .. => o.ret = r.int ∧ o.errno = r.errno
  | getenv _ => (o.ret = 0 ↔ r.env = none) ∧ ∀ z ∈ r.env, o.out = z.mem
  | gettimeofday _ tz =>
    o.ret = r.int ∧ r.out.take SIZEOF_TIMEVAL <+: o.out ∧
      (tz.isSome = true → r.tz.take SIZEOF_TIMEZONE <+: o.out2)
  | fcntl_flock .. => o.ret = r.int ∧ r.out.take SIZEOF_FLOCK <+: o.out
  | time t => o.ret = r.ret ∧ (t.isSome = true → o.out = leBytes 8 r.ret.toNat)
  | usleep _ => True
  | filesize _ => o.ret = if low r.ret = -1 then -1 else r.st_size
  | _ => o.ret = r.int

/-- When the two sides agree, call by call. -/
def Faithful (os : LibcCall → OsResult) (alloc : AllocPayload) : VfsCall → Prop
  | fstat .. | pwrite .. | truncate .. => False
  | write fd buf => sext (low (os (.write fd buf.1)).ret) = (os (.write fd buf.1)).ret
  | time t =>
    sext (low (os .time).ret) = (os .time).ret ∧
      ∀ old ∈ t, old.1.drop 4 = (leBytes 8 (os .time).ret.toNat).drop 4
  | getcwd buf => (os (.getcwd (BitVec.ofNat 64 buf.1.length))).ret ≠ 0
  | getenv name => ∃ z, (os (.getenv name)).env = some z ∧ z.mem.length < 2 ^ 31
  | fcntl_flock _ _ flock => flock.1 = List.replicate SIZEOF_FLOCK 0
  | usleep usec => zext (low usec) = usec
  | utimes _ times => ∃ va, alloc 1 8 = some va ∧ SIZEOF_TIMES ≤ va.length ∧
      (va.take SIZEOF_TIMES).drop 8 = times.1.drop 8
  | _ => True

end VfsCall

/-- The allocation number `i` of a call succeeds, with a block of at least `n` bytes. -/
def Given (alloc : AllocPayload) (i n : Nat) : Prop := ∃ va, alloc i n = some va ∧ n ≤ va.length

/-- Allocations succeed. -/
def Allocates (alloc : AllocPayload) : Prop := ∀ i n, Given alloc i n

/-- Fresh blocks of the size asked for. -/
def freshBlocks : AllocPayload := fun _ n => some (List.replicate n 0)

theorem allocates_freshBlocks : Allocates freshBlocks := by
  intro i n
  exact ⟨_, rfl, by simp⟩

theorem opOf_code (op : VfsOp) : opOf (OPTEE_VFS op) = some op := by cases op <;> rfl

@[simp] theorem sext_low_int (r : OsResult) : sext (low r.int) = r.int := by
  rw [OsResult.int, low_sext]

@[simp] theorem sext_low_uint (r : OsResult) : sext (low r.uint) = r.int := by
  rw [OsResult.uint, OsResult.int, low_zext]

@[simp] theorem low_sext_errno (r : OsResult) : low (sext r.errno) = r.errno := low_sext r.errno

theorem Given.withPayload_eq {alloc : AllocPayload} {i n : Nat} (given : Given alloc i n) :
    ∃ va, alloc i n = some va ∧ n ≤ va.length ∧
      ∀ {α : Type} (exit : α) (body : Bytes → α), withPayload alloc i n exit body = body va := by
  obtain ⟨va, given, enough⟩ := given
  refine ⟨va, given, enough, ?_⟩
  intro α exit body
  simp only [withPayload, given, if_neg (Nat.not_lt.mpr enough)]

theorem withPayload_exit {alloc : AllocPayload} {i n : Nat} (missing : ¬ Given alloc i n)
    {α : Type} (exit : α) (body : Bytes → α) : withPayload alloc i n exit body = exit := by
  unfold withPayload
  split
  · rfl
  · rename_i va given
    apply if_pos
    apply Nat.lt_of_not_le
    intro enough
    exact missing ⟨va, given, enough⟩

/-- The string that was copied to the start of a block. -/
@[simp] theorem strAt_splice (va : Bytes) (path : CStr) :
    strAt (splice va 0 path.mem) = some path := by
  rw [splice_start]
  exact strAt_mem_append path _

-- both sides are evaluated on the messages that the wrappers build
attribute [simp] VfsCall.run VfsCall.op VfsCall.libc VfsCall.Delivers thread_rpc_cmd valueCall asInt
  pathCall THREAD_PARAM_VALUE THREAD_PARAM_MEMREF value0 supplicant tee_supp_vfs_process opOf_code
  checked fetched called get_value Request.val Request.answer Request.string
  Request.tee_supp_param_to_va Request.find_tshm Request.get_param Request.buffer Request.bytes
  Request.store Request.data Outcome.int Outcome.long

namespace VfsCall
section
variable (os : LibcCall → OsResult) (alloc : AllocPayload)

variable {alloc}

theorem length_mod (buf : Buffer) : buf.1.length % 18446744073709551616 = buf.1.length :=
  Nat.mod_eq_of_lt buf.2

/-- What was read reaches the caller's buffer through the block. -/
theorem delivered (va : Bytes) (buf : Buffer) (out : Bytes) :
    out.take buf.1.length <+: splice buf.1 0
      ((splice (zeroed va buf.1.length) 0 (out.take buf.1.length)).take buf.1.length) :=
  prefix_splice _ (prefix_splice_take _ (List.length_take_le _ _))

end

end VfsCall
end TeeSqlite
