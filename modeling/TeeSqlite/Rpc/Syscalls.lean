import TeeSqlite.Rpc.Message

/-! The secure side: the system calls of `tee_sqlite.c`, each a request to the normal
world. A status other than success is only printed. -/
namespace TeeSqlite
open ByteFile CTypes

/-- `memset(va, 0, n)`. -/
def zeroed (va : Bytes) (n : Nat) : Bytes := splice va 0 (List.replicate n 0)

theorem length_zeroed {va : Bytes} {n : Nat} (h : n ≤ va.length) :
    (zeroed va n).length = va.length := by
  apply length_splice
  rw [List.length_replicate]
  omega

section
variable {σ : Type} (rpc : RpcCmd σ) (alloc : AllocPayload)

/-- The allocation number `i` of a call, of `n` bytes. A failure goes to the exit. -/
def withPayload {α : Type} (i n : Nat) (exit : α) (body : Bytes → α) : α :=
  match alloc i n with
  | none => exit
  | some va => if va.length < n then exit else body va

/-- A request to the normal world, and the words of parameter 0 after it. -/
def thread_rpc_cmd {α : Type} (s : σ) (shm : List Bytes) (params : List ThreadParam)
    (body : σ → List Bytes → ParamValue → α) : α :=
  let (s, m, _) := rpc s ⟨shm, params⟩
  body s m.shm (value0 m.params)

/-- A request with one value parameter beside the operation; `b` is returned. -/
def valueCall (op : VfsOp) (s : σ) (a b c : BitVec 64) : σ × BitVec 64 :=
  thread_rpc_cmd rpc s []
    [THREAD_PARAM_VALUE .INOUT (OPTEE_VFS op) 0 0, THREAD_PARAM_VALUE .IN a b c]
    fun s _ val0 => (s, val0.b)

/-- The result of a call as an `int`. -/
def asInt (result : σ × BitVec 64) : σ × BitVec 32 := (result.1, low result.2)

/-- A request with a string, of which the block is copied in, and the parameters that
follow it; a string that cannot be passed is a result of -1. -/
def pathCall (op : VfsOp) (s : σ) (path : CStr) (before after : List ThreadParam) :
    σ × ParamValue :=
  withPayload alloc 0 path.mem.length (s, ⟨0, -1, 0⟩) fun va_path =>
    thread_rpc_cmd rpc s [splice va_path 0 path.mem]
      (THREAD_PARAM_VALUE .INOUT (OPTEE_VFS op) 0 0 :: before ++
        THREAD_PARAM_MEMREF .IN (some 0) :: after)
      fun s _ val0 => (s, val0)

def syscall_vfs_open (s : σ) (path : CStr) (oflag arg1 : BitVec 32) : σ × BitVec 32 :=
  let (s, val0) := pathCall rpc alloc .OPEN s path []
    [THREAD_PARAM_VALUE .IN (sext oflag) (sext arg1) 0]
  (s, low val0.b)

def syscall_vfs_close (s : σ) (fd : BitVec 32) : σ × BitVec 32 :=
  asInt (valueCall rpc .CLOSE s (sext fd) 0 0)

def syscall_vfs_access (s : σ) (name : CStr) (type : BitVec 32) : σ × BitVec 32 :=
  let (s, val0) := pathCall rpc alloc .ACCESS s name [THREAD_PARAM_VALUE .IN (sext type) 0 0] []
  (s, low val0.b)

/-- Returns the caller's buffer in every case, and so a pointer that is not NULL. -/
def syscall_vfs_getcwd (s : σ) (buf : Bytes) : σ × Bytes :=
  withPayload alloc 0 buf.length (s, buf) fun va_buf =>
    thread_rpc_cmd rpc s [zeroed va_buf buf.length]
      [THREAD_PARAM_VALUE .INOUT (OPTEE_VFS .GETCWD) 0 0, THREAD_PARAM_MEMREF .OUT (some 0),
        THREAD_PARAM_VALUE .IN (BitVec.ofNat 64 buf.length) 0 0]
      fun s shm _ => (s, (shm[0]?.getD []).take buf.length)

/-- `sizeof(struct my_stat)`, which is packed; its fields lie as in `struct stat`, one
reserved word longer. -/
def SIZEOF_MY_STAT : Nat := 132

def syscall_vfs_stat (s : σ) (file_name : CStr) (buf : Bytes) : σ × BitVec 32 × Bytes :=
  withPayload alloc 0 file_name.mem.length (s, -1, buf) fun va_filename =>
  withPayload alloc 1 SIZEOF_MY_STAT (s, -1, buf) fun va_buf =>
    thread_rpc_cmd rpc s [splice va_filename 0 file_name.mem, zeroed va_buf SIZEOF_MY_STAT]
      [THREAD_PARAM_VALUE .INOUT (OPTEE_VFS .STAT) 0 0, THREAD_PARAM_MEMREF .IN (some 0),
        THREAD_PARAM_MEMREF .OUT (some 1)]
      fun s shm val0 => (s, low val0.b, (shm[1]?.getD []).take SIZEOF_MY_STAT)

def syscall_vfs_fstat (s : σ) (fd : BitVec 32) (buf : Bytes) : σ × BitVec 32 × Bytes :=
  withPayload alloc 0 SIZEOF_MY_STAT (s, -1, buf) fun va_buf =>
    thread_rpc_cmd rpc s [zeroed va_buf SIZEOF_MY_STAT]
      [THREAD_PARAM_VALUE .INOUT (OPTEE_VFS .FSTAT) 0 0, THREAD_PARAM_VALUE .IN (sext fd) 0 0,
        THREAD_PARAM_MEMREF .OUT (some 0)]
      fun s shm val0 => (s, low val0.b, (shm[0]?.getD []).take SIZEOF_MY_STAT)

/-- The result passes through an `int`. -/
def syscall_vfs_write (s : σ) (fd : BitVec 32) (buf : Bytes) : σ × BitVec 64 :=
  withPayload alloc 0 buf.length (s, -1) fun va_buf =>
    thread_rpc_cmd rpc s [splice (zeroed va_buf buf.length) 0 buf]
      [THREAD_PARAM_VALUE .INOUT (OPTEE_VFS .WRITE) 0 0,
        THREAD_PARAM_VALUE .IN (sext fd) (BitVec.ofNat 64 buf.length) 0,
        THREAD_PARAM_MEMREF .IN (some 0)]
      fun s _ val0 => (s, sext (low val0.b))

def syscall_vfs_mkdir (s : σ) (path : CStr) (mode : BitVec 32) : σ × BitVec 32 :=
  let (s, val0) := pathCall rpc alloc .MKDIR s path [] [THREAD_PARAM_VALUE .IN (zext mode) 0 0]
  (s, low val0.b)

def syscall_vfs_rmdir (s : σ) (path : CStr) : σ × BitVec 32 :=
  let (s, val0) := pathCall rpc alloc .RMDIR s path [] []
  (s, low val0.b)

/-- Returns the caller's `errno` cell as well. -/
def syscall_vfs_unlink (s : σ) (name : CStr) (errno : BitVec 32) : σ × BitVec 32 × BitVec 32 :=
  withPayload alloc 0 name.mem.length (s, -1, errno) fun va_name =>
    thread_rpc_cmd rpc s [splice va_name 0 name.mem]
      [THREAD_PARAM_VALUE .INOUT (OPTEE_VFS .UNLINK) 0 0, THREAD_PARAM_MEMREF .IN (some 0)]
      fun s _ val0 => (s, low val0.b, low val0.c)

def syscall_vfs_ftruncate (s : σ) (fd : BitVec 32) (size : BitVec 64) : σ × BitVec 32 :=
  asInt (valueCall rpc .FTRUNCATE s (sext fd) size 0)

/-- Returns the caller's buffer as well; `n` bytes are copied back. -/
def syscall_vfs_read (s : σ) (fd : BitVec 32) (buf : Bytes) (n : Nat) : σ × BitVec 64 × Bytes :=
  withPayload alloc 0 n (s, -1, buf) fun va_buf =>
    thread_rpc_cmd rpc s [zeroed va_buf n]
      [THREAD_PARAM_VALUE .INOUT (OPTEE_VFS .READ) 0 0, THREAD_PARAM_MEMREF .OUT (some 0),
        THREAD_PARAM_VALUE .IN (sext fd) (BitVec.ofNat 64 n) 0]
      fun s shm val0 => (s, val0.b, splice buf 0 ((shm[0]?.getD []).take n))

def syscall_vfs_fchmod (s : σ) (fd mode : BitVec 32) : σ × BitVec 32 :=
  asInt (valueCall rpc .FCHMOD s (sext fd) (zext mode) 0)

def syscall_vfs_fchown (s : σ) (fd owner group : BitVec 32) : σ × BitVec 32 :=
  asInt (valueCall rpc .FCHOWN s (sext fd) (zext owner) (zext group))

def syscall_vfs_geteuid (s : σ) : σ × BitVec 32 :=
  thread_rpc_cmd rpc s [] [THREAD_PARAM_VALUE .INOUT (OPTEE_VFS .GETEUID) 0 0]
    fun s _ val0 => (s, low val0.b)

def syscall_vfs_getpid (s : σ) : σ × BitVec 32 :=
  thread_rpc_cmd rpc s [] [THREAD_PARAM_VALUE .INOUT (OPTEE_VFS .GETPID) 0 0]
    fun s _ val0 => (s, low val0.b)

/-- The first request is for the length. Returns NULL or a copy of the string. -/
def syscall_vfs_getenv (s : σ) (name : CStr) : σ × Option Bytes :=
  withPayload alloc 0 name.mem.length (s, none) fun va_name =>
    let name_block := splice va_name 0 name.mem
    let (s, m, _) := rpc s ⟨[name_block], [THREAD_PARAM_VALUE .INOUT (OPTEE_VFS .GETENV) 0 0,
      THREAD_PARAM_MEMREF .IN (some 0), THREAD_PARAM_MEMREF .OUT none]⟩
    let val0 := value0 m.params
    let ret_len := val0.b.toNat
    withPayload alloc 1 ret_len (s, none) fun ret_block =>
      thread_rpc_cmd rpc s [m.shm[0]?.getD [], ret_block]
        [.value .INOUT val0, THREAD_PARAM_MEMREF .IN (some 0), THREAD_PARAM_MEMREF .OUT (some 1)]
        fun s shm _ => (s, some ((shm[1]?.getD []).take ret_len))

def syscall_vfs_lseek (s : σ) (fd : BitVec 32) (offset : BitVec 64) (whence : BitVec 32) :
    σ × BitVec 64 :=
  valueCall rpc .LSEEK s (sext fd) offset (sext whence)

def syscall_vfs_fsync (s : σ) (fd : BitVec 32) : σ × BitVec 32 :=
  asInt (valueCall rpc .FSYNC s (sext fd) 0 0)

def syscall_vfs_sleep (s : σ) (seconds : BitVec 32) : σ × BitVec 32 :=
  asInt (valueCall rpc .SLEEP s (zext seconds) 0 0)

def syscall_vfs_pread (s : σ) (fd : BitVec 32) (buf : Bytes) (n : Nat) (offset : BitVec 64) :
    σ × BitVec 64 × Bytes :=
  withPayload alloc 0 n (s, -1, buf) fun va_buf =>
    thread_rpc_cmd rpc s [zeroed va_buf n]
      [THREAD_PARAM_VALUE .INOUT (OPTEE_VFS .PREAD) 0 0, THREAD_PARAM_MEMREF .IN (some 0),
        THREAD_PARAM_VALUE .IN (sext fd) (BitVec.ofNat 64 n) offset]
      fun s shm val0 => (s, val0.b, splice buf 0 ((shm[0]?.getD []).take n))

def syscall_vfs_pwrite (s : σ) (fd : BitVec 32) (buf : Bytes) (offset : BitVec 64) :
    σ × BitVec 64 :=
  withPayload alloc 0 buf.length (s, -1) fun va_path =>
    thread_rpc_cmd rpc s [splice va_path 0 buf]
      [THREAD_PARAM_VALUE .INOUT (OPTEE_VFS .PWRITE) 0 0,
        THREAD_PARAM_VALUE .IN (sext fd) (BitVec.ofNat 64 buf.length) offset,
        THREAD_PARAM_MEMREF .IN (some 0)]
      fun s _ val0 => (s, val0.b)

/-- The operation asked for is `FTRUNCATE`. -/
def syscall_vfs_truncate (s : σ) (path : CStr) (size : BitVec 64) : σ × BitVec 32 :=
  let (s, val0) := pathCall rpc alloc .FTRUNCATE s path [] [THREAD_PARAM_VALUE .IN size 0 0]
  (s, low val0.b)

/-- Returns the caller's two structures as well; the second may be NULL. -/
def syscall_vfs_gettimeofday (s : σ) (tv : Bytes) (tz : Option Bytes) :
    σ × BitVec 32 × Bytes × Option Bytes :=
  withPayload alloc 0 SIZEOF_TIMEVAL (s, -1, tv, tz) fun va_tv =>
  withPayload alloc 1 SIZEOF_TIMEZONE (s, -1, tv, tz) fun va_tz =>
    thread_rpc_cmd rpc s [zeroed va_tv SIZEOF_TIMEVAL, zeroed va_tz SIZEOF_TIMEZONE]
      [THREAD_PARAM_VALUE .INOUT (OPTEE_VFS .GETTIMEOFDAY) 0 0, THREAD_PARAM_MEMREF .IN (some 0),
        THREAD_PARAM_MEMREF .IN (some 1)]
      fun s shm val0 => (s, low val0.b, (shm[0]?.getD []).take SIZEOF_TIMEVAL,
        tz.map fun _ => (shm[1]?.getD []).take SIZEOF_TIMEZONE)

def syscall_vfs_fcntl_void (s : σ) (fd cmd : BitVec 32) : σ × BitVec 32 :=
  asInt (valueCall rpc .FCNTL_VOID s (sext fd) (sext cmd) 0)

def syscall_vfs_fcntl_int (s : σ) (fd cmd pa : BitVec 32) : σ × BitVec 32 :=
  asInt (valueCall rpc .FCNTL_INT s (sext fd) (sext cmd) (sext pa))

/-- The caller's structure is not copied in. After a failed allocation the copy out is
from a pointer that is not set, no result. -/
def syscall_vfs_fcntl_flock (s : σ) (fd cmd : BitVec 32) : Option (σ × BitVec 32 × Bytes) :=
  withPayload alloc 0 SIZEOF_FLOCK none fun va_flock =>
    thread_rpc_cmd rpc s [zeroed va_flock SIZEOF_FLOCK]
      [THREAD_PARAM_VALUE .INOUT (OPTEE_VFS .FCNTL_FLOCK) 0 0,
        THREAD_PARAM_VALUE .IN (sext fd) (sext cmd) 0, THREAD_PARAM_MEMREF .IN (some 0)]
      fun s shm val0 => some (s, low val0.b, (shm[0]?.getD []).take SIZEOF_FLOCK)

/-- `times` is a pointer, and its size is that of a pointer. -/
def syscall_vfs_utimes (s : σ) (filename : CStr) (times : Bytes) : σ × BitVec 32 :=
  let times_size := 8
  withPayload alloc 0 filename.mem.length (s, -1) fun va_filename =>
  withPayload alloc 1 times_size (s, -1) fun va_times =>
    thread_rpc_cmd rpc s [splice (zeroed va_filename filename.mem.length) 0 filename.mem,
        splice (zeroed va_times times_size) 0 (times.take times_size)]
      [THREAD_PARAM_VALUE .INOUT (OPTEE_VFS .UTIMES) 0 0, THREAD_PARAM_MEMREF .IN (some 0),
        THREAD_PARAM_MEMREF .IN (some 1)]
      fun s _ val0 => (s, low val0.b)

/-- The result passes through an `int`, of which the four bytes go to `*t`. -/
def syscall_vfs_time (s : σ) (t : Option Bytes) : σ × BitVec 64 × Option Bytes :=
  thread_rpc_cmd rpc s [] [THREAD_PARAM_VALUE .INOUT (OPTEE_VFS .TIME) 0 0]
    fun s _ val0 => (s, sext (low val0.b), t.map (splice · 0 (intBytes (low val0.b))))

def syscall_vfs_usleep (s : σ) (usec : BitVec 64) : σ :=
  (valueCall rpc .USLEEP s usec 0 0).1

def syscall_vfs_filesize (s : σ) (fd : BitVec 32) : σ × BitVec 64 :=
  valueCall rpc .FILESIZE s (sext fd) 0 0

end
end TeeSqlite
