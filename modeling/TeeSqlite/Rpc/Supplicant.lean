import TeeSqlite.Rpc.Message

/-! The normal side: the handlers of `tee_supplicant.c`, each around a call of the
C library. The answers of the operating system are a parameter. -/
namespace TeeSqlite
open ByteFile CTypes

/-- A call of the C library, with what its input pointers point to. -/
inductive LibcCall
  | open_ (path : CStr) (oflag arg1 : BitVec 32)
  | close (fd : BitVec 32)
  | access (name : CStr) (type : BitVec 32)
  | write (fd : BitVec 32) (data : Bytes)
  | getcwd (size : BitVec 64)
  | stat (file_name : CStr)
  | fstat (fd : BitVec 32)
  | mkdir (path : CStr) (mode : BitVec 32)
  | rmdir (path : CStr)
  | unlink (path : CStr)
  | ftruncate (fd : BitVec 32) (size : BitVec 64)
  | read (fd : BitVec 32) (nbytes : BitVec 64)
  | fchmod (fd mode : BitVec 32)
  | fchown (fd owner group : BitVec 32)
  | geteuid
  | getpid
  | getenv (name : CStr)
  | lseek (fd : BitVec 32) (offset : BitVec 64) (whence : BitVec 32)
  | fsync (fd : BitVec 32)
  | sleep (seconds : BitVec 32)
  | pread (fd : BitVec 32) (nbytes offset : BitVec 64)
  | pwrite (fd : BitVec 32) (data : Bytes) (offset : BitVec 64)
  | truncate (path : CStr) (size : BitVec 64)
  | gettimeofday
  | fcntl_void (fd cmd : BitVec 32)
  | fcntl_int (fd cmd pa : BitVec 32)
  | fcntl_flock (fd cmd : BitVec 32) (flock : Bytes)
  | utimes (filename : CStr) (times : Bytes)
  | time
  | usleep (usec : BitVec 64)
  deriving DecidableEq

/-- What a call gives. A result of 32 bits is the low half of `ret`, a pointer is not
NULL when `ret` is not 0. `out` is written through the buffer argument, `tz` through
the second one of `gettimeofday`; `env` is the string of `getenv`. -/
structure OsResult where
  ret : BitVec 64
  errno : BitVec 32
  out : Bytes
  tz : Bytes
  st_size : BitVec 64
  env : Option CStr

/-- The sizes of `struct stat` (AArch64) and of `struct timeval[2]`. -/
def SIZEOF_STAT : Nat := 128
def SIZEOF_TIMES : Nat := 32

/-- A result converted to `uint64_t` from `int`, `unsigned int` or a 64-bit type. -/
def OsResult.int (r : OsResult) : BitVec 64 := sext (low r.ret)
def OsResult.uint (r : OsResult) : BitVec 64 := zext (low r.ret)

def get_value (params : List ThreadParam) (idx : Nat) : Option ParamValue :=
  match params[idx]? with
  | some (.value _ v) => some v
  | _ => none

/-- A place in a shared block. -/
structure ShmPtr where
  id : Nat
  offs : Nat

namespace Request

def find_tshm (m : Request) (id : Option Nat) : Option (Nat × Bytes) :=
  id.bind fun i => m.shm[i]?.map fun block => (i, block)

/-- The buffer of a parameter; NULL when the block is not found and the reference is
not of an input. -/
def get_param (m : Request) (idx : Nat) : Option (Option ShmPtr) :=
  match m.params[idx]? with
  | some (.memref dir id offs size) =>
    match m.find_tshm id with
    | none => if dir = .IN then none else some none
    | some (i, block) =>
      if 2 ^ 64 ≤ size + offs ∨ block.length < size + offs then none else some (some ⟨i, offs⟩)
  | _ => none

def tee_supp_param_to_va (m : Request) (idx : Nat) : Option ShmPtr :=
  match m.params[idx]? with
  | some (.memref _ id offs size) =>
    match m.find_tshm id with
    | none => none
    | some (i, block) =>
      if 2 ^ 64 ≤ size + offs ∨ block.length < size + offs then none else some ⟨i, offs⟩
  | _ => none

/-- The bytes from a pointer to the end of its block. -/
def bytes (m : Request) (p : ShmPtr) : Bytes := (m.shm[p.id]?.getD []).drop p.offs

/-- A call that writes `data` through a pointer; nothing is written to NULL. -/
def store (m : Request) (p : Option ShmPtr) (data : Bytes) : Request :=
  match p with
  | none => m
  | some p => { m with shm := m.shm.modify p.id (splice · p.offs data) }

/-- `val0->b = b; val0->c = c`. -/
def answer (m : Request) (b c : BitVec 64) : Request :=
  match m.params with
  | .value dir v :: rest => { m with params := .value dir { v with b, c } :: rest }
  | _ => m

/-- What the checks of a handler have set: a value, a buffer. -/
def val (m : Request) (idx : Nat) : ParamValue := (get_value m.params idx).getD ⟨0, 0, 0⟩
def buffer (m : Request) (idx : Nat) : Option ShmPtr := (m.get_param idx).getD none

/-- The string or the `n` bytes that a pointer to shared memory leads to. -/
def string (m : Request) (idx : Nat) : Option CStr :=
  (m.tee_supp_param_to_va idx).bind fun p => strAt (m.bytes p)
def data (m : Request) (p : Option ShmPtr) (n : Nat) : Option Bytes :=
  p.bind fun p => if n ≤ (m.bytes p).length then some ((m.bytes p).take n) else none

end Request

/-- What became of a request: the handler that got it, its calls of the C library, and
the reply with its status. No reply is a handler that crashed. -/
structure Handled where
  handler : Option VfsOp
  libc : List LibcCall
  reply : Option (Request × TEEC_Result)

def Handled.crash (op : VfsOp) : Handled := ⟨some op, [], none⟩

/-- The checks that a handler starts with: the number of parameters, the value
parameters and the buffers it asks for. -/
def checked (op : VfsOp) (m : Request) (num_params : Nat) (values buffers : List Nat)
    (bad : TEEC_Result) (body : Handled) : Handled :=
  if m.params.length = num_params ∧ (values.all fun i => (get_value m.params i).isSome) ∧
      buffers.all fun i => (m.get_param i).isSome then body
  else ⟨some op, [], some (m, bad)⟩

/-- An argument read from shared memory. One that is not there, the pointer being NULL
or its block too short, counts as a crash; only `utimes` sends such a block. -/
def fetched {α : Type} (op : VfsOp) (arg : Option α) (body : α → Handled) : Handled :=
  match arg with
  | none => .crash op
  | some x => body x

section
variable (os : LibcCall → OsResult)

/-- One call, answered with its result and `errno`. -/
def called (op : VfsOp) (m : Request) (call : LibcCall) (b : BitVec 64) : Handled :=
  ⟨some op, [call], some (m.answer b (sext (os call).errno), TEEC_SUCCESS)⟩

def vfs_open (m : Request) : Handled :=
  checked .OPEN m 3 [0, 2] [] TEEC_ERROR_BAD_PARAMETERS <| fetched .OPEN (m.string 1) fun path =>
    let call := .open_ path (low (m.val 2).a) (low (m.val 2).b)
    called os .OPEN m call (os call).int

def vfs_close (m : Request) : Handled :=
  checked .CLOSE m 2 [0, 1] [] TEEC_ERROR_BAD_PARAMETERS <|
    let call := .close (low (m.val 1).a)
    called os .CLOSE m call (os call).int

def vfs_access (m : Request) : Handled :=
  checked .ACCESS m 3 [0, 1] [] TEEC_ERROR_BAD_PARAMETERS <|
  fetched .ACCESS (m.string 2) fun name =>
    let call := .access name (low (m.val 1).a)
    called os .ACCESS m call (os call).int

def vfs_write (m : Request) : Handled :=
  checked .WRITE m 3 [0, 1] [] TEEC_ERROR_BAD_PARAMETERS <|
  fetched .WRITE (m.data (m.tee_supp_param_to_va 2) (m.val 1).b.toNat) fun write_data =>
    let call := .write (low (m.val 1).a) write_data
    called os .WRITE m call (os call).ret

/-- The pointer returned is only printed: `b` stays as it was. -/
def vfs_getcwd (m : Request) : Handled :=
  checked .GETCWD m 3 [2, 0] [1] TEEC_ERROR_BAD_PARAMETERS <|
    let size := (m.val 2).a
    let call := .getcwd size
    called os .GETCWD (m.store (m.buffer 1) ((os call).out.take size.toNat)) call (m.val 0).b

def vfs_stat (m : Request) : Handled :=
  checked .STAT m 3 [0] [2] TEEC_ERROR_BAD_PARAMETERS <|
  fetched .STAT (m.string 1) fun file_name =>
    let call := .stat file_name
    called os .STAT (m.store (m.buffer 2) ((os call).out.take SIZEOF_STAT)) call (os call).int

/-- `fstat` is called twice, the second time into a local. -/
def vfs_fstat (m : Request) : Handled :=
  checked .FSTAT m 3 [0, 1] [2] TEEC_ERROR_BAD_PARAMETERS <|
    let call := .fstat (low (m.val 1).a)
    let m := m.store (m.buffer 2) ((os call).out.take SIZEOF_STAT)
    ⟨some .FSTAT, [call, call], some (m.answer (os call).int (os call).st_size, TEEC_SUCCESS)⟩

def vfs_mkdir (m : Request) : Handled :=
  checked .MKDIR m 3 [0, 2] [] TEEC_ERROR_BAD_PARAMETERS <| fetched .MKDIR (m.string 1) fun path =>
    let call := .mkdir path (low (m.val 2).a)
    called os .MKDIR m call (os call).int

def vfs_rmdir (m : Request) : Handled :=
  checked .RMDIR m 2 [0] [] TEEC_ERROR_BAD_PARAMETERS <| fetched .RMDIR (m.string 1) fun path =>
    let call := .rmdir path
    called os .RMDIR m call (os call).int

def vfs_unlink (m : Request) : Handled :=
  checked .UNLINK m 2 [0] [] TEEC_ERROR_BAD_PARAMETERS <| fetched .UNLINK (m.string 1) fun path =>
    let call := .unlink path
    called os .UNLINK m call (os call).int

def vfs_ftruncate (m : Request) : Handled :=
  checked .FTRUNCATE m 2 [0, 1] [] TEEC_ERROR_BAD_PARAMETERS <|
    let call := .ftruncate (low (m.val 1).a) (m.val 1).b
    called os .FTRUNCATE m call (os call).int

def vfs_read (m : Request) : Handled :=
  checked .READ m 3 [0, 2] [1] TEEC_ERROR_BAD_PARAMETERS <|
    let nbytes := (m.val 2).b
    let call := .read (low (m.val 2).a) nbytes
    called os .READ (m.store (m.buffer 1) ((os call).out.take nbytes.toNat)) call (os call).ret

def vfs_fchmod (m : Request) : Handled :=
  checked .FCHMOD m 2 [0, 1] [] TEEC_ERROR_BAD_PARAMETERS <|
    let call := .fchmod (low (m.val 1).a) (low (m.val 1).b)
    called os .FCHMOD m call (os call).int

def vfs_fchown (m : Request) : Handled :=
  checked .FCHOWN m 2 [0, 1] [] TEEC_ERROR_BAD_PARAMETERS <|
    let call := .fchown (low (m.val 1).a) (low (m.val 1).b) (low (m.val 1).c)
    called os .FCHOWN m call (os call).int

def vfs_geteuid (m : Request) : Handled :=
  checked .GETEUID m 1 [0] [] TEEC_ERROR_BAD_PARAMETERS <|
    called os .GETEUID m .geteuid (os .geteuid).uint

def vfs_getpid (m : Request) : Handled :=
  checked .GETPID m 1 [0] [] TEEC_ERROR_BAD_PARAMETERS <|
    called os .GETPID m .getpid (os .getpid).int

/-- Without a buffer only the length is answered. A variable that is not set is a
NULL that `strlen` follows; a length that is negative as an `int` is one that
`memcpy` cannot copy. -/
def vfs_getenv (m : Request) : Handled :=
  checked .GETENV m 3 [0] [2] TEEC_ERROR_BAD_PARAMETERS <|
  fetched .GETENV (m.string 1) fun name =>
    let call := .getenv name
    match (os call).env with
    | none => ⟨some .GETENV, [call], none⟩
    | some ret =>
      let len := BitVec.ofNat 32 (ret.bytes.length + 1)
      let m' := m.answer (sext len) (m.val 0).c
      match m.buffer 2 with
      | none => ⟨some .GETENV, [call], some (m', TEEC_ERROR_SHORT_BUFFER)⟩
      | some p =>
        if len.toInt < 0 then ⟨some .GETENV, [call], none⟩
        else
          ⟨some .GETENV, [call], some (m'.store (some p) (ret.mem.take len.toNat), TEEC_SUCCESS)⟩

def vfs_lseek (m : Request) : Handled :=
  checked .LSEEK m 2 [0, 1] [] TEEC_ERROR_BAD_PARAMETERS <|
    let call := .lseek (low (m.val 1).a) (m.val 1).b (low (m.val 1).c)
    called os .LSEEK m call (os call).ret

def vfs_fsync (m : Request) : Handled :=
  checked .FSYNC m 2 [0, 1] [] TEEC_ERROR_BAD_PARAMETERS <|
    let call := .fsync (low (m.val 1).a)
    called os .FSYNC m call (os call).int

def vfs_sleep (m : Request) : Handled :=
  checked .SLEEP m 2 [0, 1] [] TEEC_ERROR_BAD_PARAMETERS <|
    let call := .sleep (low (m.val 1).a)
    called os .SLEEP m call (os call).uint

def vfs_pread (m : Request) : Handled :=
  checked .PREAD m 3 [0, 2] [1] TEEC_ERROR_BAD_PARAMETERS <|
    let nbytes := (m.val 2).b
    let call := .pread (low (m.val 2).a) nbytes (m.val 2).c
    called os .PREAD (m.store (m.buffer 1) ((os call).out.take nbytes.toNat)) call (os call).ret

/-- Only `val0` is set, from parameter 1, and the NULL in `val1` is followed. -/
def vfs_pwrite (m : Request) : Handled :=
  checked .PWRITE m 3 [1] [] TEEC_ERROR_BAD_PARAMETERS <| .crash .PWRITE

def vfs_truncate (m : Request) : Handled :=
  checked .TRUNCATE m 3 [0, 2] [] TEEC_ERROR_BAD_PARAMETERS <|
  fetched .TRUNCATE (m.string 1) fun path =>
    let call := .truncate path (m.val 2).a
    called os .TRUNCATE m call (os call).int

def vfs_getdayoftime (m : Request) : Handled :=
  checked .GETTIMEOFDAY m 3 [0] [1, 2] TEEC_ERROR_BAD_PARAMETERS <|
    let r := os .gettimeofday
    let m' := (m.store (m.buffer 1) (r.out.take SIZEOF_TIMEVAL)).store (m.buffer 2)
      (r.tz.take SIZEOF_TIMEZONE)
    called os .GETTIMEOFDAY m' .gettimeofday r.int

def vfs_fcntl_void (m : Request) : Handled :=
  checked .FCNTL_VOID m 2 [0, 1] [] TEEC_ERROR_BAD_PARAMETERS <|
    let call := .fcntl_void (low (m.val 1).a) (low (m.val 1).b)
    called os .FCNTL_VOID m call (os call).int

def vfs_fcntl_int (m : Request) : Handled :=
  checked .FCNTL_INT m 2 [0, 1] [] TEEC_ERROR_BAD_PARAMETERS <|
    let call := .fcntl_int (low (m.val 1).a) (low (m.val 1).b) (low (m.val 1).c)
    called os .FCNTL_INT m call (os call).int

/-- The structure is read and written in the shared block. -/
def vfs_fcntl_flock (m : Request) : Handled :=
  checked .FCNTL_FLOCK m 3 [0, 1] [2] TEEC_ERROR_BAD_FORMAT <|
  fetched .FCNTL_FLOCK (m.data (m.buffer 2) SIZEOF_FLOCK) fun flock =>
    let call := .fcntl_flock (low (m.val 1).a) (low (m.val 1).b) flock
    called os .FCNTL_FLOCK (m.store (m.buffer 2) ((os call).out.take SIZEOF_FLOCK)) call
      (os call).int

/-- `times` is an array of two in the shared block. -/
def vfs_utimes (m : Request) : Handled :=
  checked .UTIMES m 3 [0] [] TEEC_ERROR_BAD_PARAMETERS <|
  fetched .UTIMES (m.string 1) fun filename =>
  fetched .UTIMES (m.data (m.tee_supp_param_to_va 2) SIZEOF_TIMES) fun times =>
    let call := .utimes filename times
    called os .UTIMES m call (os call).int

def vfs_time (m : Request) : Handled :=
  checked .TIME m 1 [0] [] TEEC_ERROR_BAD_PARAMETERS <| called os .TIME m .time (os .time).ret

/-- `usleep` takes 32 bits of the 64. The result is not looked at: `b` stays as it was. -/
def vfs_usleep (m : Request) : Handled :=
  checked .USLEEP m 2 [0, 1] [] TEEC_ERROR_BAD_PARAMETERS <|
    called os .USLEEP m (.usleep (zext (low (m.val 1).a))) (m.val 0).b

def vfs_filesize (m : Request) : Handled :=
  checked .FILESIZE m 2 [0, 1] [] TEEC_ERROR_BAD_PARAMETERS <|
    let call := .fstat (low (m.val 1).a)
    called os .FILESIZE m call (if low (os call).ret ≠ -1 then (os call).st_size else -1)

/-- The operation with a number. -/
def opOf (a : BitVec 64) : Option VfsOp :=
  [VfsOp.OPEN, .CLOSE, .ACCESS, .GETCWD, .STAT, .WRITE, .READ, .FCHMOD, .FCHOWN, .MKDIR, .RMDIR,
    .UNLINK, .FTRUNCATE, .GETEUID, .GETPID, .GETENV, .LSEEK, .FSYNC, .SLEEP, .PREAD, .GETTIMEOFDAY,
    .PWRITE, .TRUNCATE, .FSTAT, .FCNTL_VOID, .FCNTL_INT, .FCNTL_FLOCK, .UTIMES, .TIME, .USLEEP,
    .FILESIZE].find? (OPTEE_VFS · = a)

def tee_supp_vfs_process (m : Request) : Handled :=
  match opOf (value0 m.params).a with
  | some .OPEN => vfs_open os m
  | some .CLOSE => vfs_close os m
  | some .ACCESS => vfs_access os m
  | some .GETCWD => vfs_getcwd os m
  | some .STAT => vfs_stat os m
  | some .WRITE => vfs_write os m
  | some .MKDIR => vfs_mkdir os m
  | some .RMDIR => vfs_rmdir os m
  | some .UNLINK => vfs_unlink os m
  | some .FTRUNCATE => vfs_ftruncate os m
  | some .READ => vfs_read os m
  | some .FCHMOD => vfs_fchmod os m
  | some .FCHOWN => vfs_fchown os m
  | some .GETEUID => vfs_geteuid os m
  | some .GETPID => vfs_getpid os m
  | some .GETENV => vfs_getenv os m
  | some .LSEEK => vfs_lseek os m
  | some .FSYNC => vfs_fsync os m
  | some .SLEEP => vfs_sleep os m
  | some .GETTIMEOFDAY => vfs_getdayoftime os m
  | some .PWRITE => vfs_pwrite m
  | some .PREAD => vfs_pread os m
  | some .TRUNCATE => vfs_truncate os m
  | some .FSTAT => vfs_fstat os m
  | some .FCNTL_VOID => vfs_fcntl_void os m
  | some .FCNTL_INT => vfs_fcntl_int os m
  | some .FCNTL_FLOCK => vfs_fcntl_flock os m
  | some .UTIMES => vfs_utimes os m
  | some .TIME => vfs_time os m
  | some .USLEEP => vfs_usleep os m
  | some .FILESIZE => vfs_filesize os m
  | none => ⟨none, [], some (m, TEEC_ERROR_NOT_SUPPORTED)⟩

/-- The normal world as the secure side sees it, with a record of the requests, the
latest first. When the supplicant dies its request is completed with an error. -/
def supplicant : RpcCmd (List Handled) := fun requests m =>
  let handled := tee_supp_vfs_process os m
  let (m, result) := handled.reply.getD (m, TEEC_ERROR_COMMUNICATION)
  (handled :: requests, m, result)

end
end TeeSqlite
