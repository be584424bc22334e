import TeeSqlite.Lib.CTypes

/-! The messages between the two worlds: a request is a list of parameters, whose
memory references name shared blocks. The block number `i` has the id `i`. -/
namespace TeeSqlite
open ByteFile CTypes

/-- The operations; the numbers are the same in `vfs.h` and `optee_msg_supplicant.h`. -/
inductive VfsOp
  | OPEN | CLOSE | ACCESS | GETCWD | STAT | WRITE | READ | FCHMOD | FCHOWN | MKDIR | RMDIR
  | UNLINK | FTRUNCATE | GETEUID | GETPID | GETENV | LSEEK | FSYNC | SLEEP | PREAD | GETTIMEOFDAY
  | PWRITE | TRUNCATE | FSTAT | FCNTL_VOID | FCNTL_INT | FCNTL_FLOCK | UTIMES | TIME | USLEEP
  | FILESIZE
  deriving DecidableEq

def OPTEE_VFS : VfsOp → BitVec 64
  | .OPEN => 0 | .CLOSE => 1 | .ACCESS => 2 | .GETCWD => 3 | .STAT => 4 | .WRITE => 5 | .READ => 6
  | .FCHMOD => 7 | .FCHOWN => 8 | .MKDIR => 9 | .RMDIR => 10 | .UNLINK => 11 | .FTRUNCATE => 12
  | .GETEUID => 13 | .GETPID => 14 | .GETENV => 15 | .LSEEK => 16 | .FSYNC => 17 | .SLEEP => 18
  | .PREAD => 19 | .GETTIMEOFDAY => 20 | .PWRITE => 21 | .TRUNCATE => 22 | .FSTAT => 23
  | .FCNTL_VOID => 24 | .FCNTL_INT => 25 | .FCNTL_FLOCK => 26 | .UTIMES => 27 | .TIME => 28
  | .USLEEP => 29 | .FILESIZE => 30

/-- The directions of a parameter. -/
inductive Dir
  | IN | OUT | INOUT
  deriving DecidableEq

/-- The three words of a value parameter. -/
structure ParamValue where
  a : BitVec 64
  b : BitVec 64
  c : BitVec 64
  deriving DecidableEq

/-- A memory reference without a block is one made from NULL. -/
inductive ThreadParam
  | value (dir : Dir) (v : ParamValue)
  | memref (dir : Dir) (id : Option Nat) (offs size : Nat)
  deriving DecidableEq

def THREAD_PARAM_VALUE (dir : Dir) (a b c : BitVec 64) : ThreadParam := .value dir ⟨a, b, c⟩

/-- Every reference of a wrapper has offset 0 and size 0. -/
def THREAD_PARAM_MEMREF (dir : Dir) (id : Option Nat) : ThreadParam := .memref dir id 0 0

/-- The words of parameter 0. -/
def value0 : List ThreadParam → ParamValue
  | .value _ v :: _ => v
  | _ => ⟨0, 0, 0⟩

abbrev TEEC_Result := BitVec 32

def TEEC_SUCCESS : TEEC_Result := 0
def TEEC_ERROR_BAD_FORMAT : TEEC_Result := 0xFFFF0005
def TEEC_ERROR_BAD_PARAMETERS : TEEC_Result := 0xFFFF0006
def TEEC_ERROR_NOT_SUPPORTED : TEEC_Result := 0xFFFF000A
def TEEC_ERROR_COMMUNICATION : TEEC_Result := 0xFFFF000E
def TEEC_ERROR_SHORT_BUFFER : TEEC_Result := 0xFFFF0010

/-- The sizes of `struct timeval`, `struct timezone` and `struct flock`, the same on both
sides. -/
def SIZEOF_TIMEVAL : Nat := 16
def SIZEOF_TIMEZONE : Nat := 8
def SIZEOF_FLOCK : Nat := 32

/-- A request as it arrives, with the shared blocks. -/
structure Request where
  shm : List Bytes
  params : List ThreadParam

/-- `OPTEE_RPC_CMD_VFS` over a state of the normal world: the blocks and the
parameters come back with a status. -/
abbrev RpcCmd (σ : Type) := σ → Request → σ × Request × TEEC_Result

/-- What `thread_rpc_alloc_payload` gives for the allocation number `i` of a call, of
`n` bytes: NULL or a block with any contents. -/
abbrev AllocPayload := Nat → Nat → Option Bytes

end TeeSqlite
