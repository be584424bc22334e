import TeeSqlite.Rpc.Supplicant

/-! The handlers of `tee_supplicant.c` as the pointers see them: which slots they read,
which pointers they follow, and what they hand to the C library. A request is an array
of slots with attributes, and the shared regions are those in the list. -/
namespace TeeSqlite.Traced
open CTypes

/-- `struct tee_ioctl_param`: a value, or the offset, size and id of a memory reference. -/
structure Param where
  attr : BitVec 64
  a : BitVec 64
  b : BitVec 64
  c : BitVec 64

/-- A node of `shm_head`. -/
structure TeeShm where
  id : BitVec 32
  size : BitVec 64
  deriving DecidableEq

def TEE_IOCTL_PARAM_ATTR_TYPE_MASK : BitVec 64 := 0xff
def TEE_IOCTL_PARAM_ATTR_TYPE_VALUE_INPUT : BitVec 64 := 1
def TEE_IOCTL_PARAM_ATTR_TYPE_VALUE_OUTPUT : BitVec 64 := 2
def TEE_IOCTL_PARAM_ATTR_TYPE_VALUE_INOUT : BitVec 64 := 3
def TEE_IOCTL_PARAM_ATTR_TYPE_MEMREF_INPUT : BitVec 64 := 5
def TEE_IOCTL_PARAM_ATTR_TYPE_MEMREF_OUTPUT : BitVec 64 := 6
def TEE_IOCTL_PARAM_ATTR_TYPE_MEMREF_INOUT : BitVec 64 := 7

namespace Param

def type (p : Param) : BitVec 64 := p.attr &&& TEE_IOCTL_PARAM_ATTR_TYPE_MASK

def IsValue (p : Param) : Prop :=
  p.type = TEE_IOCTL_PARAM_ATTR_TYPE_VALUE_INPUT ∨
    p.type = TEE_IOCTL_PARAM_ATTR_TYPE_VALUE_OUTPUT ∨
    p.type = TEE_IOCTL_PARAM_ATTR_TYPE_VALUE_INOUT

def IsMemref (p : Param) : Prop :=
  p.type = TEE_IOCTL_PARAM_ATTR_TYPE_MEMREF_INPUT ∨
    p.type = TEE_IOCTL_PARAM_ATTR_TYPE_MEMREF_OUTPUT ∨
    p.type = TEE_IOCTL_PARAM_ATTR_TYPE_MEMREF_INOUT

instance (p : Param) : Decidable p.IsValue := inferInstanceAs (Decidable (_ ∨ _))
instance (p : Param) : Decidable p.IsMemref := inferInstanceAs (Decidable (_ ∨ _))

def shmOffs (p : Param) : Nat := p.a.toNat
def size (p : Param) : Nat := p.b.toNat
def shmId (p : Param) : BitVec 32 := low p.c

end Param

/-- An address in a region. A pointer that may be NULL is an `Option` of one. -/
structure Va where
  shm : TeeShm
  offs : Nat
  deriving DecidableEq

/-- A call of the C library with the pointers it gets. `fstat_local` is the `fstat` into
a local variable. -/
inductive LibcCall
  | open_ (path : Option Va) (oflag arg1 : BitVec 32)
  | close (fd : BitVec 32)
  | access (name : Option Va) (type : BitVec 32)
  | write (fd : BitVec 32) (write_data : Option Va) (n : BitVec 64)
  | getcwd (buffer : Option Va) (size : BitVec 64)
  | stat (file_name buffer : Option Va)
  | fstat (fd : BitVec 32) (buffer : Option Va)
  | fstat_local (fd : BitVec 32)
  | mkdir (path : Option Va) (mode : BitVec 32)
  | rmdir (path : Option Va)
  | unlink (path : Option Va)
  | ftruncate (fd : BitVec 32) (size : BitVec 64)
  | read (fd : BitVec 32) (buffer : Option Va) (nbytes : BitVec 64)
  | fchmod (fd mode : BitVec 32)
  | fchown (fd owner group : BitVec 32)
  | geteuid
  | getpid
  | getenv (name : Option Va)
  | lseek (fd : BitVec 32) (offset : BitVec 64) (whence : BitVec 32)
  | fsync (fd : BitVec 32)
  | sleep (seconds : BitVec 32)
  | pread (fd : BitVec 32) (buffer : Option Va) (nbytes offset : BitVec 64)
  | pwrite (fd : BitVec 32) (write_data : Option Va) (n offset : BitVec 64)
  | truncate (path : Option Va) (size : BitVec 64)
  | gettimeofday (tv tz : Option Va)
  | fcntl_void (fd cmd : BitVec 32)
  | fcntl_int (fd cmd pa : BitVec 32)
  | fcntl_flock (fd cmd : BitVec 32) (flock : Option Va)
  | utimes (filename times : Option Va)
  | time
  | usleep (usec : BitVec 32)
  deriving DecidableEq

namespace LibcCall

/-- The calls that are no operation on files. -/
def OnFiles : LibcCall → Prop
  | geteuid | getpid | getenv _ | sleep _ | gettimeofday _ _ | time | usleep _ => False
  | _ => True

/-- The C library itself reads the name that `getenv` gets. -/
def hasName : LibcCall → Bool
  | getenv name => name.isSome
  | _ => true

/-- The buffers with their sizes. Strings go without one. -/
def buffers : LibcCall → List (Option Va × Nat)
  | write _ write_data n => [(write_data, n.toNat)]
  | getcwd buffer size => [(buffer, size.toNat)]
  | stat _ buffer | fstat _ buffer => [(buffer, SIZEOF_STAT)]
  | read _ buffer nbytes => [(buffer, nbytes.toNat)]
  | pread _ buffer nbytes _ => [(buffer, nbytes.toNat)]
  | pwrite _ write_data n _ => [(write_data, n.toNat)]
  | gettimeofday tv tz => [(tv, SIZEOF_TIMEVAL), (tz, SIZEOF_TIMEZONE)]
  | fcntl_flock _ _ flock => [(flock, SIZEOF_FLOCK)]
  | utimes _ times => [(times, SIZEOF_TIMES)]
  | _ => []

end LibcCall

/-- What a handler does: it reads a slot, follows a `param_value` pointer (to the slot it
was set to, or NULL), calls the library, takes the length of a string of the environment
or copies from one. -/
inductive Event
  | slot (idx : Nat)
  | value (p : Option Nat)
  | libc (call : LibcCall)
  | strlen (s : Option CStr)
  | memcpy (dst : Option Va) (src : Option CStr) (n : BitVec 64)
  deriving DecidableEq

/-- What has become of a request: the slots, what was done, the latest first, and the
status, which a handler that crashed has not. -/
structure Outcome where
  params : Nat → Param
  trace : List Event
  status : Option TEEC_Result

/-- A handler, or the rest of one, from the slots and what was done before. -/
abbrev Handler := (Nat → Param) → List Event → Outcome

def ret (status : TEEC_Result) : Handler := fun params trace => ⟨params, trace, some status⟩

def crash : Handler := fun params trace => ⟨params, trace, none⟩

def emit (e : Event) (rest : Handler) : Handler := fun params trace => rest params (e :: trace)

/-- The words that a `param_value` pointer leads to. -/
def load (p : Option Nat) (rest : Param → Handler) : Handler :=
  emit (.value p) <|
    match p with
    | none => crash
    | some i => fun params => rest (params i) params

/-- An assignment to words that a `param_value` pointer leads to. -/
def store (p : Option Nat) (words : Param → Param) (rest : Handler) : Handler :=
  emit (.value p) <|
    match p with
    | none => crash
    | some i => fun params => rest fun j => if j = i then words (params i) else params j

def setB (b : BitVec 64) (p : Param) : Param := { p with b }
def setC (c : BitVec 64) (p : Param) : Param := { p with c }
def setBC (b c : BitVec 64) (p : Param) : Param := { p with b, c }

def Event.call? : Event → Option LibcCall
  | .libc call => some call
  | _ => none

/-- The calls of a trace, the latest first. -/
def calls (trace : List Event) : List LibcCall := trace.filterMap Event.call?

section
variable (num_params : Nat) (shms : List TeeShm) (os : List LibcCall → OsResult)

/-- The answer of the library depends on all the calls made so far. -/
def libc (call : LibcCall) (rest : OsResult → Handler) : Handler := fun params trace =>
  let trace := .libc call :: trace
  if call.hasName then rest (os (calls trace)) params trace else ⟨params, trace, none⟩

def find_tshm (id : BitVec 32) : Option TeeShm := shms.find? fun tshm => tshm.id = id

/-- The end of a reference is computed modulo 2^64, and must not be before its size. -/
def Fits (p : Param) (tshm : TeeShm) : Prop :=
  p.size + p.shmOffs < 2 ^ 64 ∧ p.size + p.shmOffs ≤ tshm.size.toNat

instance (p : Param) (tshm : TeeShm) : Decidable (Fits p tshm) :=
  inferInstanceAs (Decidable (_ ∧ _))

/-- The buffer of a slot, or a failure: NULL when the region is not found and the
reference is not of an input. -/
def get_param (p : Param) : Option (Option Va) :=
  if p.IsMemref then
    match find_tshm shms p.shmId with
    | none => if p.type = TEE_IOCTL_PARAM_ATTR_TYPE_MEMREF_INPUT then none else some none
    | some tshm => if Fits p tshm then some (some ⟨tshm, p.shmOffs⟩) else none
  else none

def param_to_va (p : Param) : Option Va :=
  if p.IsMemref then
    match find_tshm shms p.shmId with
    | none => none
    | some tshm => if Fits p tshm then some ⟨tshm, p.shmOffs⟩ else none
  else none

/-- The slot is read whatever `num_params` is. -/
def tee_supp_param_to_va (idx : Nat) (rest : Option Va → Handler) : Handler :=
  emit (.slot idx) fun params => rest (param_to_va shms (params idx)) params

/-- A check at the start of a handler: `get_value` of a slot into the variable `val<var>`,
or `get_param` of a slot. -/
inductive Check
  | value (idx var : Nat)
  | memref (idx : Nat)

namespace Check

def idx : Check → Nat
  | value idx _ => idx
  | memref idx => idx

def Passes (params : Nat → Param) : Check → Prop
  | value idx _ => idx < num_params ∧ (params idx).IsValue
  | memref idx => idx < num_params ∧ (get_param shms (params idx)).isSome

instance (params : Nat → Param) (c : Check) : Decidable (c.Passes num_params shms params) := by
  cases c <;> exact inferInstanceAs (Decidable (_ ∧ _))

end Check

/-- The variables of a handler: where each `val` points, NULL when it is not set, and
the buffer of each reference that was asked for. -/
structure Locals where
  val : Nat → Option Nat
  buffer : Nat → Option Va

def Locals.unset : Locals := ⟨fun _ => none, fun _ => none⟩

/-- What a check that passes sets. -/
def Locals.assign (params : Nat → Param) (l : Locals) : Check → Locals
  | .value idx var => { l with val := fun v => if v = var then some idx else l.val v }
  | .memref idx => { l with buffer := fun i =>
      if i = idx then (get_param shms (params idx)).getD none else l.buffer i }

/-- The checks one after the other up to the first that fails. A slot that is not there
is not read. -/
def runChecks (failed : Handler) (passed : Locals → Handler) : List Check → Locals → Handler
  | [], l => passed l
  | c :: checks, l => fun params trace =>
    let trace := if c.idx < num_params then .slot c.idx :: trace else trace
    if c.Passes num_params shms params then
      runChecks failed passed checks (l.assign shms params c) params trace
    else failed params trace

/-- The number of parameters, the checks, and what the handler does when they pass. -/
def checked (num : Nat) (checks : List Check) (bad : TEEC_Result) (body : Locals → Handler) :
    Handler :=
  if num_params ≠ num then ret bad
  else runChecks num_params shms (ret bad) body checks .unset

/-- A call that is answered with its result and `errno` in `val0`. -/
def called (l : Locals) (call : LibcCall) (b : OsResult → BitVec 64) : Handler :=
  libc os call fun r => store (l.val 0) (setBC (b r) (sext r.errno)) (ret TEEC_SUCCESS)

/-- A call on the values in `val1`. -/
def valuesCall (call : Param → LibcCall) (b : OsResult → BitVec 64) : Handler :=
  checked num_params shms 2 [.value 0 0, .value 1 1] TEEC_ERROR_BAD_PARAMETERS fun l =>
    load (l.val 1) fun val1 => called os l (call val1) b

/-- A call without arguments. -/
def plainCall (call : LibcCall) (b : OsResult → BitVec 64) : Handler :=
  checked num_params shms 1 [.value 0 0] TEEC_ERROR_BAD_PARAMETERS fun l => called os l call b

/-- A call on the path in slot 1. -/
def pathCall (call : Option Va → LibcCall) : Handler :=
  checked num_params shms 2 [.value 0 0] TEEC_ERROR_BAD_PARAMETERS fun l =>
    tee_supp_param_to_va shms 1 fun path => called os l (call path) OsResult.int

/-- A call on the path in slot 1 and the values in `val2`. -/
def pathValueCall (call : Option Va → Param → LibcCall) : Handler :=
  checked num_params shms 3 [.value 0 0, .value 2 2] TEEC_ERROR_BAD_PARAMETERS fun l =>
    tee_supp_param_to_va shms 1 fun path =>
    load (l.val 2) fun val2 => called os l (call path val2) OsResult.int

/-- A call on the values in `val2` and the buffer of slot 1. -/
def readCall (call : Param → Option Va → LibcCall) : Handler :=
  checked num_params shms 3 [.memref 1, .value 0 0, .value 2 2] TEEC_ERROR_BAD_PARAMETERS fun l =>
    load (l.val 2) fun val2 => called os l (call val2 (l.buffer 1)) OsResult.ret

def vfs_open : Handler :=
  pathValueCall num_params shms os fun path val2 => .open_ path (low val2.a) (low val2.b)

def vfs_close : Handler :=
  valuesCall num_params shms os (fun val1 => .close (low val1.a)) OsResult.int

def vfs_access : Handler :=
  checked num_params shms 3 [.value 0 0, .value 1 1] TEEC_ERROR_BAD_PARAMETERS fun l =>
    tee_supp_param_to_va shms 2 fun name =>
    load (l.val 1) fun val1 => called os l (.access name (low val1.a)) OsResult.int

def vfs_write : Handler :=
  checked num_params shms 3 [.value 0 0, .value 1 1] TEEC_ERROR_BAD_PARAMETERS fun l =>
    tee_supp_param_to_va shms 2 fun write_data =>
    load (l.val 1) fun val1 => called os l (.write (low val1.a) write_data val1.b) OsResult.ret

/-- The pointer returned is only printed. -/
def vfs_getcwd : Handler :=
  checked num_params shms 3 [.value 2 2, .memref 1, .value 0 0] TEEC_ERROR_BAD_PARAMETERS fun l =>
    load (l.val 2) fun val2 =>
    libc os (.getcwd (l.buffer 1) val2.a) fun r =>
    store (l.val 0) (setC (sext r.errno)) (ret TEEC_SUCCESS)

def vfs_stat : Handler :=
  checked num_params shms 3 [.value 0 0, .memref 2] TEEC_ERROR_BAD_PARAMETERS fun l =>
    tee_supp_param_to_va shms 1 fun file_name =>
    called os l (.stat file_name (l.buffer 2)) OsResult.int

/-- `fstat` is called twice, the second time into a local. -/
def vfs_fstat : Handler :=
  checked num_params shms 3 [.value 0 0, .value 1 1, .memref 2] TEEC_ERROR_BAD_PARAMETERS fun l =>
    load (l.val 1) fun val1 =>
    libc os (.fstat (low val1.a) (l.buffer 2)) fun r =>
    store (l.val 0) (setB r.int) <|
    libc os (.fstat_local (low val1.a)) fun r =>
    store (l.val 0) (setBC r.int r.st_size) (ret TEEC_SUCCESS)

def vfs_mkdir : Handler :=
  pathValueCall num_params shms os fun path val2 => .mkdir path (low val2.a)

def vfs_rmdir : Handler := pathCall num_params shms os .rmdir

def vfs_unlink : Handler := pathCall num_params shms os .unlink

def vfs_ftruncate : Handler :=
  valuesCall num_params shms os (fun val1 => .ftruncate (low val1.a) val1.b) OsResult.int

def vfs_read : Handler :=
  readCall num_params shms os fun val2 buffer => .read (low val2.a) buffer val2.b

def vfs_fchmod : Handler :=
  valuesCall num_params shms os (fun val1 => .fchmod (low val1.a) (low val1.b)) OsResult.int

def vfs_fchown : Handler :=
  valuesCall num_params shms os (fun val1 => .fchown (low val1.a) (low val1.b) (low val1.c))
    OsResult.int

def vfs_geteuid : Handler := plainCall num_params shms os .geteuid OsResult.uint

def vfs_getpid : Handler := plainCall num_params shms os .getpid OsResult.int

/-- The length of a string and its NUL as an `int`. -/
def intLength (s : CStr) : BitVec 32 := BitVec.ofNat 32 (s.bytes.length + 1)

/-- `vfs_getenv` behind its checks. A copy of a negative length is one of 2^63 bytes or
more, which no block has. -/
def getenvBody (l : Locals) : Handler :=
  tee_supp_param_to_va shms 1 fun name =>
  libc os (.getenv name) fun r =>
  emit (.strlen r.env) <|
    match r.env with
    | none => crash
    | some value =>
      store (l.val 0) (setB (sext (intLength value))) <|
        match l.buffer 2 with
        | none => ret TEEC_ERROR_SHORT_BUFFER
        | some buffer =>
          emit (.memcpy (some buffer) (some value) (sext (intLength value))) <|
            if (intLength value).toInt < 0 then crash else ret TEEC_SUCCESS

def vfs_getenv : Handler :=
  checked num_params shms 3 [.value 0 0, .memref 2] TEEC_ERROR_BAD_PARAMETERS
    (getenvBody shms os)

def vfs_lseek : Handler :=
  valuesCall num_params shms os (fun val1 => .lseek (low val1.a) val1.b (low val1.c)) OsResult.ret

def vfs_fsync : Handler :=
  valuesCall num_params shms os (fun val1 => .fsync (low val1.a)) OsResult.int

def vfs_sleep : Handler :=
  valuesCall num_params shms os (fun val1 => .sleep (low val1.a)) OsResult.uint

def vfs_pread : Handler :=
  readCall num_params shms os fun val2 buffer => .pread (low val2.a) buffer val2.b val2.c

/-- The one check is of slot 1, and into `val0`: `val1` is still NULL. -/
def vfs_pwrite : Handler :=
  checked num_params shms 3 [.value 1 0] TEEC_ERROR_BAD_PARAMETERS fun l =>
    tee_supp_param_to_va shms 2 fun write_data =>
    load (l.val 1) fun val1 =>
    called os l (.pwrite (low val1.a) write_data val1.b val1.c) OsResult.ret

def vfs_truncate : Handler :=
  checked num_params shms 3 [.value 0 0, .value 2 2] TEEC_ERROR_BAD_PARAMETERS fun l =>
    load (l.val 2) fun val2 =>
    tee_supp_param_to_va shms 1 fun path => called os l (.truncate path val2.a) OsResult.int

def vfs_getdayoftime : Handler :=
  checked num_params shms 3 [.value 0 0, .memref 1, .memref 2] TEEC_ERROR_BAD_PARAMETERS fun l =>
    called os l (.gettimeofday (l.buffer 1) (l.buffer 2)) OsResult.int

def vfs_fcntl_void : Handler :=
  valuesCall num_params shms os (fun val1 => .fcntl_void (low val1.a) (low val1.b)) OsResult.int

def vfs_fcntl_int : Handler :=
  valuesCall num_params shms os (fun val1 => .fcntl_int (low val1.a) (low val1.b) (low val1.c))
    OsResult.int

def vfs_fcntl_flock : Handler :=
  checked num_params shms 3 [.value 0 0, .value 1 1, .memref 2] TEEC_ERROR_BAD_FORMAT fun l =>
    load (l.val 1) fun val1 =>
    called os l (.fcntl_flock (low val1.a) (low val1.b) (l.buffer 2)) OsResult.int

def vfs_utimes : Handler :=
  checked num_params shms 3 [.value 0 0] TEEC_ERROR_BAD_PARAMETERS fun l =>
    tee_supp_param_to_va shms 1 fun filename =>
    tee_supp_param_to_va shms 2 fun times => called os l (.utimes filename times) OsResult.int

def vfs_time : Handler := plainCall num_params shms os .time OsResult.ret

/-- The result is not looked at. -/
def vfs_usleep : Handler :=
  checked num_params shms 2 [.value 0 0, .value 1 1] TEEC_ERROR_BAD_PARAMETERS fun l =>
    load (l.val 1) fun val1 =>
    libc os (.usleep (low val1.a)) fun r =>
    store (l.val 0) (setC (sext r.errno)) (ret TEEC_SUCCESS)

def vfs_filesize : Handler :=
  valuesCall num_params shms os (fun val1 => .fstat_local (low val1.a)) fun r =>
    if low r.ret ≠ -1 then r.st_size else -1

/-- The handler of an operation. -/
def handlerOf : VfsOp → Handler
  | .OPEN => vfs_open num_params shms os
  | .CLOSE => vfs_close num_params shms os
  | .ACCESS => vfs_access num_params shms os
  | .GETCWD => vfs_getcwd num_params shms os
  | .STAT => vfs_stat num_params shms os
  | .WRITE => vfs_write num_params shms os
  | .MKDIR => vfs_mkdir num_params shms os
  | .RMDIR => vfs_rmdir num_params shms os
  | .UNLINK => vfs_unlink num_params shms os
  | .FTRUNCATE => vfs_ftruncate num_params shms os
  | .READ => vfs_read num_params shms os
  | .FCHMOD => vfs_fchmod num_params shms os
  | .FCHOWN => vfs_fchown num_params shms os
  | .GETEUID => vfs_geteuid num_params shms os
  | .GETPID => vfs_getpid num_params shms os
  | .GETENV => vfs_getenv num_params shms os
  | .LSEEK => vfs_lseek num_params shms os
  | .FSYNC => vfs_fsync num_params shms os
  | .SLEEP => vfs_sleep num_params shms os
  | .GETTIMEOFDAY => vfs_getdayoftime num_params shms os
  | .PWRITE => vfs_pwrite num_params shms os
  | .PREAD => vfs_pread num_params shms os
  | .TRUNCATE => vfs_truncate num_params shms os
  | .FSTAT => vfs_fstat num_params shms os
  | .FCNTL_VOID => vfs_fcntl_void num_params shms os
  | .FCNTL_INT => vfs_fcntl_int num_params shms os
  | .FCNTL_FLOCK => vfs_fcntl_flock num_params shms os
  | .UTIMES => vfs_utimes num_params shms os
  | .TIME => vfs_time num_params shms os
  | .USLEEP => vfs_usleep num_params shms os
  | .FILESIZE => vfs_filesize num_params shms os

/-- The operation is read from slot 0 before `num_params` is looked at. -/
def tee_supp_vfs_process : Handler :=
  emit (.slot 0) fun params =>
    match opOf (params 0).a with
    | some op => handlerOf num_params shms os op params
    | none => ret TEEC_ERROR_NOT_SUPPORTED params

variable {num_params shms os}

@[simp] theorem calls_nil : calls [] = [] := rfl

@[simp] theorem calls_libc (call : LibcCall) (trace : List Event) :
    calls (.libc call :: trace) = call :: calls trace := rfl

@[simp] theorem calls_slot (idx : Nat) (trace : List Event) :
    calls (.slot idx :: trace) = calls trace := rfl

@[simp] theorem calls_value (p : Option Nat) (trace : List Event) :
    calls (.value p :: trace) = calls trace := rfl

@[simp] theorem calls_strlen (s : Option CStr) (trace : List Event) :
    calls (.strlen s :: trace) = calls trace := rfl

@[simp] theorem calls_memcpy (dst : Option Va) (src : Option CStr) (n : BitVec 64)
    (trace : List Event) : calls (.memcpy dst src n :: trace) = calls trace := rfl

/-- The request passes the checks of a handler. -/
def Accepted (num_params : Nat) (shms : List TeeShm) (num : Nat) (checks : List Check)
    (params : Nat → Param) : Prop :=
  num_params = num ∧ ∀ c ∈ checks, c.Passes num_params shms params

theorem runChecks_passed {failed : Handler} {passed : Locals → Handler} {checks : List Check}
    {params : Nat → Param} (pass : ∀ c ∈ checks, c.Passes num_params shms params) (l : Locals)
    (trace : List Event) :
    ∃ slots, (∀ e ∈ slots, ∃ i < num_params, e = .slot i) ∧
      runChecks num_params shms failed passed checks l params trace =
        passed (checks.foldl (Locals.assign shms params) l) params (slots ++ trace) := by
  induction checks generalizing l trace with
  | nil => exact ⟨[], by simp, rfl⟩
  | cons c checks ih =>
    have first := pass c List.mem_cons_self
    have inside : c.idx < num_params := by
      cases c with
      | value idx var => exact first.1
      | memref idx => exact first.1
    obtain ⟨slots, all, run⟩ := ih (fun x hx => pass x (List.mem_cons_of_mem c hx))
      (l.assign shms params c) (.slot c.idx :: trace)
    refine ⟨slots ++ [.slot c.idx], ?_, ?_⟩
    · intro e member
      rcases List.mem_append.mp member with later | now
      · exact all e later
      · exact ⟨c.idx, inside, List.mem_singleton.mp now⟩
    · simp only [runChecks, if_pos inside, if_pos first, run, List.foldl_cons, List.append_assoc,
        List.singleton_append]

theorem runChecks_failed {failed : Handler} {passed : Locals → Handler} {checks : List Check}
    {params : Nat → Param} (fails : ¬ ∀ c ∈ checks, c.Passes num_params shms params) (l : Locals)
    (trace : List Event) :
    ∃ slots, (∀ e ∈ slots, ∃ i < num_params, e = .slot i) ∧
      runChecks num_params shms failed passed checks l params trace =
        failed params (slots ++ trace) := by
  induction checks generalizing l trace with
  | nil => exact absurd (fun c none => absurd none List.not_mem_nil) fails
  | cons c checks ih =>
    obtain ⟨first, all₁, made⟩ : ∃ slots : List Event,
        (∀ e ∈ slots, ∃ i < num_params, e = .slot i) ∧
        (if c.idx < num_params then .slot c.idx :: trace else trace) = slots ++ trace := by
      by_cases inside : c.idx < num_params
      · refine ⟨[.slot c.idx], ?_, if_pos inside⟩
        intro e member
        exact ⟨c.idx, inside, List.mem_singleton.mp member⟩
      · exact ⟨[], by simp, if_neg inside⟩
    simp only [runChecks, made]
    by_cases pass : c.Passes num_params shms params
    · rw [if_pos pass]
      rw [List.forall_mem_cons, not_and] at fails
      obtain ⟨slots, all₂, run⟩ := ih (fails pass) (l.assign shms params c) (first ++ trace)
      refine ⟨slots ++ first, ?_, by rw [run, List.append_assoc]⟩
      intro e member
      exact (List.mem_append.mp member).elim (all₂ e) (all₁ e)
    · rw [if_neg pass]
      exact ⟨first, all₁, rfl⟩

theorem checked_accepted {num : Nat} {checks : List Check} (bad : TEEC_Result)
    (body : Locals → Handler) {params : Nat → Param}
    (accepted : Accepted num_params shms num checks params) (trace : List Event) :
    ∃ slots, (∀ e ∈ slots, ∃ i < num_params, e = .slot i) ∧
      checked num_params shms num checks bad body params trace =
        body (checks.foldl (Locals.assign shms params) .unset) params (slots ++ trace) := by
  rw [checked, if_neg (not_not.mpr accepted.1)]
  exact runChecks_passed accepted.2 _ trace

theorem checked_refused {num : Nat} {checks : List Check} (bad : TEEC_Result)
    (body : Locals → Handler) {params : Nat → Param}
    (refused : ¬ Accepted num_params shms num checks params) (trace : List Event) :
    ∃ slots, (∀ e ∈ slots, ∃ i < num_params, e = .slot i) ∧
      checked num_params shms num checks bad body params trace =
        ⟨params, slots ++ trace, some bad⟩ := by
  rw [checked]
  by_cases number : num_params = num
  · rw [if_neg (not_not.mpr number)]
    exact runChecks_failed (fun pass => refused ⟨number, pass⟩) _ trace
  · rw [if_pos number]
    exact ⟨[], by simp, rfl⟩

end
end TeeSqlite.Traced
