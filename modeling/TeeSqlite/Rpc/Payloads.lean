import TeeSqlite.Lib.Brackets
import TeeSqlite.Rpc.Failure

/-! The wrappers of `tee_sqlite.c` with what they do to their payloads: each label of
their exit ladders, and each copy through the address of a payload. What they send and
return is as in the wrappers without the payloads. -/
namespace TeeSqlite.Payloads
open ByteFile CTypes Brackets

/-- The payload number `i` of a call is the one of its allocation number `i`. An address
that was never set belongs to none, and `free` may get NULL. -/
inductive Event
  | alloc (i n : Nat) (size : Option Nat)
  | mobj_get_va (i : Nat)
  | memset (va : Option Nat) (n : Nat)
  | memcpy (va : Option Nat) (n : Nat)
  | rpc
  | free (mobj : Option Nat)
  deriving DecidableEq

namespace Event

def use : Event → Option (Touch Nat)
  | alloc i _ size => size.map fun _ => .acquire i
  | mobj_get_va i => some (.map i)
  | memset va _ | memcpy va _ => some (.access va)
  | rpc => none
  | free mobj => mobj.map .release

/-- An allocation that gave NULL or a block that is too short. -/
def refused : Event → Bool
  | alloc _ n size => size.all (· < n)
  | _ => false

end Event

/-- A call that crashed has no result. -/
structure Run (α : Type) where
  events : List Event
  result : Option α

namespace Run
variable {α β : Type}

def ret (a : α) : Run α := ⟨[], some a⟩
def crash : Run α := ⟨[], none⟩
def emit (e : Event) (r : Run α) : Run α := ⟨e :: r.events, r.result⟩
def map (f : α → β) (r : Run α) : Run β := ⟨r.events, r.result.map f⟩

def bind (r : Run α) (rest : α → Run β) : Run β :=
  match r.result with
  | none => ⟨r.events, none⟩
  | some a => ⟨r.events ++ (rest a).events, (rest a).result⟩

def uses (r : Run α) : List (Touch Nat) := r.events.filterMap Event.use
def Refused (r : Run α) : Prop := ∃ e ∈ r.events, e.refused = true

end Run

open Run

def mobj_get_va {α : Type} (i : Nat) (rest : Run α) : Run α := emit (.mobj_get_va i) rest
def memset {α : Type} (i n : Nat) (rest : Run α) : Run α := emit (.memset (some i) n) rest
def memcpy {α : Type} (i n : Nat) (rest : Run α) : Run α := emit (.memcpy (some i) n) rest

section
variable {σ : Type} (rpc : RpcCmd σ) (alloc : AllocPayload)

/-- The allocation number `i`, of `n` bytes, with the checks behind it. They jump to the
label with `failed` in the variables; there `exit` runs, and then the payload is freed. -/
def payload {α β : Type} (i n : Nat) (failed : α) (body : Bytes → Run α) (exit : α → Run β) :
    Run β :=
  let mobj := alloc i n
  emit (.alloc i n (mobj.map List.length)) <|
  (match mobj with
    | none => ret failed
    | some va => if va.length < n then ret failed else body va).bind fun a =>
  (exit a).bind fun b => emit (.free (mobj.map fun _ => i)) (ret b)

/-- A label at which the payload is freed and nothing else is done. -/
def withPayload {α : Type} (i n : Nat) (failed : α) (body : Bytes → Run α) : Run α :=
  payload alloc i n failed body ret

def thread_rpc_cmd {α : Type} (s : σ) (shm : List Bytes) (params : List ThreadParam)
    (body : σ → List Bytes → ParamValue → Run α) : Run α :=
  emit .rpc (TeeSqlite.thread_rpc_cmd rpc s shm params body)

def pathCall (op : VfsOp) (s : σ) (path : CStr) (before after : List ThreadParam) :
    Run (σ × ParamValue) :=
  withPayload alloc 0 path.mem.length (s, ⟨0, -1, 0⟩) fun va_path =>
    mobj_get_va 0 <| memcpy 0 path.mem.length <|
    thread_rpc_cmd rpc s [splice va_path 0 path.mem]
      (THREAD_PARAM_VALUE .INOUT (OPTEE_VFS op) 0 0 :: before ++
        THREAD_PARAM_MEMREF .IN (some 0) :: after)
      fun s _ val0 => ret (s, val0)

def syscall_vfs_open (s : σ) (path : CStr) (oflag arg1 : BitVec 32) : Run (σ × BitVec 32) :=
  (pathCall rpc alloc .OPEN s path [] [THREAD_PARAM_VALUE .IN (sext oflag) (sext arg1) 0]).map
    fun r => (r.1, low r.2.b)

def syscall_vfs_access (s : σ) (name : CStr) (type : BitVec 32) : Run (σ × BitVec 32) :=
  (pathCall rpc alloc .ACCESS s name [THREAD_PARAM_VALUE .IN (sext type) 0 0] []).map
    fun r => (r.1, low r.2.b)

/-- The pointer returned is the caller's in every case. -/
def syscall_vfs_getcwd (s : σ) (buf : Bytes) : Run (σ × Bytes) :=
  withPayload alloc 0 buf.length (s, buf) fun va_buf =>
    mobj_get_va 0 <| memset 0 buf.length <|
    thread_rpc_cmd rpc s [zeroed va_buf buf.length]
      [THREAD_PARAM_VALUE .INOUT (OPTEE_VFS .GETCWD) 0 0, THREAD_PARAM_MEMREF .OUT (some 0),
        THREAD_PARAM_VALUE .IN (BitVec.ofNat 64 buf.length) 0 0]
      fun s shm _ => memcpy 0 buf.length <| ret (s, (shm[0]?.getD []).take buf.length)

/-- The label `exit2` frees the name, and `exit` before it the structure. -/
def syscall_vfs_stat (s : σ) (file_name : CStr) (buf : Bytes) : Run (σ × BitVec 32 × Bytes) :=
  withPayload alloc 0 file_name.mem.length (s, -1, buf) fun va_filename =>
  mobj_get_va 0 <| memcpy 0 file_name.mem.length <|
  withPayload alloc 1 SIZEOF_MY_STAT (s, -1, buf) fun va_buf =>
    mobj_get_va 1 <| memset 1 SIZEOF_MY_STAT <|
    thread_rpc_cmd rpc s [splice va_filename 0 file_name.mem, zeroed va_buf SIZEOF_MY_STAT]
      [THREAD_PARAM_VALUE .INOUT (OPTEE_VFS .STAT) 0 0, THREAD_PARAM_MEMREF .IN (some 0),
        THREAD_PARAM_MEMREF .OUT (some 1)]
      fun s shm val0 => memcpy 1 SIZEOF_MY_STAT <|
        ret (s, low val0.b, (shm[1]?.getD []).take SIZEOF_MY_STAT)

def syscall_vfs_fstat (s : σ) (fd : BitVec 32) (buf : Bytes) : Run (σ × BitVec 32 × Bytes) :=
  withPayload alloc 0 SIZEOF_MY_STAT (s, -1, buf) fun va_buf =>
    mobj_get_va 0 <| memset 0 SIZEOF_MY_STAT <|
    thread_rpc_cmd rpc s [zeroed va_buf SIZEOF_MY_STAT]
      [THREAD_PARAM_VALUE .INOUT (OPTEE_VFS .FSTAT) 0 0, THREAD_PARAM_VALUE .IN (sext fd) 0 0,
        THREAD_PARAM_MEMREF .OUT (some 0)]
      fun s shm val0 => memcpy 0 SIZEOF_MY_STAT <|
        ret (s, low val0.b, (shm[0]?.getD []).take SIZEOF_MY_STAT)

def syscall_vfs_write (s : σ) (fd : BitVec 32) (buf : Bytes) : Run (σ × BitVec 64) :=
  withPayload alloc 0 buf.length (s, -1) fun va_buf =>
    mobj_get_va 0 <| memset 0 buf.length <| memcpy 0 buf.length <|
    thread_rpc_cmd rpc s [splice (zeroed va_buf buf.length) 0 buf]
      [THREAD_PARAM_VALUE .INOUT (OPTEE_VFS .WRITE) 0 0,
        THREAD_PARAM_VALUE .IN (sext fd) (BitVec.ofNat 64 buf.length) 0,
        THREAD_PARAM_MEMREF .IN (some 0)]
      fun s _ val0 => ret (s, sext (low val0.b))

def syscall_vfs_mkdir (s : σ) (path : CStr) (mode : BitVec 32) : Run (σ × BitVec 32) :=
  (pathCall rpc alloc .MKDIR s path [] [THREAD_PARAM_VALUE .IN (zext mode) 0 0]).map
    fun r => (r.1, low r.2.b)

def syscall_vfs_rmdir (s : σ) (path : CStr) : Run (σ × BitVec 32) :=
  (pathCall rpc alloc .RMDIR s path [] []).map fun r => (r.1, low r.2.b)

def syscall_vfs_unlink (s : σ) (name : CStr) (errno : BitVec 32) :
    Run (σ × BitVec 32 × BitVec 32) :=
  withPayload alloc 0 name.mem.length (s, -1, errno) fun va_name =>
    mobj_get_va 0 <| memcpy 0 name.mem.length <|
    thread_rpc_cmd rpc s [splice va_name 0 name.mem]
      [THREAD_PARAM_VALUE .INOUT (OPTEE_VFS .UNLINK) 0 0, THREAD_PARAM_MEMREF .IN (some 0)]
      fun s _ val0 => ret (s, low val0.b, low val0.c)

def syscall_vfs_read (s : σ) (fd : BitVec 32) (buf : Bytes) (n : Nat) :
    Run (σ × BitVec 64 × Bytes) :=
  withPayload alloc 0 n (s, -1, buf) fun va_buf =>
    mobj_get_va 0 <| memset 0 n <|
    thread_rpc_cmd rpc s [zeroed va_buf n]
      [THREAD_PARAM_VALUE .INOUT (OPTEE_VFS .READ) 0 0, THREAD_PARAM_MEMREF .OUT (some 0),
        THREAD_PARAM_VALUE .IN (sext fd) (BitVec.ofNat 64 n) 0]
      fun s shm val0 => memcpy 0 n <| ret (s, val0.b, splice buf 0 ((shm[0]?.getD []).take n))

/-- `malloc` tells whether it gives a block of a size. A copy of no bytes to NULL does
nothing. -/
def syscall_vfs_getenv (malloc : Nat → Bool) (s : σ) (name : CStr) : Run (σ × Option Bytes) :=
  withPayload alloc 0 name.mem.length (s, none) fun va_name =>
    mobj_get_va 0 <| memcpy 0 name.mem.length <|
    let name_block := splice va_name 0 name.mem
    emit .rpc <|
    let (s, m, _) := rpc s ⟨[name_block], [THREAD_PARAM_VALUE .INOUT (OPTEE_VFS .GETENV) 0 0,
      THREAD_PARAM_MEMREF .IN (some 0), THREAD_PARAM_MEMREF .OUT none]⟩
    let val0 := value0 m.params
    let ret_len := val0.b.toNat
    withPayload alloc 1 ret_len (s, none) fun ret_block =>
      thread_rpc_cmd rpc s [m.shm[0]?.getD [], ret_block]
        [.value .INOUT val0, THREAD_PARAM_MEMREF .IN (some 0), THREAD_PARAM_MEMREF .OUT (some 1)]
        fun s shm _ =>
          mobj_get_va 1 <| memcpy 1 ret_len <|
          if malloc ret_len then ret (s, some ((shm[1]?.getD []).take ret_len))
          else if ret_len = 0 then ret (s, none) else crash

/-- The address is computed a second time after the request. -/
def syscall_vfs_pread (s : σ) (fd : BitVec 32) (buf : Bytes) (n : Nat) (offset : BitVec 64) :
    Run (σ × BitVec 64 × Bytes) :=
  withPayload alloc 0 n (s, -1, buf) fun va_buf =>
    mobj_get_va 0 <| memset 0 n <|
    thread_rpc_cmd rpc s [zeroed va_buf n]
      [THREAD_PARAM_VALUE .INOUT (OPTEE_VFS .PREAD) 0 0, THREAD_PARAM_MEMREF .IN (some 0),
        THREAD_PARAM_VALUE .IN (sext fd) (BitVec.ofNat 64 n) offset]
      fun s shm val0 => mobj_get_va 0 <| memcpy 0 n <|
        ret (s, val0.b, splice buf 0 ((shm[0]?.getD []).take n))

def syscall_vfs_pwrite (s : σ) (fd : BitVec 32) (buf : Bytes) (offset : BitVec 64) :
    Run (σ × BitVec 64) :=
  withPayload alloc 0 buf.length (s, -1) fun va_path =>
    mobj_get_va 0 <| memcpy 0 buf.length <|
    thread_rpc_cmd rpc s [splice va_path 0 buf]
      [THREAD_PARAM_VALUE .INOUT (OPTEE_VFS .PWRITE) 0 0,
        THREAD_PARAM_VALUE .IN (sext fd) (BitVec.ofNat 64 buf.length) offset,
        THREAD_PARAM_MEMREF .IN (some 0)]
      fun s _ val0 => ret (s, val0.b)

def syscall_vfs_truncate (s : σ) (path : CStr) (size : BitVec 64) : Run (σ × BitVec 32) :=
  (pathCall rpc alloc .FTRUNCATE s path [] [THREAD_PARAM_VALUE .IN size 0 0]).map
    fun r => (r.1, low r.2.b)

/-- The label `exit` frees the first structure, and `exit2` before it the second. -/
def syscall_vfs_gettimeofday (s : σ) (tv : Bytes) (tz : Option Bytes) :
    Run (σ × BitVec 32 × Bytes × Option Bytes) :=
  withPayload alloc 0 SIZEOF_TIMEVAL (s, -1, tv, tz) fun va_tv =>
  mobj_get_va 0 <| memset 0 SIZEOF_TIMEVAL <|
  withPayload alloc 1 SIZEOF_TIMEZONE (s, -1, tv, tz) fun va_tz =>
    mobj_get_va 1 <| memset 1 SIZEOF_TIMEZONE <|
    thread_rpc_cmd rpc s [zeroed va_tv SIZEOF_TIMEVAL, zeroed va_tz SIZEOF_TIMEZONE]
      [THREAD_PARAM_VALUE .INOUT (OPTEE_VFS .GETTIMEOFDAY) 0 0, THREAD_PARAM_MEMREF .IN (some 0),
        THREAD_PARAM_MEMREF .IN (some 1)]
      fun s shm val0 =>
        let tv := (shm[0]?.getD []).take SIZEOF_TIMEVAL
        memcpy 0 SIZEOF_TIMEVAL <|
        match tz with
        | none => ret (s, low val0.b, tv, none)
        | some _ => memcpy 1 SIZEOF_TIMEZONE <|
          ret (s, low val0.b, tv, some ((shm[1]?.getD []).take SIZEOF_TIMEZONE))

/-- The copy to the caller is at the label, behind the jumps of a failed allocation too:
`va_flock` is then not set. -/
def syscall_vfs_fcntl_flock (s : σ) (fd cmd : BitVec 32) : Run (σ × BitVec 32 × Bytes) :=
  payload alloc 0 SIZEOF_FLOCK (s, -1, none)
    (fun va_flock =>
      mobj_get_va 0 <| memset 0 SIZEOF_FLOCK <|
      thread_rpc_cmd rpc s [zeroed va_flock SIZEOF_FLOCK]
        [THREAD_PARAM_VALUE .INOUT (OPTEE_VFS .FCNTL_FLOCK) 0 0,
          THREAD_PARAM_VALUE .IN (sext fd) (sext cmd) 0, THREAD_PARAM_MEMREF .IN (some 0)]
        fun s shm val0 => ret (s, low val0.b, some ((shm[0]?.getD []).take SIZEOF_FLOCK)))
    fun r =>
      match r.2.2 with
      | none => emit (.memcpy none SIZEOF_FLOCK) crash
      | some flock => memcpy 0 SIZEOF_FLOCK <| ret (r.1, r.2.1, flock)

/-- The label `exit` frees the name, and `exit1` before it the times. -/
def syscall_vfs_utimes (s : σ) (filename : CStr) (times : Bytes) : Run (σ × BitVec 32) :=
  let times_size := 8
  withPayload alloc 0 filename.mem.length (s, -1) fun va_filename =>
  mobj_get_va 0 <| memset 0 filename.mem.length <| memcpy 0 filename.mem.length <|
  withPayload alloc 1 times_size (s, -1) fun va_times =>
    mobj_get_va 1 <| memset 1 times_size <| memcpy 1 times_size <|
    thread_rpc_cmd rpc s [splice (zeroed va_filename filename.mem.length) 0 filename.mem,
        splice (zeroed va_times times_size) 0 (times.take times_size)]
      [THREAD_PARAM_VALUE .INOUT (OPTEE_VFS .UTIMES) 0 0, THREAD_PARAM_MEMREF .IN (some 0),
        THREAD_PARAM_MEMREF .IN (some 1)]
      fun s _ val0 => ret (s, low val0.b)

end

theorem emit_eq {α : Type} {e : Event} {r : Run α} {events : List Event} {result : Option α}
    (rest : r = ⟨events, result⟩) : emit e r = ⟨e :: events, result⟩ := by
  rw [rest, emit]

section
variable {alloc : AllocPayload} {i n : Nat}

theorem refused_of_missing (missing : ¬ Given alloc i n) :
    (Event.alloc i n ((alloc i n).map List.length)).refused = true := by
  rcases gave : alloc i n with _ | va
  · rfl
  · simpa [Event.refused] using fun enough => missing ⟨va, gave, enough⟩

/-- NULL or a short block: the jump to the label. -/
theorem payload_missing {α β : Type} (missing : ¬ Given alloc i n) (failed : α)
    (body : Bytes → Run α) (exit : α → Run β) :
    payload alloc i n failed body exit =
      emit (.alloc i n ((alloc i n).map List.length))
        ((exit failed).bind fun b => emit (.free ((alloc i n).map fun _ => i)) (ret b)) := by
  rcases gave : alloc i n with _ | va
  · simp [payload, gave, Run.bind, ret]
  · have short : va.length < n := Nat.lt_of_not_le fun enough => missing ⟨va, gave, enough⟩
    simp [payload, gave, short, Run.bind, ret]

theorem withPayload_missing {α : Type} (missing : ¬ Given alloc i n) (failed : α)
    (body : Bytes → Run α) :
    withPayload alloc i n failed body =
      ⟨[.alloc i n ((alloc i n).map List.length), .free ((alloc i n).map fun _ => i)],
        some failed⟩ :=
  payload_missing missing failed body ret

theorem withPayload_of_body {α : Type} {va : Bytes} {body : Bytes → Run α} {failed o : α}
    (gave : alloc i n = some va) (enough : n ≤ va.length)
    (returned : (body va).result = some o) :
    withPayload alloc i n failed body =
      ⟨.alloc i n (some va.length) :: (body va).events ++ [.free (some i)], some o⟩ := by
  simp [withPayload, payload, gave, Nat.not_lt.mpr enough, Run.bind, returned, Run.ret, emit]

/-- A body that crashes: the label is not reached. -/
theorem withPayload_of_crash {α : Type} {va : Bytes} {body : Bytes → Run α} {failed : α}
    (gave : alloc i n = some va) (enough : n ≤ va.length) {events : List Event}
    (crashed : body va = ⟨events, none⟩) :
    withPayload alloc i n failed body = ⟨.alloc i n (some va.length) :: events, none⟩ := by
  simp [withPayload, payload, gave, Nat.not_lt.mpr enough, Run.bind, crashed, emit]

end

section
variable {σ : Type} (rpc : RpcCmd σ) (alloc : AllocPayload) (s : σ)

theorem withPayload_result {α : Type} {i n : Nat} {failed : α} {body : Bytes → Run α} :
    (withPayload alloc i n failed body).result =
      TeeSqlite.withPayload alloc i n (some failed) fun va => (body va).result := by
  by_cases given : Given alloc i n
  · obtain ⟨va, gave, enough, taken⟩ := given.withPayload_eq
    rw [taken]
    rcases ends : (body va).result with _ | a
    · rw [withPayload_of_crash gave enough (congrArg (Run.mk _) ends)]
    · rw [withPayload_of_body gave enough ends]
  · rw [withPayload_missing given, withPayload_exit given]

/-- A function of what comes out at the label goes inside. -/
theorem withPayload_apply {α β : Type} (f : α → β) {i n : Nat} {exit : α} {body : Bytes → α} :
    f (TeeSqlite.withPayload alloc i n exit body) =
      TeeSqlite.withPayload alloc i n (f exit) fun va => f (body va) := by
  by_cases given : Given alloc i n
  · obtain ⟨va, -, -, taken⟩ := given.withPayload_eq
    rw [taken, taken]
  · rw [withPayload_exit given, withPayload_exit given]

theorem onePayload_result {α : Type} {i n : Nat} {failed : α} {body : Bytes → Run α}
    {body' : Bytes → α} (same : ∀ va, (body va).result = some (body' va)) :
    (withPayload alloc i n failed body).result =
      some (TeeSqlite.withPayload alloc i n failed body') := by
  rw [withPayload_result, withPayload_apply alloc some]
  exact congrArg _ (funext same)

theorem pathCall_result (op : VfsOp) (path : CStr) (before after : List ThreadParam) :
    (pathCall rpc alloc op s path before after).result =
      some (TeeSqlite.pathCall rpc alloc op s path before after) :=
  onePayload_result alloc fun _ => rfl

theorem getcwd_result (buf : Bytes) : (syscall_vfs_getcwd rpc alloc s buf).result =
    some (TeeSqlite.syscall_vfs_getcwd rpc alloc s buf) :=
  onePayload_result alloc fun _ => rfl

theorem stat_result (file_name : CStr) (buf : Bytes) :
    (syscall_vfs_stat rpc alloc s file_name buf).result =
      some (TeeSqlite.syscall_vfs_stat rpc alloc s file_name buf) :=
  onePayload_result alloc fun _ => onePayload_result alloc fun _ => rfl

theorem fstat_result (fd : BitVec 32) (buf : Bytes) :
    (syscall_vfs_fstat rpc alloc s fd buf).result =
      some (TeeSqlite.syscall_vfs_fstat rpc alloc s fd buf) :=
  onePayload_result alloc fun _ => rfl

theorem write_result (fd : BitVec 32) (buf : Bytes) :
    (syscall_vfs_write rpc alloc s fd buf).result =
      some (TeeSqlite.syscall_vfs_write rpc alloc s fd buf) :=
  onePayload_result alloc fun _ => rfl

theorem unlink_result (name : CStr) (errno : BitVec 32) :
    (syscall_vfs_unlink rpc alloc s name errno).result =
      some (TeeSqlite.syscall_vfs_unlink rpc alloc s name errno) :=
  onePayload_result alloc fun _ => rfl

theorem read_result (fd : BitVec 32) (buf : Bytes) (n : Nat) :
    (syscall_vfs_read rpc alloc s fd buf n).result =
      some (TeeSqlite.syscall_vfs_read rpc alloc s fd buf n) :=
  onePayload_result alloc fun _ => rfl

theorem getenv_result {malloc : Nat → Bool} (memory : ∀ n, malloc n = true) (name : CStr) :
    (syscall_vfs_getenv rpc alloc malloc s name).result =
      some (TeeSqlite.syscall_vfs_getenv rpc alloc s name) := by
  refine onePayload_result alloc fun _ => onePayload_result alloc fun _ => ?_
  exact congrArg Run.result (if_pos (memory _))

theorem pread_result (fd : BitVec 32) (buf : Bytes) (n : Nat) (offset : BitVec 64) :
    (syscall_vfs_pread rpc alloc s fd buf n offset).result =
      some (TeeSqlite.syscall_vfs_pread rpc alloc s fd buf n offset) :=
  onePayload_result alloc fun _ => rfl

theorem pwrite_result (fd : BitVec 32) (buf : Bytes) (offset : BitVec 64) :
    (syscall_vfs_pwrite rpc alloc s fd buf offset).result =
      some (TeeSqlite.syscall_vfs_pwrite rpc alloc s fd buf offset) :=
  onePayload_result alloc fun _ => rfl

theorem gettimeofday_result (tv : Bytes) (tz : Option Bytes) :
    (syscall_vfs_gettimeofday rpc alloc s tv tz).result =
      some (TeeSqlite.syscall_vfs_gettimeofday rpc alloc s tv tz) := by
  refine onePayload_result alloc fun _ => onePayload_result alloc fun _ => ?_
  cases tz <;> rfl

theorem fcntl_flock_result (fd cmd : BitVec 32) :
    (syscall_vfs_fcntl_flock rpc alloc s fd cmd).result =
      TeeSqlite.syscall_vfs_fcntl_flock rpc alloc s fd cmd := by
  by_cases given : Given alloc 0 SIZEOF_FLOCK
  · obtain ⟨va, gave, enough, taken⟩ := given.withPayload_eq
    rw [TeeSqlite.syscall_vfs_fcntl_flock, taken, syscall_vfs_fcntl_flock, payload]
    simp only [gave, if_neg (Nat.not_lt.mpr enough)]
    rfl
  · rw [TeeSqlite.syscall_vfs_fcntl_flock, withPayload_exit given, syscall_vfs_fcntl_flock,
      payload_missing given]
    rfl

theorem utimes_result (filename : CStr) (times : Bytes) :
    (syscall_vfs_utimes rpc alloc s filename times).result =
      some (TeeSqlite.syscall_vfs_utimes rpc alloc s filename times) :=
  onePayload_result alloc fun _ => onePayload_result alloc fun _ => rfl

end
end TeeSqlite.Payloads
