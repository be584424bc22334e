import TeeSqlite.Lib.AddressSpace
import TeeSqlite.Rpc.Failure

/-! The system calls with the pointers that a TA passes, over one memory for the TA and
the core. The wrappers follow every pointer as it is: no caller of theirs and none of
the wrappers looks at what it points to. -/
namespace TeeSqlite
open ByteFile CTypes AddressSpace

def NULL_PTR : Addr := 0

/-- The calls that take pointers, with their arguments. -/
inductive PtrCall
  | open_ (path : Addr) (oflag arg1 : BitVec 32)
  | access (name : Addr) (type : BitVec 32)
  | getcwd (buf : Addr) (size : BitVec 64)
  | stat (file_name buf : Addr)
  | fstat (fd : BitVec 32) (buf : Addr)
  | write (fd : BitVec 32) (buf : Addr) (n : BitVec 64)
  | mkdir (path : Addr) (mode : BitVec 32)
  | rmdir (path : Addr)
  | unlink (name errno : Addr)
  | read (fd : BitVec 32) (buf : Addr) (nByte : BitVec 64)
  | getenv (name : Addr)
  | pread (fd : BitVec 32) (buf : Addr) (nByte offset : BitVec 64)
  | pwrite (fd : BitVec 32) (buf : Addr) (n offset : BitVec 64)
  | truncate (path : Addr) (size : BitVec 64)
  | gettimeofday (tv tz : Addr)
  | fcntl_flock (fd cmd : BitVec 32) (pFlock : Addr)
  | utimes (filename times : Addr)
  | time (t : Addr)

namespace PtrCall

/-- A buffer or a structure in memory. -/
def buffer (m : Memory) (p : Addr) (n : BitVec 64) : Buffer :=
  ⟨m.bytes p n.toNat, by rw [Memory.length_bytes]; exact n.isLt⟩

@[simp] theorem length_buffer (m : Memory) (p : Addr) (n : BitVec 64) :
    (buffer m p n).1.length = n.toNat := Memory.length_bytes m p n.toNat

def cstruct (m : Memory) (p : Addr) (n : Nat) : CStruct n :=
  ⟨m.bytes p n, Memory.length_bytes m p n⟩

/-- What the call finds behind its pointers; nothing when a `strlen` does not end. -/
def load (m : Memory) : PtrCall → Option VfsCall
  | open_ path oflag arg1 => (m.str path).map fun path => .open_ path oflag arg1
  | access name type => (m.str name).map fun name => .access name type
  | getcwd buf size => some (.getcwd (buffer m buf size))
  | stat file_name buf =>
    (m.str file_name).map fun file_name => .stat file_name (cstruct m buf SIZEOF_MY_STAT)
  | fstat fd buf => some (.fstat fd (cstruct m buf SIZEOF_MY_STAT))
  | write fd buf n => some (.write fd (buffer m buf n))
  | mkdir path mode => (m.str path).map fun path => .mkdir path mode
  | rmdir path => (m.str path).map .rmdir
  | unlink name errno => (m.str name).map fun name => .unlink name (ofIntBytes (m.bytes errno 4))
  | read fd buf nByte => some (.read fd (buffer m buf nByte))
  | getenv name => (m.str name).map .getenv
  | pread fd buf nByte offset => some (.pread fd (buffer m buf nByte) offset)
  | pwrite fd buf n offset => some (.pwrite fd (buffer m buf n) offset)
  | truncate path size => (m.str path).map fun path => .truncate path size
  | gettimeofday tv tz => some (.gettimeofday (cstruct m tv SIZEOF_TIMEVAL)
      (if tz = NULL_PTR then none else some (cstruct m tz SIZEOF_TIMEZONE)))
  | fcntl_flock fd cmd pFlock => some (.fcntl_flock fd cmd (cstruct m pFlock SIZEOF_FLOCK))
  | utimes filename times =>
    (m.str filename).map fun filename => .utimes filename (cstruct m times SIZEOF_TIMES)
  | time t => some (.time (if t = NULL_PTR then none else some (cstruct m t 8)))

/-- The memory with what the call writes through its pointers. -/
def store (m : Memory) (o : Outcome) : PtrCall → Memory
  | getcwd buf _ | stat _ buf | fstat _ buf | read _ buf _ | pread _ buf _ _
  | fcntl_flock _ _ buf => m.store buf o.out
  | unlink _ errno => m.store errno (intBytes o.errno)
  | gettimeofday tv tz =>
    if tz = NULL_PTR then m.store tv o.out else (m.store tv o.out).store tz o.out2
  | time t => if t = NULL_PTR then m else m.store t o.out
  | _ => m

/-- What a call leaves: the normal world, the memory, and its result. -/
structure Returned (σ : Type) where
  world : σ
  mem : Memory
  ret : BitVec 64

/-- The call on a memory. The string that `getenv` returns is in the heap of the core. -/
def run {σ : Type} (rpc : RpcCmd σ) (alloc : AllocPayload) (s : σ) (m : Memory) (call : PtrCall) :
    Option (Returned σ) :=
  (call.load m).bind fun c => (c.run rpc alloc s).map fun (s, o) =>
    ⟨s, call.store m o, match call with
      | getcwd buf _ => buf
      | _ => o.ret⟩

/-- The call returns NULL for a pointer, or less than 0. -/
def IsError (call : PtrCall) (ret : BitVec 64) : Prop :=
  match call with
  | getcwd .. | getenv _ => ret = NULL_PTR
  | _ => ret.toInt < 0

/-- A string with its terminator; without one it goes through all addresses. -/
def strRange (m : Memory) (p : Addr) : Addr × Nat :=
  (p, ((m.str p).map fun s => s.mem.length).getD (2 ^ 64))

/-- The ranges that the arguments name. -/
def ranges (m : Memory) : PtrCall → List (Addr × Nat)
  | open_ path _ _ | access path _ | mkdir path _ | rmdir path | getenv path | truncate path _ =>
    [strRange m path]
  | getcwd buf n | write _ buf n | read _ buf n | pread _ buf n _ | pwrite _ buf n _ =>
    [(buf, n.toNat)]
  | stat file_name buf => [strRange m file_name, (buf, SIZEOF_MY_STAT)]
  | fstat _ buf => [(buf, SIZEOF_MY_STAT)]
  | unlink name errno => [strRange m name, (errno, 4)]
  | gettimeofday tv tz =>
    (tv, SIZEOF_TIMEVAL) :: if tz = NULL_PTR then [] else [(tz, SIZEOF_TIMEZONE)]
  | fcntl_flock _ _ pFlock => [(pFlock, SIZEOF_FLOCK)]
  | utimes filename times => [strRange m filename, (times, SIZEOF_TIMES)]
  | time t => if t = NULL_PTR then [] else [(t, 8)]

/-- A named byte is not in the mapping of the TA. -/
def NamesForeign (ta : Set Addr) (m : Memory) (call : PtrCall) : Prop :=
  ∃ r ∈ call.ranges m, ∃ a, (a - r.1).toNat < r.2 ∧ a ∉ ta

end PtrCall

/-- The same requests with a record of them, the latest first. -/
def RpcCmd.logged {σ : Type} (rpc : RpcCmd σ) : RpcCmd (σ × List Request) :=
  fun s m =>
    let (s', m', rc) := rpc s.1 m
    ((s', m :: s.2), m', rc)

namespace PtrCall

/-- Whatever the normal world does, the call returns an error, either makes no request
or makes the same ones whatever the bytes of the core are, and leaves these bytes alone. -/
def StaysInside (ta : Set Addr) (alloc : AllocPayload) (m : Memory) (call : PtrCall) : Prop :=
  ∀ (σ : Type) (rpc : RpcCmd σ) (s : σ), ∃ r, call.run rpc.logged alloc (s, []) m = some r ∧
    call.IsError r.ret ∧
    (r.world.2 = [] ∨ ∀ m', (∀ a ∈ ta, m' a = m a) →
      ∃ r', call.run rpc.logged alloc (s, []) m' = some r' ∧ r'.world.2 = r.world.2) ∧
    ∀ a, a ∉ ta → r.mem a = m a

/-- A shared block cannot be allocated, and the wrapper has an error for it. -/
def Refused (alloc : AllocPayload) (m : Memory) (call : PtrCall) : Prop :=
  ∃ c, call.load m = some c ∧ ¬ c.Sent alloc ∧
    match call with
    | getcwd buf _ => buf = NULL_PTR
    | fcntl_flock .. => False
    | _ => True

theorem refused_stays_inside {ta : Set Addr} {alloc : AllocPayload} {m : Memory} {call : PtrCall}
    (refused : call.Refused alloc m) : call.StaysInside ta alloc m := by
  obtain ⟨c, loaded, unsent, kind⟩ := refused
  intro σ rpc s
  have kept : ∃ r, call.run rpc.logged alloc (s, []) m = some r ∧ call.IsError r.ret ∧
      r.world.2 = [] ∧ r.mem = m := by
    unfold run
    rw [loaded, Option.bind_some]
    have negative : (sext 4294967295#32).toInt < 0 := by decide
    cases call with
    | fcntl_flock => exact kind.elim
    | open_ | access | mkdir | rmdir | truncate =>
      obtain ⟨path, -, rfl⟩ := Option.map_eq_some_iff.mp loaded
      simp [VfsCall.Sent, VfsCall.blocks] at unsent
      simp [syscall_vfs_open, syscall_vfs_access, syscall_vfs_mkdir, syscall_vfs_rmdir,
        syscall_vfs_truncate, withPayload_exit unsent, IsError, store, negative]
    | unlink =>
      obtain ⟨path, -, rfl⟩ := Option.map_eq_some_iff.mp loaded
      simp [VfsCall.Sent, VfsCall.blocks] at unsent
      simp [syscall_vfs_unlink, withPayload_exit unsent, IsError, store, negative,
        intBytes_ofIntBytes (Memory.length_bytes m _ 4), Memory.store_bytes]
    | getenv =>
      obtain ⟨path, -, rfl⟩ := Option.map_eq_some_iff.mp loaded
      simp [VfsCall.Sent, VfsCall.blocks] at unsent
      simp [syscall_vfs_getenv, withPayload_exit unsent, IsError, store, NULL_PTR]
    | stat | utimes =>
      obtain ⟨path, -, rfl⟩ := Option.map_eq_some_iff.mp loaded
      simp [VfsCall.Sent, VfsCall.blocks] at unsent
      simp [syscall_vfs_stat, syscall_vfs_utimes, twoPayloads_exit unsent, IsError, store,
        negative, cstruct, Memory.store_bytes]
    | fstat | write | read | pread | pwrite =>
      obtain rfl := Option.some.inj loaded
      simp [VfsCall.Sent, VfsCall.blocks] at unsent
      simp [syscall_vfs_fstat, syscall_vfs_write, syscall_vfs_read, syscall_vfs_pread,
        syscall_vfs_pwrite, withPayload_exit unsent, IsError, store, negative, buffer, cstruct,
        Memory.store_bytes]
    | getcwd =>
      obtain rfl := Option.some.inj loaded
      simp [VfsCall.Sent, VfsCall.blocks] at unsent
      simp [syscall_vfs_getcwd, withPayload_exit unsent, IsError, store, buffer,
        Memory.store_bytes]
      exact kind
    | gettimeofday tv tz =>
      obtain rfl := Option.some.inj loaded
      simp [VfsCall.Sent, VfsCall.blocks] at unsent
      by_cases null : tz = NULL_PTR
      · simp [syscall_vfs_gettimeofday, twoPayloads_exit unsent, IsError, store, negative, cstruct,
          Memory.store_bytes, null]
      · simp [syscall_vfs_gettimeofday, twoPayloads_exit unsent, IsError, store, negative, cstruct,
          Memory.store_bytes, null]
    | time =>
      obtain rfl := Option.some.inj loaded
      simp [VfsCall.Sent, VfsCall.blocks] at unsent
  obtain ⟨r, ran, error, silent, mem⟩ := kept
  exact ⟨r, ran, error, .inl silent, fun a _ => congrFun mem a⟩

theorem refuses_logged {σ : Type} {rpc : RpcCmd σ} {s : σ} (refuses : Refuses rpc s)
    (log : List Request) : Refuses rpc.logged (s, log) := refuses

/-- A call that makes its request returns no error when the request is refused, unless
its error is NULL. -/
theorem null_of_inside {ta : Set Addr} {alloc : AllocPayload} {m : Memory} {call : PtrCall}
    {c : VfsCall} (loaded : call.load m = some c) (sent : c.Sent alloc)
    (inside : call.StaysInside ta alloc m) :
    (∃ size, call = getcwd NULL_PTR size) ∨ ∃ name, call = getenv name := by
  obtain ⟨r, ran, error, -⟩ := inside Unit badParameters ()
  unfold run at ran
  rw [loaded, Option.bind_some] at ran
  have answered (fallible : c.HasFailure) :
      ∃ s' o, c.run badParameters.logged alloc ((), []) = some (s', o) ∧ ¬ o.ret.toInt < 0 := by
    obtain ⟨s', o, made, zero⟩ := VfsCall.failed_request_returns_zero
      (refuses_logged (refuses_badParameters ()) []) c fallible sent
    refine ⟨s', o, made, ?_⟩
    rw [zero]
    decide
  cases call with
  | getcwd buf size =>
    obtain ⟨made, -, rfl⟩ := Option.map_eq_some_iff.mp ran
    have null : buf = NULL_PTR := error
    exact .inl ⟨size, by rw [null]⟩
  | getenv name => exact .inr ⟨name, rfl⟩
  | time t =>
    obtain rfl := Option.some.inj loaded
    simp [syscall_vfs_time, RpcCmd.logged, badParameters] at ran
    subst ran
    exact absurd error (show ¬ (0#64).toInt < 0 by decide)
  | open_ | access | stat | mkdir | rmdir | unlink | truncate | utimes =>
    obtain ⟨path, -, rfl⟩ := Option.map_eq_some_iff.mp loaded
    obtain ⟨s', o, made, success⟩ := answered trivial
    rw [made] at ran
    obtain rfl := Option.some.inj ran
    exact absurd error success
  | fstat | write | read | pread | pwrite | gettimeofday | fcntl_flock =>
    obtain rfl := Option.some.inj loaded
    obtain ⟨s', o, made, success⟩ := answered trivial
    rw [made] at ran
    obtain rfl := Option.some.inj ran
    exact absurd error success

/-- Answers with a block of its own. -/
def answerWith (block : Bytes) : RpcCmd Unit := fun s m => (s, ⟨[block], m.params⟩, TEEC_SUCCESS)

theorem getcwd_overwrites {ta : Set Addr} {alloc : AllocPayload} {m : Memory} {buf a : Addr}
    {size : BitVec 64} (given : Given alloc 0 size.toNat) (named : (a - buf).toNat < size.toNat)
    (foreign : a ∉ ta) : ¬ (getcwd buf size).StaysInside ta alloc m := by
  intro inside
  obtain ⟨r, ran, -, -, kept⟩ := inside Unit (answerWith ((m.bytes buf size.toNat).map (· + 1))) ()
  obtain ⟨va, -, -, payload⟩ := given.withPayload_eq
  simp [run, load, syscall_vfs_getcwd, payload, RpcCmd.logged, answerWith, store] at ran
  subst ran
  have byte : ((m.bytes buf size.toNat).map (· + 1))[(a - buf).toNat]? = some (m a + 1) := by
    rw [List.getElem?_map, Memory.getElem?_bytes m buf named, Option.map_some]
    congr 3
    bv_omega
  have length : ((m.bytes buf size.toNat).map (· + 1)).length = size.toNat := by
    rw [List.length_map, Memory.length_bytes]
  have written := Memory.store_apply m (length.trans_le size.isLt.le) (length ▸ named)
  have whole : ((m.bytes buf size.toNat).map (· + 1)).take size.toNat =
      (m.bytes buf size.toNat).map (· + 1) := List.take_of_length_le length.le
  have left := kept a foreign
  dsimp only at left
  rw [whole] at left
  rw [byte, left] at written
  have same := congrArg UInt8.toNat (Option.some.inj written)
  rw [UInt8.toNat_add, show (1 : UInt8).toNat = 1 from rfl] at same
  have small := (m a).toNat_lt
  omega

theorem getenv_sends (alloc : AllocPayload) (name : CStr) :
    ∃ log ret, syscall_vfs_getenv badParameters.logged alloc ((), []) name = (((), log), ret) ∧
      (log = [] → ¬ Given alloc 0 name.mem.length) ∧
      ∀ q ∈ log.getLast?, ∃ va, q.shm = [splice va 0 name.mem] := by
  unfold syscall_vfs_getenv
  by_cases given : Given alloc 0 name.mem.length
  · obtain ⟨va, -, -, payload⟩ := given.withPayload_eq
    rw [payload]
    by_cases given' : Given alloc 1 0
    · obtain ⟨va', -, -, payload'⟩ := given'.withPayload_eq
      simp [payload', RpcCmd.logged, badParameters]
      exact ⟨va, rfl⟩
    · simp [withPayload_exit given', RpcCmd.logged, badParameters]
      exact ⟨va, rfl⟩
  · rw [withPayload_exit given]
    exact ⟨[], _, rfl, fun _ => given, fun q member => by cases member⟩

/-- The bytes of a string that was sent are those of the request. -/
theorem getElem?_of_splice {va va' : Bytes} {s s' : CStr} {i : Nat} {b b' : UInt8}
    (same : splice va 0 s.mem = splice va' 0 s'.mem) (h : s.mem[i]? = some b)
    (h' : s'.mem[i]? = some b') : b = b' := by
  have first := congrArg (·[i]?) same
  obtain ⟨inside, -⟩ := List.getElem?_eq_some_iff.mp h
  obtain ⟨inside', -⟩ := List.getElem?_eq_some_iff.mp h'
  simp only [splice_start, List.getElem?_append_left inside, List.getElem?_append_left inside', h,
    h', Option.some.injEq] at first
  exact first

theorem getenv_tells {ta : Set Addr} {alloc : AllocPayload} {m : Memory} {p a : Addr} {s : CStr}
    (loaded : m.str p = some s) (given : Given alloc 0 s.mem.length)
    (named : (a - p).toNat < s.mem.length) (foreign : a ∉ ta) :
    ¬ (getenv p).StaysInside ta alloc m := by
  intro inside
  obtain ⟨log, ret, made, silent, last⟩ := getenv_sends alloc s
  obtain ⟨r, ran, -, told, -⟩ := inside Unit badParameters ()
  simp only [run, load, loaded, Option.map_some, Option.bind_some, VfsCall.run, made] at ran
  obtain rfl := Option.some.inj ran
  have spoke : log ≠ [] := fun none_sent => silent none_sent given
  -- the memory in which that byte is another
  obtain ⟨x, nonzero, other⟩ : ∃ x : UInt8, x ≠ 0 ∧ m a ≠ x := by
    by_cases one : m a = 1
    · exact ⟨2, by decide, by rw [one]; decide⟩
    · exact ⟨1, by decide, one⟩
  obtain ⟨r', ran', same⟩ := told.resolve_left spoke (Function.update m a x) (by
    intro b member
    apply Function.update_of_ne
    rintro rfl
    exact foreign member)
  cases loaded' : Memory.str (Function.update m a x) p with
  | none =>
    simp only [run, load, loaded'] at ran'
    cases ran'
  | some s' =>
    obtain ⟨log', ret', made', -, last'⟩ := getenv_sends alloc s'
    simp only [run, load, loaded', Option.map_some, Option.bind_some, VfsCall.run, made'] at ran'
    obtain rfl := Option.some.inj ran'
    obtain rfl : log' = log := same
    obtain ⟨va, shm⟩ := last _ (List.getLast?_eq_some_getLast spoke)
    obtain ⟨va', shm'⟩ := last' _ (List.getLast?_eq_some_getLast spoke)
    have blocks := List.cons.inj (shm.symm.trans shm')
    have old : s.mem[(a - p).toNat]? = some (m a) := by
      rw [(Memory.str_bytes loaded).1, Memory.getElem?_bytes m p named]
      congr 2
      bv_omega
    have new := Memory.str_update loaded named nonzero loaded'
    exact other (getElem?_of_splice blocks.1 old new)

/-- A call with a pointer out of the TA's mapping stays inside just when its wrapper
gets no block to pass on, and has an error for that. -/
theorem stays_inside_iff (ta : Set Addr) (alloc : AllocPayload) (m : Memory) (call : PtrCall) :
    (call.NamesForeign ta m → call.StaysInside ta alloc m) ↔
      ¬ call.NamesForeign ta m ∨ call.Refused alloc m := by
  constructor
  · intro stays
    by_cases foreign : call.NamesForeign ta m
    swap
    · exact .inl foreign
    have inside := stays foreign
    obtain ⟨r, ran, error, -⟩ := inside Unit badParameters ()
    obtain ⟨c, loaded, called⟩ := Option.bind_eq_some_iff.mp ran
    have unsent : ¬ c.Sent alloc := by
      intro sent
      obtain ⟨range, member, a, named, outside⟩ := foreign
      rcases null_of_inside loaded sent inside with ⟨size, rfl⟩ | ⟨name, rfl⟩
      · obtain rfl := Option.some.inj loaded
        obtain rfl := List.mem_singleton.mp member
        simp [VfsCall.Sent, VfsCall.blocks] at sent
        exact getcwd_overwrites sent named outside inside
      · obtain ⟨s, found, rfl⟩ := Option.map_eq_some_iff.mp loaded
        obtain rfl := List.mem_singleton.mp member
        simp [VfsCall.Sent, VfsCall.blocks] at sent
        rw [strRange, found] at named
        rw [← CStr.length_mem] at sent
        exact getenv_tells found sent named outside inside
    refine .inr ⟨c, loaded, unsent, ?_⟩
    cases call with
    | getcwd buf size =>
      obtain ⟨made, -, rfl⟩ := Option.map_eq_some_iff.mp called
      exact error
    | fcntl_flock =>
      obtain rfl := Option.some.inj loaded
      simp [VfsCall.Sent, VfsCall.blocks] at unsent
      simp [syscall_vfs_fcntl_flock, withPayload_exit unsent] at called
    | _ => trivial
  · rintro (inside | refused)
    · exact fun foreign => absurd foreign inside
    · exact fun _ => refused_stays_inside refused

/-- A mapping of one page from address 0 on, and a memory with one byte everywhere. -/
def lowPage : Set Addr := {a | a.toNat < 0x1000}

def filled : Memory := fun _ => 0x5a

/-- The byte behind the mapping goes to the normal world, and is written by it. -/
theorem core_byte_is_sent_and_written :
    ¬ ((write 3 0x1000 1).NamesForeign lowPage filled →
      (write 3 0x1000 1).StaysInside lowPage freshBlocks filled) ∧
    (∃ r, (write 3 0x1000 1).run badParameters.logged freshBlocks ((), []) filled = some r ∧
      r.world.2.map Request.shm = [[[0x5a]]]) ∧
    ∃ r, (read 3 0x1000 1).run (answerWith [7]).logged freshBlocks ((), []) filled = some r ∧
      r.mem 0x1000 = 7 := by
  refine ⟨?_, ⟨_, rfl, rfl⟩, ⟨_, rfl, rfl⟩⟩
  intro stays
  have foreign : (write 3 0x1000 1).NamesForeign lowPage filled := by
    refine ⟨_, List.mem_singleton_self _, 0x1000, by decide, ?_⟩
    intro inside
    exact absurd (show (0x1000 : Addr).toNat < 0x1000 from inside) (by decide)
  have sent : VfsCall.Sent freshBlocks (.write 3 (buffer filled 0x1000 1)) := by
    intro block _
    exact allocates_freshBlocks block.2 block.1
  rcases null_of_inside rfl sent (stays foreign) with ⟨size, call⟩ | ⟨name, call⟩
  · cases call
  · cases call

end PtrCall
end TeeSqlite
