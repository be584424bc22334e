import TeeSqlite.Rpc.Validated

/-! The byte ranges of shared memory that the handlers give away. The checks bound the
size that a reference states itself; the count comes from another parameter, or is the
size of a structure. -/
namespace TeeSqlite.Traced
open CTypes

/-- The ranges that the library or `memcpy` gets, each a pointer and a count. -/
def Event.ranges : Event → List (Option Va × Nat)
  | .libc call => call.buffers
  | .memcpy dst _ n => [(dst, n.toNat)]
  | _ => []

def rangesOf (trace : List Event) : List (Option Va × Nat) := trace.flatMap Event.ranges

/-- The region and the offset in it that a reference names. -/
def Names (shms : List TeeShm) (p : Param) (va : Va) : Prop :=
  p.IsMemref ∧ find_tshm shms p.shmId = some va.shm ∧ va.offs = p.shmOffs

/-- Every range that is not NULL is at the place that one of the references names, and
ends with its region or before. -/
def InRegions (num_params : Nat) (shms : List TeeShm) (params : Nat → Param) (o : Outcome) : Prop :=
  ∀ r ∈ rangesOf o.trace, ∀ va, r.1 = some va →
    (∃ idx < num_params, Names shms (params idx) va) ∧ va.offs + r.2 ≤ va.shm.size.toNat

section
variable (shms : List TeeShm) (os : List LibcCall → OsResult) (params : Nat → Param)

/-- The checks of the handlers that give away a range. -/
def checksOf : VfsOp → List Check
  | .READ | .PREAD => [.memref 1, .value 0 0, .value 2 2]
  | .WRITE => [.value 0 0, .value 1 1]
  | .GETCWD => [.value 2 2, .memref 1, .value 0 0]
  | .STAT | .GETENV => [.value 0 0, .memref 2]
  | .FSTAT | .FCNTL_FLOCK => [.value 0 0, .value 1 1, .memref 2]
  | .GETTIMEOFDAY => [.value 0 0, .memref 1, .memref 2]
  | .UTIMES => [.value 0 0]
  | _ => []

/-- The length of the variable that a request asks for, if it is set. -/
def envLength : Option Nat :=
  (param_to_va shms (params 1)).bind fun name =>
    (os [.getenv (some name)]).env.map fun value => (sext (intLength value)).toNat

/-- The slots of the buffers of an operation, and the count for each. -/
def counted : VfsOp → List (Nat × Nat)
  | .READ | .PREAD => [(1, (params 2).b.toNat)]
  | .WRITE => [(2, (params 1).b.toNat)]
  | .GETCWD => [(1, (params 2).a.toNat)]
  | .STAT | .FSTAT => [(2, SIZEOF_STAT)]
  | .FCNTL_FLOCK => [(2, SIZEOF_FLOCK)]
  | .GETTIMEOFDAY => [(1, SIZEOF_TIMEVAL), (2, SIZEOF_TIMEZONE)]
  | .UTIMES => [(2, SIZEOF_TIMES)]
  | .GETENV => (envLength shms os params).toList.map fun n => (2, n)
  | _ => []

/-- A count of bytes from the offset of a reference stays inside its region. -/
def Inside (c : Nat × Nat) : Prop :=
  ∀ va, param_to_va shms (params c.1) = some va → va.offs + c.2 ≤ va.shm.size.toNat

end

section
variable {num_params : Nat} {shms : List TeeShm} {os : List LibcCall → OsResult}
  {params : Nat → Param}

theorem names_of_va {p : Param} {va : Va} (h : param_to_va shms p = some va) :
    Names shms p va := by
  unfold param_to_va at h
  split_ifs at h with memref
  cases found : find_tshm shms p.shmId with
  | none =>
    rw [found] at h
    cases h
  | some tshm =>
    rw [found] at h
    dsimp only at h
    split_ifs at h
    cases h
    exact ⟨memref, found, rfl⟩

/-- The two ways to a buffer lead to the same place. -/
theorem get_param_va (p : Param) : (get_param shms p).getD none = param_to_va shms p := by
  unfold get_param param_to_va
  by_cases memref : p.IsMemref
  · rw [if_pos memref, if_pos memref]
    cases find_tshm shms p.shmId with
    | none =>
      dsimp only
      split <;> rfl
    | some tshm =>
      dsimp only
      split <;> rfl
  · rw [if_neg memref, if_neg memref]
    rfl

@[simp] theorem rangesOf_cons (e : Event) (trace : List Event) :
    rangesOf (e :: trace) = e.ranges ++ rangesOf trace := List.flatMap_cons

theorem rangesOf_slots {slots : List Event} (all : ∀ e ∈ slots, ∃ i < num_params, e = .slot i)
    (trace : List Event) : rangesOf (slots ++ trace) = rangesOf trace := by
  have none : slots.flatMap Event.ranges = [] := by
    rw [List.flatMap_eq_nil_iff]
    intro e member
    obtain ⟨i, -, rfl⟩ := all e member
    rfl
  rw [rangesOf, List.flatMap_append, none, List.nil_append, rangesOf]

/-- With these slots the rest of a handler gives away the ranges `rs`. -/
def Adds (params : Nat → Param) (rs : List (Option Va × Nat)) (h : Handler) : Prop :=
  ∀ trace, rangesOf (h params trace).trace = rs ++ rangesOf trace

variable {rs : List (Option Va × Nat)}

theorem adds_ret {status : TEEC_Result} : Adds params [] (ret status) := fun _ => rfl

theorem adds_load {p : Option Nat} {i : Nat} {rest : Param → Handler} (set : p = some i)
    (h : Adds params rs (rest (params i))) : Adds params rs (load p rest) := by
  subst set
  exact fun trace => h (.value (some i) :: trace)

theorem adds_store {p : Option Nat} {i : Nat} {words : Param → Param} {rest : Handler}
    (set : p = some i)
    (h : Adds (fun j => if j = i then words (params i) else params j) rs rest) :
    Adds params rs (store p words rest) := by
  subst set
  exact fun trace => h (.value (some i) :: trace)

theorem adds_libc {call : LibcCall} {rs' : List (Option Va × Nat)} {rest : OsResult → Handler}
    (name : call.hasName = true) (h : ∀ r, Adds params rs (rest r))
    (all : rs ++ call.buffers = rs') : Adds params rs' (libc os call rest) := by
  intro trace
  rw [libc, if_pos name, h, rangesOf_cons, ← all, List.append_assoc]
  rfl

theorem adds_va {idx : Nat} {rest : Option Va → Handler}
    (h : Adds params rs (rest (param_to_va shms (params idx)))) :
    Adds params rs (tee_supp_param_to_va shms idx rest) :=
  fun trace => h (.slot idx :: trace)

theorem adds_called {l : Locals} {call : LibcCall} {b : OsResult → BitVec 64}
    (set : l.val 0 = some 0) (name : call.hasName = true) (buffers : call.buffers = rs) :
    Adds params rs (called os l call b) :=
  adds_libc name (fun _ => adds_store set adds_ret) buffers

theorem adds_null {p : Option Nat} {rest : Param → Handler} (null : p = none) :
    Adds params [] (load p rest) := by
  subst null
  exact fun _ => rfl

/-- A handler gives away ranges inside their regions just when it refuses the request or
what its body gives away, no call having been made before, is inside. -/
theorem inRegions_first {num : Nat} {checks : List Check} {bad : TEEC_Result}
    {body : Locals → Handler} {places : List (Nat × Nat)} (slots : ∀ c ∈ places, c.1 < num)
    (h : ∀ trace, calls trace = [] → ∀ va n,
      (some va, n) ∈ rangesOf
          (body (checks.foldl (Locals.assign shms params) .unset) params trace).trace ↔
        (some va, n) ∈ places.map (fun c => (param_to_va shms (params c.1), c.2)) ++
          rangesOf trace)
    {trace : List Event} (quiet : rangesOf trace = []) (silent : calls trace = []) :
    InRegions num_params shms params
        (checked num_params shms num checks bad body params trace) ↔
      (Accepted num_params shms num checks params → ∀ c ∈ places, Inside shms params c) := by
  by_cases accepted : Accepted num_params shms num checks params
  · obtain ⟨before, all, run⟩ := checked_accepted bad body accepted trace
    have given := h _ ((calls_slots all trace).trans silent)
    rw [rangesOf_slots all, quiet, List.append_nil] at given
    rw [run, forall_prop_of_true accepted]
    constructor
    · intro inside c member va there
      have range := List.mem_map_of_mem (f := fun c => (param_to_va shms (params c.1), c.2)) member
      rw [there] at range
      exact (inside _ ((given va c.2).mpr range) va rfl).2
    · rintro inside ⟨p, n⟩ member va there
      obtain rfl : p = some va := there
      obtain ⟨c, place, same⟩ := List.mem_map.mp ((given va n).mp member)
      obtain ⟨there, rfl⟩ := Prod.mk.inj same
      exact ⟨⟨c.1, accepted.1 ▸ slots c place, names_of_va there⟩, inside c place va there⟩
  · obtain ⟨before, all, run⟩ := checked_refused bad body accepted trace
    rw [run]
    apply iff_of_true
    · intro r member
      rw [rangesOf_slots all, quiet] at member
      exact absurd member List.not_mem_nil
    · exact fun passed => absurd passed accepted

theorem inRegions_checked {num : Nat} {checks : List Check} {bad : TEEC_Result}
    {body : Locals → Handler} {places : List (Nat × Nat)} (slots : ∀ c ∈ places, c.1 < num)
    (h : Adds params (places.map fun c => (param_to_va shms (params c.1), c.2))
      (body (checks.foldl (Locals.assign shms params) .unset))) {trace : List Event}
    (quiet : rangesOf trace = [] ∧ calls trace = []) :
    InRegions num_params shms params
        (checked num_params shms num checks bad body params trace) ↔
      (Accepted num_params shms num checks params → ∀ c ∈ places, Inside shms params c) :=
  inRegions_first slots (fun trace _ va n => by rw [h trace]) quiet.1 quiet.2

/-- A handler without ranges. -/
theorem inRegions_none {num : Nat} {checks : List Check} {bad : TEEC_Result}
    {body : Locals → Handler}
    (h : Adds params [] (body (checks.foldl (Locals.assign shms params) .unset)))
    {trace : List Event} (quiet : rangesOf trace = [] ∧ calls trace = []) :
    InRegions num_params shms params (checked num_params shms num checks bad body params trace) :=
  (inRegions_checked (fun _ none => absurd none List.not_mem_nil) h quiet).mpr
    fun _ _ none => absurd none List.not_mem_nil

theorem inRegions_valuesCall {call : Param → LibcCall} {b : OsResult → BitVec 64}
    {trace : List Event} (quiet : rangesOf trace = [] ∧ calls trace = [])
    (name : ∀ p, (call p).hasName = true)
    (given : ∀ p, (call p).buffers = []) :
    InRegions num_params shms params (valuesCall num_params shms os call b params trace) :=
  inRegions_none (adds_load rfl (adds_called rfl (name _) (given _))) quiet

theorem inRegions_plainCall {call : LibcCall} {b : OsResult → BitVec 64} {trace : List Event}
    (quiet : rangesOf trace = [] ∧ calls trace = []) (name : call.hasName = true)
    (given : call.buffers = []) :
    InRegions num_params shms params (plainCall num_params shms os call b params trace) :=
  inRegions_none (adds_called rfl name given) quiet

theorem inRegions_pathCall {call : Option Va → LibcCall} {trace : List Event}
    (quiet : rangesOf trace = [] ∧ calls trace = []) (name : ∀ path, (call path).hasName = true)
    (given : ∀ path, (call path).buffers = []) :
    InRegions num_params shms params (pathCall num_params shms os call params trace) :=
  inRegions_none (adds_va (adds_called rfl (name _) (given _))) quiet

theorem inRegions_pathValueCall {call : Option Va → Param → LibcCall} {trace : List Event}
    (quiet : rangesOf trace = [] ∧ calls trace = []) (name : ∀ path p, (call path p).hasName = true)
    (given : ∀ path p, (call path p).buffers = []) :
    InRegions num_params shms params (pathValueCall num_params shms os call params trace) :=
  inRegions_none (adds_va (adds_load rfl (adds_called rfl (name _ _) (given _ _)))) quiet

/-- The buffer that the checks set for a slot. -/
theorem buffer_va (idx n : Nat) :
    [((get_param shms (params idx)).getD none, n)] = [(param_to_va shms (params idx), n)] := by
  rw [get_param_va]

/-- Only the copy at the end of `vfs_getenv` gets a range. -/
theorem ranges_getenvBody {l : Locals} (set : l.val 0 = some 0)
    (buffer : l.buffer 2 = param_to_va shms (params 2)) {trace : List Event}
    (silent : calls trace = []) (va : Va) (n : Nat) :
    (some va, n) ∈ rangesOf (getenvBody shms os l params trace).trace ↔
      (some va, n) ∈ (counted shms os params .GETENV).map
        (fun c => (param_to_va shms (params c.1), c.2)) ++ rangesOf trace := by
  unfold getenvBody tee_supp_param_to_va emit libc counted envLength
  dsimp only
  cases there : param_to_va shms (params 1) with
  | none => rfl
  | some name =>
    have named : LibcCall.hasName (.getenv (some name)) = true := rfl
    rw [if_pos named, calls_libc, calls_slot, silent, Option.bind_some]
    cases env : (os [.getenv (some name)]).env with
    | none => rfl
    | some value =>
      simp only [store, emit, set, buffer]
      cases dst : param_to_va shms (params 2) with
      | none => simp [ret, dst, Event.ranges, LibcCall.buffers]
      | some dst' =>
        by_cases negative : (intLength value).toInt < 0
        · simp [negative, crash, dst, Event.ranges, LibcCall.buffers]
        · simp [negative, ret, dst, Event.ranges, LibcCall.buffers]

/-- What the request has to meet for each operation. -/
theorem inRegions_handlerOf (op : VfsOp) {trace : List Event}
    (quiet : rangesOf trace = [] ∧ calls trace = []) :
    InRegions num_params shms params (handlerOf num_params shms os op params trace) ↔
      (Accepted num_params shms 3 (checksOf op) params →
        ∀ c ∈ counted shms os params op, Inside shms params c) := by
  have nowhere {p : Prop} : p → ∀ c ∈ ([] : List (Nat × Nat)), Inside shms params c :=
    fun _ _ none => absurd none List.not_mem_nil
  cases op with
  | OPEN =>
    exact iff_of_true (inRegions_pathValueCall quiet (fun _ _ => rfl) fun _ _ => rfl) nowhere
  | MKDIR =>
    exact iff_of_true (inRegions_pathValueCall quiet (fun _ _ => rfl) fun _ _ => rfl) nowhere
  | RMDIR | UNLINK =>
    exact iff_of_true (inRegions_pathCall quiet (fun _ => rfl) fun _ => rfl) nowhere
  | GETEUID | GETPID | TIME => exact iff_of_true (inRegions_plainCall quiet rfl rfl) nowhere
  | CLOSE | FTRUNCATE | FCHMOD | FCHOWN | LSEEK | FSYNC | SLEEP | FCNTL_VOID | FCNTL_INT
  | FILESIZE => exact iff_of_true (inRegions_valuesCall quiet (fun _ => rfl) fun _ => rfl) nowhere
  | ACCESS =>
    exact iff_of_true (inRegions_none (adds_va (adds_load rfl (adds_called rfl rfl rfl))) quiet)
      nowhere
  | TRUNCATE =>
    exact iff_of_true (inRegions_none (adds_load rfl (adds_va (adds_called rfl rfl rfl))) quiet)
      nowhere
  | PWRITE => exact iff_of_true (inRegions_none (adds_va (adds_null rfl)) quiet) nowhere
  | USLEEP =>
    exact iff_of_true (inRegions_none
      (adds_load rfl (adds_libc rfl (fun _ => adds_store rfl adds_ret) rfl)) quiet) nowhere
  | READ | PREAD =>
    apply inRegions_checked (by simp [counted]) _ quiet
    apply adds_load rfl
    exact adds_called rfl rfl (buffer_va 1 _)
  | WRITE =>
    exact inRegions_checked (by simp [counted])
      (adds_va (adds_load rfl (adds_called rfl rfl rfl))) quiet
  | STAT =>
    apply inRegions_checked (by simp [counted]) _ quiet
    apply adds_va
    exact adds_called rfl rfl (buffer_va 2 _)
  | UTIMES =>
    exact inRegions_checked (by simp [counted])
      (adds_va (adds_va (adds_called rfl rfl rfl))) quiet
  | FCNTL_FLOCK =>
    apply inRegions_checked (by simp [counted]) _ quiet
    apply adds_load rfl
    exact adds_called rfl rfl (buffer_va 2 _)
  | GETTIMEOFDAY =>
    apply inRegions_checked (by simp [counted]) _ quiet
    exact adds_called rfl rfl
      (congrArg₂ List.append (buffer_va 1 SIZEOF_TIMEVAL) (buffer_va 2 SIZEOF_TIMEZONE))
  | GETCWD =>
    apply inRegions_checked (by simp [counted]) _ quiet
    apply adds_load rfl
    exact adds_libc rfl (fun _ => adds_store rfl adds_ret) (buffer_va 1 _)
  | FSTAT =>
    apply inRegions_checked (by simp [counted]) _ quiet
    apply adds_load rfl
    have second (m : Nat → Param) : Adds m []
        (libc os (.fstat_local (low (params 1).a)) fun r =>
          store (some 0) (setBC r.int r.st_size) (ret TEEC_SUCCESS)) :=
      adds_libc rfl (fun _ => adds_store rfl adds_ret) rfl
    exact adds_libc rfl (fun _ => adds_store rfl (second _)) (buffer_va 2 _)
  | GETENV =>
    apply inRegions_first _ _ quiet.1 quiet.2
    · intro c member
      obtain ⟨n, -, rfl⟩ := List.mem_map.mp member
      exact Nat.lt_succ_self 2
    · intro trace silent va n
      exact ranges_getenvBody rfl (get_param_va _) silent va n

end

/-- The ranges are inside their regions just when the request is refused, or gives a count
for each buffer that its region has room for behind the offset. -/
theorem process_inRegions_iff (num_params : Nat) (shms : List TeeShm)
    (os : List LibcCall → OsResult) (params : Nat → Param) :
    InRegions num_params shms params (tee_supp_vfs_process num_params shms os params []) ↔
      ∀ op, opOf (params 0).a = some op → Accepted num_params shms 3 (checksOf op) params →
        ∀ c ∈ counted shms os params op, Inside shms params c := by
  rw [tee_supp_vfs_process, emit]
  cases op : opOf (params 0).a with
  | none =>
    apply iff_of_true
    · exact fun r none => absurd none List.not_mem_nil
    · intro op' same
      cases same
  | some op' =>
    have quiet : rangesOf [.slot 0] = [] ∧ calls [.slot 0] = [] := ⟨rfl, rfl⟩
    apply (inRegions_handlerOf op' quiet).trans
    constructor
    · intro inside op'' same
      cases same
      exact inside
    · exact fun inside => inside op' rfl

/-- A read of 8192 bytes into a region of 4096. -/
def longRead : Nat → Param
  | 0 => ⟨TEE_IOCTL_PARAM_ATTR_TYPE_VALUE_INOUT, OPTEE_VFS .READ, 0, 0⟩
  | 1 => ⟨TEE_IOCTL_PARAM_ATTR_TYPE_MEMREF_OUTPUT, 0, 4096, 7⟩
  | 2 => ⟨TEE_IOCTL_PARAM_ATTR_TYPE_VALUE_INPUT, 3, 8192, 0⟩
  | _ => ⟨0, 0, 0, 0⟩

/-- The reference is inside its region, and `read` may write behind it. -/
theorem read_leaves_its_region :
    LibcCall.read 3 (some ⟨⟨7, 4096⟩, 0⟩) 8192 ∈
        calls (tee_supp_vfs_process 3 [⟨7, 4096⟩] idle longRead []).trace ∧
      ¬ InRegions 3 [⟨7, 4096⟩] longRead
        (tee_supp_vfs_process 3 [⟨7, 4096⟩] idle longRead []) := by
  have trace : (tee_supp_vfs_process 3 [⟨7, 4096⟩] idle longRead []).trace =
      [.value (some 0), .libc (.read 3 (some ⟨⟨7, 4096⟩, 0⟩) 8192), .value (some 2), .slot 2,
        .slot 0, .slot 1, .slot 0] := rfl
  rw [InRegions, trace]
  refine ⟨List.mem_cons_self, fun inside => ?_⟩
  have range := inside (some ⟨⟨7, 4096⟩, 0⟩, 8192) (List.mem_cons_self) _ rfl
  exact absurd range.2 (by decide)

end TeeSqlite.Traced
