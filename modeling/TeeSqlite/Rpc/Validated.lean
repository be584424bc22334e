import TeeSqlite.Rpc.Accesses

/-! Which requests the handlers serve without following a pointer that nothing has
set, and without leaving the slots they were given. -/
namespace TeeSqlite.Traced

/-- A slot is below `num_params`, a `val` points to one, and what user space reads or
writes through is not NULL. -/
def Event.Valid (num_params : Nat) : Event → Prop
  | .slot i => i < num_params
  | .value p => ∃ i < num_params, p = some i
  | .libc call => call.hasName = true
  | .strlen s => s ≠ none
  | .memcpy dst src _ => dst ≠ none ∧ src ≠ none

/-- A status is returned, everything done on the way is valid, and a request rejected
has done nothing to files. -/
structure Safe (num_params : Nat) (o : Outcome) : Prop where
  returns : o.status.isSome = true
  valid : ∀ e ∈ o.trace, e.Valid num_params
  rejected : o.status ≠ some TEEC_SUCCESS → ∀ call ∈ calls o.trace, ¬ call.OnFiles

/-- From any valid trace the handler, or the rest of one, ends well. -/
def Succeeds (num_params : Nat) (h : Handler) : Prop :=
  ∀ params trace, (∀ e ∈ trace, e.Valid num_params) →
    (h params trace).status = some TEEC_SUCCESS ∧ ∀ e ∈ (h params trace).trace, e.Valid num_params

section
variable {num_params : Nat} {shms : List TeeShm} {os : List LibcCall → OsResult}

theorem succeeds_ret : Succeeds num_params (ret TEEC_SUCCESS) := fun _ _ valid => ⟨rfl, valid⟩

theorem succeeds_emit {e : Event} {rest : Handler} (event : e.Valid num_params)
    (h : Succeeds num_params rest) : Succeeds num_params (emit e rest) := by
  intro params trace valid
  apply h
  rintro x (- | ⟨_, member⟩)
  · exact event
  · exact valid x member

theorem succeeds_load {p : Option Nat} {i : Nat} {rest : Param → Handler} (set : p = some i)
    (inside : i < num_params) (h : ∀ v, Succeeds num_params (rest v)) :
    Succeeds num_params (load p rest) := by
  subst set
  exact succeeds_emit ⟨i, inside, rfl⟩ fun params trace valid => h (params i) params trace valid

theorem succeeds_store {p : Option Nat} {i : Nat} {words : Param → Param} {rest : Handler}
    (set : p = some i) (inside : i < num_params) (h : Succeeds num_params rest) :
    Succeeds num_params (store p words rest) := by
  subst set
  exact succeeds_emit ⟨i, inside, rfl⟩ fun _ trace valid => h _ trace valid

theorem succeeds_libc {call : LibcCall} {rest : OsResult → Handler} (name : call.hasName = true)
    (h : ∀ r, Succeeds num_params (rest r)) : Succeeds num_params (libc os call rest) := by
  intro params trace valid
  rw [libc, if_pos name]
  apply h
  rintro x (- | ⟨_, member⟩)
  · exact name
  · exact valid x member

theorem succeeds_va {idx : Nat} {rest : Option Va → Handler} (inside : idx < num_params)
    (h : ∀ va, Succeeds num_params (rest va)) :
    Succeeds num_params (tee_supp_param_to_va shms idx rest) :=
  succeeds_emit inside fun params trace valid => h _ params trace valid

theorem succeeds_called {l : Locals} {i : Nat} {call : LibcCall} {b : OsResult → BitVec 64}
    (set : l.val 0 = some i) (inside : i < num_params) (name : call.hasName = true) :
    Succeeds num_params (called os l call b) :=
  succeeds_libc name fun _ => succeeds_store set inside succeeds_ret

theorem valid_slots {slots : List Event} (all : ∀ e ∈ slots, ∃ i < num_params, e = .slot i)
    {trace : List Event} (valid : ∀ e ∈ trace, e.Valid num_params) :
    ∀ e ∈ slots ++ trace, e.Valid num_params := by
  intro e member
  rcases List.mem_append.mp member with new | old
  · obtain ⟨i, inside, rfl⟩ := all e new
    exact inside
  · exact valid e old

theorem calls_slots {slots : List Event} (all : ∀ e ∈ slots, ∃ i < num_params, e = .slot i)
    (trace : List Event) : calls (slots ++ trace) = calls trace := by
  have none : slots.filterMap Event.call? = [] := by
    rw [List.filterMap_eq_nil_iff]
    intro e member
    obtain ⟨i, -, rfl⟩ := all e member
    rfl
  rw [calls, List.filterMap_append, none, List.nil_append, calls]

/-- A request that the checks refuse is answered without a call. -/
theorem safe_refused {num : Nat} {checks : List Check} {bad : TEEC_Result}
    {body : Locals → Handler} {params : Nat → Param}
    (refused : ¬ Accepted num_params shms num checks params) {trace : List Event}
    (valid : ∀ e ∈ trace, e.Valid num_params) (quiet : calls trace = []) :
    Safe num_params (checked num_params shms num checks bad body params trace) := by
  obtain ⟨slots, all, run⟩ := checked_refused bad body refused trace
  rw [run]
  refine ⟨rfl, valid_slots all valid, ?_⟩
  intro _ call member
  rw [calls_slots all, quiet] at member
  exact absurd member List.not_mem_nil

/-- A handler whose body ends well when the slots it counts are there is safe. -/
theorem safe_checked {num : Nat} {checks : List Check} {bad : TEEC_Result}
    {body : Locals → Handler} {params : Nat → Param} {trace : List Event}
    (valid : ∀ e ∈ trace, e.Valid num_params) (quiet : calls trace = [])
    (h : ∀ params, Succeeds num (body (checks.foldl (Locals.assign shms params) .unset))) :
    Safe num_params (checked num_params shms num checks bad body params trace) := by
  by_cases accepted : Accepted num_params shms num checks params
  · obtain ⟨slots, all, run⟩ := checked_accepted bad body accepted trace
    obtain ⟨success, fine⟩ := accepted.1 ▸ h params params (slots ++ trace)
      (accepted.1 ▸ valid_slots all valid)
    rw [run]
    exact ⟨by rw [success]; rfl, fine, fun failed => absurd success failed⟩
  · exact safe_refused accepted valid quiet

theorem safe_valuesCall {call : Param → LibcCall} {b : OsResult → BitVec 64}
    {params : Nat → Param} {trace : List Event} (valid : ∀ e ∈ trace, e.Valid num_params)
    (quiet : calls trace = []) (name : ∀ p, (call p).hasName = true) :
    Safe num_params (valuesCall num_params shms os call b params trace) :=
  safe_checked valid quiet fun _ =>
    succeeds_load rfl (by decide) fun p => succeeds_called rfl (by decide) (name p)

theorem safe_plainCall {call : LibcCall} {b : OsResult → BitVec 64} {params : Nat → Param}
    {trace : List Event} (valid : ∀ e ∈ trace, e.Valid num_params) (quiet : calls trace = [])
    (name : call.hasName = true) :
    Safe num_params (plainCall num_params shms os call b params trace) :=
  safe_checked valid quiet fun _ => succeeds_called rfl (by decide) name

theorem safe_pathCall {call : Option Va → LibcCall} {params : Nat → Param} {trace : List Event}
    (valid : ∀ e ∈ trace, e.Valid num_params) (quiet : calls trace = [])
    (name : ∀ path, (call path).hasName = true) :
    Safe num_params (pathCall num_params shms os call params trace) :=
  safe_checked valid quiet fun _ =>
    succeeds_va (by decide) fun path => succeeds_called rfl (by decide) (name path)

theorem safe_pathValueCall {call : Option Va → Param → LibcCall} {params : Nat → Param}
    {trace : List Event} (valid : ∀ e ∈ trace, e.Valid num_params) (quiet : calls trace = [])
    (name : ∀ path p, (call path p).hasName = true) :
    Safe num_params (pathValueCall num_params shms os call params trace) :=
  safe_checked valid quiet fun _ =>
    succeeds_va (by decide) fun path =>
    succeeds_load rfl (by decide) fun p => succeeds_called rfl (by decide) (name path p)

theorem safe_readCall {call : Param → Option Va → LibcCall} {params : Nat → Param}
    {trace : List Event} (valid : ∀ e ∈ trace, e.Valid num_params) (quiet : calls trace = [])
    (name : ∀ p buffer, (call p buffer).hasName = true) :
    Safe num_params (readCall num_params shms os call params trace) :=
  safe_checked valid quiet fun _ =>
    succeeds_load rfl (by decide) fun p => succeeds_called rfl (by decide) (name p _)

/-- Every handler but two is safe. -/
theorem safe_handlerOf {op : VfsOp} (getenv : op ≠ .GETENV) (pwrite : op ≠ .PWRITE)
    {params : Nat → Param} {trace : List Event} (valid : ∀ e ∈ trace, e.Valid num_params)
    (quiet : calls trace = []) :
    Safe num_params (handlerOf num_params shms os op params trace) := by
  cases op with
  | GETENV => exact absurd rfl getenv
  | PWRITE => exact absurd rfl pwrite
  | OPEN | MKDIR =>
    apply safe_pathValueCall valid quiet
    intro path p
    rfl
  | RMDIR | UNLINK => exact safe_pathCall valid quiet fun _ => rfl
  | GETEUID | GETPID | TIME => exact safe_plainCall valid quiet rfl
  | READ =>
    rw [handlerOf, vfs_read]
    exact safe_readCall valid quiet fun _ _ => rfl
  | PREAD =>
    rw [handlerOf, vfs_pread]
    exact safe_readCall valid quiet fun _ _ => rfl
  | CLOSE | FTRUNCATE | FCHMOD | FCHOWN | LSEEK | FSYNC | SLEEP | FCNTL_VOID | FCNTL_INT
  | FILESIZE => exact safe_valuesCall valid quiet fun _ => rfl
  | ACCESS | WRITE =>
    exact safe_checked valid quiet fun _ =>
      succeeds_va (by decide) fun _ =>
      succeeds_load rfl (by decide) fun _ => succeeds_called rfl (by decide) rfl
  | TRUNCATE =>
    exact safe_checked valid quiet fun _ =>
      succeeds_load rfl (by decide) fun _ =>
      succeeds_va (by decide) fun _ => succeeds_called rfl (by decide) rfl
  | STAT =>
    exact safe_checked valid quiet fun _ =>
      succeeds_va (by decide) fun _ => succeeds_called rfl (by decide) rfl
  | UTIMES =>
    exact safe_checked valid quiet fun _ =>
      succeeds_va (by decide) fun _ =>
      succeeds_va (by decide) fun _ => succeeds_called rfl (by decide) rfl
  | GETTIMEOFDAY => exact safe_checked valid quiet fun _ => succeeds_called rfl (by decide) rfl
  | FCNTL_FLOCK =>
    exact safe_checked valid quiet fun _ =>
      succeeds_load rfl (by decide) fun _ => succeeds_called rfl (by decide) rfl
  | GETCWD | USLEEP =>
    exact safe_checked valid quiet fun _ =>
      succeeds_load rfl (by decide) fun _ =>
      succeeds_libc rfl fun _ => succeeds_store rfl (by decide) succeeds_ret
  | FSTAT =>
    exact safe_checked valid quiet fun _ =>
      succeeds_load rfl (by decide) fun _ =>
      succeeds_libc rfl fun _ =>
      succeeds_store rfl (by decide) <|
      succeeds_libc rfl fun _ => succeeds_store rfl (by decide) succeeds_ret

/-- Without parameters every handler refuses the request. -/
theorem handlerOf_empty (shms : List TeeShm) (os : List LibcCall → OsResult) (op : VfsOp)
    (params : Nat → Param) (trace : List Event) :
    ∃ bad, handlerOf 0 shms os op params trace = ⟨params, trace, some bad⟩ := by
  cases op <;> exact ⟨_, rfl⟩

/-- The checks of `vfs_pwrite` and of `vfs_getenv`. -/
abbrev pwriteChecks : List Check := [.value 1 0]
abbrev getenvChecks : List Check := [.value 0 0, .memref 2]

/-- The NULL in `val1` is followed by every request that is not refused. -/
theorem safe_pwrite_iff {params : Nat → Param} {trace : List Event}
    (valid : ∀ e ∈ trace, e.Valid num_params) (quiet : calls trace = []) :
    Safe num_params (vfs_pwrite num_params shms os params trace) ↔
      ¬ Accepted num_params shms 3 pwriteChecks params := by
  constructor
  · intro safe accepted
    have returns := safe.returns
    unfold vfs_pwrite at returns
    obtain ⟨slots, -, run⟩ := checked_accepted TEEC_ERROR_BAD_PARAMETERS _ accepted trace
    rw [run] at returns
    cases returns
  · exact fun refused => safe_refused refused valid quiet

/-- The name is in a region, the variable is set, and its length can be copied when
there is a buffer for it. -/
def EnvFound (shms : List TeeShm) (os : List LibcCall → OsResult) (params : Nat → Param) : Prop :=
  ∃ name value, param_to_va shms (params 1) = some name ∧
    (os [.getenv (some name)]).env = some value ∧
    ((∃ buffer, get_param shms (params 2) = some (some buffer)) → 0 ≤ (intLength value).toInt)

theorem safe_getenvBody_iff {l : Locals} (set : l.val 0 = some 0) (inside : 1 < num_params)
    {params : Nat → Param} {trace : List Event} (valid : ∀ e ∈ trace, e.Valid num_params)
    (quiet : calls trace = []) :
    Safe num_params (getenvBody shms os l params trace) ↔
      ∃ name value, param_to_va shms (params 1) = some name ∧
        (os [.getenv (some name)]).env = some value ∧
        ((∃ buffer, l.buffer 2 = some buffer) → 0 ≤ (intLength value).toInt) := by
  have zero : 0 < num_params := Nat.zero_lt_of_lt inside
  unfold getenvBody tee_supp_param_to_va emit libc
  dsimp only
  cases va : param_to_va shms (params 1) with
  | none =>
    rw [if_neg (nofun : ¬ LibcCall.hasName (.getenv none) = true)]
    constructor
    · exact fun safe => absurd safe.returns Bool.false_ne_true
    · rintro ⟨name, value, there, -⟩
      cases there
  | some name =>
    have named : LibcCall.hasName (.getenv (some name)) = true := rfl
    have called : calls (.libc (.getenv (some name)) :: .slot 1 :: trace) =
        [.getenv (some name)] := by
      rw [calls_libc, calls_slot, quiet]
    rw [if_pos named, called]
    cases env : (os [.getenv (some name)]).env with
    | none =>
      constructor
      · exact fun safe => absurd safe.returns Bool.false_ne_true
      · rintro ⟨name', value, there, found, -⟩
        cases there
        rw [env] at found
        cases found
    | some value =>
      have before : ∀ e ∈ .value (some 0) :: .strlen (some value) ::
          .libc (.getenv (some name)) :: .slot 1 :: trace, e.Valid num_params := by
        simp only [List.forall_mem_cons]
        exact ⟨⟨0, zero, rfl⟩, nofun, named, inside, valid⟩
      simp only [store, emit, set]
      have only : ∀ call ∈ [LibcCall.getenv (some name)], ¬ call.OnFiles := by
        intro call member
        rw [List.mem_singleton.mp member]
        exact id
      cases buffer : l.buffer 2 with
      | none =>
        apply iff_of_true
        · refine ⟨rfl, before, fun _ => ?_⟩
          simp only [ret, calls_value, calls_strlen, called]
          exact only
        · exact ⟨name, value, rfl, env, nofun⟩
      | some dst =>
        by_cases negative : (intLength value).toInt < 0
        · rw [if_pos negative]
          constructor
          · exact fun safe => absurd safe.returns Bool.false_ne_true
          · rintro ⟨name', value', there, found, room⟩
            cases there
            rw [env] at found
            cases found
            exact absurd negative (Int.not_lt.mpr (room ⟨dst, rfl⟩))
        · rw [if_neg negative]
          apply iff_of_true
          · refine ⟨rfl, ?_, fun failed => absurd rfl failed⟩
            exact List.forall_mem_cons.mpr ⟨⟨nofun, nofun⟩, before⟩
          · exact ⟨name, value, rfl, env, fun _ => Int.not_lt.mp negative⟩

/-- The call of `vfs_getenv` and what follows, once the checks have passed. -/
theorem safe_getenv_iff {params : Nat → Param} {trace : List Event}
    (valid : ∀ e ∈ trace, e.Valid num_params) (quiet : calls trace = []) :
    Safe num_params (vfs_getenv num_params shms os params trace) ↔
      (Accepted num_params shms 3 getenvChecks params → EnvFound shms os params) := by
  by_cases accepted : Accepted num_params shms 3 getenvChecks params
  · obtain ⟨slots, all, run⟩ :=
      checked_accepted TEEC_ERROR_BAD_PARAMETERS (getenvBody shms os) accepted trace
    have silent := (calls_slots all trace).trans quiet
    have three : num_params = 3 := accepted.1
    obtain ⟨buffer, passed⟩ := Option.isSome_iff_exists.mp
      (accepted.2 (.memref 2) (List.mem_cons_of_mem _ (List.mem_singleton_self _))).2
    have local_buffer : (getenvChecks.foldl (Locals.assign shms params) .unset).buffer 2 = buffer :=
      congrArg (Option.getD · none) passed
    rw [vfs_getenv, run, safe_getenvBody_iff rfl (by omega) (valid_slots all valid) silent,
      local_buffer, forall_prop_of_true accepted, EnvFound, passed]
    simp only [Option.some_inj]
  · exact iff_of_true (safe_refused accepted valid quiet) fun passed => absurd passed accepted

end

/-- A request is served safely just when it has a parameter, is no `pwrite` that passes
the one check of its handler, and asks for a variable only that can be answered. -/
theorem process_safe_iff (num_params : Nat) (shms : List TeeShm) (os : List LibcCall → OsResult)
    (params : Nat → Param) :
    Safe num_params (tee_supp_vfs_process num_params shms os params []) ↔
      0 < num_params ∧
      (opOf (params 0).a = some .PWRITE → ¬ Accepted num_params shms 3 pwriteChecks params) ∧
      (opOf (params 0).a = some .GETENV → Accepted num_params shms 3 getenvChecks params →
        EnvFound shms os params) := by
  rw [tee_supp_vfs_process, emit]
  rcases Nat.eq_zero_or_pos num_params with rfl | some_params
  · apply iff_of_false
    · intro safe
      cases op : opOf (params 0).a with
      | none =>
        rw [op] at safe
        exact absurd (safe.valid (.slot 0) (List.mem_singleton_self _)) (Nat.lt_irrefl 0)
      | some op' =>
        obtain ⟨bad, refused⟩ := handlerOf_empty shms os op' params [.slot 0]
        rw [op] at safe
        dsimp only at safe
        rw [refused] at safe
        exact absurd (safe.valid (.slot 0) (List.mem_singleton_self _)) (Nat.lt_irrefl 0)
    · exact fun both => absurd both.1 (Nat.lt_irrefl 0)
  · have valid : ∀ e ∈ [Event.slot 0], e.Valid num_params := by
      rw [List.forall_mem_singleton]
      exact some_params
    rw [and_iff_right some_params]
    cases op : opOf (params 0).a with
    | none =>
      apply iff_of_true
      · exact ⟨rfl, valid, fun _ call member => absurd member List.not_mem_nil⟩
      · exact ⟨nofun, nofun⟩
    | some op' =>
      by_cases pwrite : op' = .PWRITE
      · subst pwrite
        apply (safe_pwrite_iff valid rfl).trans
        exact ⟨fun refused => ⟨fun _ => refused, nofun⟩, fun both => both.1 rfl⟩
      · by_cases getenv : op' = .GETENV
        · subst getenv
          apply (safe_getenv_iff valid rfl).trans
          exact ⟨fun found => ⟨nofun, fun _ => found⟩, fun both => both.2 rfl⟩
        · apply iff_of_true (safe_handlerOf getenv pwrite valid rfl)
          constructor
          · exact fun same => absurd (Option.some.inj same) pwrite
          · exact fun same => absurd (Option.some.inj same) getenv

/-- The request of the wrapper for `pwrite`: the operation, a descriptor with a count and
an offset, and a buffer. -/
def pwriteRequest : Nat → Param
  | 0 => ⟨TEE_IOCTL_PARAM_ATTR_TYPE_VALUE_INOUT, OPTEE_VFS .PWRITE, 0, 0⟩
  | 1 => ⟨TEE_IOCTL_PARAM_ATTR_TYPE_VALUE_INPUT, 3, 16, 0⟩
  | 2 => ⟨TEE_IOCTL_PARAM_ATTR_TYPE_MEMREF_INPUT, 0, 0, 7⟩
  | _ => ⟨0, 0, 0, 0⟩

/-- A C library that does nothing. -/
def idle : List LibcCall → OsResult := fun _ => ⟨0, 0, [], [], 0, none⟩

/-- The handler follows NULL, and the supplicant dies of a well-formed request. -/
theorem pwrite_follows_null :
    (tee_supp_vfs_process 3 [⟨7, 4096⟩] idle pwriteRequest []).status = none ∧
      Event.value none ∈ (tee_supp_vfs_process 3 [⟨7, 4096⟩] idle pwriteRequest []).trace ∧
      ¬ Safe 3 (tee_supp_vfs_process 3 [⟨7, 4096⟩] idle pwriteRequest []) := by
  have trace : tee_supp_vfs_process 3 [⟨7, 4096⟩] idle pwriteRequest [] =
      ⟨pwriteRequest, [.value none, .slot 2, .slot 1, .slot 0], none⟩ := rfl
  rw [trace]
  exact ⟨rfl, List.mem_cons_self, fun safe => absurd safe.returns Bool.false_ne_true⟩

end TeeSqlite.Traced
