import TeeSqlite.Lib.Oracles
import TeeSqlite.Rpc.Accesses

/-! What the handlers have in common: the regions they look up are those of their own
slots, the call of the library comes after the look-ups, and all that they write into
the request is in two words of slot 0. -/
namespace TeeSqlite.Traced
open CTypes Oracles

instance : Inhabited OsResult := ⟨⟨0, 0, [], [], 0, none⟩⟩

def Outcome.libc (o : Outcome) : List LibcCall := calls o.trace

/-- The slots are as they were, but for the words `b` and `c` of slot 0. -/
structure Frame (params params' : Nat → Param) : Prop where
  others : ∀ i, i ≠ 0 → params' i = params i
  attr : (params' 0).attr = (params 0).attr
  a : (params' 0).a = (params 0).a

theorem Frame.refl (params : Nat → Param) : Frame params params := ⟨fun _ _ => rfl, rfl, rfl⟩

theorem Frame.trans {params params' params'' : Nat → Param} (first : Frame params params')
    (second : Frame params' params'') : Frame params params'' where
  others i other := (second.others i other).trans (first.others i other)
  attr := second.attr.trans first.attr
  a := second.a.trans first.a

/-- The references of a request find the same regions in both lists. -/
def SameRegions (num_params : Nat) (params : Nat → Param) (shms shms' : List TeeShm) : Prop :=
  ∀ i < num_params, (params i).IsMemref →
    find_tshm shms (params i).shmId = find_tshm shms' (params i).shmId

/-- A handler, or the rest of one, that makes at most `n` calls. -/
structure Regular (num_params n : Nat)
    (h : List TeeShm → (List LibcCall → OsResult) → Handler) : Prop where
  makes : ∀ shms params trace,
    Makes Outcome.libc n (calls trace) fun os => h shms os params trace
  frame : ∀ shms os params trace, Frame params (h shms os params trace).params
  looks : ∀ {shms shms' params}, SameRegions num_params params shms shms' →
    ∀ os trace, h shms os params trace = h shms' os params trace

section
variable {num_params n : Nat}

theorem regular_ret (status : TEEC_Result) :
    Regular num_params n fun _ _ => ret status where
  makes _ params trace := .ends ⟨params, trace, some status⟩ (fun _ => rfl) rfl
  frame _ _ params _ := Frame.refl params
  looks _ _ _ := rfl

theorem regular_crash : Regular num_params n fun _ _ => crash where
  makes _ params trace := .ends ⟨params, trace, none⟩ (fun _ => rfl) rfl
  frame _ _ params _ := Frame.refl params
  looks _ _ _ := rfl

theorem regular_emit {h : List TeeShm → (List LibcCall → OsResult) → Handler} {e : Event}
    (silent : e.call? = none) (regular : Regular num_params n h) :
    Regular num_params n fun shms os => emit e (h shms os) where
  makes shms params trace := by
    have same : calls (e :: trace) = calls trace := List.filterMap_cons_none silent
    exact same ▸ regular.makes shms params (e :: trace)
  frame shms os params trace := regular.frame shms os params (e :: trace)
  looks same os trace := regular.looks same os (e :: trace)

theorem regular_load {h : Param → List TeeShm → (List LibcCall → OsResult) → Handler}
    (p : Option Nat) (regular : ∀ v, Regular num_params n (h v)) :
    Regular num_params n fun shms os => load p fun v => h v shms os := by
  apply regular_emit rfl
  cases p with
  | none => exact regular_crash
  | some i =>
    constructor
    · exact fun shms params trace => (regular (params i)).makes shms params trace
    · exact fun shms os params trace => (regular (params i)).frame shms os params trace
    · exact fun same os trace => (regular _).looks same os trace

/-- What is stored goes into slot 0. -/
theorem regular_store {p : Option Nat} {words : Param → Param}
    {h : (List LibcCall → OsResult) → Handler} (set : p = none ∨ p = some 0)
    (keeps : ∀ v, (words v).attr = v.attr ∧ (words v).a = v.a)
    (regular : Regular num_params n fun _ => h) :
    Regular num_params n fun _ os => store p words (h os) := by
  apply regular_emit rfl
  rcases set with rfl | rfl
  · exact regular_crash
  · constructor
    · intro shms params trace
      exact regular.makes shms _ trace
    · intro shms os params trace
      refine Frame.trans ⟨?_, ?_, ?_⟩ (regular.frame shms os _ trace)
      · intro i other
        rw [if_neg other]
      · rw [if_pos rfl]
        exact (keeps _).1
      · rw [if_pos rfl]
        exact (keeps _).2
    · intro _ _ _ _ _ _
      rfl

theorem regular_libc {call : LibcCall} {h : OsResult → (List LibcCall → OsResult) → Handler}
    (regular : ∀ r, Regular num_params n fun _ => h r) :
    Regular num_params (n + 1) fun _ os => libc os call fun r => h r os := by
  constructor
  · intro shms params trace
    cases named : call.hasName with
    | true =>
      refine .call call (fun r os => h r os params (.libc call :: trace)) (fun os => ?_)
        fun r => calls_libc call trace ▸ (regular r).makes shms params (.libc call :: trace)
      rw [libc, if_pos named, calls_libc]
    | false =>
      refine .call call (fun _ _ => ⟨params, .libc call :: trace, none⟩) (fun os => ?_)
        fun r => .ends _ (fun _ => rfl) rfl
      rw [libc, named]
      rfl
  · intro shms os params trace
    rw [libc]
    split_ifs
    · exact (regular _).frame shms os params _
    · exact Frame.refl params
  · intro _ _ _ _ _ _
    rfl

theorem SameRegions.param_to_va {params : Nat → Param} {shms shms' : List TeeShm}
    (same : SameRegions num_params params shms shms') {i : Nat} (inside : i < num_params) :
    param_to_va shms (params i) = param_to_va shms' (params i) := by
  rw [Traced.param_to_va, Traced.param_to_va]
  by_cases memref : (params i).IsMemref
  · rw [same i inside memref]
  · rw [if_neg memref, if_neg memref]

theorem SameRegions.get_param {params : Nat → Param} {shms shms' : List TeeShm}
    (same : SameRegions num_params params shms shms') {i : Nat} (inside : i < num_params) :
    get_param shms (params i) = get_param shms' (params i) := by
  rw [Traced.get_param, Traced.get_param]
  by_cases memref : (params i).IsMemref
  · rw [same i inside memref]
  · rw [if_neg memref, if_neg memref]

theorem regular_va {idx : Nat}
    {h : Option Va → List TeeShm → (List LibcCall → OsResult) → Handler}
    (inside : idx < num_params) (regular : ∀ va, Regular num_params n (h va)) :
    Regular num_params n fun shms os => tee_supp_param_to_va shms idx fun va => h va shms os := by
  apply regular_emit rfl
  constructor
  · exact fun shms params trace => (regular _).makes shms params trace
  · exact fun shms os params trace => (regular _).frame shms os params trace
  · intro shms shms' params same os trace
    rw [same.param_to_va inside]
    exact (regular _).looks same os trace

/-- `val0` is NULL or points to slot 0. -/
def Locals.Wired (l : Locals) : Prop := l.val 0 = none ∨ l.val 0 = some 0

theorem Locals.Wired.assign {l : Locals} (wired : l.Wired) {c : Check}
    (first : ∀ i, c = .value i 0 → i = 0) (shms : List TeeShm) (params : Nat → Param) :
    (l.assign shms params c).Wired := by
  cases c with
  | memref idx => exact wired
  | value idx var =>
    by_cases zero : var = 0
    · subst zero
      exact .inr (congrArg some (first idx rfl))
    · simp only [Wired, Locals.assign, if_neg (Ne.symm zero)]
      exact wired

theorem SameRegions.passes {params : Nat → Param} {shms shms' : List TeeShm}
    (same : SameRegions num_params params shms shms') (c : Check) :
    c.Passes num_params shms params ↔ c.Passes num_params shms' params := by
  cases c with
  | value idx var => exact Iff.rfl
  | memref idx =>
    refine and_congr_right fun inside => ?_
    rw [same.get_param inside]

theorem SameRegions.assign {params : Nat → Param} {shms shms' : List TeeShm}
    (same : SameRegions num_params params shms shms') {c : Check}
    (passes : c.Passes num_params shms params) (l : Locals) :
    l.assign shms params c = l.assign shms' params c := by
  cases c with
  | value idx var => rfl
  | memref idx => rw [Locals.assign, Locals.assign, same.get_param passes.1]

theorem regular_runChecks {bad : TEEC_Result} {checks : List Check} {Q : Locals → Prop}
    {h : Locals → List TeeShm → (List LibcCall → OsResult) → Handler}
    (keeps : ∀ c ∈ checks, ∀ l shms params, Q l → Q (l.assign shms params c))
    (regular : ∀ l, Q l → Regular num_params n (h l)) {l : Locals} (start : Q l) :
    Regular num_params n fun shms os =>
      runChecks num_params shms (ret bad) (fun l => h l shms os) checks l := by
  have silent (c : Check) (trace : List Event) :
      calls (if c.idx < num_params then .slot c.idx :: trace else trace) = calls trace := by
    split_ifs <;> rfl
  induction checks generalizing l with
  | nil => exact regular l start
  | cons c checks ih =>
    have rest (shms params) := ih (fun d member => keeps d (List.mem_cons_of_mem c member))
      (keeps c List.mem_cons_self l shms params start)
    constructor
    · intro shms params trace
      simp only [runChecks]
      rw [← silent c trace]
      by_cases passes : c.Passes num_params shms params
      · simp only [if_pos passes]
        exact (rest shms params).makes shms params _
      · simp only [if_neg passes]
        exact .ends ⟨params, _, some bad⟩ (fun _ => rfl) rfl
    · intro shms os params trace
      simp only [runChecks]
      by_cases passes : c.Passes num_params shms params
      · rw [if_pos passes]
        exact (rest shms params).frame shms os params _
      · rw [if_neg passes]
        exact Frame.refl params
    · intro shms shms' params same os trace
      simp only [runChecks]
      by_cases passes : c.Passes num_params shms params
      · rw [if_pos passes, if_pos ((same.passes c).mp passes), same.assign passes]
        exact (rest shms' params).looks same os _
      · rw [if_neg passes, if_neg fun there => passes ((same.passes c).mpr there)]

/-- The checks of a handler make `Q` of its variables, and its body needs no more. -/
theorem regular_checked_of {num : Nat} {checks : List Check} {bad : TEEC_Result}
    (Q : Locals → Prop) {h : Locals → List TeeShm → (List LibcCall → OsResult) → Handler}
    (unset : Q .unset) (keeps : ∀ c ∈ checks, ∀ l shms params, Q l → Q (l.assign shms params c))
    (regular : num_params = num → ∀ l, Q l → Regular num_params n (h l)) :
    Regular num_params n fun shms os =>
      checked num_params shms num checks bad fun l => h l shms os := by
  by_cases number : num_params = num
  · simp only [checked, number, ne_eq, not_true_eq_false, if_false]
    exact regular_runChecks keeps (number ▸ regular number) unset
  · simp only [checked, ne_eq, number, not_false_eq_true, if_true]
    exact regular_ret bad

/-- No check sets `val0` to another slot than the first. -/
theorem regular_checked {num : Nat} {checks : List Check} {bad : TEEC_Result}
    {h : Locals → List TeeShm → (List LibcCall → OsResult) → Handler}
    (wiring : ∀ i, .value i 0 ∈ checks → i = 0)
    (regular : num_params = num → ∀ l, l.Wired → Regular num_params n (h l)) :
    Regular num_params n fun shms os =>
      checked num_params shms num checks bad fun l => h l shms os := by
  refine regular_checked_of Locals.Wired (.inl rfl) ?_ regular
  intro c member l shms params wired
  exact wired.assign (fun i first => wiring i (first ▸ member)) shms params

theorem regular_called {l : Locals} (wired : l.Wired) (call : LibcCall)
    (b : OsResult → BitVec 64) : Regular num_params (n + 1) fun _ os => called os l call b :=
  regular_libc fun _ => regular_store wired (fun _ => ⟨rfl, rfl⟩) (regular_ret _)

theorem regular_valuesCall (call : Param → LibcCall) (b : OsResult → BitVec 64) :
    Regular num_params 1 fun shms os => valuesCall num_params shms os call b :=
  regular_checked (by simp) fun _ l wired =>
    regular_load _ fun val1 => regular_called wired (call val1) b

theorem regular_plainCall (call : LibcCall) (b : OsResult → BitVec 64) :
    Regular num_params 1 fun shms os => plainCall num_params shms os call b :=
  regular_checked (by simp) fun _ l wired => regular_called wired call b

theorem regular_pathCall (call : Option Va → LibcCall) :
    Regular num_params 1 fun shms os => pathCall num_params shms os call :=
  regular_checked (by simp) fun number l wired =>
    regular_va (by omega) fun path => regular_called wired (call path) _

theorem regular_pathValueCall (call : Option Va → Param → LibcCall) :
    Regular num_params 1 fun shms os => pathValueCall num_params shms os call :=
  regular_checked (by simp) fun number l wired =>
    regular_va (by omega) fun path =>
      regular_load _ fun val2 => regular_called wired (call path val2) _

theorem regular_readCall (call : Param → Option Va → LibcCall) :
    Regular num_params 1 fun shms os => readCall num_params shms os call :=
  regular_checked (by simp) fun _ l wired =>
    regular_load _ fun val2 => regular_called wired (call val2 (l.buffer 1)) _

theorem regular_getenv : Regular num_params 1 (vfs_getenv num_params) := by
  refine regular_checked (by simp) fun number l wired => ?_
  refine regular_va (by omega) fun name => regular_libc fun r => ?_
  refine regular_emit rfl ?_
  cases r.env with
  | none => exact regular_crash
  | some value =>
    refine regular_store wired (fun _ => ⟨rfl, rfl⟩) ?_
    cases l.buffer 2 with
    | none => exact regular_ret _
    | some buffer =>
      refine regular_emit rfl ?_
      by_cases negative : (intLength value).toInt < 0
      · simp only [if_pos negative]
        exact regular_crash
      · simp only [if_neg negative]
        exact regular_ret _

/-- The one check sets `val0`, and the handler goes on with `val1`. -/
theorem regular_pwrite : Regular num_params 1 (vfs_pwrite num_params) := by
  refine regular_checked_of (fun l => l.val 1 = none) rfl ?_ fun number l null => ?_
  · simp only [List.mem_singleton, forall_eq]
    exact fun _ _ _ null => null
  · refine regular_va (by omega) fun write_data => ?_
    simp only [null, load]
    exact regular_emit rfl regular_crash

/-- Only `vfs_fstat` calls the library a second time. -/
def maxCalls : VfsOp → Nat
  | .FSTAT => 2
  | _ => 1

theorem regular_handlerOf (op : VfsOp) :
    Regular num_params (maxCalls op) fun shms os => handlerOf num_params shms os op := by
  cases op with
  | OPEN | MKDIR => exact regular_pathValueCall _
  | CLOSE | FTRUNCATE | FCHMOD | FCHOWN | LSEEK | FSYNC | SLEEP | FCNTL_VOID | FCNTL_INT
  | FILESIZE => exact regular_valuesCall _ _
  | GETEUID | GETPID | TIME => exact regular_plainCall _ _
  | RMDIR | UNLINK => exact regular_pathCall _
  | READ => exact regular_readCall fun val2 buffer => .read (low val2.a) buffer val2.b
  | PREAD => exact regular_readCall fun val2 buffer => .pread (low val2.a) buffer val2.b val2.c
  | GETENV => exact regular_getenv
  | PWRITE => exact regular_pwrite
  | ACCESS | WRITE =>
    exact regular_checked (by simp) fun number l wired => regular_va (by omega) fun va =>
      regular_load _ fun val1 => regular_called wired _ _
  | GETCWD | USLEEP =>
    exact regular_checked (by simp) fun number l wired => regular_load _ fun v =>
      regular_libc fun r => regular_store wired (fun _ => ⟨rfl, rfl⟩) (regular_ret _)
  | STAT =>
    exact regular_checked (by simp) fun number l wired => regular_va (by omega) fun file_name =>
      regular_called wired _ _
  | FSTAT =>
    exact regular_checked (by simp) fun number l wired => regular_load _ fun val1 =>
      regular_libc fun r => regular_store wired (fun _ => ⟨rfl, rfl⟩) <|
        regular_libc fun r => regular_store wired (fun _ => ⟨rfl, rfl⟩) (regular_ret _)
  | TRUNCATE =>
    exact regular_checked (by simp) fun number l wired => regular_load _ fun val2 =>
      regular_va (by omega) fun path => regular_called wired _ _
  | GETTIMEOFDAY =>
    exact regular_checked (by simp) fun number l wired => regular_called wired _ _
  | FCNTL_FLOCK =>
    exact regular_checked (by simp) fun number l wired => regular_load _ fun val1 =>
      regular_called wired _ _
  | UTIMES =>
    exact regular_checked (by simp) fun number l wired => regular_va (by omega) fun filename =>
      regular_va (by omega) fun times => regular_called wired _ _

/-- The calls that a request may lead to. -/
def requestCalls (params : Nat → Param) : Nat := (opOf (params 0).a).elim 0 maxCalls

theorem process_makes (shms : List TeeShm) (params : Nat → Param) :
    Makes Outcome.libc (requestCalls params) [] fun os =>
      tee_supp_vfs_process num_params shms os params [] := by
  simp only [tee_supp_vfs_process, emit, requestCalls]
  cases opOf (params 0).a with
  | none => exact .ends ⟨params, [.slot 0], _⟩ (fun _ => rfl) rfl
  | some op => exact (regular_handlerOf op).makes shms params [.slot 0]

/-- **Frame.** Whatever is registered and whatever the library answers, a handler writes
to two words of slot 0 and to nothing else in the request. -/
theorem process_frame (shms : List TeeShm) (os : List LibcCall → OsResult)
    (params : Nat → Param) (trace : List Event) :
    Frame params (tee_supp_vfs_process num_params shms os params trace).params := by
  simp only [tee_supp_vfs_process, emit]
  cases opOf (params 0).a with
  | none => exact Frame.refl params
  | some op => exact (regular_handlerOf op).frame shms os params _

theorem process_looks {params : Nat → Param} {shms shms' : List TeeShm}
    (same : SameRegions num_params params shms shms') (os : List LibcCall → OsResult)
    (trace : List Event) :
    tee_supp_vfs_process num_params shms os params trace =
      tee_supp_vfs_process num_params shms' os params trace := by
  simp only [tee_supp_vfs_process, emit]
  cases opOf (params 0).a with
  | none => rfl
  | some op => exact (regular_handlerOf op).looks same os _

end
end TeeSqlite.Traced
