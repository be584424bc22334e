import TeeSqlite.Rpc.Transactions

/-! One request of the driver, from the buffer it arrives in to the one that answers it. -/
namespace TeeSqlite.Traced
open CTypes Oracles Jobs

def TEE_IOCTL_PARAM_ATTR_META : BitVec 64 := 0x100

def Param.IsMeta (p : Param) : Prop := p.attr &&& TEE_IOCTL_PARAM_ATTR_META ≠ 0

instance (p : Param) : Decidable p.IsMeta := inferInstanceAs (Decidable (_ ≠ _))

/-- `union tee_rpc_invoke`. The first word is `recv.func` or `send.ret`, and what stands
behind the slots is whatever the stack holds. -/
structure TeeRpcInvoke where
  func : BitVec 32
  num_params : BitVec 32
  params : Nat → Param

/-- What `find_params` sets. -/
structure Found where
  func : BitVec 32
  num_params : Nat
  params : Nat → Param
  num_meta : Nat

/-- Nothing when a meta parameter comes behind one that is none. -/
def find_params (request : TeeRpcInvoke) : Option Found :=
  let slots := List.range request.num_params.toNat
  let n := slots.findIdx fun i => ¬ (request.params i).IsMeta
  if ∃ i ∈ slots.drop n, (request.params i).IsMeta then none
  else some ⟨request.func, request.num_params.toNat - n, fun i => request.params (n + i), n⟩

/-- The handlers work on the slots in the buffer, which is then sent with their status. -/
def TeeRpcInvoke.answer (request : TeeRpcInvoke) (found : Found) (params : Nat → Param)
    (ret : TEEC_Result) : TeeRpcInvoke where
  func := ret
  num_params := request.num_params
  params i := if i < found.num_meta then request.params i else params (i - found.num_meta)

/-- The functions of the supplicant that a request may ask for. -/
inductive RpcFunc
  | LOAD_TA | RPMB | FS | SHM_ALLOC | SHM_FREE | GPROF | SOCKET | FTRACE | PLUGIN | OPEN
  deriving DecidableEq

def OPTEE_MSG_RPC_CMD : RpcFunc → BitVec 32
  | .LOAD_TA => 0 | .RPMB => 1 | .FS => 2 | .SHM_ALLOC => 6 | .SHM_FREE => 7 | .GPROF => 9
  | .SOCKET => 10 | .FTRACE => 11 | .PLUGIN => 12 | .OPEN => 30

def rpcFuncOf (func : BitVec 32) : Option RpcFunc :=
  [RpcFunc.LOAD_TA, .FS, .RPMB, .SHM_ALLOC, .SHM_FREE, .GPROF, .SOCKET, .FTRACE, .PLUGIN,
    .OPEN].find? (OPTEE_MSG_RPC_CMD · = func)

/-- What the threads share: the list of regions, and the operating system with the files
and the memory of the regions. -/
structure World (σ : Type) where
  shm_head : List TeeShm
  os : σ

/-- What a handler leaves in the slots, with its status. -/
abbrev Handled := (Nat → Param) × TEEC_Result

def Outcome.handled (o : Outcome) : Option Handled := o.status.map fun status => (o.params, status)

/-- The regions that a request refers to. -/
def references (num_params : Nat) (params : Nat → Param) : List (BitVec 32) :=
  ((List.range num_params).filter fun i => (params i).IsMemref).map fun i => (params i).shmId

section
variable {σ : Type} (sys : σ → LibcCall → σ × OsResult)

/-- The C library on the state of the world. -/
def library (w : World σ) (call : LibcCall) : World σ × OsResult :=
  let (os, r) := sys w.os call
  ({ w with os }, r)

/-- Each `find_tshm` is a step of its own. -/
def lookUp {ρ : Type} : List (BitVec 32) → List TeeShm → (List TeeShm → Job (World σ) ρ) →
    Job (World σ) ρ
  | [], seen, rest => rest seen
  | shm :: shms, seen, rest =>
    .act id fun w => lookUp shms ((find_tshm w.shm_head shm).toList ++ seen) rest

/-- The calls of a handler that has seen these regions. -/
def vfsCalls (num_params : Nat) (params : Nat → Param) (seen : List TeeShm) :
    Job (World σ) Handled :=
  calling (library sys) Outcome.libc Outcome.handled (requestCalls params) 0 fun os =>
    tee_supp_vfs_process num_params seen os params []

/-- A request for the files among the steps of other threads. -/
def vfsJob (num_params : Nat) (params : Nat → Param) : Job (World σ) Handled :=
  lookUp (references num_params params) [] (vfsCalls sys num_params params)

variable (others : RpcFunc → Nat → (Nat → Param) → Job (World σ) Handled)

/-- The `switch` of `process_one_request`. -/
def dispatch (found : Found) : Job (World σ) Handled :=
  match rpcFuncOf found.func with
  | none => .done (some (found.params, TEEC_ERROR_NOT_SUPPORTED))
  | some .OPEN => vfsJob sys found.num_params found.params
  | some func => others func found.num_params found.params

end

/-- The slots in front are the meta parameters, and the others are the handler's. -/
theorem find_params_some {request : TeeRpcInvoke} {found : Found}
    (h : find_params request = some found) :
    found.func = request.func ∧ found.num_meta + found.num_params = request.num_params.toNat ∧
    (∀ i, found.params i = request.params (found.num_meta + i)) ∧
    ∀ i < request.num_params.toNat, (request.params i).IsMeta ↔ i < found.num_meta := by
  simp only [find_params, Option.ite_none_left_eq_some, Option.some.injEq] at h
  obtain ⟨behind, rfl⟩ := h
  generalize first : (List.range request.num_params.toNat).findIdx
    (fun i => ¬ (request.params i).IsMeta) = n at behind ⊢
  have most : n ≤ request.num_params.toNat := by
    have inside : (List.range request.num_params.toNat).findIdx
        (fun i => ¬ (request.params i).IsMeta) ≤ _ := List.findIdx_le_length
    rwa [first, List.length_range] at inside
  refine ⟨rfl, by simp only; omega, fun _ => rfl, fun i inside => ?_⟩
  constructor
  · intro is_meta
    by_contra later
    refine behind ⟨i, ?_, is_meta⟩
    rw [List.mem_drop_iff_getElem]
    refine ⟨i - n, ?_, ?_⟩
    · simp only [List.length_range]
      simp only at later
      omega
    · simp only at later
      rw [List.getElem_range]
      omega
  · intro early
    have skipped := List.not_of_lt_findIdx (first.symm ▸ early)
    simpa using skipped

section
variable {σ : Type} {sys : σ → LibcCall → σ × OsResult} {num_params : Nat} {params : Nat → Param}
  {shms : List TeeShm} {looked : List (BitVec 32)} {seen : List TeeShm}

/-- The regions in `looked` have been looked up, and are still as they were found. -/
structure Seen (looked : List (BitVec 32)) (seen shms : List TeeShm) : Prop where
  ids : ∀ tshm ∈ seen, tshm.id ∈ looked
  same : ∀ shm ∈ looked, find_tshm seen shm = find_tshm shms shm

theorem Seen.nil (shms : List TeeShm) : Seen [] [] shms := ⟨by simp, by simp⟩

theorem find_tshm_id {shm : BitVec 32} {tshm : TeeShm} (found : find_tshm shms shm = some tshm) :
    tshm.id = shm := by
  simpa using List.find?_some found

theorem Seen.look (h : Seen looked seen shms) (shm : BitVec 32) :
    Seen (shm :: looked) ((find_tshm shms shm).toList ++ seen) shms := by
  have earlier (tshm) (member : tshm ∈ seen) : tshm.id ∈ shm :: looked :=
    List.mem_cons_of_mem shm (h.ids tshm member)
  cases found : find_tshm shms shm with
  | none =>
    refine ⟨earlier, ?_⟩
    intro x member
    by_cases before : x ∈ looked
    · exact h.same x before
    · obtain rfl := (List.mem_cons.mp member).resolve_right before
      rw [found]
      refine List.find?_eq_none.mpr fun tshm member => ?_
      simp only [decide_eq_true_eq]
      exact fun same => before (same ▸ h.ids tshm member)
  | some tshm =>
    obtain rfl := find_tshm_id found
    refine ⟨List.forall_mem_cons.mpr ⟨List.mem_cons_self, earlier⟩, ?_⟩
    intro x member
    by_cases same : tshm.id = x
    · subst same
      rw [found]
      exact List.find?_cons_of_pos (decide_eq_true rfl)
    · rw [← h.same x ((List.mem_cons.mp member).resolve_left (Ne.symm same))]
      exact List.find?_cons_of_neg (by simpa using same)

/-- Every reference of the request has been looked up. -/
theorem Seen.sameRegions (h : Seen looked seen shms)
    (all : ∀ shm ∈ references num_params params, shm ∈ looked) :
    SameRegions num_params params seen shms := by
  intro i inside memref
  refine h.same _ (all _ ?_)
  simp only [references, List.mem_map, List.mem_filter, List.mem_range]
  exact ⟨i, ⟨inside, by simpa using memref⟩, rfl⟩

theorem Seen.undisturbed {shms' : List TeeShm} (h : Seen looked seen shms)
    (own : ∀ shm ∈ looked, shm ∈ references num_params params)
    (same : SameRegions num_params params shms shms') : Seen looked seen shms' := by
  refine ⟨h.ids, fun shm member => ?_⟩
  have named := own shm member
  simp only [references, List.mem_map, List.mem_filter, List.mem_range] at named
  obtain ⟨i, ⟨inside, memref⟩, rfl⟩ := named
  exact (h.same _ member).trans (same i inside (by simpa using memref))

/-- Alone the look-ups see the regions that are there. -/
theorem lookUp_run {ρ : Type} (rest : List TeeShm → Job (World σ) ρ) (ids : List (BitVec 32))
    {w : World σ} (h : Seen looked seen w.shm_head) :
    ∃ seen', Seen (ids.reverse ++ looked) seen' w.shm_head ∧
      (lookUp ids seen rest).run w = (rest seen').run w := by
  induction ids generalizing looked seen with
  | nil => exact ⟨seen, h, rfl⟩
  | cons shm ids ih =>
    obtain ⟨seen', all, run⟩ := ih (h.look shm)
    refine ⟨seen', ?_, run⟩
    rwa [List.reverse_cons, List.append_assoc, List.singleton_append]

theorem vfsCalls_congr {seen' : List TeeShm} (same : SameRegions num_params params seen seen') :
    vfsCalls sys num_params params seen = vfsCalls sys num_params params seen' := by
  rw [vfsCalls, vfsCalls]
  congr 1
  funext os
  exact process_looks same os []

/-- What is left of a request that has looked some of its regions up, and those are still
there, comes to what the request comes to. -/
theorem lookUp_vfsCalls_run (ids : List (BitVec 32)) {w : World σ}
    (h : Seen looked seen w.shm_head)
    (all : ∀ shm ∈ references num_params params, shm ∈ looked ∨ shm ∈ ids) :
    (lookUp ids seen (vfsCalls sys num_params params)).run w =
      (vfsCalls sys num_params params w.shm_head).run w := by
  obtain ⟨seen', there, run⟩ := lookUp_run (vfsCalls sys num_params params) ids h
  rw [run, vfsCalls_congr (there.sameRegions fun shm member => ?_)]
  rw [List.mem_append, List.mem_reverse]
  exact (all shm member).symm

/-- **One request, alone.** The job of a request is the handler on the regions that are
registered, with the operating system for its oracle. -/
theorem vfsJob_run (w : World σ) :
    (vfsJob sys num_params params).run w =
      let o := tee_supp_vfs_process num_params w.shm_head (asked (library sys) w) params []
      (after (library sys) w o.libc, o.handled) := by
  rw [vfsJob, lookUp_vfsCalls_run _ (Seen.nil _) fun shm member => .inr member]
  exact calling_run (process_makes w.shm_head params) w

theorem lookUp_yields {ρ : Type} {rest : List TeeShm → Job (World σ) ρ} {ids : List (BitVec 32)}
    {result : Option ρ} (yields : (lookUp ids seen rest).Yields result) :
    ∃ seen', (rest seen').Yields result := by
  induction ids generalizing seen with
  | nil => exact ⟨seen, yields⟩
  | cons shm ids ih =>
    cases yields with
    | act w yields => exact ih yields

/-- **One request among others.** Whatever the other threads do between the steps of a
request, it ends as the handler does with some regions and some answers. -/
theorem vfsJob_yields {result : Option Handled}
    (yields : (vfsJob sys num_params params).Yields result) :
    ∃ shms os, result = (tee_supp_vfs_process num_params shms os params []).handled := by
  obtain ⟨shms, yields⟩ := lookUp_yields yields
  obtain ⟨os, last⟩ := calling_yields (process_makes shms params) yields
  exact ⟨shms, os, last⟩

/-- The request comes back as it was received, but for the status in the place of the
function, and the words `b` and `c` of the first parameter behind the meta parameters. -/
theorem answer_frame {others : RpcFunc → Nat → (Nat → Param) → Job (World σ) Handled}
    {request : TeeRpcInvoke} {found : Found} (accepted : find_params request = some found)
    (files : rpcFuncOf found.func = some .OPEN) {params : Nat → Param} {ret : TEEC_Result}
    (yields : (dispatch sys others found).Yields (some (params, ret))) :
    let response := request.answer found params ret
    response.func = ret ∧ response.num_params = request.num_params ∧
    (∀ i, i ≠ found.num_meta → response.params i = request.params i) ∧
    (response.params found.num_meta).attr = (request.params found.num_meta).attr ∧
    (response.params found.num_meta).a = (request.params found.num_meta).a := by
  simp only [dispatch, files] at yields
  obtain ⟨shms, os, last⟩ := vfsJob_yields yields
  have frame := @process_frame found.num_params shms os found.params []
  obtain ⟨status, -, pair⟩ := Option.map_eq_some_iff.mp last.symm
  rw [Prod.mk.injEq] at pair
  rw [pair.1] at frame
  obtain ⟨-, -, shift, -⟩ := find_params_some accepted
  have first : found.params 0 = request.params found.num_meta := shift 0
  simp only [TeeRpcInvoke.answer]
  refine ⟨trivial, trivial, fun i other => ?_, ?_, ?_⟩
  · split_ifs with front
    · rfl
    · have behind : found.num_meta + (i - found.num_meta) = i := by omega
      rw [frame.others _ (by omega), shift, behind]
  · rw [if_neg (Nat.lt_irrefl _), Nat.sub_self, frame.attr, first]
  · rw [if_neg (Nat.lt_irrefl _), Nat.sub_self, frame.a, first]

end

/-- A request for the process id, behind one meta parameter. -/
def pidRequest : TeeRpcInvoke where
  func := OPTEE_MSG_RPC_CMD .OPEN
  num_params := 2
  params i := if i = 0 then ⟨TEE_IOCTL_PARAM_ATTR_META, 7, 0, 0⟩ else
    ⟨TEE_IOCTL_PARAM_ATTR_TYPE_VALUE_INOUT, OPTEE_VFS .GETPID, 0, 0⟩

/-- An operating system that counts its calls. -/
def countingOs (n : Nat) (_ : LibcCall) : Nat × OsResult := (n + 1, default)

/-- Without the functions that are not modelled. -/
def noOthers : RpcFunc → Nat → (Nat → Param) → Job (World Nat) Handled :=
  fun _ _ params => .done (some (params, TEEC_ERROR_NOT_SUPPORTED))

/-- What `find_params` makes of the request, and what the handler leaves in its slots. -/
def pidFound : Found := (find_params pidRequest).getD ⟨0, 0, pidRequest.params, 0⟩

def pidHandled : Handled :=
  ((dispatch countingOs noOthers pidFound).run ⟨[], 0⟩).2.getD (pidRequest.params, 0)

theorem pid_answer_frame :
    let response := pidRequest.answer pidFound pidHandled.1 pidHandled.2
    response.func = pidHandled.2 ∧ response.num_params = pidRequest.num_params ∧
    (∀ i, i ≠ pidFound.num_meta → response.params i = pidRequest.params i) ∧
    (response.params pidFound.num_meta).attr = (pidRequest.params pidFound.num_meta).attr ∧
    (response.params pidFound.num_meta).a = (pidRequest.params pidFound.num_meta).a :=
  answer_frame (rfl : find_params pidRequest = some pidFound) rfl
    ((dispatch countingOs noOthers pidFound).yields_run ⟨[], 0⟩)

end TeeSqlite.Traced
