import TeeSqlite.Lib.Runs
import TeeSqlite.Lib.Tally
import TeeSqlite.Rpc.Accesses

/-! The regions of the supplicant: `process_alloc` and `process_free`, each on the thread
that got the request, one call of the system at a time. -/
namespace TeeSqlite.Registry
open CTypes Traced Runs Tally

def TEEC_ERROR_OUT_OF_MEMORY : TEEC_Result := 0xFFFF000C

/-- What there is to be released: a `struct tee_shm` on the heap, the descriptor of a
region, and memory, which is mapped or on the heap. -/
inductive Resource
  | node (a : Nat)
  | fd (n : Nat) (id : BitVec 32)
  | mem (a : Nat)
  deriving DecidableEq

/-- `struct tee_shm`, and where it is. -/
structure TeeShm where
  node : Nat
  id : BitVec 32
  p : Nat
  size : BitVec 64
  registered : Bool
  fd : Nat

def TeeShm.owned (shm : TeeShm) : List Resource := [.fd shm.fd shm.id, .mem shm.p, .node shm.node]

def find_tshm (id : BitVec 32) (shm_head : List TeeShm) : Option TeeShm :=
  shm_head.find? fun tshm => tshm.id = id

/-- The node that is taken out, and the list without it. -/
def pop_tshm (id : BitVec 32) : List TeeShm → Option TeeShm × List TeeShm
  | [] => (none, [])
  | tshm :: next =>
    if tshm.id = id then (some tshm, next)
    else
      let (found, rest) := pop_tshm id next
      (found, tshm :: rest)

def push_tshm (tshm : TeeShm) (shm_head : List TeeShm) : List TeeShm := tshm :: shm_head

/-- Where a thread stands in `process_alloc` or `process_free`. -/
inductive Work
  | idle
  /-- `alloc_shm` before `calloc`, `ioctl` and `mmap` -/
  | calloc (size : BitVec 64)
  | ioctl_alloc (size : BitVec 64) (node : Nat)
  | mmap (size : BitVec 64) (node fd : Nat) (id : BitVec 32)
  /-- `register_local_shm` before `posix_memalign`, `calloc` and `ioctl` -/
  | memalign (size : BitVec 64)
  | calloc_for (size : BitVec 64) (buf : Nat)
  | ioctl_register (size : BitVec 64) (buf node : Nat)
  | push (shm : TeeShm)
  | pop (id : BitVec 32)
  /-- the calls of `close`, `free` and `munmap` that are left, and the status behind them -/
  | releasing (rest : List Resource) (unmaps : Bool) (status : TEEC_Result)
  | answering (status : TEEC_Result) (c : Option (BitVec 32))

/-- What a thread has got and not given away. -/
def Work.owned : Work → List Resource
  | .idle | .calloc _ | .memalign _ | .pop _ | .answering _ _ => []
  | .ioctl_alloc _ node => [.node node]
  | .mmap _ node fd id => [.fd fd id, .node node]
  | .calloc_for _ buf => [.mem buf]
  | .ioctl_register _ buf node => [.node node, .mem buf]
  | .push shm => shm.owned
  | .releasing rest _ _ => rest

/-- The requests, with what the handlers look at. -/
inductive Call
  | SHM_ALLOC (num_params : Nat) (val : Param)
  | SHM_FREE (num_params : Nat) (val : Param)

section
variable (REG_MEM : Bool)

/-- The checks of `process_alloc`, and the way it takes then. -/
def process_alloc (num_params : Nat) (val : Param) : Work :=
  if num_params ≠ 1 ∨ ¬ val.IsValue then .answering TEEC_ERROR_BAD_PARAMETERS none
  else if REG_MEM then .memalign val.b
  else .calloc val.b

def process_free (num_params : Nat) (val : Param) : Work :=
  if num_params ≠ 1 ∨ ¬ val.IsValue then .answering TEEC_ERROR_BAD_PARAMETERS none
  else .pop (low val.b)

def Call.start : Call → Work
  | .SHM_ALLOC num_params val => process_alloc REG_MEM num_params val
  | .SHM_FREE num_params val => process_free num_params val

/-- A thread takes a request, gets memory or a region or a failure, or goes on, with the
result of `munmap` where it matters. -/
inductive Move
  | request (t : Nat) (call : Call)
  | got (t : Nat) (a : Option Nat)
  | region (t : Nat) (fd : Option (Nat × BitVec 32))
  | go (t : Nat) (unmapped : Bool)

inductive Event
  | pushed (shm : TeeShm)
  | popped (shm : TeeShm)
  | answered (t : Nat) (status : TEEC_Result) (c : Option (BitVec 32))

/-- What the system has given and not got back, the list, the threads, and the mappings
that `munmap` failed for. -/
structure Shms where
  live : List Resource
  shm_head : List TeeShm
  threads : List Work
  lost : List Resource

namespace Shms

def put (s : Shms) (t : Nat) (w : Work) : Shms := { s with threads := s.threads.set t w }

def acquire (s : Shms) (r : Resource) : Shms := { s with live := r :: s.live }

def release (s : Shms) (r : Resource) : Shms := { s with live := s.live.erase r }

/-- The answer of `calloc`, `posix_memalign` or `mmap`. -/
def got (s : Shms) (t : Nat) (a : Option Nat) : Work → Option Shms
  | .calloc size =>
    match a with
    | none => some (s.put t (.answering TEEC_ERROR_OUT_OF_MEMORY none))
    | some a => some ((s.acquire (.node a)).put t (.ioctl_alloc size a))
  | .mmap size node fd id =>
    match a with
    | none => some (s.put t (.releasing [.fd fd id, .node node] false TEEC_ERROR_OUT_OF_MEMORY))
    | some a => some ((s.acquire (.mem a)).put t (.push ⟨node, id, a, size, false, fd⟩))
  | .memalign size =>
    match a with
    | none => some (s.put t (.answering TEEC_ERROR_OUT_OF_MEMORY none))
    | some a => some ((s.acquire (.mem a)).put t (.calloc_for size a))
  | .calloc_for size buf =>
    match a with
    | none => some (s.put t (.releasing [.mem buf] false TEEC_ERROR_OUT_OF_MEMORY))
    | some a => some ((s.acquire (.node a)).put t (.ioctl_register size buf a))
  | _ => none

/-- The answer of `ioctl`. -/
def region (s : Shms) (t : Nat) (fd : Option (Nat × BitVec 32)) : Work → Option Shms
  | .ioctl_alloc size node =>
    match fd with
    | none => some (s.put t (.releasing [.node node] false TEEC_ERROR_OUT_OF_MEMORY))
    | some (fd, id) => some ((s.acquire (.fd fd id)).put t (.mmap size node fd id))
  | .ioctl_register size buf node =>
    match fd with
    | none => some (s.put t (.releasing [.node node, .mem buf] false TEEC_ERROR_OUT_OF_MEMORY))
    | some (fd, id) => some ((s.acquire (.fd fd id)).put t (.push ⟨node, id, buf, size, true, fd⟩))
  | _ => none

/-- What needs no answer, or only that of `munmap`. To release what is not held has no
next state. -/
def go (s : Shms) (t : Nat) (unmapped : Bool) : Work → Option (Shms × List Event)
  | .push shm =>
    some ({ s with shm_head := push_tshm shm s.shm_head }.put t
      (.answering TEEC_SUCCESS (some shm.id)), [.pushed shm])
  | .pop id =>
    match pop_tshm id s.shm_head with
    | (none, _) => some (s.put t (.answering TEEC_ERROR_BAD_PARAMETERS none), [])
    | (some shm, rest) =>
      some ({ s with shm_head := rest }.put t (.releasing shm.owned (!shm.registered) TEEC_SUCCESS),
        [.popped shm])
  | .releasing [] _ status => some (s.put t (.answering status none), [])
  | .releasing (.mem a :: rest) true status =>
    if .mem a ∉ s.live then none
    else if unmapped then some ((s.release (.mem a)).put t (.releasing rest true status), [])
    else some ({ s with lost := .mem a :: s.lost }.put t
      (.releasing rest true TEEC_ERROR_BAD_PARAMETERS), [])
  | .releasing (r :: rest) unmaps status =>
    if r ∉ s.live then none
    else some ((s.release r).put t (.releasing rest unmaps status), [])
  | .answering status c => some (s.put t .idle, [.answered t status c])
  | _ => none

def step (s : Shms) : Move → Option (Shms × List Event)
  | .request t call =>
    s.threads[t]?.bind fun
      | .idle => some (s.put t (call.start REG_MEM), [])
      | _ => none
  | .got t a => s.threads[t]?.bind fun w => (s.got t a w).map fun s => (s, [])
  | .region t fd => s.threads[t]?.bind fun w => (s.region t fd w).map fun s => (s, [])
  | .go t unmapped => s.threads[t]?.bind (s.go t unmapped)

/-- `n` threads without a request. -/
def start (n : Nat) : Shms := ⟨[], [], List.replicate n .idle, []⟩

/-- What the system gives is not in use: no address or descriptor twice, and no two regions
of one id while both have a descriptor. -/
structure Fresh (s : Shms) (r : Resource) : Prop where
  new : r ∉ s.live
  region : ∀ n id, r = .fd n id → ∀ n' id', .fd n' id' ∈ s.live → n' ≠ n ∧ id' ≠ id

def Honest (s : Shms) (move : Move) : Prop :=
  ∀ s' events r, s.step REG_MEM move = some (s', events) → s'.live = r :: s.live → s.Fresh r

/-- What a step does to what is held. -/
inductive Custody (s : Shms) : Shms → List Event → Prop
  | keeps {t w w' events} : s.threads[t]? = some w → w.owned = w'.owned →
      (∀ e ∈ events, ∃ status c, e = .answered t status c) → Custody s (s.put t w') events
  | acquires {t w w' r} : s.threads[t]? = some w → w'.owned.Perm (r :: w.owned) →
      Custody s ((s.acquire r).put t w') []
  | releases {t w w' r} : s.threads[t]? = some w → w.owned = r :: w'.owned → r ∈ s.live →
      Custody s ((s.release r).put t w') []
  | loses {t w w' r} : s.threads[t]? = some w → w.owned = r :: w'.owned →
      Custody s ({ s with lost := r :: s.lost }.put t w') []
  | pushes {t shm w'} : s.threads[t]? = some (.push shm) → w'.owned = [] →
      Custody s ({ s with shm_head := push_tshm shm s.shm_head }.put t w') [.pushed shm]
  | pops {t id shm rest w'} : s.threads[t]? = some (.pop id) →
      pop_tshm id s.shm_head = (some shm, rest) → w'.owned = shm.owned →
      Custody s ({ s with shm_head := rest }.put t w') [.popped shm]

variable {REG_MEM} {s s' : Shms} {t : Nat} {w : Work} {events : List Event}

theorem start_owned (call : Call) : (call.start REG_MEM).owned = [] := by
  cases call with
  | SHM_ALLOC num_params val =>
    simp only [Call.start, process_alloc]
    split_ifs <;> rfl
  | SHM_FREE num_params val =>
    simp only [Call.start, process_free]
    split_ifs <;> rfl

theorem keeps_silent {w' : Work} (at_t : s.threads[t]? = some w) (same : w.owned = w'.owned) :
    Custody s (s.put t w') [] := .keeps at_t same (by simp)

theorem got_custody {a : Option Nat} (at_t : s.threads[t]? = some w)
    (h : s.got t a w = some s') : Custody s s' [] := by
  cases w with
  | calloc size | memalign size =>
    cases a with
    | none =>
      cases h
      exact keeps_silent at_t rfl
    | some a =>
      cases h
      exact .acquires at_t (.refl _)
  | mmap size node fd id =>
    cases a with
    | none =>
      cases h
      exact keeps_silent at_t rfl
    | some a =>
      cases h
      exact .acquires at_t (.swap _ _ _)
  | calloc_for size buf =>
    cases a with
    | none =>
      cases h
      exact keeps_silent at_t rfl
    | some a =>
      cases h
      exact .acquires at_t (.refl _)
  | _ => cases h

theorem region_custody {fd : Option (Nat × BitVec 32)} (at_t : s.threads[t]? = some w)
    (h : s.region t fd w = some s') : Custody s s' [] := by
  cases w with
  | ioctl_alloc size node =>
    cases fd with
    | none =>
      cases h
      exact keeps_silent at_t rfl
    | some given =>
      cases h
      exact .acquires at_t (.refl _)
  | ioctl_register size buf node =>
    cases fd with
    | none =>
      cases h
      exact keeps_silent at_t rfl
    | some given =>
      cases h
      refine .acquires at_t ?_
      exact List.Perm.cons _ (.swap _ _ _)
  | _ => cases h

/-- A release by `close` or `free`, or by a `munmap` that does not fail. -/
theorem release_custody {r : Resource} {rest : List Resource} {unmaps unmaps' : Bool}
    {status status' : TEEC_Result}
    (at_t : s.threads[t]? = some (.releasing (r :: rest) unmaps status))
    (h : (if r ∉ s.live then none
      else some ((s.release r).put t (.releasing rest unmaps' status'), ([] : List Event))) =
        some (s', events)) : Custody s s' events := by
  by_cases held : r ∈ s.live
  · rw [if_neg (not_not.mpr held)] at h
    cases h
    exact .releases at_t rfl held
  · rw [if_pos held] at h
    cases h

theorem go_custody {unmapped : Bool} (at_t : s.threads[t]? = some w)
    (h : s.go t unmapped w = some (s', events)) : Custody s s' events := by
  cases w with
  | push shm =>
    cases h
    exact .pushes at_t rfl
  | pop id =>
    simp only [go] at h
    cases found : pop_tshm id s.shm_head with
    | mk shm rest =>
      cases shm with
      | none =>
        simp only [found] at h
        cases h
        exact keeps_silent at_t rfl
      | some shm =>
        simp only [found] at h
        cases h
        exact .pops at_t found rfl
  | releasing rest unmaps status =>
    cases rest with
    | nil =>
      cases h
      exact keeps_silent at_t rfl
    | cons r rest =>
      cases r with
      | node a | fd n id => exact release_custody at_t h
      | mem a =>
        cases unmaps with
        | false => exact release_custody at_t h
        | true =>
          cases unmapped with
          | true => exact release_custody at_t h
          | false =>
            simp only [go] at h
            by_cases held : .mem a ∈ s.live
            · rw [if_neg (not_not.mpr held)] at h
              cases h
              exact .loses at_t rfl
            · rw [if_pos held] at h
              cases h
  | answering status c =>
    cases h
    refine .keeps at_t rfl ?_
    exact List.forall_mem_singleton.mpr ⟨status, c, rfl⟩
  | _ => cases h

theorem step_custody {move : Move} (h : s.step REG_MEM move = some (s', events)) :
    Custody s s' events := by
  cases move with
  | request t call =>
    obtain ⟨w, at_t, next⟩ := Option.bind_eq_some_iff.mp h
    cases w with
    | idle =>
      cases next
      exact keeps_silent at_t (start_owned call).symm
    | _ => cases next
  | got t a =>
    obtain ⟨w, at_t, next⟩ := Option.bind_eq_some_iff.mp h
    obtain ⟨q, got, same⟩ := Option.map_eq_some_iff.mp next
    cases same
    exact got_custody at_t got
  | region t fd =>
    obtain ⟨w, at_t, next⟩ := Option.bind_eq_some_iff.mp h
    obtain ⟨q, given, same⟩ := Option.map_eq_some_iff.mp next
    cases same
    exact region_custody at_t given
  | go t unmapped =>
    obtain ⟨w, at_t, next⟩ := Option.bind_eq_some_iff.mp h
    exact go_custody at_t next

theorem find_cons_self {id : BitVec 32} {x : TeeShm} {l : List TeeShm} (here : x.id = id) :
    find_tshm id (x :: l) = some x := List.find?_cons_of_pos (decide_eq_true here)

theorem find_cons_other {id : BitVec 32} {x : TeeShm} {l : List TeeShm} (other : x.id ≠ id) :
    find_tshm id (x :: l) = find_tshm id l := List.find?_cons_of_neg (by simpa using other)

theorem pop_tshm_found {id : BitVec 32} {l rest : List TeeShm} {shm : TeeShm}
    (h : pop_tshm id l = (some shm, rest)) :
    shm.id = id ∧ find_tshm id l = some shm ∧
      (∀ w : TeeShm → Nat, tally w l = w shm + tally w rest) := by
  induction l generalizing rest with
  | nil => cases h
  | cons x l ih =>
    rw [pop_tshm] at h
    by_cases here : x.id = id
    · rw [if_pos here] at h
      cases h
      exact ⟨here, find_cons_self here, fun _ => tally_cons⟩
    · rw [if_neg here] at h
      cases tail : pop_tshm id l with
      | mk found rest' =>
        rw [tail] at h
        cases h
        obtain ⟨same, find, total⟩ := ih tail
        refine ⟨same, ?_, fun w => ?_⟩
        · rw [find_cons_other here]
          exact find
        · have := total w
          rw [tally_cons, tally_cons]
          omega

end Shms
end
end TeeSqlite.Registry
