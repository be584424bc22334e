import TeeSqlite.Lib.Runs
import TeeSqlite.Rpc.Invoke

/-! The threads of the supplicant: each runs `process_one_request` in a loop, and the one
that takes the last waiter's request makes another. -/
namespace TeeSqlite.Traced
open Jobs Runs

/-- Where a thread stands. -/
inductive Thread (σ : Type)
  /-- made by `pthread_create`, before the `num_waiters_dec` of `thread_main` -/
  | created
  /-- at the test of `abort` -/
  | looping
  /-- before the `num_waiters_inc` of `process_one_request` -/
  | entering
  /-- in `TEE_IOC_SUPPL_RECV` -/
  | waiting
  | received (request : TeeRpcInvoke)
  /-- before the `num_waiters_dec` of `process_one_request` -/
  | counting (request : TeeRpcInvoke) (found : Found)
  /-- before the `num_waiters_inc` of `spawn_thread` -/
  | spawning (request : TeeRpcInvoke) (found : Found)
  /-- in `pthread_create` -/
  | creating (request : TeeRpcInvoke) (found : Found)
  /-- before the `num_waiters_dec` of `spawn_thread` -/
  | uncreated
  | handling (request : TeeRpcInvoke) (found : Found) (job : Job (World σ) Handled)
  /-- in `TEE_IOC_SUPPL_SEND` -/
  | answering (response : TeeRpcInvoke)
  /-- `process_one_request` has returned false -/
  | failed
  | ended

/-- What ends the process: an assertion, a crash of a handler, or the return of `main`. -/
inductive End
  | assertion
  | crashed
  | exited
  deriving DecidableEq

/-- `struct thread_arg`, the threads that have it (the first is `main`), and what their
handlers work on. -/
structure Pool (σ : Type) where
  num_waiters : BitVec 64
  abort : Bool
  threads : List (Thread σ)
  world : World σ
  stopped : Option End

/-- One thread goes on: by itself, or with what the driver or `pthread_create` answers. -/
inductive Move
  | go (t : Nat)
  | recv (t : Nat) (request : Option TeeRpcInvoke)
  | create (t : Nat) (ok : Bool)
  | send (t : Nat) (ok : Bool)

/-- What can be seen of a step: a request received, a step of a handler with its result
when it was the last, and a response sent. -/
inductive Mark (σ : Type)
  | received (t : Nat) (request : TeeRpcInvoke)
  | acted (t : Nat) (request : TeeRpcInvoke) (effect : World σ → World σ)
      (result : Option (Option Handled))
  | answered (t : Nat) (response : TeeRpcInvoke)

section
variable {σ : Type}

/-- A handler without a step left has its result as it is entered. -/
def settled (t : Nat) (request : TeeRpcInvoke) (job : Job (World σ) Handled) : List (Mark σ) :=
  match job.result? with
  | none => []
  | some result => [.acted t request id (some result)]

namespace Pool

def put (p : Pool σ) (t : Nat) (x : Thread σ) : Pool σ := { p with threads := p.threads.set t x }

def spawned (p : Pool σ) : Pool σ := { p with threads := p.threads ++ [.created] }

def stop (p : Pool σ) (why : End) : Pool σ := { p with stopped := some why }

def waiters (p : Pool σ) (n : BitVec 64) : Pool σ := { p with num_waiters := n }

/-- The assertion behind the increment fails when the counter wraps. -/
def num_waiters_inc (p : Pool σ) (t : Nat) (next : Thread σ) : Pool σ :=
  if p.num_waiters + 1 = 0 then p.stop .assertion else (p.waiters (p.num_waiters + 1)).put t next

def num_waiters_dec (p : Pool σ) (t : Nat) (next : Thread σ) : Pool σ :=
  if p.num_waiters = 0 then p.stop .assertion else (p.waiters (p.num_waiters - 1)).put t next

section
variable (p : Pool σ) (t : Nat) (x : Thread σ) (n : BitVec 64) (why : End)

@[simp] theorem put_threads : (p.put t x).threads = p.threads.set t x := rfl
@[simp] theorem put_num_waiters : (p.put t x).num_waiters = p.num_waiters := rfl
@[simp] theorem put_abort : (p.put t x).abort = p.abort := rfl
@[simp] theorem put_world : (p.put t x).world = p.world := rfl
@[simp] theorem put_stopped : (p.put t x).stopped = p.stopped := rfl
@[simp] theorem waiters_threads : (p.waiters n).threads = p.threads := rfl
@[simp] theorem waiters_num_waiters : (p.waiters n).num_waiters = n := rfl
@[simp] theorem waiters_abort : (p.waiters n).abort = p.abort := rfl
@[simp] theorem waiters_world : (p.waiters n).world = p.world := rfl
@[simp] theorem waiters_stopped : (p.waiters n).stopped = p.stopped := rfl
@[simp] theorem stop_threads : (p.stop why).threads = p.threads := rfl
@[simp] theorem stop_num_waiters : (p.stop why).num_waiters = p.num_waiters := rfl
@[simp] theorem stop_abort : (p.stop why).abort = p.abort := rfl
@[simp] theorem stop_world : (p.stop why).world = p.world := rfl
@[simp] theorem stop_stopped : (p.stop why).stopped = some why := rfl
@[simp] theorem spawned_threads : p.spawned.threads = p.threads ++ [.created] := rfl
@[simp] theorem spawned_num_waiters : p.spawned.num_waiters = p.num_waiters := rfl
@[simp] theorem spawned_abort : p.spawned.abort = p.abort := rfl
@[simp] theorem spawned_world : p.spawned.world = p.world := rfl
@[simp] theorem spawned_stopped : p.spawned.stopped = p.stopped := rfl

end

variable (serve : Found → Job (World σ) Handled)

def handle (p : Pool σ) (t : Nat) (request : TeeRpcInvoke) (found : Found) :
    Pool σ × List (Mark σ) :=
  (p.put t (.handling request found (serve found)), settled t request (serve found))

@[simp] theorem handle_fst (p : Pool σ) (t : Nat) (request : TeeRpcInvoke) (found : Found) :
    (p.handle serve t request found).1 = p.put t (.handling request found (serve found)) := rfl

/-- A thread that goes on by itself. -/
def go (p : Pool σ) (t : Nat) : Thread σ → Option (Pool σ × List (Mark σ))
  | .created => some (p.num_waiters_dec t .looping, [])
  | .looping =>
    if p.abort then some (if t = 0 then (p.put t .ended).stop .exited else p.put t .ended, [])
    else some (p.put t .entering, [])
  | .entering => some (p.num_waiters_inc t .waiting, [])
  | .received request =>
    match find_params request with
    | none => some (p.put t .failed, [])
    | some found =>
      if found.num_meta = 0 then some (p.handle serve t request found)
      else some (p.put t (.counting request found), [])
  | .counting request found =>
    if p.num_waiters = 0 then some (p.stop .assertion, [])
    else
      let fewer := p.waiters (p.num_waiters - 1)
      if fewer.num_waiters = 0 then some (fewer.put t (.spawning request found), [])
      else some (fewer.handle serve t request found)
  | .spawning request found => some (p.num_waiters_inc t (.creating request found), [])
  | .uncreated => some (p.num_waiters_dec t .failed, [])
  | .handling request found (.act effect rest) =>
    let job := rest p.world
    some ({ p with world := effect p.world }.put t (.handling request found job),
      [.acted t request effect job.result?])
  | .handling request found (.done (some (params, ret))) =>
    some (p.put t (.answering (request.answer found params ret)), [])
  | .handling _ _ (.done none) => some (p.stop .crashed, [])
  | .failed => some ({ p with abort := true }.put t .looping, [])
  | .waiting | .creating _ _ | .answering _ | .ended => none

/-- Nothing moves after the end of the process. -/
def step (p : Pool σ) (move : Move) : Option (Pool σ × List (Mark σ)) :=
  match p.stopped, move with
  | some _, _ => none
  | none, .go t => p.threads[t]?.bind (p.go serve t)
  | none, .recv t request =>
    match p.threads[t]?, request with
    | some .waiting, none => some (p.put t .failed, [])
    | some .waiting, some request => some (p.put t (.received request), [.received t request])
    | _, _ => none
  | none, .create t ok =>
    match p.threads[t]?, ok with
    | some (.creating request found), true =>
      some ((p.spawned).handle serve t request found)
    | some (.creating _ _), false => some (p.put t .uncreated, [])
    | _, _ => none
  | none, .send t ok =>
    match p.threads[t]?, ok with
    | some (.answering response), true => some (p.put t .looping, [.answered t response])
    | some (.answering _), false => some (p.put t .failed, [])
    | _, _ => none

/-- The process as `main` starts its loop. -/
def start (world : World σ) : Pool σ := ⟨0, false, [.looping], world, none⟩

theorem spawned_at (p : Pool σ) {t : Nat} {x : Thread σ} (at_t : p.threads[t]? = some x) :
    p.spawned.threads[t]? = some x := by
  obtain ⟨inside, -⟩ := List.getElem?_eq_some_iff.mp at_t
  rw [spawned_threads, List.getElem?_append_left inside, at_t]

/-- A step as the change of one thread, with what it finds. -/
inductive Goes (p : Pool σ) : Move → Pool σ → List (Mark σ) → Prop
  | inc {t x y} : p.threads[t]? = some x →
      (x = .entering ∧ y = .waiting ∨ ∃ r f, x = .spawning r f ∧ y = .creating r f) →
      p.num_waiters + 1 ≠ 0 → Goes p (.go t) ((p.waiters (p.num_waiters + 1)).put t y) []
  | dec {t x y} : p.threads[t]? = some x →
      (x = .created ∧ y = .looping ∨ x = .uncreated ∧ y = .failed ∨
        ∃ r f, x = .counting r f ∧ y = .spawning r f ∧ p.num_waiters - 1 = 0) →
      p.num_waiters ≠ 0 → Goes p (.go t) ((p.waiters (p.num_waiters - 1)).put t y) []
  | asserts {t x} : p.threads[t]? = some x →
      (p.num_waiters + 1 = 0 ∧ (x = .entering ∨ ∃ r f, x = .spawning r f) ∨
        p.num_waiters = 0 ∧ (x = .created ∨ x = .uncreated ∨ ∃ r f, x = .counting r f)) →
      Goes p (.go t) (p.stop .assertion) []
  | enter {t} : p.threads[t]? = some .looping → p.abort = false →
      Goes p (.go t) (p.put t .entering) []
  | leave {t} : p.threads[t]? = some .looping → p.abort = true →
      Goes p (.go t) (if t = 0 then (p.put t .ended).stop .exited else p.put t .ended) []
  | refuse {t r} : p.threads[t]? = some (.received r) → find_params r = none →
      Goes p (.go t) (p.put t .failed) []
  | plain {t r f} : p.threads[t]? = some (.received r) → find_params r = some f →
      f.num_meta = 0 → Goes p (.go t) (p.handle serve t r f).1 (p.handle serve t r f).2
  | count {t r f} : p.threads[t]? = some (.received r) → find_params r = some f →
      f.num_meta ≠ 0 → Goes p (.go t) (p.put t (.counting r f)) []
  | others {t r f} : p.threads[t]? = some (.counting r f) → p.num_waiters ≠ 0 →
      p.num_waiters - 1 ≠ 0 → Goes p (.go t) ((p.waiters (p.num_waiters - 1)).handle serve t r f).1
        (settled t r (serve f))
  | act {t r f effect rest} : p.threads[t]? = some (.handling r f (.act effect rest)) →
      Goes p (.go t) ({ p with world := effect p.world }.put t (.handling r f (rest p.world)))
        [.acted t r effect (rest p.world).result?]
  | result {t r f params ret} :
      p.threads[t]? = some (.handling r f (.done (some (params, ret)))) →
      Goes p (.go t) (p.put t (.answering (r.answer f params ret))) []
  | crash {t r f} : p.threads[t]? = some (.handling r f (.done none)) →
      Goes p (.go t) (p.stop .crashed) []
  | abort {t} : p.threads[t]? = some .failed →
      Goes p (.go t) ({ p with abort := true }.put t .looping) []
  | lost {t} : p.threads[t]? = some .waiting → Goes p (.recv t none) (p.put t .failed) []
  | receive {t r} : p.threads[t]? = some .waiting →
      Goes p (.recv t (some r)) (p.put t (.received r)) [.received t r]
  | create {t r f} : p.threads[t]? = some (.creating r f) →
      Goes p (.create t true) (p.spawned.handle serve t r f).1 (settled t r (serve f))
  | fail {t r f} : p.threads[t]? = some (.creating r f) →
      Goes p (.create t false) (p.put t .uncreated) []
  | answer {t a} : p.threads[t]? = some (.answering a) →
      Goes p (.send t true) (p.put t .looping) [.answered t a]
  | unsent {t a} : p.threads[t]? = some (.answering a) → Goes p (.send t false) (p.put t .failed) []

section
variable {serve : Found → Job (World σ) Handled} {p p' : Pool σ} {t : Nat} {x : Thread σ}
  {marks : List (Mark σ)}

theorem inc_cases {y : Thread σ} (at_t : p.threads[t]? = some x)
    (kind : x = .entering ∧ y = .waiting ∨ ∃ r f, x = .spawning r f ∧ y = .creating r f) :
    Goes serve p (.go t) (p.num_waiters_inc t y) [] := by
  rw [num_waiters_inc]
  split_ifs with zero
  · refine .asserts at_t (.inl ⟨zero, ?_⟩)
    exact kind.imp And.left fun ⟨r, f, same, _⟩ => ⟨r, f, same⟩
  · exact .inc at_t kind zero

theorem dec_cases {y : Thread σ} (at_t : p.threads[t]? = some x)
    (kind : x = .created ∧ y = .looping ∨ x = .uncreated ∧ y = .failed) :
    Goes serve p (.go t) (p.num_waiters_dec t y) [] := by
  rw [num_waiters_dec]
  split_ifs with zero
  · refine .asserts at_t (.inr ⟨zero, ?_⟩)
    exact kind.imp And.left fun both => .inl both.1
  · exact .dec at_t (kind.imp_right .inl) zero

theorem go_cases (at_t : p.threads[t]? = some x) (h : p.go serve t x = some (p', marks)) :
    Goes serve p (.go t) p' marks := by
  cases x with
  | created =>
    cases h
    exact dec_cases at_t (.inl ⟨rfl, rfl⟩)
  | uncreated =>
    cases h
    exact dec_cases at_t (.inr ⟨rfl, rfl⟩)
  | entering =>
    cases h
    exact inc_cases at_t (.inl ⟨rfl, rfl⟩)
  | spawning request found =>
    cases h
    exact inc_cases at_t (.inr ⟨request, found, rfl, rfl⟩)
  | looping =>
    rw [go] at h
    by_cases abort : p.abort = true
    · rw [if_pos abort] at h
      cases h
      exact .leave at_t abort
    · rw [if_neg abort] at h
      cases h
      exact .enter at_t (Bool.eq_false_iff.mpr abort)
  | received request =>
    cases accepted : find_params request with
    | none =>
      simp only [go, accepted] at h
      cases h
      exact .refuse at_t accepted
    | some found =>
      simp only [go, accepted] at h
      by_cases plain : found.num_meta = 0
      · rw [if_pos plain] at h
        cases h
        exact .plain at_t accepted plain
      · rw [if_neg plain] at h
        cases h
        exact .count at_t accepted plain
  | counting request found =>
    rw [go] at h
    by_cases zero : p.num_waiters = 0
    · rw [if_pos zero] at h
      cases h
      exact .asserts at_t (.inr ⟨zero, .inr (.inr ⟨request, found, rfl⟩)⟩)
    · rw [if_neg zero] at h
      dsimp only [waiters] at h
      by_cases last : p.num_waiters - 1 = 0
      · rw [if_pos last] at h
        cases h
        exact .dec at_t (.inr (.inr ⟨request, found, rfl, rfl, last⟩)) zero
      · rw [if_neg last] at h
        cases h
        exact .others at_t zero last
  | handling request found job =>
    cases job with
    | act effect rest =>
      cases h
      exact .act at_t
    | done result =>
      cases result with
      | none =>
        cases h
        exact .crash at_t
      | some handled =>
        cases h
        exact .result at_t
  | failed =>
    cases h
    exact .abort at_t
  | waiting | creating | answering | ended => cases h

theorem step_cases {move : Move} (h : p.step serve move = some (p', marks)) :
    p.stopped = none ∧ Goes serve p move p' marks := by
  have running : p.stopped = none := by
    cases stopped : p.stopped with
    | none => rfl
    | some why =>
      simp only [step, stopped] at h
      cases h
  refine ⟨running, ?_⟩
  simp only [step, running] at h
  cases move with
  | go t =>
    obtain ⟨x, at_t, go⟩ := Option.bind_eq_some_iff.mp h
    exact go_cases at_t go
  | recv t request =>
    cases at_t : p.threads[t]? with
    | none => simp [at_t] at h
    | some x =>
      cases x with
      | waiting =>
        cases request with
        | none =>
          simp only [at_t] at h
          cases h
          exact .lost at_t
        | some request =>
          simp only [at_t] at h
          cases h
          exact .receive at_t
      | _ => simp [at_t] at h
  | create t ok =>
    cases at_t : p.threads[t]? with
    | none => simp [at_t] at h
    | some x =>
      cases x with
      | creating request found =>
        cases ok with
        | true =>
          simp only [at_t] at h
          cases h
          exact .create at_t
        | false =>
          simp only [at_t] at h
          cases h
          exact .fail at_t
      | _ => simp [at_t] at h
  | send t ok =>
    cases at_t : p.threads[t]? with
    | none => simp [at_t] at h
    | some x =>
      cases x with
      | answering response =>
        cases ok with
        | true =>
          simp only [at_t] at h
          cases h
          exact .answer at_t
        | false =>
          simp only [at_t] at h
          cases h
          exact .unsent at_t
      | _ => simp [at_t] at h

end

/-- `main` takes a request, makes a thread in its place, and answers. -/
def oneRequest : List Move :=
  [.go 0, .go 0, .recv 0 (some pidRequest), .go 0, .go 0, .go 0, .create 0 true, .go 0, .go 0,
    .send 0 true]

/-- The history of `oneRequest`, and the threads behind it. -/
def served : List (Move × List (Mark Nat)) × Pool Nat :=
  (exec (step (dispatch countingOs noOthers)) (start ⟨[], 0⟩) [] oneRequest).getD
    ([], start ⟨[], 0⟩)

theorem exec_oneRequest : exec (step (dispatch countingOs noOthers)) (start ⟨[], 0⟩) []
    oneRequest = some (served.1, served.2) := rfl

end Pool
end
end TeeSqlite.Traced
