import TeeSqlite.Lib.Tally
import TeeSqlite.Rpc.Threads

/-! What `num_waiters` counts, and why the supplicant never runs out of threads. -/
namespace TeeSqlite.Traced
open Jobs Runs Tally

section
variable {σ : Type}

/-- The request is one that `process_one_request` decrements the counter for. -/
def TeeRpcInvoke.hasMeta (request : TeeRpcInvoke) : Bool :=
  (find_params request).any fun found => found.num_meta ≠ 0

/-- What a thread has added to the counter and not taken back. The waiter that
`pthread_create` is about to make is its maker's. -/
def Thread.counted : Thread σ → Nat
  | .created | .waiting | .counting _ _ | .creating _ _ | .uncreated => 1
  | .received request => request.hasMeta.toNat
  | .looping | .entering | .spawning _ _ | .handling _ _ _ | .answering _ | .failed | .ended => 0

theorem Thread.counted_le (x : Thread σ) : x.counted ≤ 1 := by
  cases x with
  | received request => exact Bool.toNat_le _
  | created | waiting | counting | creating | uncreated => exact Nat.le_refl 1
  | looping | entering | spawning | handling | answering | failed | ended => exact Nat.zero_le 1

/-- The return of `TEE_IOC_SUPPL_RECV` after which nobody takes the waiter back. -/
def Move.keeps : Move → Bool
  | .recv _ none => true
  | .recv _ (some request) => !request.hasMeta
  | _ => false

/-- A return of `TEE_IOC_SUPPL_RECV`. -/
def Move.returns : Move → Bool
  | .recv _ _ => true
  | .go _ | .create _ _ | .send _ _ => false

def kept (h : List (Move × List (Mark σ))) : Nat := h.countP fun entry => entry.1.keeps

theorem kept_cons (move : Move) (marks : List (Mark σ)) (h : List (Move × List (Mark σ))) :
    kept ((move, marks) :: h) = kept h + move.keeps.toNat := by
  cases keeps : move.keeps <;> simp [kept, keeps]

namespace Pool

/-- The counter holds what the threads have added, and `k` that nobody takes back. -/
def Counts (p : Pool σ) (k : Nat) : Prop :=
  p.num_waiters.toNat = (tally Thread.counted p.threads + k) % 2 ^ 64

variable {serve : Found → Job (World σ) Handled} {p p' : Pool σ} {move : Move}
  {marks : List (Mark σ)} {k : Nat}

theorem hasMeta_eq {r : TeeRpcInvoke} {f : Found} (accepted : find_params r = some f) :
    r.hasMeta = true ↔ f.num_meta ≠ 0 := by
  simp [TeeRpcInvoke.hasMeta, accepted]

theorem tally_put (w : Thread σ → Nat) (p : Pool σ) {t : Nat} {x : Thread σ}
    (at_t : p.threads[t]? = some x) (y : Thread σ) :
    tally w (p.put t y).threads + w x = tally w p.threads + w y := tally_set at_t

theorem tally_spawned (w : Thread σ → Nat) (p : Pool σ) :
    tally w p.spawned.threads = tally w p.threads + w .created := by
  rw [spawned_threads, tally_append, tally_cons, tally_nil, Nat.add_zero]

/-- A step of a thread that leaves the counter alone. -/
theorem Counts.put (h : p.Counts k) {t : Nat} {x : Thread σ} (at_t : p.threads[t]? = some x)
    (y : Thread σ) {n : Nat} (same : x.counted + k = y.counted + n) : (p.put t y).Counts n := by
  rw [Counts] at h ⊢
  rw [put_num_waiters, h]
  congr 1
  have := tally_put Thread.counted p at_t y
  omega

theorem Counts.inc (h : p.Counts k) {t : Nat} {x : Thread σ} (at_t : p.threads[t]? = some x)
    (y : Thread σ) (one : y.counted = x.counted + 1) :
    ((p.waiters (p.num_waiters + 1)).put t y).Counts k := by
  have total := tally_put Thread.counted p at_t y
  have next : (p.num_waiters + 1).toNat = (p.num_waiters.toNat + 1) % 2 ^ 64 := by simp
  simp only [Counts, put_num_waiters, waiters_num_waiters, next, put_threads,
    waiters_threads] at h total ⊢
  omega

theorem Counts.dec (h : p.Counts k) {t : Nat} {x : Thread σ} (at_t : p.threads[t]? = some x)
    (y : Thread σ) (one : x.counted = y.counted + 1) (pos : p.num_waiters ≠ 0) :
    ((p.waiters (p.num_waiters - 1)).put t y).Counts k := by
  have total := tally_put Thread.counted p at_t y
  have next : (p.num_waiters - 1).toNat = p.num_waiters.toNat - 1 := by bv_omega
  have pos : 0 < p.num_waiters.toNat := by bv_omega
  simp only [Counts, put_num_waiters, waiters_num_waiters, next, put_threads,
    waiters_threads] at h total ⊢
  omega

/-- Every step keeps the counter right, but for what `keeps` tells. -/
theorem Counts.goes (h : p.Counts k) (goes : Goes serve p move p' marks) :
    p'.Counts (k + move.keeps.toNat) := by
  cases goes with
  | inc at_t kind wraps =>
    rcases kind with ⟨rfl, rfl⟩ | ⟨r, f, rfl, rfl⟩ <;> exact h.inc at_t _ rfl
  | dec at_t kind pos =>
    rcases kind with ⟨rfl, rfl⟩ | ⟨rfl, rfl⟩ | ⟨r, f, rfl, rfl, -⟩ <;>
      exact h.dec at_t _ rfl pos
  | @leave t at_t abort =>
    have left := h.put at_t .ended rfl
    split_ifs with main
    · exact left
    · exact left
  | @refuse t r at_t refused =>
    refine h.put at_t _ ?_
    simp [Thread.counted, TeeRpcInvoke.hasMeta, refused, Move.keeps]
  | @plain t r f at_t accepted plain =>
    refine h.put at_t _ ?_
    simp [Thread.counted, TeeRpcInvoke.hasMeta, accepted, plain, Move.keeps]
  | @count t r f at_t accepted behind =>
    refine h.put at_t _ ?_
    simp [Thread.counted, TeeRpcInvoke.hasMeta, accepted, behind, Move.keeps]
  | others at_t pos more => exact h.dec at_t _ rfl pos
  | lost at_t =>
    refine h.put at_t _ ?_
    simp [Thread.counted, Move.keeps, Nat.add_comm]
  | @receive t r at_t =>
    refine h.put at_t _ ?_
    cases has : r.hasMeta <;> simp [Thread.counted, Move.keeps, has, Nat.add_comm]
  | @create t r f at_t =>
    have total := tally_put Thread.counted p.spawned (p.spawned_at at_t) (.handling r f (serve f))
    rw [tally_spawned] at total
    simp only [Counts, handle_fst, put_num_waiters, spawned_num_waiters, Thread.counted]
      at h total ⊢
    rw [h]
    congr 1
    simp only [Move.keeps, Bool.toNat_false]
    omega
  | asserts | crash => exact h
  | enter at_t | act at_t | result at_t | abort at_t | fail at_t | answer at_t | unsent at_t =>
    exact h.put at_t _ rfl

theorem Goes.length_le (goes : Goes serve p move p' marks) :
    p.threads.length ≤ p'.threads.length := by
  cases goes with
  | leave at_t abort => split_ifs <;> simp
  | create => simp
  | _ => simp

/-- While the counter cannot wrap it is the number of waiters. -/
theorem Counts.exact (h : p.Counts k) (few : p.threads.length + k < 2 ^ 64) :
    p.num_waiters.toNat = tally Thread.counted p.threads + k := by
  have := tally_le_length Thread.counted_le p.threads
  rw [h, Nat.mod_eq_of_lt (by omega)]

theorem Counts.not_asserts (h : p.Counts k) (few : p.threads.length + k < 2 ^ 64)
    (goes : Goes serve p move p' marks) (running : p.stopped = none) :
    p'.stopped ≠ some .assertion := by
  have number := h.exact few
  cases goes with
  | @asserts t x at_t fails =>
    exfalso
    rcases fails with ⟨wraps, kind⟩ | ⟨zero, kind⟩
    · have weight : x.counted = 0 := by rcases kind with rfl | ⟨r, f, rfl⟩ <;> rfl
      have := tally_lt_length Thread.counted_le at_t weight
      bv_omega
    · have weight : x.counted = 1 := by rcases kind with rfl | rfl | ⟨r, f, rfl⟩ <;> rfl
      have := le_tally at_t (w := Thread.counted)
      bv_omega
  | leave at_t abort => split_ifs <;> simp [running]
  | crash => simp
  | _ => simp [running]

/-- **The counter.** In every run, whatever fails in it, `num_waiters` is the number of the
threads that are counted and of the receptions that were never taken back, and no
assertion about it fails. -/
theorem num_waiters_exact {w : World σ} {h : List (Move × List (Mark σ))}
    (run : Run (Pool.step serve) Free (Pool.start w) h p)
    (few : p.threads.length + kept h < 2 ^ 64) :
    p.num_waiters.toNat = tally Thread.counted p.threads + kept h ∧
      p.stopped ≠ some .assertion := by
  have counts : p.Counts (kept h) ∧
      (p.threads.length + kept h < 2 ^ 64 → p.stopped ≠ some .assertion) := by
    clear few
    induction run with
    | start => exact ⟨rfl, fun _ => by simp [Pool.start]⟩
    | next _ _ step ih =>
      obtain ⟨running, goes⟩ := step_cases step
      rw [kept_cons]
      refine ⟨ih.1.goes goes, fun few => ih.1.not_asserts ?_ goes running⟩
      have := goes.length_le
      omega
  exact ⟨counts.1.exact few, counts.2 few⟩

theorem num_waiters_after_a_request :
    served.2.num_waiters.toNat = tally Thread.counted served.2.threads + kept served.1 ∧
      served.2.stopped ≠ some .assertion :=
  num_waiters_exact (Run.exec .start (fun _ _ _ => trivial) exec_oneRequest) (by decide)

end Pool

/-- The thread is in `TEE_IOC_SUPPL_RECV`, or gets there without a handler. -/
def Thread.Available : Thread σ → Prop
  | .created | .looping | .entering | .waiting | .received _ | .counting _ _ | .spawning _ _
  | .creating _ _ => True
  | .handling _ _ _ | .answering _ | .uncreated | .failed | .ended => False

def Thread.Busy : Thread σ → Prop
  | .handling _ _ _ | .answering _ => True
  | _ => False

/-- The driver gives requests with meta parameters, and nothing fails. -/
def Move.Smooth : Move → Prop
  | .go _ => True
  | .recv _ request => ∃ r, request = some r ∧ r.hasMeta = true
  | .create _ ok | .send _ ok => ok = true

theorem Move.Smooth.keeps {move : Move} (smooth : move.Smooth) : move.keeps = false := by
  cases move with
  | recv t request =>
    obtain ⟨r, rfl, has⟩ := smooth
    simp [Move.keeps, has]
  | go | create | send => rfl

namespace Pool

/-- No thread has failed, and one is not busy. -/
structure Staffed (p : Pool σ) : Prop where
  abort : p.abort = false
  threads : ∀ x ∈ p.threads, x.Available ∨ x.Busy
  requests : ∀ r, .received r ∈ p.threads → r.hasMeta = true
  available : ∃ x ∈ p.threads, x.Available

variable {serve : Found → Job (World σ) Handled} {p p' : Pool σ} {move : Move}
  {marks : List (Mark σ)} {k : Nat}

theorem available_of_counted {x : Thread σ} (fine : x.Available ∨ x.Busy)
    (counted : 0 < x.counted) : x.Available := by
  refine fine.resolve_right fun busy => ?_
  cases x with
  | handling | answering => exact Nat.lt_irrefl 0 counted
  | _ => exact busy

theorem mem_put {t : Nat} {x y : Thread σ} (member : y ∈ (p.put t x).threads) :
    y ∈ p.threads ∨ y = x := List.mem_or_eq_of_mem_set member

theorem mem_put_self {t : Nat} {x : Thread σ} (y : Thread σ) (at_t : p.threads[t]? = some x) :
    y ∈ (p.put t y).threads := by
  obtain ⟨inside, -⟩ := List.getElem?_eq_some_iff.mp at_t
  exact List.mem_iff_getElem.mpr ⟨t, by simpa using inside, by simp⟩

theorem Staffed.waiters (h : p.Staffed) (n : BitVec 64) : (p.waiters n).Staffed :=
  ⟨h.abort, h.threads, h.requests, h.available⟩

/-- A thread goes on and remains available. -/
theorem Staffed.put_available (h : p.Staffed) {t : Nat} {x y : Thread σ}
    (at_t : p.threads[t]? = some x) (ready : y.Available)
    (requests : ∀ r, y = .received r → r.hasMeta = true) : (p.put t y).Staffed where
  abort := h.abort
  threads z member := (mem_put member).elim (h.threads z) fun same => .inl (same ▸ ready)
  requests r member := (mem_put member).elim (h.requests r) fun same => requests r same.symm
  available := ⟨y, mem_put_self y at_t, ready⟩

/-- A thread is busy after a step, and another one is available. -/
theorem Staffed.put_busy {t : Nat} {y : Thread σ} (abort : p.abort = false)
    (threads : ∀ x ∈ p.threads, x.Available ∨ x.Busy)
    (requests : ∀ r, .received r ∈ p.threads → r.hasMeta = true) (busy : y.Busy)
    (available : ∃ x ∈ (p.put t y).threads, x.Available) : (p.put t y).Staffed where
  abort := abort
  threads z member := (mem_put member).elim (threads z) fun same => .inr (same ▸ busy)
  requests r member := by
    refine (mem_put member).elim (requests r) fun same => ?_
    subst same
    cases busy
  available := available

/-- A busy thread was not the available one. -/
theorem Staffed.available_other (h : p.Staffed) {t : Nat} {x : Thread σ}
    (at_t : p.threads[t]? = some x) (busy : x.Busy) (y : Thread σ) :
    ∃ z ∈ (p.put t y).threads, z.Available := by
  obtain ⟨z, member, ready⟩ := h.available
  obtain ⟨u, at_u⟩ := List.mem_iff_getElem?.mp member
  have other : t ≠ u := by
    rintro rfl
    obtain rfl := Option.some.inj (at_t.symm.trans at_u)
    cases x with
    | handling | answering => exact ready
    | _ => exact busy
  refine ⟨z, List.mem_iff_getElem?.mpr ⟨u, ?_⟩, ready⟩
  rw [put_threads, List.getElem?_set_ne other, at_u]

/-- A step of a run without failures keeps a thread available. The last waiter that
takes a request has another one made before it handles it. -/
theorem Staffed.goes (h : p.Staffed) (counts : p.Counts 0)
    (few : p.threads.length < 2 ^ 64) (goes : Goes serve p move p' marks)
    (smooth : move.Smooth) : p'.Staffed := by
  have fine {t : Nat} {x : Thread σ} (at_t : p.threads[t]? = some x) : x.Available ∨ x.Busy :=
    h.threads x (List.mem_of_getElem? at_t)
  cases goes with
  | inc at_t kind _ =>
    rcases kind with ⟨rfl, rfl⟩ | ⟨r, f, rfl, rfl⟩ <;>
      exact (h.waiters _).put_available at_t trivial (by simp)
  | dec at_t kind _ =>
    rcases kind with ⟨rfl, rfl⟩ | ⟨rfl, rfl⟩ | ⟨r, f, rfl, rfl, -⟩
    · exact (h.waiters _).put_available at_t trivial (by simp)
    · exact ((fine at_t).elim id id).elim
    · exact (h.waiters _).put_available at_t trivial (by simp)
  | asserts | crash => exact ⟨h.abort, h.threads, h.requests, h.available⟩
  | enter at_t _ => exact h.put_available at_t trivial (by simp)
  | leave at_t abort => exact absurd (h.abort.symm.trans abort) Bool.false_ne_true
  | @refuse t r at_t refused =>
    have has := h.requests r (List.mem_of_getElem? at_t)
    simp [TeeRpcInvoke.hasMeta, refused] at has
  | @plain t r f at_t accepted plain =>
    have has := h.requests r (List.mem_of_getElem? at_t)
    exact absurd plain ((hasMeta_eq accepted).mp has)
  | count at_t _ _ => exact h.put_available at_t trivial (by simp)
  | @others t r f at_t pos more =>
    refine Staffed.put_busy h.abort h.threads h.requests trivial ?_
    -- the counter is not zero, so somebody is counted
    have left := (counts.dec at_t (.handling r f (serve f)) rfl pos).exact (by simpa using few)
    obtain ⟨u, z, at_u, counted⟩ := exists_of_tally_pos (w := Thread.counted)
      (l := ((p.waiters (p.num_waiters - 1)).put t (.handling r f (serve f))).threads)
      (by simp only [put_num_waiters, waiters_num_waiters] at left; bv_omega)
    refine ⟨z, List.mem_of_getElem? at_u, available_of_counted ?_ counted⟩
    exact (mem_put (List.mem_of_getElem? at_u)).elim (h.threads z) fun same => .inr (same ▸ trivial)
  | act at_t =>
    exact Staffed.put_busy h.abort h.threads h.requests trivial (h.available_other at_t trivial _)
  | result at_t =>
    exact Staffed.put_busy h.abort h.threads h.requests trivial (h.available_other at_t trivial _)
  | abort at_t => exact ((fine at_t).elim id id).elim
  | lost at_t =>
    obtain ⟨r, same, -⟩ := smooth
    cases same
  | receive at_t =>
    obtain ⟨r, same, has⟩ := smooth
    cases same
    refine h.put_available at_t trivial fun r' same => ?_
    cases same
    exact has
  | @create t r f at_t =>
    have at_t' := p.spawned_at at_t
    obtain ⟨inside, -⟩ := List.getElem?_eq_some_iff.mp at_t
    refine Staffed.put_busy h.abort ?_ ?_ trivial ⟨.created, ?_, trivial⟩
    · intro x member
      rcases List.mem_append.mp member with before | new
      · exact h.threads x before
      · exact .inl (List.mem_singleton.mp new ▸ trivial)
    · intro r member
      rcases List.mem_append.mp member with before | new
      · exact h.requests r before
      · cases List.mem_singleton.mp new
    · refine List.mem_iff_getElem?.mpr ⟨p.threads.length, ?_⟩
      rw [put_threads, List.getElem?_set_ne (Nat.ne_of_lt inside)]
      simp
  | fail | unsent => cases smooth
  | answer at_t => exact h.put_available at_t trivial (by simp)

theorem staffed_run {w : World σ} {h : List (Move × List (Mark σ))}
    (run : Run (Pool.step serve) (fun _ move => move.Smooth) (Pool.start w) h p) :
    p.Counts 0 ∧ (p.threads.length < 2 ^ 64 → p.Staffed) := by
  induction run with
  | start =>
    refine ⟨rfl, fun _ => ⟨rfl, ?_, ?_, .looping, ?_, trivial⟩⟩
    · exact List.forall_mem_singleton.mpr (.inl trivial)
    · simp [Pool.start]
    · exact List.mem_singleton_self _
  | next _ smooth step ih =>
    obtain ⟨running, goes⟩ := step_cases step
    have next := ih.1.goes goes
    rw [smooth.keeps] at next
    refine ⟨next, fun few => ?_⟩
    have few := Nat.lt_of_le_of_lt goes.length_le few
    exact (ih.2 few).goes ih.1 few goes smooth

/-- **Availability.** While the driver sends meta parameters and nothing fails, some
thread is in no handler, however long those that are in one stay there. -/
theorem always_available {w : World σ} {h : List (Move × List (Mark σ))}
    (run : Run (Pool.step serve) (fun _ move => move.Smooth) (Pool.start w) h p)
    (few : p.threads.length < 2 ^ 64) : ∃ x ∈ p.threads, x.Available :=
  ((staffed_run run).2 few).available

theorem oneRequest_smooth : ∀ move ∈ oneRequest, move.Smooth := by
  simp only [oneRequest, List.forall_mem_cons, List.not_mem_nil, false_implies, implies_true,
    and_true, Move.Smooth, true_and]
  exact ⟨pidRequest, rfl, by decide⟩

theorem oneRequest_run : Run (Pool.step (dispatch countingOs noOthers))
    (fun _ move => move.Smooth) (start ⟨[], 0⟩) served.1 served.2 :=
  Run.exec .start (fun _ => oneRequest_smooth) exec_oneRequest

theorem available_after_a_request : ∃ x ∈ served.2.threads, x.Available :=
  always_available oneRequest_run (by decide)

/-- A step of an available thread that neither the driver nor a handler has to do with. -/
def Quiet (p : Pool σ) (move : Move) : Prop :=
  ∃ t x, p.threads[t]? = some x ∧ x.Available ∧ (move = .go t ∨ move = .create t true)

/-- The steps that a thread has left before it waits, those of the thread it makes
among them. -/
def rank : Thread σ → Nat
  | .received _ => 7
  | .counting _ _ => 6
  | .spawning _ _ => 5
  | .creating _ _ => 4
  | .created => 3
  | .looping => 2
  | .entering => 1
  | .waiting | .handling _ _ _ | .answering _ | .uncreated | .failed | .ended => 0

theorem Quiet.at {t : Nat} {x : Thread σ} (quiet : p.Quiet (.go t))
    (at_t : p.threads[t]? = some x) : x.Available := by
  obtain ⟨u, y, at_u, ready, same | same⟩ := quiet
  · cases same
    exact Option.some.inj (at_u.symm.trans at_t) ▸ ready
  · cases same

theorem Quiet.smooth (quiet : p.Quiet move) : move.Smooth := by
  obtain ⟨t, x, -, -, rfl | rfl⟩ := quiet
  · trivial
  · rfl

theorem tally_put_lt {w : Thread σ → Nat} {t : Nat} {x y : Thread σ}
    (at_t : p.threads[t]? = some x) (less : w y < w x) :
    tally w (p.put t y).threads < tally w p.threads := by
  have := tally_put w p at_t y
  omega

/-- A quiet step brings the available threads nearer to the driver. -/
theorem Staffed.quiet (h : p.Staffed) (counts : p.Counts 0) (few : p.threads.length < 2 ^ 64)
    (goes : Goes serve p move p' marks) (running : p.stopped = none) (quiet : p.Quiet move) :
    tally rank p'.threads < tally rank p.threads ∧ p'.stopped = none := by
  have sound := counts.not_asserts few goes running
  cases goes with
  | inc at_t kind _ =>
    rcases kind with ⟨rfl, rfl⟩ | ⟨r, f, rfl, rfl⟩ <;>
      exact ⟨tally_put_lt at_t (by simp [rank]), running⟩
  | dec at_t kind _ =>
    rcases kind with ⟨rfl, rfl⟩ | ⟨rfl, rfl⟩ | ⟨r, f, rfl, rfl, -⟩
    · exact ⟨tally_put_lt at_t (by simp [rank]), running⟩
    · exact (quiet.at at_t).elim
    · exact ⟨tally_put_lt at_t (by simp [rank]), running⟩
  | asserts => exact absurd rfl sound
  | enter at_t _ => exact ⟨tally_put_lt at_t (by simp [rank]), running⟩
  | leave at_t abort => exact absurd (h.abort.symm.trans abort) Bool.false_ne_true
  | @refuse t r at_t refused =>
    have has := h.requests r (List.mem_of_getElem? at_t)
    simp [TeeRpcInvoke.hasMeta, refused] at has
  | @plain t r f at_t accepted plain =>
    exact absurd plain ((hasMeta_eq accepted).mp (h.requests r (List.mem_of_getElem? at_t)))
  | count at_t _ _ => exact ⟨tally_put_lt at_t (by simp [rank]), running⟩
  | others at_t _ _ => exact ⟨tally_put_lt at_t (by simp [rank]), running⟩
  | act at_t | result at_t | crash at_t | abort at_t => exact (quiet.at at_t).elim
  | @create t r f at_t =>
    have total := tally_put rank p.spawned (p.spawned_at at_t) (.handling r f (serve f))
    rw [tally_spawned] at total
    simp only [rank] at total
    exact ⟨by rw [handle_fst]; omega, running⟩
  | lost | receive | fail | answer | unsent =>
    obtain ⟨_, _, _, _, same | same⟩ := quiet <;> cases same

/-- An available thread that does not wait can go on by itself. -/
theorem quiet_step {t : Nat} {x : Thread σ} (running : p.stopped = none)
    (at_t : p.threads[t]? = some x) (ready : x.Available) (moves : x ≠ .waiting) :
    ∃ move, p.Quiet move ∧ (p.step serve move).isSome = true := by
  cases x with
  | waiting => exact absurd rfl moves
  | creating r f =>
    exact ⟨.create t true, ⟨t, _, at_t, ready, .inr rfl⟩, by simp [step, running, at_t]⟩
  | handling | answering | uncreated | failed | ended => exact ready.elim
  | created | entering | spawning =>
    exact ⟨.go t, ⟨t, _, at_t, ready, .inl rfl⟩, by simp [step, running, at_t, go]⟩
  | looping =>
    refine ⟨.go t, ⟨t, _, at_t, ready, .inl rfl⟩, ?_⟩
    by_cases abort : p.abort = true <;> simp [step, running, at_t, go, abort]
  | received r =>
    refine ⟨.go t, ⟨t, _, at_t, ready, .inl rfl⟩, ?_⟩
    cases accepted : find_params r with
    | none => simp [step, running, at_t, go, accepted]
    | some f =>
      by_cases plain : f.num_meta = 0 <;> simp [step, running, at_t, go, accepted, plain]
  | counting r f =>
    refine ⟨.go t, ⟨t, _, at_t, ready, .inl rfl⟩, ?_⟩
    simp only [step, running, at_t, Option.bind_some, go]
    split_ifs <;> rfl

/-- **The driver can always get rid of a request.** Let only the threads go on that are
in no handler, in any order: they come to rest after so many steps, and when none of
them can go on by itself then one waits for a request. -/
theorem reaches_waiting {w : World σ} {h h' : List (Move × List (Mark σ))}
    (run : Run (Pool.step serve) (fun _ move => move.Smooth) (Pool.start w) h p)
    (running : p.stopped = none) (more : Run (Pool.step serve) Quiet p h' p')
    (few : p'.threads.length < 2 ^ 64) :
    h'.length + tally rank p'.threads ≤ tally rank p.threads ∧ p'.stopped = none ∧
      ((∃ t : Nat, p'.threads[t]? = some .waiting) ∨
        ∃ move, p'.Quiet move ∧ (p'.step serve move).isSome = true) := by
  have start := staffed_run run
  have reached : p'.Counts 0 ∧ (p'.threads.length < 2 ^ 64 → p'.Staffed ∧ p'.stopped = none ∧
      h'.length + tally rank p'.threads ≤ tally rank p.threads) := by
    clear few
    induction more with
    | start => exact ⟨start.1, fun few => ⟨start.2 few, running, by simp⟩⟩
    | next _ quiet step ih =>
      obtain ⟨_, goes⟩ := step_cases step
      have next := ih.1.goes goes
      rw [quiet.smooth.keeps] at next
      refine ⟨next, fun few => ?_⟩
      have few := Nat.lt_of_le_of_lt goes.length_le few
      obtain ⟨staffed, running, bound⟩ := ih.2 few
      obtain ⟨nearer, running'⟩ := staffed.quiet ih.1 few goes running quiet
      refine ⟨staffed.goes ih.1 few goes quiet.smooth, running', ?_⟩
      rw [List.length_cons]
      omega
  obtain ⟨staffed, running', bound⟩ := reached.2 few
  refine ⟨bound, running', ?_⟩
  obtain ⟨x, member, ready⟩ := staffed.available
  obtain ⟨t, at_t⟩ := List.mem_iff_getElem?.mp member
  by_cases waits : x = .waiting
  · exact .inl ⟨t, waits ▸ at_t⟩
  · exact .inr (quiet_step running' at_t ready waits)

/-- After the request `main` tests `abort` again. -/
theorem waiting_after_a_request :
    1 + tally rank (served.2.put 0 .entering).threads ≤ tally rank served.2.threads ∧
      (served.2.put 0 .entering).stopped = none ∧
      ((∃ t : Nat, (served.2.put 0 .entering).threads[t]? = some .waiting) ∨
        ∃ move, (served.2.put 0 .entering).Quiet move ∧
          ((served.2.put 0 .entering).step (dispatch countingOs noOthers) move).isSome = true) :=
  reaches_waiting oneRequest_run rfl
    (.next .start ⟨0, .looping, rfl, trivial, .inl rfl⟩ rfl) (by decide)

/-- The threads that have passed the test of `abort` and have no request yet. -/
def opens : Thread σ → Nat
  | .entering | .waiting => 1
  | .created | .looping | .received _ | .counting _ _ | .spawning _ _ | .creating _ _ | .uncreated
  | .handling _ _ _ | .answering _ | .failed | .ended => 0

theorem Goes.opens (goes : Goes serve p move p' marks) (aborted : p.abort = true) :
    p'.abort = true ∧
      move.returns.toNat + tally opens p'.threads ≤ tally opens p.threads := by
  have put {q : Pool σ} {t : Nat} {x : Thread σ} (y : Thread σ) (at_t : q.threads[t]? = some x)
      (less : move.returns.toNat + Pool.opens y ≤ Pool.opens x) :
      move.returns.toNat + tally Pool.opens (q.put t y).threads ≤ tally Pool.opens q.threads := by
    have := tally_put Pool.opens q at_t y
    omega
  cases goes with
  | inc at_t kind _ =>
    rcases kind with ⟨rfl, rfl⟩ | ⟨r, f, rfl, rfl⟩ <;>
      exact ⟨aborted, put _ at_t (by simp [Move.returns, Pool.opens])⟩
  | dec at_t kind _ =>
    rcases kind with ⟨rfl, rfl⟩ | ⟨rfl, rfl⟩ | ⟨r, f, rfl, rfl, -⟩ <;>
      exact ⟨aborted, put _ at_t (by simp [Move.returns, Pool.opens])⟩
  | asserts | crash => exact ⟨aborted, by simp [Move.returns]⟩
  | enter at_t open_ => exact absurd (aborted.symm.trans open_) (by decide)
  | @leave t at_t _ =>
    have left := put .ended at_t (by simp [Move.returns, Pool.opens])
    split_ifs with main
    · exact ⟨aborted, left⟩
    · exact ⟨aborted, left⟩
  | abort at_t =>
    exact ⟨rfl, put _ at_t (by simp [Move.returns, Pool.opens])⟩
  | @create t r f at_t =>
    have next := put (.handling r f (serve f)) (p.spawned_at at_t)
      (by simp [Move.returns, Pool.opens])
    rw [tally_spawned] at next
    exact ⟨aborted, next⟩
  | refuse at_t | plain at_t | count at_t | others at_t | act at_t | result at_t | lost at_t
  | receive at_t | fail at_t | answer at_t | unsent at_t =>
    exact ⟨aborted, put _ at_t (by simp [Move.returns, Pool.opens])⟩

/-- **Draining.** Once `abort` is set it stays set, and the only requests that are still
received are those of the threads that had passed its test. -/
theorem abort_drains {h : List (Move × List (Mark σ))} (aborted : p.abort = true)
    (run : Run (Pool.step serve) Free p h p') :
    p'.abort = true ∧
      (h.countP fun entry => entry.1.returns) + tally opens p'.threads ≤ tally opens p.threads := by
  induction run with
  | start => exact ⟨aborted, by simp⟩
  | @next h q move q' marks _ _ step ih =>
    obtain ⟨_, goes⟩ := step_cases step
    obtain ⟨still, less⟩ := goes.opens ih.1
    refine ⟨still, ?_⟩
    rw [List.countP_cons]
    cases returns : move.returns <;> simp [returns] at less ⊢ <;> omega

/-- A waiter whose reception fails after the abort. -/
def abortedWaiter : Pool Nat := ⟨1, true, [.waiting], ⟨[], 0⟩, none⟩

theorem aborted_waiter_drains : (abortedWaiter.put 0 .failed).abort = true ∧
    ([(Move.recv 0 none, ([] : List (Mark Nat)))].countP fun entry => entry.1.returns) +
      tally opens (abortedWaiter.put 0 .failed).threads ≤ tally opens abortedWaiter.threads :=
  abort_drains rfl (.next .start trivial
    (rfl : abortedWaiter.step (dispatch countingOs noOthers) (.recv 0 none) = _))

end Pool
end
end TeeSqlite.Traced
