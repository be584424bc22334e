import TeeSqlite.Rpc.Sessions

/-! The supplicant with its threads against one that serves a request at a time. -/
namespace TeeSqlite.Traced
open Oracles Jobs Runs Pool

/-- A request for the files that makes at most one call of the library: any but `fstat`. -/
def Found.Single (found : Found) : Prop :=
  rpcFuncOf found.func = some .OPEN ∧ requestCalls found.params ≤ 1

instance (found : Found) : Decidable found.Single := inferInstanceAs (Decidable (_ ∧ _))

/-- What a supplicant without threads does: a whole request, or one step of something
else. -/
inductive Turn (σ : Type)
  | request (request : TeeRpcInvoke)
  | other (effect : World σ → World σ)

section
variable {σ : Type} (sys : σ → LibcCall → σ × OsResult)
  (others : RpcFunc → Nat → (Nat → Param) → Job (World σ) Handled)

/-- One request after the other, each from its first step to its last. -/
def turn (w : World σ) : Turn σ → Option (World σ × Option Handled)
  | .request request => (find_params request).map fun found => (dispatch sys others found).run w
  | .other effect => some (effect w, none)

/-- The turn that a mark stands for: that of a file request is the step after which its
result is there. -/
def Mark.turn? : Mark σ → Option (Turn σ × Option Handled)
  | .acted _ request effect result =>
    if (find_params request).any fun found => found.Single then
      result.map fun result => (.request request, result)
    else some (.other effect, none)
  | .received _ _ | .answered _ _ => none

def turns (h : List (Move × List (Mark σ))) : List (Turn σ × Option Handled) :=
  (h.flatMap fun entry => entry.2).filterMap Mark.turn?

/-- A file request whose result is not there yet: some of its look-ups are made, and
they are still right. -/
structure Underway (found : Found) (job : Job (World σ) Handled) (w : World σ) : Prop where
  left : ∃ looked ids seen, Seen looked seen w.shm_head ∧
    (∀ shm ∈ looked, shm ∈ references found.num_params found.params) ∧
    (∀ shm ∈ references found.num_params found.params, shm ∈ looked ∨ shm ∈ ids) ∧
    (∀ shm ∈ ids, shm ∈ references found.num_params found.params) ∧
    job = lookUp ids seen (vfsCalls sys found.num_params found.params)

variable {sys others} {found : Found} {job : Job (World σ) Handled} {w w' : World σ}

theorem dispatch_single (single : found.Single) :
    dispatch sys others found = vfsJob sys found.num_params found.params := by
  simp [dispatch, single.1]

theorem Underway.start (single : found.Single) (w : World σ) :
    Underway sys found (dispatch sys others found) w :=
  ⟨[], _, [], Seen.nil _, by simp, fun shm member => .inr member, fun shm member => member,
    dispatch_single single⟩

/-- What is left comes to the whole request. -/
theorem Underway.run (single : found.Single) (underway : Underway sys found job w) :
    job.run w = (dispatch sys others found).run w := by
  obtain ⟨looked, ids, seen, there, -, all, -, rfl⟩ := underway
  rw [dispatch_single single, vfsJob, lookUp_vfsCalls_run ids there all,
    lookUp_vfsCalls_run _ (Seen.nil _) fun shm member => .inr member]

theorem Underway.undisturbed (underway : Underway sys found job w)
    (same : SameRegions found.num_params found.params w.shm_head w'.shm_head) :
    Underway sys found job w' := by
  obtain ⟨looked, ids, seen, there, own, all, rest, rfl⟩ := underway
  exact ⟨looked, ids, seen, there.undisturbed own same, own, all, rest, rfl⟩

theorem vfsCalls_last {num_params : Nat} {params : Nat → Param} {seen : List TeeShm}
    (one : requestCalls params ≤ 1) {effect : World σ → World σ}
    {rest : World σ → Job (World σ) Handled}
    (acts : .act effect rest = vfsCalls sys num_params params seen) (w : World σ) :
    ∃ result, rest w = .done result := by
  have makes : Makes Outcome.libc 1 [] fun os =>
      tee_supp_vfs_process num_params seen os params [] := (process_makes seen params).mono one
  rw [vfsCalls] at acts
  rcases Nat.le_one_iff_eq_zero_or_eq_one.mp one with none | one
  · rw [none] at acts
    cases acts
  · rw [one] at acts
    exact calling_last makes acts.symm w

/-- A step is a look, or the one that the request has. -/
theorem Underway.act {effect : World σ → World σ} {rest : World σ → Job (World σ) Handled}
    (single : found.Single) (underway : Underway sys found (.act effect rest) w) :
    (effect = id ∧ Underway sys found (rest w) w) ∨ ∃ result, rest w = .done result := by
  obtain ⟨looked, ids, seen, there, own, all, named, acts⟩ := underway
  cases ids with
  | nil =>
    exact .inr (vfsCalls_last single.2 acts w)
  | cons shm ids =>
    left
    cases acts
    refine ⟨rfl, shm :: looked, ids, _, there.look shm, ?_, ?_, ?_, rfl⟩
    · exact List.forall_mem_cons.mpr ⟨named shm List.mem_cons_self, own⟩
    · intro x member
      rcases all x member with before | now
      · exact .inl (List.mem_cons_of_mem _ before)
      · rcases List.mem_cons.mp now with rfl | later
        · exact .inl List.mem_cons_self
        · exact .inr later
    · exact fun x member => named x (List.mem_cons_of_mem _ member)

variable {w₀ : World σ} {p p' q : Pool σ} {move : Move} {marks : List (Mark σ)}
  {h : List (Move × List (Mark σ))} {t : Nat}

theorem turns_cons : turns ((move, marks) :: h) = marks.filterMap Mark.turn? ++ turns h := by
  simp [turns]

/-- A step of a handler is a turn, if it is not a look. -/
theorem turns_acted (run : Run (turn sys others) Free w₀ (turns h) w) {r : TeeRpcInvoke}
    {effect : World σ → World σ} {result : Option (Option Handled)}
    (accepted : find_params r = some found)
    (look : found.Single → result = none → effect w = w)
    (last : ∀ value, found.Single → result = some value →
      (dispatch sys others found).run w = (effect w, value)) :
    Run (turn sys others) Free w₀ (turns ((move, [.acted t r effect result]) :: h)) (effect w) := by
  rw [turns_cons]
  by_cases single : found.Single
  · cases result with
    | none =>
      simp only [List.filterMap_cons, Mark.turn?, accepted, Option.any_some, single, decide_true,
        if_true, Option.map_none, List.filterMap_nil, List.nil_append]
      rw [look single rfl]
      exact run
    | some value =>
      simp only [List.filterMap_cons, Mark.turn?, accepted, Option.any_some, single, decide_true,
        if_true, Option.map_some, List.filterMap_nil, List.cons_append, List.nil_append]
      refine run.next trivial ?_
      rw [turn, accepted, Option.map_some, last value single rfl]
  · simp only [List.filterMap_cons, Mark.turn?, accepted, Option.any_some, single, decide_false,
      Bool.false_eq_true, if_false, List.filterMap_nil, List.cons_append, List.nil_append]
    exact run.next trivial rfl

/-- A handler is entered. -/
theorem turns_settled (run : Run (turn sys others) Free w₀ (turns h) w) {r : TeeRpcInvoke}
    (accepted : find_params r = some found) :
    Run (turn sys others) Free w₀
      (turns ((move, settled t r (dispatch sys others found)) :: h)) w := by
  cases job : dispatch sys others found with
  | act effect rest => exact run
  | done result =>
    have settled (value : Option Handled) (same : some result = some value) :
        (dispatch sys others found).run w = (id w, value) := by
      cases same
      rw [job]
      rfl
    exact turns_acted run accepted (fun _ none => by cases none) fun value _ => settled value

/-- The file requests in handlers are underway. -/
def Pool.Underways (sys : σ → LibcCall → σ × OsResult) (p : Pool σ) : Prop :=
  ∀ (t : Nat) r f effect rest, p.threads[t]? = some (.handling r f (.act effect rest)) →
    f.Single → Underway sys f (.act effect rest) p.world

/-- One thread goes on, and the regions of the others are left alone. -/
theorem Pool.Underways.put (underways : p.Underways sys) {y : Thread σ}
    (threads : q.threads = p.threads.set t y)
    (same : ∀ (t : Nat) r f effect rest, p.threads[t]? = some (.handling r f (.act effect rest)) →
      f.Single → SameRegions f.num_params f.params p.world.shm_head q.world.shm_head)
    (new : ∀ r f effect rest, y = .handling r f (.act effect rest) → f.Single →
      Underway sys f (.act effect rest) q.world) : q.Underways sys := by
  intro u r f effect rest at_u single
  rw [threads, List.getElem?_set] at at_u
  split_ifs at at_u with here inside
  · exact new r f effect rest (Option.some.inj at_u) single
  · exact (underways u r f effect rest at_u single).undisturbed (same u r f effect rest at_u single)

theorem of_spawned {r : TeeRpcInvoke} {f : Found}
    (at_t : p.spawned.threads[t]? = some (.handling r f job)) :
    p.threads[t]? = some (.handling r f job) := by
  rw [spawned_threads, List.getElem?_append] at at_t
  split_ifs at at_t with inside
  · exact at_t
  · have new := List.mem_of_getElem? at_t
    cases List.mem_singleton.mp new

/-- The threads have done what the turns do, and go on with it. -/
structure Serves (sys : σ → LibcCall → σ × OsResult)
    (others : RpcFunc → Nat → (Nat → Param) → Job (World σ) Handled) (w₀ : World σ)
    (h : List (Move × List (Mark σ))) (p : Pool σ) : Prop where
  keeps : Keeps h p
  run : Run (turn sys others) Free w₀ (turns h) p.world
  underways : p.Underways sys

theorem Serves.enter (serves : Serves sys others w₀ h p) {r : TeeRpcInvoke}
    (accepted : find_params r = some found)
    (steady : ∀ (t : Nat) r f effect rest, p.threads[t]? = some (.handling r f (.act effect rest)) →
      f.Single → SameRegions f.num_params f.params p.world.shm_head q.world.shm_head)
    (threads : q.threads = p.threads.set t (.handling r found (dispatch sys others found)))
    (world : q.world = p.world)
    (keeps : Keeps ((move, settled t r (dispatch sys others found)) :: h) q) :
    Serves sys others w₀ ((move, settled t r (dispatch sys others found)) :: h) q where
  keeps := keeps
  run := world ▸ turns_settled serves.run accepted
  underways := by
    refine serves.underways.put threads steady fun r' f' effect rest same single => ?_
    obtain ⟨-, rfl, acts⟩ := Thread.handling.inj same
    exact acts ▸ Underway.start single q.world

theorem Serves.goes (serves : Serves sys others w₀ h p)
    (goes : Goes (dispatch sys others) p move p' marks)
    (steady : ∀ (t : Nat) r f effect rest, p.threads[t]? = some (.handling r f (.act effect rest)) →
      f.Single → SameRegions f.num_params f.params p.world.shm_head p'.world.shm_head) :
    Serves sys others w₀ ((move, marks) :: h) p' := by
  have keeps := serves.keeps.goes goes
  have accepted {t : Nat} {x : Thread σ} (at_t : p.threads[t]? = some x) :
      x.Leaves p.abort ∨ ∃ phase, x.Owes phase := by
    obtain ⟨phase, -, owes⟩ := serves.keeps.session t x at_t
    exact owes.imp_right fun owes => ⟨phase, owes⟩
  cases goes with
  | inc at_t kind _ =>
    refine ⟨keeps, serves.run, serves.underways.put rfl steady ?_⟩
    rcases kind with ⟨-, rfl⟩ | ⟨r, f, -, rfl⟩ <;> exact fun _ _ _ _ same => by cases same
  | dec at_t kind _ =>
    refine ⟨keeps, serves.run, serves.underways.put rfl steady ?_⟩
    rcases kind with ⟨-, rfl⟩ | ⟨-, rfl⟩ | ⟨r, f, -, rfl, -⟩ <;>
      exact fun _ _ _ _ same => by cases same
  | asserts | crash => exact ⟨keeps, serves.run, serves.underways⟩
  | @leave t at_t _ =>
    have left : (p.put t .ended).Underways sys :=
      serves.underways.put rfl (fun _ _ _ _ _ _ _ _ _ _ => rfl) fun _ _ _ _ same => by cases same
    split_ifs at keeps ⊢ with main
    · exact ⟨keeps, serves.run, left⟩
    · exact ⟨keeps, serves.run, left⟩
  | plain at_t accepted _ => exact serves.enter accepted steady rfl rfl keeps
  | others at_t _ _ =>
    obtain ⟨⟨⟩⟩ | ⟨phase, owes⟩ := accepted at_t
    cases owes with
    | counting accepted => exact serves.enter accepted steady rfl rfl keeps
  | create at_t =>
    obtain ⟨⟨⟩⟩ | ⟨phase, owes⟩ := accepted at_t
    cases owes with
    | creating accepted =>
      have spawned : Serves sys others w₀ h p.spawned := ⟨serves.keeps.spawned, serves.run,
        fun u r f effect rest at_u => serves.underways u r f effect rest (of_spawned at_u)⟩
      exact spawned.enter accepted
        (fun u r f effect rest at_u => steady u r f effect rest (of_spawned at_u)) rfl rfl keeps
  | @act t r f effect rest at_t =>
    obtain ⟨⟨⟩⟩ | ⟨phase, owes⟩ := accepted at_t
    cases owes with
    | handling accepted =>
      have here (single : f.Single) := serves.underways t r f effect rest at_t single
      refine ⟨keeps, turns_acted serves.run accepted ?_ ?_, serves.underways.put rfl steady ?_⟩
      · intro single more
        rcases (here single).act single with ⟨look, -⟩ | ⟨result, last⟩
        · rw [look]
          rfl
        · rw [last] at more
          cases more
      · intro value single there
        have last := Job.result?_eq_some.mp there
        rw [← (here single).run single, Job.run, last, Job.run]
      · intro r' f' effect' rest' same single
        obtain ⟨-, rfl, acts⟩ := Thread.handling.inj same
        rcases (here single).act single with ⟨look, underway⟩ | ⟨result, last⟩
        · subst look
          exact acts ▸ underway
        · rw [last] at acts
          cases acts
  | enter at_t | refuse at_t | count at_t | result at_t | abort at_t | lost at_t | receive at_t
  | fail at_t | answer at_t | unsent at_t =>
    exact ⟨keeps, serves.run, serves.underways.put rfl steady fun _ _ _ _ same => by cases same⟩

/-- A job that leaves the list of regions alone. -/
inductive KeepsRegions : Job (World σ) Handled → Prop
  | done {result} : KeepsRegions (.done result)
  | act {effect : World σ → World σ} {rest} : (∀ w, (effect w).shm_head = w.shm_head) →
      (∀ w, KeepsRegions (rest w)) → KeepsRegions (.act effect rest)

/-- The supplicant as far as its other functions leave the regions alone. -/
structure Pool.RegionsKept (regions : List TeeShm) (p : Pool σ) : Prop where
  same : p.world.shm_head = regions
  handlers : ∀ r f job, .handling r f job ∈ p.threads → KeepsRegions job

theorem Pool.RegionsKept.put {regions : List TeeShm} (kept : p.RegionsKept regions) {y : Thread σ}
    (threads : q.threads = p.threads.set t y) (same : q.world.shm_head = p.world.shm_head)
    (new : ∀ r f job, y = .handling r f job → KeepsRegions job) : q.RegionsKept regions where
  same := same.trans kept.same
  handlers r f job member := by
    rw [threads] at member
    rcases List.mem_or_eq_of_mem_set member with before | now
    · exact kept.handlers r f job before
    · exact new r f job now.symm

theorem Pool.RegionsKept.goes {regions : List TeeShm} {serve : Found → Job (World σ) Handled}
    (keep : ∀ found, KeepsRegions (serve found)) (kept : p.RegionsKept regions)
    (goes : Goes serve p move p' marks) : p'.RegionsKept regions := by
  cases goes with
  | inc at_t kind _ =>
    refine kept.put rfl rfl ?_
    rcases kind with ⟨-, rfl⟩ | ⟨r, f, -, rfl⟩ <;> exact fun _ _ _ same => by cases same
  | dec at_t kind _ =>
    refine kept.put rfl rfl ?_
    rcases kind with ⟨-, rfl⟩ | ⟨-, rfl⟩ | ⟨r, f, -, rfl, -⟩ <;>
      exact fun _ _ _ same => by cases same
  | asserts | crash => exact ⟨kept.same, kept.handlers⟩
  | @leave t at_t _ =>
    have left : (p.put t .ended).RegionsKept regions :=
      kept.put rfl rfl fun _ _ _ same => by cases same
    split_ifs
    · exact ⟨left.same, left.handlers⟩
    · exact left
  | plain | others =>
    refine kept.put rfl rfl fun _ _ _ same => ?_
    obtain ⟨-, -, rfl⟩ := Thread.handling.inj same
    exact keep _
  | create at_t =>
    have spawned : p.spawned.RegionsKept regions := by
      refine ⟨kept.same, fun r f job member => ?_⟩
      rcases List.mem_append.mp member with before | new
      · exact kept.handlers r f job before
      · cases List.mem_singleton.mp new
    refine spawned.put rfl rfl fun _ _ _ same => ?_
    obtain ⟨-, -, rfl⟩ := Thread.handling.inj same
    exact keep _
  | act at_t =>
    cases kept.handlers _ _ _ (List.mem_of_getElem? at_t) with
    | act same rest =>
      refine kept.put rfl (same _) fun r f job now => ?_
      obtain ⟨-, -, rfl⟩ := Thread.handling.inj now
      exact rest _
  | enter | refuse | count | result | abort | lost | receive | fail | answer | unsent =>
    exact kept.put rfl rfl fun _ _ _ same => by cases same

end
end TeeSqlite.Traced
