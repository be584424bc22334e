import TeeSqlite.Rpc.Threads

/-! Who answers which request: the threads of the supplicant as the driver sees them. -/
namespace TeeSqlite.Traced
open Jobs Runs Pool

section
variable {σ : Type}

def Mark.thread : Mark σ → Nat
  | .received t _ | .acted t _ _ _ | .answered t _ => t

def marksOf (t : Nat) (h : List (Move × List (Mark σ))) : List (Mark σ) :=
  (h.flatMap fun entry => entry.2).filter fun mark => mark.thread = t

/-- What a thread owes to the driver. -/
inductive Phase
  | idle
  | requested (request : TeeRpcInvoke)
  | settled (request : TeeRpcInvoke) (result : Option Handled)

/-- One thread, request after request, its last mark first: it receives a request, goes on
with it until there is a result, and sends the buffer of that request with this result. -/
inductive Session (t : Nat) : List (Mark σ) → Phase → Prop
  | start : Session t [] .idle
  | receive {marks r} : Session t marks .idle → Session t (.received t r :: marks) (.requested r)
  | act {marks r effect} : Session t marks (.requested r) →
      Session t (.acted t r effect none :: marks) (.requested r)
  | settle {marks r effect result} : Session t marks (.requested r) →
      Session t (.acted t r effect (some result) :: marks) (.settled r result)
  | answer {marks r f params ret} : Session t marks (.settled r (some (params, ret))) →
      find_params r = some f →
      Session t (.answered t (r.answer f params ret) :: marks) .idle

/-- The phase of a thread that goes on with its request, or is idle. -/
inductive Thread.Owes : Thread σ → Phase → Prop
  | created : Owes .created .idle
  | looping : Owes .looping .idle
  | entering : Owes .entering .idle
  | waiting : Owes .waiting .idle
  | received {r} : Owes (.received r) (.requested r)
  | counting {r f} : find_params r = some f → Owes (.counting r f) (.requested r)
  | spawning {r f} : find_params r = some f → Owes (.spawning r f) (.requested r)
  | creating {r f} : find_params r = some f → Owes (.creating r f) (.requested r)
  | handling {r f effect rest} : find_params r = some f →
      Owes (.handling r f (.act effect rest)) (.requested r)
  | handled {r f result} : find_params r = some f →
      Owes (.handling r f (.done result)) (.settled r result)
  | answering {r f params ret} : find_params r = some f →
      Owes (.answering (r.answer f params ret)) (.settled r (some (params, ret)))

/-- A thread that has failed, and so does nothing but leave. -/
def Thread.Leaves (abort : Bool) : Thread σ → Prop
  | .uncreated | .failed | .ended => True
  | .looping => abort = true
  | _ => False

variable {serve : Found → Job (World σ) Handled} {p p' : Pool σ} {move : Move}
  {marks : List (Mark σ)} {h : List (Move × List (Mark σ))} {t : Nat}

theorem marksOf_cons : marksOf t ((move, marks) :: h) =
    (marks.filter fun mark => mark.thread = t) ++ marksOf t h := by
  simp [marksOf]

/-- A handler is entered, and may be through with that. -/
theorem Session.enter {r : TeeRpcInvoke} {f : Found} (session : Session t marks (.requested r))
    (accepted : find_params r = some f) (job : Job (World σ) Handled) :
    ∃ phase, Session t (settled t r job ++ marks) phase ∧
      (Thread.handling r f job).Owes phase := by
  cases job with
  | done result => exact ⟨.settled r result, session.settle, .handled accepted⟩
  | act effect rest => exact ⟨.requested r, session, .handling accepted⟩

/-- Every thread is in a session, and the threads to come have none yet. -/
structure Keeps (h : List (Move × List (Mark σ))) (p : Pool σ) : Prop where
  silent : ∀ t : Nat, p.threads[t]? = none → marksOf t h = []
  session : ∀ (t : Nat) x, p.threads[t]? = some x →
    ∃ phase, Session t (marksOf t h) phase ∧ (x.Leaves p.abort ∨ x.Owes phase)

theorem Thread.Leaves.mono {x : Thread σ} {a b : Bool} (leaves : x.Leaves a)
    (still : a = true → b = true) : x.Leaves b := by
  cases x with
  | looping => exact still leaves
  | _ => exact leaves

/-- One thread goes on, and the marks are its own. -/
theorem Keeps.put {q : Pool σ} (keeps : Keeps h p) {x y : Thread σ}
    (at_t : p.threads[t]? = some x) (same : q.threads = p.threads.set t y)
    (still : p.abort = true → q.abort = true) (own : ∀ mark ∈ marks, mark.thread = t)
    (session : ∃ phase, Session t (marks ++ marksOf t h) phase ∧
      (y.Leaves q.abort ∨ y.Owes phase)) : Keeps ((move, marks) :: h) q := by
  obtain ⟨inside, -⟩ := List.getElem?_eq_some_iff.mp at_t
  have mine : marks.filter (fun mark => mark.thread = t) = marks :=
    List.filter_eq_self.mpr fun mark member => by simpa using own mark member
  have others {u : Nat} (other : t ≠ u) : marks.filter (fun mark => mark.thread = u) = [] :=
    List.filter_eq_nil_iff.mpr fun mark member => by simpa using own mark member ▸ other
  constructor
  · intro u none
    rw [same, List.getElem?_set] at none
    have other : t ≠ u := by
      rintro rfl
      simp [inside] at none
    rw [if_neg other] at none
    rw [marksOf_cons, others other]
    exact keeps.silent u none
  · intro u z at_u
    rw [same, List.getElem?_set] at at_u
    rw [marksOf_cons]
    split_ifs at at_u with here
    · cases at_u
      subst here
      rw [mine]
      exact session
    · rw [others here]
      obtain ⟨phase, run, state⟩ := keeps.session u z at_u
      exact ⟨phase, run, state.imp_left fun leaves => leaves.mono still⟩

theorem Keeps.spawned (keeps : Keeps h p) : Keeps h p.spawned := by
  constructor
  · intro u none
    rw [spawned_threads, List.getElem?_append] at none
    split_ifs at none with inside
    · exact absurd none (by simp [inside])
    · exact keeps.silent u (List.getElem?_eq_none (Nat.not_lt.mp inside))
  · intro u x at_u
    rw [spawned_threads, List.getElem?_append] at at_u
    split_ifs at at_u with inside
    · exact keeps.session u x at_u
    · have new : x = .created := by
        have := List.mem_of_getElem? at_u
        simpa using this
      have none := keeps.silent u (List.getElem?_eq_none (Nat.not_lt.mp inside))
      exact ⟨.idle, none ▸ .start, .inr (new ▸ .created)⟩

/-- A step that leaves no mark. -/
theorem Keeps.next {q : Pool σ} (keeps : Keeps h p) {x y : Thread σ}
    (at_t : p.threads[t]? = some x) (same : q.threads = p.threads.set t y)
    (still : p.abort = true → q.abort = true)
    (state : ∀ phase, x.Leaves p.abort ∨ x.Owes phase → y.Leaves q.abort ∨ y.Owes phase) :
    Keeps ((move, []) :: h) q := by
  obtain ⟨phase, session, owes⟩ := keeps.session t x at_t
  exact keeps.put at_t same still (by simp) ⟨phase, session, state phase owes⟩

theorem Keeps.stop (keeps : Keeps h p) (why : End) : Keeps ((move, []) :: h) (p.stop why) := by
  constructor
  · intro t none
    rw [marksOf_cons]
    exact keeps.silent t none
  · intro t x at_t
    rw [marksOf_cons]
    exact keeps.session t x at_t

theorem settled_own (t : Nat) (r : TeeRpcInvoke) (job : Job (World σ) Handled) :
    ∀ mark ∈ settled t r job, mark.thread = t := by
  cases job with
  | done result => exact List.forall_mem_singleton.mpr rfl
  | act effect rest => exact List.forall_mem_nil _

/-- A thread enters the handler of its request. -/
theorem Keeps.enter {q : Pool σ} (keeps : Keeps h p) {x : Thread σ} {r : TeeRpcInvoke} {f : Found}
    (at_t : p.threads[t]? = some x)
    (state : ∀ phase, x.Leaves p.abort ∨ x.Owes phase →
      phase = .requested r ∧ find_params r = some f)
    (same : q.threads = p.threads.set t (.handling r f (serve f)))
    (still : p.abort = true → q.abort = true) :
    Keeps ((move, settled t r (serve f)) :: h) q := by
  obtain ⟨phase, session, owes⟩ := keeps.session t x at_t
  obtain ⟨rfl, accepted⟩ := state phase owes
  obtain ⟨next, session, owes⟩ := session.enter accepted (serve f)
  exact keeps.put at_t same still (settled_own t r _) ⟨next, session, .inr owes⟩

/-- One step takes the session of its thread on. -/
theorem Keeps.goes (keeps : Keeps h p) (goes : Goes serve p move p' marks) :
    Keeps ((move, marks) :: h) p' := by
  cases goes with
  | inc at_t kind _ =>
    refine keeps.next at_t rfl id fun phase owes => .inr ?_
    rcases kind with ⟨rfl, rfl⟩ | ⟨r, f, rfl, rfl⟩
    · cases owes.resolve_left id with
      | entering => exact .waiting
    · cases owes.resolve_left id with
      | spawning accepted => exact .creating accepted
  | dec at_t kind _ =>
    refine keeps.next at_t rfl id fun phase owes => ?_
    rcases kind with ⟨rfl, rfl⟩ | ⟨rfl, rfl⟩ | ⟨r, f, rfl, rfl, -⟩
    · cases owes.resolve_left id with
      | created => exact .inr .looping
    · exact .inl trivial
    · cases owes.resolve_left id with
      | counting accepted => exact .inr (.spawning accepted)
  | asserts | crash => exact keeps.stop _
  | enter at_t open_ =>
    refine keeps.next at_t rfl id fun phase owes => .inr ?_
    have owes := owes.resolve_left fun aborted => Bool.false_ne_true (open_.symm.trans aborted)
    cases owes with
    | looping => exact .entering
  | @leave t at_t _ =>
    split_ifs with main
    · exact keeps.next at_t rfl id fun _ _ => .inl trivial
    · exact keeps.next at_t rfl id fun _ _ => .inl trivial
  | plain at_t accepted _ =>
    refine keeps.enter at_t (fun phase owes => ?_) rfl id
    cases owes.resolve_left id with
    | received => exact ⟨rfl, accepted⟩
  | count at_t accepted _ =>
    refine keeps.next at_t rfl id fun phase owes => .inr ?_
    cases owes.resolve_left id with
    | received => exact .counting accepted
  | others at_t _ _ =>
    refine keeps.enter at_t (fun phase owes => ?_) rfl id
    cases owes.resolve_left id with
    | counting accepted => exact ⟨rfl, accepted⟩
  | @act t r f effect rest at_t =>
    obtain ⟨phase, session, owes⟩ := keeps.session t _ at_t
    refine keeps.put at_t rfl id (List.forall_mem_singleton.mpr rfl) ?_
    cases owes.resolve_left id with
    | handling accepted =>
      cases rest p.world with
      | done result => exact ⟨.settled r result, session.settle, .inr (.handled accepted)⟩
      | act effect rest => exact ⟨.requested r, session.act, .inr (.handling accepted)⟩
  | result at_t =>
    refine keeps.next at_t rfl id fun phase owes => .inr ?_
    cases owes.resolve_left id with
    | handled accepted => exact .answering accepted
  | abort at_t => exact keeps.next at_t rfl (fun _ => rfl) fun _ _ => .inl rfl
  | @receive t r at_t =>
    obtain ⟨phase, session, owes⟩ := keeps.session t _ at_t
    cases owes.resolve_left id with
    | waiting =>
      exact keeps.put at_t rfl id (List.forall_mem_singleton.mpr rfl)
        ⟨.requested r, session.receive, .inr .received⟩
  | create at_t =>
    refine keeps.spawned.enter (p.spawned_at at_t) (fun phase owes => ?_) rfl id
    cases owes.resolve_left id with
    | creating accepted => exact ⟨rfl, accepted⟩
  | @answer t a at_t =>
    obtain ⟨phase, session, owes⟩ := keeps.session t _ at_t
    cases owes.resolve_left id with
    | answering accepted =>
      exact keeps.put at_t rfl id (List.forall_mem_singleton.mpr rfl)
        ⟨.idle, session.answer accepted, .inr .looping⟩
  | refuse at_t | lost at_t | fail at_t | unsent at_t =>
    exact keeps.next at_t rfl id fun _ _ => .inl trivial

theorem Keeps.start (w : World σ) : Keeps [] (Pool.start w) := by
  refine ⟨fun _ _ => rfl, fun t x at_t => ⟨.idle, .start, .inr ?_⟩⟩
  have looping : x = .looping := by simpa [Pool.start] using List.mem_of_getElem? at_t
  exact looping ▸ .looping

theorem keeps_run {w : World σ} (run : Run (Pool.step serve) Free (Pool.start w) h p) :
    Keeps h p := by
  induction run with
  | start => exact Keeps.start w
  | next _ _ step ih => exact ih.goes (step_cases step).2

theorem Keeps.of_thread (keeps : Keeps h p) (t : Nat) : ∃ phase, Session t (marksOf t h) phase := by
  cases at_t : p.threads[t]? with
  | none => exact ⟨.idle, keeps.silent t at_t ▸ .start⟩
  | some x =>
    obtain ⟨phase, session, -⟩ := keeps.session t x at_t
    exact ⟨phase, session⟩

/-- **Answers.** In every run each thread takes one request after the other: what it
sends is the buffer of the request it received last, with the result that its handler came
to since, and it sends this once. -/
theorem answers_belong {w : World σ} (run : Run (Pool.step serve) Free (Pool.start w) h p)
    (t : Nat) : ∃ phase, Session t (marksOf t h) phase :=
  (keeps_run run).of_thread t

theorem answers_belong_after_a_request : ∃ phase, Session 0 (marksOf 0 served.1) phase :=
  answers_belong (Run.exec .start (fun _ _ _ => trivial) exec_oneRequest) 0

end
end TeeSqlite.Traced
