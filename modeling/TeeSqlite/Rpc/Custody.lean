import TeeSqlite.Rpc.Registry

/-! Who holds what the system has given to the supplicant for its regions, whatever fails
and however the requests overlap, and which region an id stands for. -/
namespace TeeSqlite.Registry
open CTypes Traced Runs Tally

def TeeShm.seen (shm : TeeShm) : Traced.TeeShm := ⟨shm.id, shm.size⟩

/-- The region that an id stands for after what has happened, the latest first. -/
def registered (id : BitVec 32) : List Event → Option TeeShm
  | [] => none
  | .pushed shm :: events => if shm.id = id then some shm else registered id events
  | .popped shm :: events => if shm.id = id then none else registered id events
  | .answered _ _ _ :: events => registered id events

def happened (h : List (Move × List Event)) : List Event := h.flatMap Prod.snd

namespace Shms

/-- How often the list, the threads and the lost mappings have a resource. -/
def owners (s : Shms) (r : Resource) : Nat :=
  tally (fun shm : TeeShm => shm.owned.count r) s.shm_head +
    tally (fun w : Work => w.owned.count r) s.threads + s.lost.count r

/-- Everything that is held has one owner, and regions that are open have ids of their
own. -/
structure Owned (s : Shms) : Prop where
  accounted : ∀ r, s.owners r = s.live.count r
  once : ∀ r, s.live.count r ≤ 1
  ids : ∀ n n' id, .fd n id ∈ s.live → .fd n' id ∈ s.live → n = n'

/-- The regions as the handlers see them. -/
def regions (s : Shms) : List Traced.TeeShm := s.shm_head.map TeeShm.seen

section
variable {REG_MEM : Bool} {s s' : Shms} {t : Nat} {w w' : Work} {events : List Event}
  {r x : Resource}

theorem owners_put (s : Shms) (at_t : s.threads[t]? = some w) (w' : Work) (r : Resource) :
    (s.put t w').owners r + w.owned.count r = s.owners r + w'.owned.count r := by
  have total : tally (fun w : Work => w.owned.count r) (s.threads.set t w') + w.owned.count r =
      tally (fun w : Work => w.owned.count r) s.threads + w'.owned.count r := tally_set at_t
  simp only [owners, put]
  omega

theorem count_release (held : x ∈ s.live) (r : Resource) :
    (s.release x).live.count r + [x].count r = s.live.count r := by
  have pos := List.count_pos_iff.mpr held
  simp only [release, List.count_erase, List.count_singleton]
  by_cases same : x = r
  · subst same
    rw [if_pos (beq_self_eq_true x)]
    omega
  · rw [if_neg (by simpa using same)]
    omega

theorem Owned.acquires (owned : s.Owned) (fresh : s.Fresh x) (at_t : s.threads[t]? = some w)
    (more : w'.owned.Perm (x :: w.owned)) : ((s.acquire x).put t w').Owned := by
  refine ⟨fun r => ?_, fun r => ?_, fun n n' id open_n open_n' => ?_⟩
  · have total := (s.acquire x).owners_put at_t w' r
    have before := owned.accounted r
    have same : (s.acquire x).owners r = s.owners r := rfl
    rw [more.count_eq, List.count_cons] at total
    show _ = (x :: s.live).count r
    rw [List.count_cons]
    omega
  · show (x :: s.live).count r ≤ 1
    rw [List.count_cons]
    by_cases same : x = r
    · subst same
      have none := List.count_eq_zero.mpr fresh.new
      rw [none, if_pos (beq_self_eq_true x)]
    · rw [if_neg (by simpa using same)]
      exact owned.once r
  · cases open_n with
    | head =>
      cases open_n' with
      | head => rfl
      | tail _ before => exact absurd rfl (fresh.region n id rfl n' id before).2
    | tail _ before =>
      cases open_n' with
      | head => exact absurd rfl (fresh.region n' id rfl n id before).2
      | tail _ before' => exact owned.ids n n' id before before'

theorem Owned.releases (owned : s.Owned) (at_t : s.threads[t]? = some w)
    (less : w.owned = x :: w'.owned) (held : x ∈ s.live) :
    ((s.release x).put t w').Owned := by
  refine ⟨fun r => ?_, fun r => ?_, fun n n' id open_n open_n' => ?_⟩
  · have total := (s.release x).owners_put at_t w' r
    have before := owned.accounted r
    have same : (s.release x).owners r = s.owners r := rfl
    have fewer := count_release held r
    rw [less, List.count_cons] at total
    rw [List.count_singleton] at fewer
    show _ = (s.release x).live.count r
    omega
  · exact Nat.le_trans (List.Sublist.count_le r List.erase_sublist) (owned.once r)
  · exact owned.ids n n' id (List.mem_of_mem_erase open_n) (List.mem_of_mem_erase open_n')

/-- A step moves what is held from one owner to another, or into or out of the hands of
its thread. -/
theorem Owned.custody (owned : s.Owned) (custody : Custody s s' events)
    (honest : ∀ r, s'.live = r :: s.live → s.Fresh r) : s'.Owned := by
  cases custody with
  | @keeps t w w' events at_t same answers =>
    refine ⟨fun r => ?_, owned.once, owned.ids⟩
    have total := s.owners_put at_t w' r
    rw [same] at total
    exact (Nat.add_right_cancel total).trans (owned.accounted r)
  | acquires at_t more => exact owned.acquires (honest _ rfl) at_t more
  | releases at_t less held => exact owned.releases at_t less held
  | @loses t w w' x at_t less =>
    refine ⟨fun r => ?_, owned.once, owned.ids⟩
    have total := Shms.owners_put { s with lost := x :: s.lost } at_t w' r
    have before := owned.accounted r
    rw [less, List.count_cons] at total
    simp only [owners, put, List.count_cons] at total before ⊢
    omega
  | @pushes t shm w' at_t none =>
    refine ⟨fun r => ?_, owned.once, owned.ids⟩
    have total := Shms.owners_put { s with shm_head := push_tshm shm s.shm_head } at_t w' r
    have before := owned.accounted r
    rw [none, List.count_nil] at total
    simp only [owners, put, push_tshm, tally_cons, Work.owned] at total before ⊢
    omega
  | @pops t id shm rest w' at_t found mine =>
    refine ⟨fun r => ?_, owned.once, owned.ids⟩
    have total := Shms.owners_put { s with shm_head := rest } at_t w' r
    have before := owned.accounted r
    have less := (pop_tshm_found found).2.2 fun shm => shm.owned.count r
    rw [mine, Work.owned, List.count_nil] at total
    simp only [owners, put] at total before ⊢
    omega

theorem Owned.step (owned : s.Owned) {move : Move} (honest : s.Honest REG_MEM move)
    (h : s.step REG_MEM move = some (s', events)) : s'.Owned :=
  owned.custody (step_custody h) fun r grows => honest s' events r h grows

theorem start_owned' (n : Nat) : (start n).Owned := by
  refine ⟨fun r => ?_, fun r => ?_, fun n n' id open_n => by cases open_n⟩
  · have idle := tally_eq_zero (w := fun w : Work => w.owned.count r)
      (l := List.replicate n .idle) fun w idle => by
        obtain rfl := List.eq_of_mem_replicate idle
        rfl
    simp only [owners, start, tally_nil, idle, List.count_nil]
  · exact Nat.zero_le 1

theorem owned_run {n : Nat} {h : List (Move × List Event)}
    (run : Run (step REG_MEM) (Honest REG_MEM) (start n) h s) : s.Owned := by
  induction run with
  | start => exact start_owned' n
  | next _ honest answer ih => exact ih.step honest answer

/-- What a thread is about to release is open or mapped or allocated. -/
theorem Owned.releasing (owned : s.Owned) (at_t : s.threads[t]? = some w) (has : r ∈ w.owned) :
    r ∈ s.live := by
  have mine : w.owned.count r ≤ tally (fun w : Work => w.owned.count r) s.threads :=
    le_tally (w := fun w : Work => w.owned.count r) at_t
  have pos := List.count_pos_iff.mpr has
  have total := owned.accounted r
  rw [owners] at total
  exact List.count_pos_iff.mp (by omega)

theorem Owned.listed (owned : s.Owned) {shm : TeeShm} (member : shm ∈ s.shm_head)
    (has : r ∈ shm.owned) : r ∈ s.live := by
  obtain ⟨i, at_i⟩ := List.getElem?_of_mem member
  have mine : shm.owned.count r ≤ tally (fun shm : TeeShm => shm.owned.count r) s.shm_head :=
    le_tally (w := fun shm : TeeShm => shm.owned.count r) at_i
  have pos := List.count_pos_iff.mpr has
  have total := owned.accounted r
  rw [owners] at total
  exact List.count_pos_iff.mp (by omega)

theorem ids_nodup {live : List Resource} {l : List TeeShm}
    (open_fd : ∀ shm ∈ l, .fd shm.fd shm.id ∈ live)
    (once : ∀ r, tally (fun shm : TeeShm => shm.owned.count r) l ≤ 1)
    (ids : ∀ n n' id, .fd n id ∈ live → .fd n' id ∈ live → n = n') :
    (l.map TeeShm.id).Nodup := by
  induction l with
  | nil => exact List.nodup_nil
  | cons shm l ih =>
    rw [List.map_cons, List.nodup_cons]
    constructor
    · intro twice
      obtain ⟨other, member, same⟩ := List.mem_map.mp twice
      have fds := ids _ _ _ (open_fd shm List.mem_cons_self)
        (same ▸ open_fd other (List.mem_cons_of_mem _ member))
      obtain ⟨i, at_i⟩ := List.getElem?_of_mem member
      have again := le_tally (w := fun x : TeeShm => x.owned.count (.fd shm.fd shm.id)) at_i
      have bound := once (.fd shm.fd shm.id)
      have one : 0 < shm.owned.count (.fd shm.fd shm.id) :=
        List.count_pos_iff.mpr List.mem_cons_self
      have two : 0 < other.owned.count (.fd shm.fd shm.id) := by
        rw [fds, ← same]
        exact List.count_pos_iff.mpr List.mem_cons_self
      rw [tally_cons] at bound
      omega
    · refine ih (fun shm member => open_fd shm (List.mem_cons_of_mem _ member)) fun r => ?_
      have := once r
      rw [tally_cons] at this
      omega

theorem Owned.nodup (owned : s.Owned) : (s.shm_head.map TeeShm.id).Nodup := by
  refine ids_nodup (fun shm member => owned.listed member List.mem_cons_self)
    (fun r => ?_) owned.ids
  have total := owned.accounted r
  have := owned.once r
  rw [owners] at total
  omega

theorem got_lost {a : Option Nat} (h : s.got t a w = some s') : s'.lost = s.lost := by
  cases w with
  | calloc size | memalign size | mmap size node fd id | calloc_for size buf =>
    cases a <;> · cases h; rfl
  | _ => cases h

theorem region_lost {fd : Option (Nat × BitVec 32)} (h : s.region t fd w = some s') :
    s'.lost = s.lost := by
  cases w with
  | ioctl_alloc size node | ioctl_register size buf node =>
    cases fd <;> · cases h; rfl
  | _ => cases h

theorem released_lost {unmaps' : Bool} {rest : List Resource} {status' : TEEC_Result}
    (h : (if r ∉ s.live then none
      else some ((s.release r).put t (.releasing rest unmaps' status'), ([] : List Event))) =
        some (s', events)) : s'.lost = s.lost := by
  by_cases held : r ∈ s.live
  · rw [if_neg (not_not.mpr held)] at h
    cases h
    rfl
  · rw [if_pos held] at h
    cases h

theorem go_lost (h : s.go t true w = some (s', events)) : s'.lost = s.lost := by
  cases w with
  | push shm | answering status c =>
    cases h
    rfl
  | pop id =>
    simp only [go] at h
    cases found : pop_tshm id s.shm_head with
    | mk shm rest =>
      cases shm <;> · simp only [found] at h; cases h; rfl
  | releasing rest unmaps status =>
    cases rest with
    | nil =>
      cases h
      rfl
    | cons r rest =>
      cases r with
      | node a | fd n id => exact released_lost h
      | mem a =>
        cases unmaps with
        | false | true => exact released_lost h
  | _ => cases h

/-- Only a `munmap` that fails loses anything. -/
theorem step_lost {move : Move} (h : s.step REG_MEM move = some (s', events))
    (unmapped : ∀ t, move ≠ .go t false) : s'.lost = s.lost := by
  cases move with
  | request t call =>
    obtain ⟨w, -, next⟩ := Option.bind_eq_some_iff.mp h
    cases w with
    | idle =>
      cases next
      rfl
    | _ => cases next
  | got t a =>
    obtain ⟨w, -, next⟩ := Option.bind_eq_some_iff.mp h
    obtain ⟨q, got, same⟩ := Option.map_eq_some_iff.mp next
    cases same
    exact got_lost got
  | region t fd =>
    obtain ⟨w, -, next⟩ := Option.bind_eq_some_iff.mp h
    obtain ⟨q, given, same⟩ := Option.map_eq_some_iff.mp next
    cases same
    exact region_lost given
  | go t ok =>
    obtain ⟨w, -, next⟩ := Option.bind_eq_some_iff.mp h
    cases ok with
    | true => exact go_lost next
    | false => exact absurd rfl (unmapped t)

theorem lost_run {n : Nat} {h : List (Move × List Event)}
    (run : Run (step REG_MEM) (Honest REG_MEM) (start n) h s)
    (unmapped : ∀ e ∈ h, ∀ t, e.1 ≠ .go t false) : s.lost = [] := by
  induction run with
  | start => rfl
  | next _ _ answer ih =>
    rw [step_lost answer (unmapped _ List.mem_cons_self)]
    exact ih fun e member => unmapped e (List.mem_cons_of_mem _ member)

/-- Whatever fails and however the requests overlap, what the system has given for regions
has one owner until it is given back: no region is released twice, none that is still
listed, and all that is left without an owner is what `munmap` failed for. -/
theorem resources_have_one_owner {n : Nat} {h : List (Move × List Event)}
    (run : Run (step REG_MEM) (Honest REG_MEM) (start n) h s) :
    (∀ r, s.owners r = if r ∈ s.live then 1 else 0) ∧
      (s.shm_head.map TeeShm.id).Nodup ∧
      (∀ (t : Nat) w, s.threads[t]? = some w → ∀ r ∈ w.owned, r ∈ s.live) ∧
      ((∀ w ∈ s.threads, w.owned = []) →
        s.live.Perm (s.shm_head.flatMap TeeShm.owned ++ s.lost)) ∧
      ((∀ e ∈ h, ∀ t, e.1 ≠ .go t false) → s.lost = []) := by
  have owned := owned_run run
  refine ⟨fun r => ?_, owned.nodup, fun t w at_t r has => owned.releasing at_t has,
    fun rest => ?_, lost_run run⟩
  · rw [owned.accounted]
    by_cases open_r : r ∈ s.live
    · have pos := List.count_pos_iff.mpr open_r
      have once := owned.once r
      rw [if_pos open_r]
      omega
    · rw [if_neg open_r]
      exact List.count_eq_zero.mpr open_r
  · rw [List.perm_iff_count]
    intro r
    have idle := tally_eq_zero (w := fun w : Work => w.owned.count r) (l := s.threads)
      fun w member => by rw [rest w member, List.count_nil]
    have total := owned.accounted r
    rw [owners, idle] at total
    rw [List.count_append, count_flatMap_eq_tally]
    exact total.symm

theorem honest_of {move : Move} (h : s.step REG_MEM move = some (s', events))
    (fresh : ∀ r, s'.live = r :: s.live → s.Fresh r) : s.Honest REG_MEM move := by
  intro q events' r answer grows
  cases h.symm.trans answer
  exact fresh r grows

/-- Thread 1 frees the region of id 7 before thread 0, which got it, has answered. -/
def handedOver : Shms where
  live := [.mem 2, .fd 3 7, .node 1]
  shm_head := []
  threads := [.answering TEEC_SUCCESS (some 7),
    .releasing [.fd 3 7, .mem 2, .node 1] true TEEC_SUCCESS]
  lost := []

theorem fresh_memory (new : r ∉ s.live) (memory : ∀ n id, r ≠ .fd n id) : s.Fresh r :=
  ⟨new, fun n id fd => absurd fd (memory n id)⟩

theorem handedOver_run :
    ∃ h, Run (step false) (Honest false) (start 2) h handedOver := by
  have request : Run (step false) (Honest false) (start 2) _ _ :=
    .next (i := .request 0 (.SHM_ALLOC 1 ⟨1, 0, 4096, 0⟩)) .start
      (honest_of rfl fun r grows => by cases grows) rfl
  have calloc := request.next (i := .got 0 (some 1))
    (honest_of rfl fun r grows => by
      cases grows
      exact fresh_memory (by decide) (by simp)) rfl
  have ioctl := calloc.next (i := .region 0 (some (3, 7)))
    (honest_of rfl fun r grows => by
      cases grows
      exact ⟨by decide, fun _ _ _ _ _ other => by cases other with | tail _ none => cases none⟩) rfl
  have mmap := ioctl.next (i := .got 0 (some 2))
    (honest_of rfl fun r grows => by
      cases grows
      exact fresh_memory (by decide) (by simp)) rfl
  have push := mmap.next (i := .go 0 true) (honest_of rfl fun r grows => by cases grows) rfl
  have free := push.next (i := .request 1 (.SHM_FREE 1 ⟨1, 0, 7, 0⟩))
    (honest_of rfl fun r grows => by cases grows) rfl
  have pop := free.next (i := .go 1 true) (honest_of rfl fun r grows => by cases grows) rfl
  exact ⟨_, pop⟩

theorem resources_have_one_owner_handedOver :
    (∀ r, handedOver.owners r = if r ∈ handedOver.live then 1 else 0) ∧
      (handedOver.shm_head.map TeeShm.id).Nodup ∧
      (∀ (t : Nat) w, handedOver.threads[t]? = some w → ∀ r ∈ w.owned, r ∈ handedOver.live) ∧
      ((∀ w ∈ handedOver.threads, w.owned = []) →
        handedOver.live.Perm (handedOver.shm_head.flatMap TeeShm.owned ++ handedOver.lost)) := by
  obtain ⟨h, run⟩ := handedOver_run
  obtain ⟨one, ids, releasing, rest, -⟩ := resources_have_one_owner run
  exact ⟨one, ids, releasing, rest⟩

theorem find_tshm_seen (id : BitVec 32) (l : List TeeShm) :
    Traced.find_tshm (l.map TeeShm.seen) id = (find_tshm id l).map TeeShm.seen := by
  rw [Traced.find_tshm, List.find?_map]
  rfl

theorem find_tshm_absent {id : BitVec 32} {l : List TeeShm} (absent : id ∉ l.map TeeShm.id) :
    find_tshm id l = none :=
  List.find?_eq_none.mpr fun shm member same =>
    absent (List.mem_map.mpr ⟨shm, member, of_decide_eq_true same⟩)

theorem pop_tshm_rest {id : BitVec 32} {l rest : List TeeShm} {shm : TeeShm}
    (h : pop_tshm id l = (some shm, rest)) (nodup : (l.map TeeShm.id).Nodup)
    (id' : BitVec 32) :
    find_tshm id' rest = if shm.id = id' then none else find_tshm id' l := by
  induction l generalizing rest with
  | nil => cases h
  | cons x l ih =>
    have found := (pop_tshm_found h).1
    rw [List.map_cons, List.nodup_cons] at nodup
    rw [pop_tshm] at h
    by_cases here : x.id = id
    · rw [if_pos here] at h
      cases h
      by_cases same : shm.id = id'
      · rw [if_pos same, ← same]
        exact find_tshm_absent nodup.1
      · rw [if_neg same, find_cons_other same]
    · rw [if_neg here] at h
      cases tail : pop_tshm id l with
      | mk tshm rest' =>
        rw [tail] at h
        cases h
        by_cases first : x.id = id'
        · have other : shm.id ≠ id' := fun same => here (first.trans (same.symm.trans found))
          rw [if_neg other, find_cons_self first, find_cons_self first]
        · rw [find_cons_other first, find_cons_other first]
          exact ih tail nodup.2

theorem registered_answers (id : BitVec 32) {es : List Event}
    (answers : ∀ e ∈ es, ∃ status c, e = .answered t status c) (before : List Event) :
    registered id (es ++ before) = registered id before := by
  induction es with
  | nil => rfl
  | cons e es ih =>
    obtain ⟨status, c, rfl⟩ := answers e List.mem_cons_self
    exact ih fun e member => answers e (List.mem_cons_of_mem _ member)

/-- What each event of a step does to the id it is about. -/
theorem Owned.registered_step (owned : s.Owned) (owned' : s'.Owned)
    (custody : Custody s s' events) {before : List Event}
    (same : ∀ id, find_tshm id s.shm_head = registered id before) :
    (∀ id, find_tshm id s'.shm_head = registered id (events ++ before)) ∧
      (∀ shm, .pushed shm ∈ events → registered shm.id before = none) ∧
      (∀ shm, .popped shm ∈ events → registered shm.id before = some shm) := by
  cases custody with
  | keeps at_t held answers =>
    refine ⟨fun id => ?_, fun shm member => ?_, fun shm member => ?_⟩
    · rw [registered_answers id answers]
      exact same id
    · obtain ⟨status, c, other⟩ := answers _ member
      cases other
    · obtain ⟨status, c, other⟩ := answers _ member
      cases other
  | acquires at_t more => exact ⟨same, by simp, by simp⟩
  | releases at_t less held => exact ⟨same, by simp, by simp⟩
  | loses at_t less => exact ⟨same, by simp, by simp⟩
  | @pushes t shm w' at_t none =>
    refine ⟨fun id => ?_, fun other member => ?_, by simp⟩
    · show find_tshm id (shm :: s.shm_head) = if shm.id = id then some shm else _
      by_cases this : shm.id = id
      · rw [if_pos this, find_cons_self this]
      · rw [if_neg this, find_cons_other this]
        exact same id
    · obtain rfl : other = shm := by simpa using member
      rw [← same]
      exact find_tshm_absent (List.nodup_cons.mp owned'.nodup).1
  | @pops t id shm rest w' at_t found mine =>
    obtain ⟨id_shm, listed, -⟩ := pop_tshm_found found
    refine ⟨fun id' => ?_, by simp, fun other member => ?_⟩
    · show find_tshm id' rest = if shm.id = id' then none else registered id' before
      rw [pop_tshm_rest found owned.nodup, same]
    · obtain rfl : other = shm := by simpa using member
      rw [← same, id_shm]
      exact listed

theorem registered_run {n : Nat} {h : List (Move × List Event)}
    (run : Run (step REG_MEM) (Honest REG_MEM) (start n) h s) (id : BitVec 32) :
    find_tshm id s.shm_head = registered id (happened h) := by
  induction run generalizing id with
  | start => rfl
  | next run honest answer ih =>
    have owned := owned_run run
    exact (owned.registered_step (owned.step honest answer) (step_custody answer) ih).1 id

/-- An id stands for the region that was last listed under it, unless that has been taken
off since. It is listed under an id that stands for nothing, and `SHM_FREE` takes off what
its id stands for, once. -/
theorem ids_stand_for_regions {n : Nat} {h : List (Move × List Event)}
    (run : Run (step REG_MEM) (Honest REG_MEM) (start n) h s) :
    (∀ id, Traced.find_tshm s.regions id = (registered id (happened h)).map TeeShm.seen) ∧
      ∀ later move events earlier, h = later ++ (move, events) :: earlier →
        (∀ shm, .pushed shm ∈ events → registered shm.id (happened earlier) = none) ∧
        (∀ shm, .popped shm ∈ events → registered shm.id (happened earlier) = some shm) := by
  constructor
  · intro id
    rw [regions, find_tshm_seen, registered_run run]
  · intro later move events earlier split
    subst split
    obtain ⟨before, after, run, honest, answer⟩ := run.moment
    have owned := owned_run run
    exact (owned.registered_step (owned.step honest answer) (step_custody answer)
      (registered_run run)).2

theorem ids_stand_for_regions_handedOver :
    ∃ h, Run (step false) (Honest false) (start 2) h handedOver ∧
      ∀ id, Traced.find_tshm handedOver.regions id =
        (registered id (happened h)).map TeeShm.seen := by
  obtain ⟨h, run⟩ := handedOver_run
  exact ⟨h, run, (ids_stand_for_regions run).1⟩

end
end Shms
end TeeSqlite.Registry
