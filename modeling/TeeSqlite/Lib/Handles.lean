import Mathlib.Data.List.Basic

/-!
# Handles kept in variables

Every owner has one variable for a handle. To renew it the owner frees the handle in
it, when that is not the null handle, and asks for a new one, which the allocation
writes to the variable; a failed allocation may leave anything there.

* `Disciplined`: what is freed is a handle that its owner got and has not freed since,
  and no other owner's;
* `Honest`: a handle that is given out is not null, and is not one still in use;
* `Clean`: no variable is renewed that what it was made from, or a failed allocation,
  left with a handle in it;
* `disciplined_iff_clean`: of the traffic of renewals with honest allocations, the
  disciplined is the clean.
-/

namespace Handles

/-- What happens to the variable of an owner. -/
inductive Event (ι η : Type)
  | found (i : ι) (h : η)
  | got (i : ι) (ok : Bool) (h : η)
  | freed (i : ι) (h : η)

/-- The events so far, the latest first. -/
abbrev Log (ι η : Type) := List (Event ι η)

variable {ι η : Type}

/-- The owner got the handle and has not freed it since. -/
def Owns (i : ι) (h : η) : Log ι η → Prop
  | [] => False
  | .found _ _ :: log => Owns i h log
  | .got j ok x :: log => j = i ∧ x = h ∧ ok = true ∨ Owns i h log
  | .freed j x :: log => ¬ (j = i ∧ x = h) ∧ Owns i h log

/-- The handle was given to some owner, and no owner has freed it since. -/
def Live (h : η) : Log ι η → Prop
  | [] => False
  | .found _ _ :: log => Live h log
  | .got _ ok x :: log => x = h ∧ ok = true ∨ Live h log
  | .freed _ x :: log => x ≠ h ∧ Live h log

def Disciplined : Log ι η → Prop
  | .freed i h :: log => Owns i h log ∧ (∀ j, j ≠ i → ¬ Owns j h log) ∧ Disciplined log
  | .found _ _ :: log | .got _ _ _ :: log => Disciplined log
  | [] => True

variable (null : η)

def Honest : Log ι η → Prop
  | .got _ ok h :: log => (ok = true → h ≠ null ∧ ¬ Live h log) ∧ Honest log
  | .found _ _ :: log | .freed _ _ :: log => Honest log
  | [] => True

/-- The variable of an owner holds `v`, and is renewed. -/
def renew [DecidableEq η] (i : ι) (v : η) (ok : Bool) (h : η) (log : Log ι η) : Log ι η :=
  .got i ok h :: if v ≠ null then .freed i v :: log else log

/-- One owner renews its variable any number of times. -/
inductive Renewals [DecidableEq η] (i : ι) (v : η) (log : Log ι η) : η → Log ι η → Prop
  | none : Renewals i v log v log
  | more {v' log'} (ok : Bool) (h : η) : Renewals i v log v' log' →
      Renewals i v log h (renew null i v' ok h log')

section
variable [DecidableEq η] {null} {i j : ι} {v h x : η} {ok : Bool} {log : Log ι η}

theorem owns_renew : Owns j x (renew null i v ok h log) ↔
    i = j ∧ h = x ∧ ok = true ∨ Owns j x log ∧ ¬ (v ≠ null ∧ i = j ∧ v = x) := by
  unfold renew
  split_ifs <;> grind [Owns]

theorem live_renew : Live x (renew null i v ok h log) ↔
    h = x ∧ ok = true ∨ Live x log ∧ ¬ (v ≠ null ∧ v = x) := by
  unfold renew
  split_ifs <;> grind [Live]

theorem disciplined_renew : Disciplined (renew null i v ok h log) ↔
    (v ≠ null → Owns i v log ∧ ∀ j, j ≠ i → ¬ Owns j v log) ∧ Disciplined log := by
  unfold renew
  split_ifs <;> grind [Disciplined]

/-- The handle freed before the allocation may be given out again. -/
theorem honest_renew : Honest null (renew null i v ok h log) ↔
    (ok = true → h ≠ null ∧ (Live h log → v ≠ null ∧ v = h)) ∧ Honest null log := by
  unfold renew
  split_ifs <;> grind [Honest, Live]

theorem Renewals.trans {v' v'' : η} {log' log'' : Log ι η} (first : Renewals null i v log v' log')
    (second : Renewals null i v' log' v'' log'') : Renewals null i v log v'' log'' := by
  induction second with
  | none => exact first
  | more ok h _ ih => exact .more ok h ih

end

variable [DecidableEq ι]

/-- What is in the variable of an owner. -/
def var (i : ι) : Log ι η → Option η
  | [] => none
  | .found j h :: log => if j = i then some h else var i log
  | .got j _ h :: log => if j = i then some h else var i log
  | .freed _ _ :: log => var i log

/-- What was written to the variable last is a handle, but not one that the owner got. -/
def Spoiled (i : ι) : Log ι η → Prop
  | [] => False
  | .found j h :: log => if j = i then h ≠ null else Spoiled i log
  | .got j ok h :: log => if j = i then ok = false ∧ h ≠ null else Spoiled i log
  | .freed _ _ :: log => Spoiled i log

def Clean : Log ι η → Prop
  | .got i _ _ :: log => ¬ Spoiled null i log ∧ Clean log
  | .found _ _ :: log | .freed _ _ :: log => Clean log
  | [] => True

/-- The logs of owners that renew their variables, each made before it is used. -/
inductive Traffic [DecidableEq η] : Log ι η → Prop
  | start : Traffic []
  | found {log i} (h : η) : Traffic log → var i log = none → Traffic (.found i h :: log)
  | renew {log i v} (ok : Bool) (h : η) : Traffic log → var i log = some v →
      Traffic (renew null i v ok h log)

/-- What the variables say about the handles, while the traffic is clean. -/
structure Sound (log : Log ι η) : Prop where
  held : ∀ i h, Owns i h log → var i log = some h ∧ h ≠ null ∧ ¬ Spoiled null i log
  live : ∀ i h, Owns i h log → Live h log
  one : ∀ i j h, Owns i h log → Owns j h log → i = j
  kept : ∀ i h, var i log = some h → h ≠ null → ¬ Spoiled null i log → Owns i h log

/-- What a variable is made with is not owned. -/
theorem Sound.found {null : η} {i : ι} {h : η} {log : Log ι η} (sound : Sound null log)
    (unmade : var i log = none) : Sound null (.found i h :: log) := by
  have other {j : ι} {x : η} (owns : Owns j x log) : i ≠ j := by
    rintro rfl
    rw [(sound.held _ _ owns).1] at unmade
    cases unmade
  constructor
  · intro j x owns
    rw [var, Spoiled, if_neg (other owns), if_neg (other owns)]
    exact sound.held j x owns
  · exact sound.live
  · exact sound.one
  · intro j x
    rw [var, Spoiled]
    split_ifs
    · intro same handle clean
      exact absurd (Option.some.inj same ▸ handle) clean
    · exact sound.kept j x

section
variable [DecidableEq η] {null} {i j : ι} {v h : η} {ok : Bool} {log : Log ι η}

theorem var_renew : var j (renew null i v ok h log) = if i = j then some h else var j log := by
  unfold renew
  split_ifs <;> grind [var]

theorem spoiled_renew : Spoiled null j (renew null i v ok h log) ↔
    if i = j then ok = false ∧ h ≠ null else Spoiled null j log := by
  unfold renew
  split_ifs <;> grind [Spoiled]

theorem clean_renew : Clean null (renew null i v ok h log) ↔
    ¬ Spoiled null i log ∧ Clean null log := by
  unfold renew
  split_ifs <;> grind [Clean, Spoiled]

theorem Renewals.traffic {v' : η} {log' : Log ι η} (renewals : Renewals null i v log v' log')
    (traffic : Traffic null log) (held : var i log = some v) :
    Traffic null log' ∧ var i log' = some v' ∧ ∀ j, i ≠ j → var j log' = var j log := by
  induction renewals with
  | none => exact ⟨traffic, held, fun _ _ => rfl⟩
  | more ok h _ ih =>
    obtain ⟨traffic', held', others⟩ := ih
    refine ⟨traffic'.renew ok h held', by rw [var_renew, if_pos rfl], ?_⟩
    intro j other
    rw [var_renew, if_neg other, others j other]

/-- A variable that is not spoiled holds null or a handle of its owner. -/
theorem Sound.renew (sound : Sound null log) (held : var i log = some v)
    (clean : ¬ Spoiled null i log)
    (honest : ok = true → h ≠ null ∧ (Live h log → v ≠ null ∧ v = h)) :
    Sound null (renew null i v ok h log) := by
  -- the variable is all that its owner has, so once it is freed nothing is left
  have last {x : η} (owns : Owns i x log) : v ≠ null ∧ v = x := by
    obtain ⟨inVar, handle, -⟩ := sound.held i x owns
    obtain rfl := Option.some.inj (held.symm.trans inVar)
    exact ⟨handle, rfl⟩
  -- a handle that is owned is given out only when it was just freed
  have mine {j : ι} (handle : v ≠ null) (owns : Owns j v log) : i = j :=
    sound.one i j v (sound.kept i v held handle clean) owns
  have again {j : ι} (new : ok = true) (owns : Owns j h log) : v ≠ null ∧ i = j ∧ v = h := by
    obtain ⟨handle, rfl⟩ := (honest new).2 (sound.live j h owns)
    exact ⟨handle, mine handle owns, rfl⟩
  constructor
  · intro j x
    rw [owns_renew, var_renew, spoiled_renew]
    grind [sound.held j x]
  · intro j x
    rw [owns_renew, live_renew]
    rintro (⟨-, new⟩ | ⟨owns, unfreed⟩)
    · exact .inl new
    · refine .inr ⟨sound.live j x owns, ?_⟩
      rintro ⟨handle, rfl⟩
      exact unfreed ⟨handle, mine handle owns, rfl⟩
  · intro j k x
    rw [owns_renew, owns_renew]
    rintro (⟨rfl, rfl, new⟩ | ⟨owns, unfreed⟩) (⟨rfl, same, new'⟩ | ⟨owns', unfreed'⟩)
    · rfl
    · exact absurd (again new owns') unfreed'
    · exact absurd (again new' (same.symm ▸ owns)) (same.symm ▸ unfreed)
    · exact sound.one j k x owns owns'
  · intro j x
    rw [var_renew, spoiled_renew, owns_renew]
    split_ifs with same
    · rintro ⟨⟩ handle unspoiled
      exact .inl ⟨same, rfl, by simpa [handle] using unspoiled⟩
    · intro inVar handle unspoiled
      exact .inr ⟨sound.kept j x inVar handle unspoiled, fun freed => same freed.2.1⟩

/-- Clean traffic with honest allocations is disciplined. -/
theorem sound_of_clean (traffic : Traffic null log) (honest : Honest null log)
    (clean : Clean null log) : Disciplined log ∧ Sound null log := by
  induction traffic with
  | start =>
    refine ⟨trivial, ?_, ?_, ?_, ?_⟩
    · intro i h owns
      cases owns
    · intro i h owns
      cases owns
    · intro i j h owns
      cases owns
    · intro i h inVar
      cases inVar
  | found h _ unmade ih =>
    obtain ⟨disciplined, sound⟩ := ih honest clean
    exact ⟨disciplined, sound.found unmade⟩
  | @renew log i v ok h _ held ih =>
    rw [honest_renew] at honest
    rw [clean_renew] at clean
    obtain ⟨disciplined, sound⟩ := ih honest.2 clean.2
    refine ⟨disciplined_renew.mpr ⟨?_, disciplined⟩, sound.renew held clean.1 honest.1⟩
    intro handle
    have owns := sound.kept i v held handle clean.1
    exact ⟨owns, fun j other owns' => other (sound.one j i v owns' owns)⟩

theorem Traffic.var_of_spoiled (traffic : Traffic null log) (spoiled : Spoiled null i log) :
    ∃ h, var i log = some h ∧ h ≠ null := by
  induction traffic with
  | start => cases spoiled
  | found h _ _ ih =>
    rw [Spoiled] at spoiled
    rw [var]
    split_ifs at spoiled ⊢
    · exact ⟨h, rfl, spoiled⟩
    · exact ih spoiled
  | renew ok h _ _ ih =>
    rw [spoiled_renew] at spoiled
    rw [var_renew]
    split_ifs at spoiled ⊢
    · exact ⟨h, rfl, spoiled.2⟩
    · exact ih spoiled

/-- **Discipline.** Of the traffic with honest allocations, the disciplined is the clean. -/
theorem disciplined_iff_clean (traffic : Traffic null log) (honest : Honest null log) :
    Disciplined log ↔ Clean null log := by
  constructor
  · intro disciplined
    induction traffic with
    | start => trivial
    | found h _ _ ih => exact ih honest disciplined
    | @renew log i v ok h traffic held ih =>
      rw [honest_renew] at honest
      rw [disciplined_renew] at disciplined
      have clean := ih honest.2 disciplined.2
      refine clean_renew.mpr ⟨?_, clean⟩
      intro spoiled
      obtain ⟨h', inVar, handle⟩ := traffic.var_of_spoiled spoiled
      obtain rfl := Option.some.inj (held.symm.trans inVar)
      have owns := (disciplined.1 handle).1
      exact ((sound_of_clean traffic honest.2 clean).2.held i v owns).2.2 spoiled
  · intro clean
    exact (sound_of_clean traffic honest clean).1

end

end Handles
