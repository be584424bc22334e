import Mathlib.Data.Set.Card
import Mathlib.Logic.Function.Basic

/-!
# Descriptors and who holds them

A system gives descriptors out and takes them back, and nothing is promised of the numbers:
the same one may be given out twice. Holders keep one descriptor each.

* `Disciplined`: a descriptor is used or closed only while it has been given out more often
  than closed;
* `Held`: the log is disciplined, and a descriptor has been given out once more than closed
  for each of its holders;
* `Held.use`, `Held.acquire`, `Held.release`, `Held.visit`: what holders do keeps it so.
-/

namespace Descriptors

inductive Event (η : Type)
  | opened (d : η)
  | used (d : η)
  | closed (d : η)
  deriving DecidableEq

/-- The events so far, the latest first. -/
abbrev Log (η : Type) := List (Event η)

variable {ι η : Type}

/-- One descriptor is used any number of times. -/
inductive Uses (d : η) (log : Log η) : Log η → Prop
  | none : Uses d log log
  | more {log'} : Uses d log log' → Uses d log (.used d :: log')

theorem Uses.trans {d : η} {log log' log'' : Log η} (first : Uses d log log')
    (second : Uses d log' log'') : Uses d log log'' := by
  induction second with
  | none => exact first
  | more _ ih => exact ih.more

theorem finite_update [DecidableEq ι] {i : ι} {holders : ι → Option η}
    (finite : {j | (holders j).isSome}.Finite) (own : Option η) :
    {j | (Function.update holders i own j).isSome}.Finite := by
  apply (finite.insert i).subset
  intro j inside
  by_cases same : j = i
  · exact .inl same
  · rw [Set.mem_ofPred_eq, Function.update_of_ne same] at inside
    exact .inr inside

variable [DecidableEq η]

def opens (d : η) (log : Log η) : Nat := log.count (.opened d)

def closes (d : η) (log : Log η) : Nat := log.count (.closed d)

def Disciplined : Log η → Prop
  | [] => True
  | .opened _ :: log => Disciplined log
  | .used d :: log | .closed d :: log => closes d log < opens d log ∧ Disciplined log

structure Held (log : Log η) (holders : ι → Option η) : Prop where
  disciplined : Disciplined log
  finite : {i | (holders i).isSome}.Finite
  balance : ∀ d, opens d log = closes d log + {i | holders i = some d}.ncard

section
variable {d x : η} {log log' : Log η} {i : ι} {holders : ι → Option η}

@[simp] theorem opens_opened :
    opens x (.opened d :: log) = opens x log + if d = x then 1 else 0 := by
  simp [opens, List.count_cons]

@[simp] theorem opens_used : opens x (.used d :: log) = opens x log := by
  simp [opens]

@[simp] theorem opens_closed : opens x (.closed d :: log) = opens x log := by
  simp [opens]

@[simp] theorem closes_opened : closes x (.opened d :: log) = closes x log := by
  simp [closes]

@[simp] theorem closes_used : closes x (.used d :: log) = closes x log := by
  simp [closes]

@[simp] theorem closes_closed :
    closes x (.closed d :: log) = closes x log + if d = x then 1 else 0 := by
  simp [closes, List.count_cons]

theorem Uses.counts (uses : Uses d log log') :
    opens x log' = opens x log ∧ closes x log' = closes x log := by
  induction uses with
  | none => exact ⟨rfl, rfl⟩
  | more _ ih => rwa [opens_used, closes_used]

theorem Uses.disciplined (uses : Uses d log log') (disciplined : Disciplined log)
    (there : closes d log < opens d log) : Disciplined log' := by
  induction uses with
  | none => exact disciplined
  | more uses ih =>
    obtain ⟨opened, closed⟩ := uses.counts (x := d)
    exact ⟨by omega, ih⟩

theorem Held.start : Held ([] : Log η) (fun _ : ι => none) where
  disciplined := trivial
  finite := by simp
  balance d := by simp [opens, closes]

theorem Held.of_holders (held : Held log holders) (d : η) : {i | holders i = some d}.Finite :=
  held.finite.subset fun i own => by
    rw [Set.mem_ofPred_eq] at own ⊢
    rw [own, Option.isSome_some]

/-- A descriptor with a holder is open. -/
theorem Held.is_open (held : Held log holders) (own : holders i = some d) :
    closes d log < opens d log := by
  have some_holder : 0 < {i | holders i = some d}.ncard :=
    (Set.ncard_pos (held.of_holders d)).mpr ⟨i, own⟩
  have balance := held.balance d
  omega

theorem Held.use (held : Held log holders) (own : holders i = some d) (uses : Uses d log log') :
    Held log' holders where
  disciplined := uses.disciplined held.disciplined (held.is_open own)
  finite := held.finite
  balance x := by
    obtain ⟨opened, closed⟩ := uses.counts (x := x)
    rw [opened, closed]
    exact held.balance x

/-- A descriptor is opened, used and closed again by somebody who does not keep it. -/
theorem Held.visit (held : Held log holders) (uses : Uses d (.opened d :: log) log') :
    Held (.closed d :: log') holders where
  disciplined := by
    have balance := held.balance d
    obtain ⟨opened, closed⟩ := uses.counts (x := d)
    rw [opens_opened, if_pos rfl] at opened
    rw [closes_opened] at closed
    refine ⟨by omega, uses.disciplined held.disciplined ?_⟩
    rw [opens_opened, if_pos rfl, closes_opened]
    omega
  finite := held.finite
  balance x := by
    have balance := held.balance x
    obtain ⟨opened, closed⟩ := uses.counts (x := x)
    rw [opens_opened] at opened
    rw [closes_opened] at closed
    rw [opens_closed, closes_closed]
    omega

end

variable {d : η} {log : Log η} {i : ι} {holders : ι → Option η} [DecidableEq ι]

/-- What a descriptor has for holders when one holder has changed. -/
theorem holders_update (x : η) (own : Option η) :
    {j | Function.update holders i own j = some x} =
      if own = some x then insert i {j | holders j = some x}
      else {j | holders j = some x} \ {i} := by
  ext j
  by_cases same : j = i
  · subst same
    split_ifs <;> simp_all
  · split_ifs <;> simp [same]

theorem Held.acquire (held : Held log holders) (without : holders i = none) (d : η) :
    Held (.opened d :: log) (Function.update holders i (some d)) where
  disciplined := held.disciplined
  finite := finite_update held.finite _
  balance x := by
    have balance := held.balance x
    have outside : i ∉ {j | holders j = some x} := by
      rw [Set.mem_ofPred_eq, without]
      exact Option.some_ne_none x ∘ Eq.symm
    rw [opens_opened, closes_opened, holders_update]
    by_cases same : d = x
    · rw [if_pos same, if_pos (congrArg some same),
        Set.ncard_insert_of_notMem outside (held.of_holders x)]
      omega
    · rw [if_neg same, if_neg (same ∘ Option.some.inj), Set.sdiff_singleton_eq_self outside]
      exact balance

theorem Held.release (held : Held log holders) (own : holders i = some d) :
    Held (.closed d :: log) (Function.update holders i none) where
  disciplined := ⟨held.is_open own, held.disciplined⟩
  finite := finite_update held.finite _
  balance x := by
    have balance := held.balance x
    rw [opens_closed, closes_closed, holders_update, if_neg (Option.some_ne_none x ∘ Eq.symm)]
    by_cases same : d = x
    · subst same
      have one_less := Set.ncard_sdiff_singleton_add_one (s := {j | holders j = some d}) own
        (held.of_holders d)
      rw [if_pos rfl]
      omega
    · have outside : i ∉ {j | holders j = some x} := by
        rw [Set.mem_ofPred_eq, own]
        exact same ∘ Option.some.inj
      rw [if_neg same, Set.sdiff_singleton_eq_self outside]
      exact balance

end Descriptors
