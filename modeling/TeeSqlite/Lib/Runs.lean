import Mathlib.Logic.Basic

/-!
# Runs of a machine that takes one input at a time

A machine is a step function that answers an input with a new state and an
output, or does not answer at all (`none`: it went wrong or never returned).

* `Run`: the runs whose every step meets a condition on the state before it;
* `Run.invariant`: what holds at the start and is kept by each step holds in
  every state reached;
* `Run.simulate`: a step-by-step simulation answers a whole run with a run of
  the other machine that has the same history, hence the same outputs;
* `Run.unique`: the inputs decide the run;
* `Run.moment`: each entry of a history was put there by a step;
* `exec`, `Run.exec`: the run of a machine on given inputs, computed;
* `exists_run`: a machine that answers every admitted input of its invariant
  runs to the end of every input list.
-/

namespace Runs

variable {σ τ ι ο : Type} {step : σ → ι → Option (σ × ο)} {ok : σ → ι → Prop}

/-- The runs from `s₀` in which every step met `ok`. The history holds each
input with its output, the latest first. -/
inductive Run (step : σ → ι → Option (σ × ο)) (ok : σ → ι → Prop) (s₀ : σ) :
    List (ι × ο) → σ → Prop
  | start : Run step ok s₀ [] s₀
  | next {h s i s' o} : Run step ok s₀ h s → ok s i → step s i = some (s', o) →
      Run step ok s₀ ((i, o) :: h) s'

/-- Every input is admitted. -/
abbrev Free : σ → ι → Prop := fun _ _ => True

theorem Run.invariant {s₀ s : σ} {h : List (ι × ο)} (run : Run step ok s₀ h s)
    (I : List (ι × ο) → σ → Prop) (base : I [] s₀)
    (keeps : ∀ h s i s' o, I h s → ok s i → step s i = some (s', o) → I ((i, o) :: h) s') :
    I h s := by
  induction run with
  | start => exact base
  | next _ admitted answer ih => exact keeps _ _ _ _ _ ih admitted answer

theorem Run.mono {s₀ s : σ} {h : List (ι × ο)} (run : Run step ok s₀ h s)
    {ok' : σ → ι → Prop} (weaker : ∀ s i, ok s i → ok' s i) : Run step ok' s₀ h s := by
  induction run with
  | start => exact .start
  | next _ admitted answer ih => exact .next ih (weaker _ _ admitted) answer

theorem Run.simulate {s₀ s : σ} {h : List (ι × ο)} (run : Run step ok s₀ h s)
    (step' : τ → ι → Option (τ × ο)) (ok' : τ → ι → Prop) (R : σ → τ → Prop) {t₀ : τ}
    (base : R s₀ t₀)
    (keeps : ∀ s t i s' o, R s t → ok s i → step s i = some (s', o) →
      ok' t i ∧ ∃ t', step' t i = some (t', o) ∧ R s' t') :
    ∃ t, Run step' ok' t₀ h t ∧ R s t := by
  induction run with
  | start => exact ⟨t₀, .start, base⟩
  | next _ admitted answer ih =>
    obtain ⟨t, tail, related⟩ := ih
    obtain ⟨admitted', t', answer', related'⟩ := keeps _ t _ _ _ related admitted answer
    exact ⟨t', .next tail admitted' answer', related'⟩

/-- From one state the same inputs lead to the same outputs and the same state. -/
theorem Run.unique {ok' : σ → ι → Prop} {s₀ s s' : σ} {h h' : List (ι × ο)}
    (run : Run step ok s₀ h s) (run' : Run step ok' s₀ h' s')
    (same : h.map Prod.fst = h'.map Prod.fst) : h = h' ∧ s = s' := by
  induction run generalizing h' s' with
  | start =>
    cases run' with
    | start => exact ⟨rfl, rfl⟩
    | next => cases same
  | next _ _ answer ih =>
    cases run' with
    | start => cases same
    | next run' _ answer' =>
      obtain ⟨rfl, inputs⟩ := List.cons.inj same
      obtain ⟨rfl, rfl⟩ := ih run' inputs
      obtain ⟨rfl, rfl⟩ := Prod.mk.inj (Option.some.inj (answer.symm.trans answer'))
      exact ⟨rfl, rfl⟩

/-- The step of a run that put an entry into its history. -/
theorem Run.moment {s₀ s : σ} {later earlier : List (ι × ο)} {i : ι} {o : ο}
    (run : Run step ok s₀ (later ++ (i, o) :: earlier) s) :
    ∃ before after, Run step ok s₀ earlier before ∧ ok before i ∧
      step before i = some (after, o) := by
  induction later generalizing s with
  | nil =>
    cases run with
    | next run admitted answer => exact ⟨_, _, run, admitted, answer⟩
  | cons e later ih =>
    cases run with
    | next run _ _ => exact ih run

/-- A machine that answers every input admitted in its invariant never stops
half way through a list of admitted inputs. -/
theorem exists_run (step : σ → ι → Option (σ × ο)) (ok : σ → ι → Prop) (I : σ → Prop) {s₀ : σ}
    (base : I s₀) (is : List ι)
    (answers : ∀ s, ∀ i ∈ is, I s → ok s i ∧ ∃ s' o, step s i = some (s', o) ∧ I s') :
    ∃ h s, Run step ok s₀ h s ∧ h.map Prod.fst = is ∧ I s := by
  induction is with
  | nil => exact ⟨[], s₀, .start, rfl, base⟩
  | cons i is ih =>
    obtain ⟨h, s, run, inputs, inv⟩ := ih fun s j hj => answers s j (List.mem_cons_of_mem i hj)
    obtain ⟨admitted, s', o, answer, inv'⟩ := answers s i List.mem_cons_self inv
    exact ⟨(i, o) :: h, s', .next run admitted answer, by simp [inputs], inv'⟩

/-- The inputs one after the other, with the history that was there before. -/
def exec (step : σ → ι → Option (σ × ο)) (s : σ) (h : List (ι × ο)) :
    List ι → Option (List (ι × ο) × σ)
  | [] => some (h, s)
  | i :: is => (step s i).bind fun next => exec step next.1 ((i, next.2) :: h) is

theorem Run.exec {s₀ s s' : σ} {h h' : List (ι × ο)} (run : Run step ok s₀ h s) {is : List ι}
    (admitted : ∀ s, ∀ i ∈ is, ok s i) (answers : exec step s h is = some (h', s')) :
    Run step ok s₀ h' s' := by
  induction is generalizing s h with
  | nil =>
    cases answers
    exact run
  | cons i is ih =>
    obtain ⟨⟨next, o⟩, answer, rest⟩ := Option.bind_eq_some_iff.mp answers
    exact ih (run.next (admitted s i List.mem_cons_self) answer)
      (fun s j member => admitted s j (List.mem_cons_of_mem i member)) rest

end Runs
