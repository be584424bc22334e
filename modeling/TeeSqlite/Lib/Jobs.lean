import Mathlib.Logic.Basic

/-!
# Jobs made of atomic steps

A job works on a state that it shares with others, one atomic step at a time, and ends
with a result. Between two of its steps the others may change the state.

* `Job.run`: the job alone, from its first step to its last;
* `Yields`: what the job may end with, whatever the others do between its steps;
* `yields_run`: what it ends with alone is among that.
-/

namespace Jobs

/-- What is left of a job: its result, none when it went wrong, or a step and what
follows it, which may depend on the state before the step. -/
inductive Job (σ ρ : Type)
  | done (result : Option ρ)
  | act (effect : σ → σ) (rest : σ → Job σ ρ)

namespace Job
variable {σ ρ : Type}

def run : Job σ ρ → σ → σ × Option ρ
  | done result, s => (s, result)
  | act effect rest, s => (rest s).run (effect s)

/-- The result of a job that has no step left. -/
def result? : Job σ ρ → Option (Option ρ)
  | done result => some result
  | act _ _ => none

theorem result?_eq_some {job : Job σ ρ} {result : Option ρ} :
    job.result? = some result ↔ job = .done result := by
  cases job <;> simp [result?]

/-- Each step finds some state, which need not be the one that the step before it left. -/
inductive Yields : Job σ ρ → Option ρ → Prop
  | done (result : Option ρ) : Yields (done result) result
  | act {effect : σ → σ} {rest : σ → Job σ ρ} {result : Option ρ} (s : σ) :
      Yields (rest s) result → Yields (act effect rest) result

theorem yields_run (job : Job σ ρ) (s : σ) : job.Yields (job.run s).2 := by
  induction job generalizing s with
  | done result => exact .done result
  | act effect rest ih => exact .act s (ih s (effect s))

end Job
end Jobs
