import TeeSqlite.Lib.Jobs

/-!
# Programs with an oracle

A program that makes calls can be given as a function of an oracle, which answers each
call knowing those before it; its output tells the calls, the latest first.

* `Makes n`: the program makes at most `n` calls, and the next one depends only on the
  answers to those it has made;
* `calling`: the same program as a job, each call a step on the state of a machine that
  answers it;
* `calling_run`: alone the job comes to what the program gives with the machine as its
  oracle;
* `calling_yields`: among others it comes to what the program gives with some oracle;
* `calling_last`: with one call the job is over after one step.
-/

namespace Oracles
open Jobs

variable {σ γ ρ ω α : Type}

section
variable (machine : σ → γ → σ × ρ) (s : σ)

/-- The machine after the calls. -/
def after : List γ → σ
  | [] => s
  | call :: earlier => (machine (after earlier) call).1

/-- The machine as an oracle. -/
def asked [Inhabited ρ] : List γ → ρ
  | [] => default
  | call :: earlier => (machine (after machine s earlier) call).2

end

/-- At most `n` calls after those in `made`. -/
inductive Makes (calls : ω → List γ) : Nat → List γ → ((List γ → ρ) → ω) → Prop
  | ends {n made H} (out : ω) : (∀ os, H os = out) → calls out = made → Makes calls n made H
  | call {n made H} (call : γ) (K : ρ → (List γ → ρ) → ω) :
      (∀ os, H os = K (os (call :: made)) os) → (∀ r, Makes calls n (call :: made) (K r)) →
      Makes calls (n + 1) made H

section
variable {calls : ω → List γ} {n : Nat} {made : List γ} {H : (List γ → ρ) → ω}

theorem Makes.extends (makes : Makes calls n made H) (os : List γ → ρ) :
    ∃ more, calls (H os) = more ++ made := by
  induction makes with
  | ends out same made => exact ⟨[], by rw [same, made]; rfl⟩
  | call call K same _ ih =>
    obtain ⟨more, all⟩ := ih (os (call :: _))
    exact ⟨more ++ [call], by rw [same, all, List.append_assoc, List.singleton_append]⟩

/-- The answers to the calls already made are not asked for again. -/
theorem Makes.congr (makes : Makes calls n made H) {os os' : List γ → ρ}
    (same : ∀ asked, made.length < asked.length → os asked = os' asked) : H os = H os' := by
  induction makes with
  | ends out const _ => rw [const, const]
  | call call K next _ ih =>
    rw [next, next, same _ (by simp)]
    exact ih _ fun asked longer => same asked (by simp at longer; omega)

theorem Makes.mono {m : Nat} (makes : Makes calls n made H) (fewer : n ≤ m) :
    Makes calls m made H := by
  induction makes generalizing m with
  | ends out same made => exact .ends out same made
  | call call K same _ ih =>
    obtain ⟨m, rfl⟩ : ∃ k, m = k + 1 := ⟨m - 1, by omega⟩
    exact .call call K same fun r => ih r (by omega)

end

variable [Inhabited ρ] (machine : σ → γ → σ × ρ) (calls : ω → List γ) (finish : ω → Option α)

/-- The program as a job that has made `m` calls and makes at most `n` more. An answer
takes the place of the oracle's. -/
def calling : Nat → Nat → ((List γ → ρ) → ω) → Job σ α
  | 0, _, H => .done (finish (H fun _ => default))
  | n + 1, m, H =>
    match (calls (H fun _ => default)).reverse[m]? with
    | none => .done (finish (H fun _ => default))
    | some call => .act (fun s => (machine s call).1) fun s =>
        calling n (m + 1) fun os => H fun asked =>
          if asked.length = m + 1 then (machine s call).2 else os asked

section
variable {machine calls finish} {n : Nat} {made : List γ} {H : (List γ → ρ) → ω}

theorem calling_ends {out : ω} (same : ∀ os, H os = out) (all : calls out = made) :
    calling machine calls finish n made.length H = .done (finish out) := by
  cases n with
  | zero => rw [calling, same]
  | succ n =>
    have last : (calls out).reverse[made.length]? = none := by simp [all]
    simp only [calling, same, last]

theorem calling_call {call : γ} {K : ρ → (List γ → ρ) → ω}
    (same : ∀ os, H os = K (os (call :: made)) os)
    (makes : ∀ r, Makes calls n (call :: made) (K r)) :
    calling machine calls finish (n + 1) made.length H =
      .act (fun s => (machine s call).1) fun s =>
        calling machine calls finish n (call :: made).length (K (machine s call).2) := by
  obtain ⟨more, all⟩ := (makes default).extends fun _ => default
  have next : (calls (H fun _ => default)).reverse[made.length]? = some call := by
    rw [same, all, List.reverse_append, List.reverse_cons, List.append_assoc,
      List.getElem?_append_right (by simp)]
    simp
  simp only [calling, next]
  congr 1
  funext s
  congr 1
  funext os
  rw [same, if_pos (List.length_cons)]
  apply (makes _).congr
  intro asked longer
  rw [if_neg (by simp at longer; omega)]

/-- Alone the job is the program with the machine for its oracle. -/
theorem calling_run (makes : Makes calls n made H) (s₀ : σ) :
    (calling machine calls finish n made.length H).run (after machine s₀ made) =
      (after machine s₀ (calls (H (asked machine s₀))), finish (H (asked machine s₀))) := by
  induction makes with
  | ends out same all =>
    rw [calling_ends same all, same, all]
    rfl
  | call call K same makes ih =>
    rw [calling_call same makes, Job.run, same]
    exact ih (asked machine s₀ (call :: _))

/-- Whatever the others do to the machine, some oracle answers so. -/
theorem calling_yields (makes : Makes calls n made H) {result : Option α}
    (yields : (calling machine calls finish n made.length H).Yields result) :
    ∃ os, result = finish (H os) := by
  induction makes with
  | ends out same all =>
    rw [calling_ends same all] at yields
    cases yields
    exact ⟨fun _ => default, by rw [same]⟩
  | @call n made H call K same makes ih =>
    rw [calling_call same makes] at yields
    cases yields with
    | act s rest =>
      obtain ⟨os, last⟩ := ih _ rest
      refine ⟨fun asked => if asked.length = made.length + 1 then (machine s call).2 else os asked,
        ?_⟩
      rw [last, same, if_pos (List.length_cons)]
      congr 1
      apply (makes _).congr
      intro asked longer
      rw [if_neg (by simp at longer; omega)]

/-- With one call left, its step is the last. -/
theorem calling_last (makes : Makes calls 1 made H) {effect : σ → σ} {rest : σ → Job σ α}
    (acts : calling machine calls finish 1 made.length H = .act effect rest) (s : σ) :
    ∃ result, rest s = .done result := by
  cases makes with
  | ends out same all =>
    rw [calling_ends same all] at acts
    cases acts
  | call call K same makes =>
    rw [calling_call same makes] at acts
    cases acts
    exact ⟨_, rfl⟩

end
end Oracles
