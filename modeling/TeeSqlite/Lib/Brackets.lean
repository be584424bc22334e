import Mathlib.Data.List.Basic

/-!
# Resources that are acquired and released

What a program does with numbered resources, as a list of its uses of them:

* `Disciplined`: what is acquired is released once, nothing is released twice,
  and an access goes to a resource that is acquired, mapped and not released;
* `Within`: the same of a part of a program that runs while others hold some
  resources for it; it leaves those alone;
* `Within.bracket`, `Within.map`, `Within.access`: the rules for programs whose
  acquisitions and releases are nested.
-/

namespace Brackets

variable {ι : Type}

/-- An access without a resource goes through a pointer that was not set. -/
inductive Touch (ι : Type)
  | acquire (i : ι)
  | map (i : ι)
  | access (i : Option ι)
  | release (i : ι)
  deriving DecidableEq

structure Disciplined [DecidableEq ι] (uses : List (Touch ι)) : Prop where
  released : ∀ i, .acquire i ∈ uses → uses.count (.release i) = 1
  once : ∀ i, uses.count (.release i) ≤ 1
  reached : ∀ before j after, uses = before ++ .access j :: after →
    ∃ i, j = some i ∧ .acquire i ∈ before ∧ .map i ∈ before ∧ .release i ∉ before

/-- The resources in `held` are acquired and released around these uses; those in
`mapped` are mapped before. -/
structure Within [DecidableEq ι] (held mapped : List ι) (uses : List (Touch ι)) : Prop where
  kept : ∀ i ∈ held, .release i ∉ uses
  released : ∀ i, .acquire i ∈ uses → uses.count (.release i) = 1
  once : ∀ i, uses.count (.release i) ≤ 1
  reached : ∀ before j after, uses = before ++ .access j :: after →
    ∃ i, j = some i ∧ (i ∈ held ∨ .acquire i ∈ before) ∧ (i ∈ mapped ∨ .map i ∈ before) ∧
      .release i ∉ before

section
variable [DecidableEq ι] {held mapped : List ι} {uses : List (Touch ι)} {i : ι}

theorem Within.disciplined (within : Within [] [] uses) : Disciplined uses := by
  refine ⟨within.released, within.once, ?_⟩
  intro before j after split
  obtain ⟨i, at_i, acquired, map, live⟩ := within.reached before j after split
  exact ⟨i, at_i, acquired.resolve_left (by simp), map.resolve_left (by simp), live⟩

theorem Within.nil : Within held mapped ([] : List (Touch ι)) where
  kept k _ := by simp
  released k acquired := by simp at acquired
  once k := by simp
  reached before j after split := by simp at split

theorem Within.map (within : Within held (i :: mapped) uses) :
    Within held mapped (.map i :: uses) where
  kept k mem := by simpa using within.kept k mem
  released k acquired := by
    rw [List.count_cons_of_ne (by simp)]
    exact within.released k (by simpa using acquired)
  once k := by
    rw [List.count_cons_of_ne (by simp)]
    exact within.once k
  reached before j after split := by
    cases before with
    | nil => cases split
    | cons first before =>
      cases split
      obtain ⟨k, at_k, acquired, map, live⟩ := within.reached before j after rfl
      refine ⟨k, at_k, acquired.imp_right (List.mem_cons_of_mem _), ?_, by simpa using live⟩
      rcases map with mem | mem
      · rcases List.mem_cons.mp mem with rfl | mem
        · exact .inr List.mem_cons_self
        · exact .inl mem
      · exact .inr (List.mem_cons_of_mem _ mem)

theorem Within.access (within : Within held mapped uses) (acquired : i ∈ held)
    (map : i ∈ mapped) : Within held mapped (.access (some i) :: uses) where
  kept k mem := by simpa using within.kept k mem
  released k acquired := by
    rw [List.count_cons_of_ne (by simp)]
    exact within.released k (by simpa using acquired)
  once k := by
    rw [List.count_cons_of_ne (by simp)]
    exact within.once k
  reached before j after split := by
    cases before with
    | nil =>
      cases split
      exact ⟨i, rfl, .inl acquired, .inl map, by simp⟩
    | cons first before =>
      cases split
      obtain ⟨k, at_k, acquired, map, live⟩ := within.reached before j after rfl
      exact ⟨k, at_k, acquired.imp_right (List.mem_cons_of_mem _),
        map.imp_right (List.mem_cons_of_mem _), by simpa using live⟩

/-- A resource around the uses of it. -/
theorem Within.bracket (fresh : i ∉ held) (body : Within (i :: held) mapped uses) :
    Within held mapped (.acquire i :: uses ++ [.release i]) where
  kept k mem := by
    have other : k ≠ i := fun same => fresh (same ▸ mem)
    have unreleased := body.kept k (List.mem_cons_of_mem i mem)
    simp [other, unreleased]
  released k acquired := by
    by_cases same : k = i
    · subst same
      simp [List.count_append, List.count_eq_zero.mpr (body.kept k List.mem_cons_self)]
    · have acquired : .acquire k ∈ uses := by simpa [same] using acquired
      simp [List.count_append, body.released k acquired, Ne.symm same]
  once k := by
    by_cases same : k = i
    · subst same
      simp [List.count_append, List.count_eq_zero.mpr (body.kept k List.mem_cons_self)]
    · simpa [List.count_append, List.count_cons, Ne.symm same] using body.once k
  reached before j after split := by
    -- the access is one of the uses inside
    obtain ⟨inside, rest, rfl, inner⟩ : ∃ inside rest, before = .acquire i :: inside ∧
        uses = inside ++ .access j :: rest := by
      cases before with
      | nil => simp at split
      | cons first inside =>
        simp only [List.cons_append, List.cons.injEq] at split
        obtain ⟨rfl, split⟩ := split
        rcases List.eq_nil_or_concat after with rfl | ⟨rest, last, rfl⟩
        · have ends := congrArg List.getLast? split
          simp at ends
        · have front := congrArg List.dropLast split
          rw [List.concat_eq_append, ← List.cons_append, ← List.append_assoc,
            List.dropLast_concat, List.dropLast_concat] at front
          exact ⟨inside, rest, rfl, front⟩
    obtain ⟨k, at_k, acquired, map, live⟩ := body.reached inside j rest inner
    refine ⟨k, at_k, ?_, map.imp_right (List.mem_cons_of_mem _), by simpa using live⟩
    rcases acquired with mem | mem
    · rcases List.mem_cons.mp mem with rfl | mem
      · exact .inr List.mem_cons_self
      · exact .inl mem
    · exact .inr (List.mem_cons_of_mem _ mem)

end
end Brackets
