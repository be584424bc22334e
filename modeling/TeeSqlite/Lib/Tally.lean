import Mathlib.Data.List.Basic

/-!
# What the entries of a table add up to

Each entry of a list has a weight. When one entry changes the total changes by as much:
`tally_set`. It is no less than any entry (`le_tally`), and positive only by some entry
(`exists_of_tally_pos`).
-/

namespace Tally

variable {α : Type} (w : α → Nat)

def tally : List α → Nat
  | [] => 0
  | x :: l => w x + tally l

variable {w} {l : List α} {t : Nat} {x y : α}

@[simp] theorem tally_nil : tally w [] = 0 := rfl

@[simp] theorem tally_cons : tally w (x :: l) = w x + tally w l := rfl

theorem tally_append (l l' : List α) : tally w (l ++ l') = tally w l + tally w l' := by
  induction l with
  | nil => simp
  | cons x l ih => rw [List.cons_append, tally_cons, tally_cons, ih, Nat.add_assoc]

theorem tally_set (at_t : l[t]? = some x) : tally w (l.set t y) + w x = tally w l + w y := by
  induction l generalizing t with
  | nil => simp at at_t
  | cons z l ih =>
    cases t with
    | zero =>
      obtain rfl : z = x := by simpa using at_t
      simp only [List.set_cons_zero, tally_cons]
      omega
    | succ t =>
      have tail := ih (by simpa using at_t)
      simp only [List.set_cons_succ, tally_cons]
      omega

theorem le_tally (at_t : l[t]? = some x) : w x ≤ tally w l := by
  induction l generalizing t with
  | nil => simp at at_t
  | cons z l ih =>
    rw [tally_cons]
    cases t with
    | zero =>
      obtain rfl : z = x := by simpa using at_t
      omega
    | succ t =>
      have tail := ih (by simpa using at_t)
      omega

theorem exists_of_tally_pos (pos : 0 < tally w l) :
    ∃ (t : Nat) (x : α), l[t]? = some x ∧ 0 < w x := by
  induction l with
  | nil => simp at pos
  | cons z l ih =>
    by_cases first : 0 < w z
    · exact ⟨0, z, rfl, first⟩
    · obtain ⟨t, x, at_t, weighs⟩ := ih (by rw [tally_cons] at pos; omega)
      exact ⟨t + 1, x, at_t, weighs⟩

theorem tally_eq_zero (none : ∀ x ∈ l, w x = 0) : tally w l = 0 := by
  induction l with
  | nil => rfl
  | cons z l ih =>
    rw [tally_cons, none z List.mem_cons_self,
      ih fun x member => none x (List.mem_cons_of_mem z member)]

/-- The entries of lists that are joined, counted list by list. -/
theorem count_flatMap_eq_tally {β : Type} [BEq β] (f : α → List β) (b : β) (l : List α) :
    (l.flatMap f).count b = tally (fun x => (f x).count b) l := by
  induction l with
  | nil => rfl
  | cons z l ih => rw [List.flatMap_cons, List.count_append, ih, tally_cons]

theorem tally_le_length (one : ∀ x, w x ≤ 1) (l : List α) : tally w l ≤ l.length := by
  induction l with
  | nil => exact Nat.le_refl _
  | cons z l ih =>
    have := one z
    rw [tally_cons, List.length_cons]
    omega

/-- Entries that weigh at most 1, one of them nothing. -/
theorem tally_lt_length (one : ∀ x, w x ≤ 1) (at_t : l[t]? = some x) (none : w x = 0) :
    tally w l < l.length := by
  induction l generalizing t with
  | nil => simp at at_t
  | cons z l ih =>
    rw [tally_cons, List.length_cons]
    cases t with
    | zero =>
      obtain rfl : z = x := by simpa using at_t
      have := tally_le_length one l
      omega
    | succ t =>
      have := ih (by simpa using at_t)
      have := one z
      omega

end Tally
