import Mathlib.Data.List.Basic

/-!
# Lists cut into chunks

`chunks n l m` are the first `m` chunks of `l`, of `n` elements each as long as `l` lasts.

* `chunk_append`: a chunk that is complete stays when the list grows;
* `flatten_chunks`: together they are the start of the list;
* `ceil_reaches`, `ceil_needed`: `ceil n` chunks hold a list, and no fewer do.
-/

namespace Chunks
variable {α : Type}

def chunk (n : Nat) (l : List α) (k : Nat) : List α := (l.drop (n * k)).take n

def chunks (n : Nat) (l : List α) (m : Nat) : List (List α) := (List.range m).map (chunk n l)

/-- The number of chunks that hold `len` elements. -/
def ceil (n len : Nat) : Nat := (len + (n - 1)) / n

@[simp] theorem chunks_zero (n : Nat) (l : List α) : chunks n l 0 = [] := rfl

theorem chunks_succ (n : Nat) (l : List α) (m : Nat) :
    chunks n l (m + 1) = chunks n l m ++ [chunk n l m] := by
  rw [chunks, List.range_succ, List.map_append, List.map_singleton]
  rfl

@[simp] theorem length_chunks (n : Nat) (l : List α) (m : Nat) : (chunks n l m).length = m := by
  rw [chunks, List.length_map, List.length_range]

theorem length_chunk {n : Nat} {l : List α} {k : Nat} (complete : n * (k + 1) ≤ l.length) :
    (chunk n l k).length = n := by
  rw [Nat.mul_succ] at complete
  rw [chunk, List.length_take, List.length_drop]
  omega

/-- The chunk that a list ends in is the rest of it. -/
theorem chunk_last {n : Nat} {l : List α} {k : Nat} (reached : l.length ≤ n * (k + 1)) :
    chunk n l k = l.drop (n * k) := by
  rw [Nat.mul_succ] at reached
  apply List.take_of_length_le
  rw [List.length_drop]
  omega

theorem chunk_append {n : Nat} {l : List α} (t : List α) {k : Nat}
    (complete : n * (k + 1) ≤ l.length) : chunk n (l ++ t) k = chunk n l k := by
  rw [Nat.mul_succ] at complete
  rw [chunk, List.drop_append_of_le_length (by omega), List.take_append_of_le_length]
  · rfl
  · rw [List.length_drop]
    omega

theorem flatten_chunks (n : Nat) (l : List α) (m : Nat) :
    (chunks n l m).flatten = l.take (n * m) := by
  induction m with
  | zero => rw [chunks_zero, Nat.mul_zero, List.take_zero, List.flatten_nil]
  | succ m ih =>
    rw [chunks_succ, List.flatten_append, ih, List.flatten_singleton, Nat.mul_succ, chunk,
      ← List.take_add]

section
variable {n : Nat} (positive : 0 < n)
include positive

theorem ceil_zero : ceil n 0 = 0 := by
  apply Nat.div_eq_of_lt
  omega

theorem ceil_reaches (len : Nat) : len ≤ n * ceil n len := by
  have whole := Nat.div_add_mod (len + (n - 1)) n
  have rest := Nat.mod_lt (len + (n - 1)) positive
  unfold ceil
  omega

theorem ceil_needed {len k : Nat} (h : k < ceil n len) : n * k < len := by
  have whole := Nat.div_mul_le_self (len + (n - 1)) n
  have below : (k + 1) * n ≤ ceil n len * n := Nat.mul_le_mul_right n h
  rw [Nat.succ_mul] at below
  unfold ceil at below
  rw [Nat.mul_comm]
  omega

end
end Chunks
