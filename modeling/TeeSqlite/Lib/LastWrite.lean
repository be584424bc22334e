import Mathlib.Data.List.Induction
import Mathlib.Data.List.Nodup
import Mathlib.Data.List.Count

/-!
# The last write wins

`fill lost rs` is the table that the pairs `rs` make, a later pair of a key in the place
of an earlier one. The keys that are `lost` are those whose entries no insertion finds
again: each pair of theirs is one more entry.

* `mem_put`: what is in the table after one insertion;
* `count_fill`: the pairs of a lost key are all there;
* `fill_spec`: with no lost key twice, a key has its last value, and that once.
-/

namespace LastWrite
variable {K V : Type} [DecidableEq K] (lost : K → Prop) [DecidablePred lost]

def put (es : List (K × V)) (e : K × V) : List (K × V) :=
  if lost e.1 ∨ e.1 ∉ es.map Prod.fst then es ++ [e]
  else es.map fun old => if old.1 = e.1 then e else old

def fill (rs : List (K × V)) : List (K × V) := rs.foldl (put lost) []

theorem fill_concat (rs : List (K × V)) (e : K × V) :
    fill lost (rs ++ [e]) = put lost (fill lost rs) e := by
  rw [fill, List.foldl_append]
  rfl

theorem keys_put (es : List (K × V)) (e : K × V) :
    (put lost es e).map Prod.fst =
      if lost e.1 ∨ e.1 ∉ es.map Prod.fst then es.map Prod.fst ++ [e.1] else es.map Prod.fst := by
  unfold put
  split
  · exact List.map_append
  · rw [List.map_map]
    apply List.map_congr_left
    intro old _
    by_cases same : old.1 = e.1
    · rw [Function.comp_apply, if_pos same, same]
    · rw [Function.comp_apply, if_neg same]

theorem length_put_le (es : List (K × V)) (e : K × V) : (put lost es e).length ≤ es.length + 1 := by
  unfold put
  split
  · exact Nat.le_of_eq List.length_append
  · rw [List.length_map]
    exact Nat.le_succ _

/-- Every pair of a lost key stays. -/
theorem count_fill {k : K} (hk : lost k) (rs : List (K × V)) :
    ((fill lost rs).map Prod.fst).count k = (rs.map Prod.fst).count k := by
  induction rs using List.reverseRecOn with
  | nil => rfl
  | append_singleton rs e ih =>
    rw [fill_concat, keys_put, List.map_append, List.count_append, ← ih]
    split
    · exact List.count_append
    · rename_i old
      have other : e.1 ≠ k := fun same => old (.inl (same ▸ hk))
      rw [List.map_singleton, List.count_singleton, if_neg (by simpa using other), Nat.add_zero]

variable {lost}

theorem mem_put {es : List (K × V)} {e : K × V} (single : lost e.1 → e.1 ∉ es.map Prod.fst)
    (k : K) (v : V) : (k, v) ∈ put lost es e ↔ if k = e.1 then v = e.2 else (k, v) ∈ es := by
  unfold put
  by_cases new : lost e.1 ∨ e.1 ∉ es.map Prod.fst
  · have absent : e.1 ∉ es.map Prod.fst := new.elim single id
    rw [if_pos new, List.mem_append, List.mem_singleton]
    split
    · rename_i same
      subst same
      constructor
      · rintro (old | last)
        · exact absurd (List.mem_map_of_mem old) absent
        · rw [← last]
      · rintro rfl
        exact .inr rfl
    · rename_i other
      exact or_iff_left fun last => other (congrArg Prod.fst last)
  · obtain ⟨old, member, same⟩ := List.mem_map.mp (not_not.mp (not_or.mp new).2)
    rw [if_neg new, List.mem_map]
    split
    · rename_i key
      constructor
      · rintro ⟨x, -, made⟩
        split_ifs at made with own
        · rw [made]
        · exact absurd (congrArg Prod.fst made ▸ key) own
      · intro value
        exact ⟨old, member, by rw [if_pos same, key, value]⟩
    · rename_i other
      constructor
      · rintro ⟨x, inside, made⟩
        split_ifs at made with own
        · exact absurd (congrArg Prod.fst made).symm other
        · exact made ▸ inside
      · exact fun inside => ⟨_, inside, if_neg other⟩

/-- With no lost key twice, the table has each key once, with the last value of it. -/
theorem fill_spec {rs : List (K × V)} (once : ∀ k, lost k → (rs.map Prod.fst).count k ≤ 1) :
    ((fill lost rs).map Prod.fst).Nodup ∧
      ∀ k v, (k, v) ∈ fill lost rs ↔ rs.reverse.lookup k = some v := by
  induction rs using List.reverseRecOn with
  | nil => exact ⟨List.nodup_nil, fun k v => by simp [fill]⟩
  | append_singleton rs e ih =>
    have counts (k : K) : ((rs ++ [e]).map Prod.fst).count k =
        (rs.map Prod.fst).count k + if e.1 = k then 1 else 0 := by
      rw [List.map_append, List.count_append, List.map_singleton, List.count_singleton]
      simp only [beq_iff_eq]
    obtain ⟨distinct, entries⟩ := ih fun k hk => by
      have few := once k hk
      rw [counts] at few
      omega
    have single : lost e.1 → e.1 ∉ (fill lost rs).map Prod.fst := by
      intro hk
      have few := once e.1 hk
      rw [counts, if_pos rfl] at few
      rw [← List.count_eq_zero, count_fill lost hk]
      omega
    rw [fill_concat]
    constructor
    · rw [keys_put]
      split
      · rename_i new
        have absent := new.elim single id
        rw [List.nodup_append]
        refine ⟨distinct, List.nodup_singleton _, ?_⟩
        rintro k inside _ last rfl
        rw [List.mem_singleton.mp last] at inside
        exact absent inside
      · exact distinct
    · intro k v
      rw [mem_put single, List.reverse_append, List.reverse_singleton, List.singleton_append,
        List.lookup_cons]
      by_cases same : k = e.1
      · rw [if_pos same, beq_iff_eq.mpr same]
        exact eq_comm.trans Option.some_inj.symm
      · rw [if_neg same, beq_eq_false_iff_ne.mpr same]
        exact entries k v

end LastWrite
