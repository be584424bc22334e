import Mathlib.Logic.Function.Basic
import TeeSqlite.Lib.CTypes

/-!
# Memory by address

Every address has a byte. Copies run upwards from a pointer and wrap around at the
end; a string ends at the first zero byte.

* `store_bytes`: storing what is there changes nothing;
* `store_apply`: a copy of no more than the whole memory leaves its own bytes;
* `str_update`: a changed byte of a string shows at its place in any string that is
  then read.
-/

namespace AddressSpace
open ByteFile (Bytes)
open CTypes

abbrev Addr := BitVec 64

abbrev Memory := Addr → UInt8

namespace Memory
variable (m : Memory)

/-- The `n` bytes from `p` on. -/
def bytes (p : Addr) : Nat → Bytes
  | 0 => []
  | n + 1 => m p :: bytes (p + 1) n

/-- The memory with `data` copied to `p`. -/
def store (m : Memory) (p : Addr) : Bytes → Memory
  | [] => m
  | b :: rest => store (Function.update m p b) (p + 1) rest

@[simp] theorem length_bytes (p : Addr) (n : Nat) : (m.bytes p n).length = n := by
  induction n generalizing p with
  | zero => rfl
  | succ n ih => rw [bytes, List.length_cons, ih]

theorem getElem?_bytes (p : Addr) {n i : Nat} (h : i < n) :
    (m.bytes p n)[i]? = some (m (p + BitVec.ofNat 64 i)) := by
  induction n generalizing p i with
  | zero => omega
  | succ n ih =>
    cases i with
    | zero => rw [bytes, List.getElem?_cons_zero, BitVec.add_zero]
    | succ i =>
      rw [bytes, List.getElem?_cons_succ, ih (p + 1) (by omega)]
      congr 2
      bv_omega

theorem store_bytes (p : Addr) (n : Nat) : m.store p (m.bytes p n) = m := by
  induction n generalizing p with
  | zero => rfl
  | succ n ih => rw [bytes, store, Function.update_eq_self, ih]

/-- An address that a copy does not get to. -/
theorem store_of_le {p a : Addr} {data : Bytes} (h : data.length ≤ (a - p).toNat) :
    m.store p data a = m a := by
  induction data generalizing m p with
  | nil => rfl
  | cons b rest ih =>
    rw [List.length_cons] at h
    have other : a ≠ p := by
      rintro rfl
      rw [BitVec.sub_self] at h
      exact absurd h (by simp)
    rw [store, ih _ (by bv_omega), Function.update_of_ne other]

theorem store_apply {p a : Addr} {data : Bytes} (fits : data.length ≤ 2 ^ 64)
    (h : (a - p).toNat < data.length) : some (m.store p data a) = data[(a - p).toNat]? := by
  induction data generalizing m p with
  | nil => exact absurd h (Nat.not_lt_zero _)
  | cons b rest ih =>
    rw [List.length_cons] at h fits
    by_cases first : a = p
    · subst first
      have past : rest.length ≤ (a - (a + 1)).toNat := by bv_omega
      rw [store, store_of_le _ past, Function.update_self, BitVec.sub_self]
      rfl
    · have next : (a - p).toNat = (a - (p + 1)).toNat + 1 := by bv_omega
      rw [next] at h ⊢
      rw [store, List.getElem?_cons_succ]
      exact ih _ (by omega) (by omega)

/-- A string of which no more than `n` bytes are looked at. -/
def scan : Nat → Addr → Option CStr
  | 0, _ => none
  | n + 1, p => if h : m p = 0 then some .empty else (scan n (p + 1)).map (.cons (m p) h)

/-- The string that a pointer leads to; there is none without a zero byte. -/
def str (p : Addr) : Option CStr := m.scan (2 ^ 64) p

variable {m : Memory}

theorem scan_bytes {n : Nat} {p : Addr} {s : CStr} (h : m.scan n p = some s) :
    s.mem = m.bytes p s.mem.length ∧ s.mem.length ≤ n := by
  induction n generalizing p s with
  | zero => cases h
  | succ n ih =>
    rw [scan] at h
    split_ifs at h with zero
    · obtain rfl := Option.some.inj h
      refine ⟨?_, Nat.succ_le_succ (Nat.zero_le n)⟩
      change [0] = [m p]
      rw [zero]
    · obtain ⟨rest, found, rfl⟩ := Option.map_eq_some_iff.mp h
      obtain ⟨bytes, short⟩ := ih found
      constructor
      · change m p :: rest.mem = m p :: m.bytes (p + 1) rest.mem.length
        rw [← bytes]
      · exact Nat.succ_le_succ short

theorem scan_update {n : Nat} {p : Addr} {s s' : CStr} {i : Nat} {x : UInt8}
    (fits : n ≤ 2 ^ 64) (h : m.scan n p = some s) (inside : i < s.mem.length) (nonzero : x ≠ 0)
    (h' : Memory.scan (Function.update m (p + BitVec.ofNat 64 i) x) n p = some s') :
    s'.mem[i]? = some x := by
  induction n generalizing p s s' i with
  | zero => cases h
  | succ n ih =>
    have short := (scan_bytes h).2
    rw [scan] at h h'
    cases i with
    | zero =>
      rw [BitVec.add_zero, Function.update_self, dif_neg nonzero] at h'
      obtain ⟨rest, -, rfl⟩ := Option.map_eq_some_iff.mp h'
      rfl
    | succ i =>
      have other : p ≠ p + BitVec.ofNat 64 (i + 1) := by bv_omega
      have next : p + BitVec.ofNat 64 (i + 1) = p + 1 + BitVec.ofNat 64 i := by bv_omega
      rw [Function.update_of_ne other] at h'
      split_ifs at h h' with zero
      · obtain rfl := Option.some.inj h
        exact absurd inside (by change ¬ i + 1 < 1; omega)
      · obtain ⟨rest, found, rfl⟩ := Option.map_eq_some_iff.mp h
        obtain ⟨rest', found', rfl⟩ := Option.map_eq_some_iff.mp h'
        rw [next] at found'
        have inside' : i + 1 < rest.mem.length + 1 := inside
        have tail := ih (i := i) (by omega) found (by omega) found'
        exact tail

theorem str_bytes {p : Addr} {s : CStr} (h : m.str p = some s) :
    s.mem = m.bytes p s.mem.length ∧ s.mem.length ≤ 2 ^ 64 := scan_bytes h

/-- A byte of a string that is not zero any more, or has another value, is the same byte
of what is then read. -/
theorem str_update {p a : Addr} {s s' : CStr} {x : UInt8} (h : m.str p = some s)
    (inside : (a - p).toNat < s.mem.length) (nonzero : x ≠ 0)
    (h' : Memory.str (Function.update m a x) p = some s') : s'.mem[(a - p).toNat]? = some x := by
  apply scan_update (Nat.le_refl _) h inside nonzero
  have back : p + (a - p) = a := by bv_omega
  rw [BitVec.ofNat_toNat, BitVec.setWidth_eq, back]
  exact h'

end Memory
end AddressSpace
