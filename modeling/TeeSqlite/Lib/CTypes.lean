import Mathlib.Algebra.Group.Int.Defs
import Mathlib.Algebra.Group.Nat.Defs
import Mathlib.Data.List.TakeWhile
import TeeSqlite.Lib.ByteFile

/-!
# C values

Integers of a fixed width are bit vectors; a widening assignment from a signed
type sign-extends and a narrowing one keeps the low bits. In memory the low byte
comes first. A C string is a byte list that cannot hold its own terminator.
-/

namespace CTypes
open ByteFile (Bytes)

/-- `(uint64_t)x` for an `int x`. -/
abbrev sext (x : BitVec 32) : BitVec 64 := x.signExtend 64

/-- `(uint64_t)x` for an `unsigned int x`. -/
abbrev zext (x : BitVec 32) : BitVec 64 := x.setWidth 64

/-- `(int)x` or `(unsigned int)x` for a 64-bit `x`. -/
abbrev low (x : BitVec 64) : BitVec 32 := x.setWidth 32

/-- An `int` survives the passage through a 64-bit slot. -/
@[simp] theorem low_sext (x : BitVec 32) : low (sext x) = x := by
  apply BitVec.eq_of_getLsbD_eq
  intro i hi
  simp only [BitVec.getLsbD_setWidth, BitVec.getLsbD_signExtend]
  grind

/-- So does an `unsigned int`. -/
@[simp] theorem low_zext (x : BitVec 32) : low (zext x) = x := by
  apply BitVec.eq_of_getLsbD_eq
  intro i hi
  simp only [BitVec.getLsbD_setWidth]
  grind

/-- The value an `int` gets from a wider integer. -/
def toInt32 (x : Int) : Int := (BitVec.ofInt 32 x).toInt

/-- The `n` bytes of an integer in memory, the low one first. -/
def leBytes : Nat → Nat → Bytes
  | 0, _ => []
  | n + 1, x => UInt8.ofNat x :: leBytes n (x / 256)

/-- The integer that bytes in memory stand for. -/
def ofLe : Bytes → Nat
  | [] => 0
  | b :: bs => b.toNat + 256 * ofLe bs

@[simp] theorem length_leBytes (n x : Nat) : (leBytes n x).length = n := by
  induction n generalizing x with
  | zero => rfl
  | succ n ih => rw [leBytes, List.length_cons, ih]

theorem ofLe_leBytes {n x : Nat} (h : x < 256 ^ n) : ofLe (leBytes n x) = x := by
  induction n generalizing x with
  | zero =>
    rw [Nat.pow_zero, Nat.lt_one_iff] at h
    rw [h]
    rfl
  | succ n ih =>
    have high : x / 256 < 256 ^ n := by
      apply Nat.div_lt_of_lt_mul
      rw [← Nat.pow_succ']
      exact h
    have lowByte : (UInt8.ofNat x).toNat = x % 256 := rfl
    rw [leBytes, ofLe, ih high, lowByte]
    exact Nat.mod_add_div x 256

theorem leBytes_mod (n x : Nat) : leBytes n (x % 256 ^ n) = leBytes n x := by
  induction n generalizing x with
  | zero => rfl
  | succ n ih =>
    have high : x % 256 ^ (n + 1) / 256 = x / 256 % 256 ^ n := by
      rw [Nat.pow_succ', Nat.mod_mul_right_div_self]
    have lowByte : UInt8.ofNat (x % 256 ^ (n + 1)) = UInt8.ofNat x := by
      apply UInt8.toNat_inj.mp
      exact Nat.mod_mod_of_dvd x ⟨256 ^ n, Nat.pow_succ'⟩
    rw [leBytes, leBytes, high, ih, lowByte]

/-- The bytes of an `int`. -/
def intBytes (x : BitVec 32) : Bytes := leBytes 4 x.toNat

def ofIntBytes (b : Bytes) : BitVec 32 := BitVec.ofNat 32 (ofLe b)

@[simp] theorem length_intBytes (x : BitVec 32) : (intBytes x).length = 4 := length_leBytes _ _

@[simp] theorem ofIntBytes_intBytes (x : BitVec 32) : ofIntBytes (intBytes x) = x := by
  rw [ofIntBytes, intBytes, ofLe_leBytes x.isLt]
  exact BitVec.eq_of_toNat_eq (Nat.mod_eq_of_lt x.isLt)

theorem leBytes_ofLe (b : Bytes) : leBytes b.length (ofLe b) = b := by
  induction b with
  | nil => rfl
  | cons x rest ih =>
    have small : x.toNat < 256 := x.toNat_lt
    have lowByte : UInt8.ofNat (x.toNat + 256 * ofLe rest) = x := by
      apply UInt8.toNat_inj.mp
      rw [UInt8.toNat_ofNat']
      omega
    have high : (x.toNat + 256 * ofLe rest) / 256 = ofLe rest := by omega
    rw [List.length_cons, ofLe, leBytes, lowByte, high, ih]

theorem intBytes_ofIntBytes {b : Bytes} (h : b.length = 4) : intBytes (ofIntBytes b) = b := by
  rw [intBytes, ofIntBytes, BitVec.toNat_ofNat, show 2 ^ 32 = 256 ^ 4 by decide, leBytes_mod, ← h,
    leBytes_ofLe]

/-- A C string without its terminator. -/
structure CStr where
  bytes : Bytes
  noNul : 0 ∉ bytes
  deriving DecidableEq

namespace CStr

/-- The string as it lies in memory, terminator included. -/
def mem (s : CStr) : Bytes := s.bytes ++ [0]

@[simp] theorem length_mem (s : CStr) : s.mem.length = s.bytes.length + 1 := by simp [mem]

def empty : CStr := ⟨[], List.not_mem_nil⟩

def cons (b : UInt8) (h : b ≠ 0) (s : CStr) : CStr :=
  ⟨b :: s.bytes, List.not_mem_cons_of_ne_of_not_mem h.symm s.noNul⟩

/-- The string at the start of a block that is known to hold a terminator. -/
def ofBytes (m : Bytes) : CStr :=
  ⟨m.takeWhile (· ≠ 0), fun hm => by simpa using List.mem_takeWhile_imp hm⟩

/-- The first `n` bytes of a string. -/
def take (s : CStr) (n : Nat) : CStr := ⟨s.bytes.take n, fun h => s.noNul (List.mem_of_mem_take h)⟩

@[simp] theorem bytes_take (s : CStr) (n : Nat) : (s.take n).bytes = s.bytes.take n := rfl

theorem ext {s t : CStr} (same : s.bytes = t.bytes) : s = t := by
  cases s
  cases t
  rw [mk.injEq]
  exact same

theorem bytes_ofBytes {m : Bytes} (noNul : 0 ∉ m) : (ofBytes m).bytes = m := by
  apply List.takeWhile_eq_self_iff.mpr
  intro b mem
  exact decide_eq_true fun nul => noNul (nul ▸ mem)

theorem ofBytes_mem_append (s : CStr) (rest : Bytes) : ofBytes (s.mem ++ rest) = s := by
  have prefixOk : ∀ x ∈ s.bytes, decide (x ≠ 0) = true := by
    intro x hx
    simp only [decide_eq_true_eq]
    rintro rfl
    exact s.noNul hx
  cases s with
  | mk bytes noNul =>
    simp only [ofBytes, mem, List.append_assoc, CStr.mk.injEq]
    rw [List.takeWhile_append_of_pos prefixOk]
    simp

end CStr

/-- The string that starts a block of memory, when a terminator lies in it. -/
def strAt (m : Bytes) : Option CStr := if 0 ∈ m then some (.ofBytes m) else none

theorem strAt_mem_append (s : CStr) (rest : Bytes) : strAt (s.mem ++ rest) = some s := by
  have member : (0 : UInt8) ∈ s.mem ++ rest := by simp [CStr.mem]
  rw [strAt, if_pos member, CStr.ofBytes_mem_append]

end CTypes
