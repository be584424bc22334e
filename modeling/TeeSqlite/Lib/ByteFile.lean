import Mathlib.Data.List.Basic

/-!
# Files as byte lists

A file is the list of its bytes. `write` overlays a piece at an offset, filling
a gap past the end with zeros, and `read` takes what is there. The laws are those
a write buffer needs:

* `getElem?_write`: a write is known by the bytes it leaves;
* `read_write`, `read_write_apart`: what a read finds after a write;
* `write_append`: two writes, the second starting where the first ended, are one;
* `splice`: the copy into a fixed block, and the prefix it leaves;
* `writeEach_bytesAt`: a write is its bytes written one by one.
-/

namespace ByteFile

abbrev Bytes := List UInt8

def write (f : Bytes) (off : Nat) (d : Bytes) : Bytes :=
  if d = [] then f
  else f.take off ++ (List.replicate (off - f.length) 0 ++ (d ++ f.drop (off + d.length)))

def read (f : Bytes) (off n : Nat) : Bytes := (f.drop off).take n

@[simp] theorem write_nil (f : Bytes) (off : Nat) : write f off [] = f := rfl

theorem length_write (f : Bytes) (off : Nat) {d : Bytes} (hd : d ≠ []) :
    (write f off d).length = max f.length (off + d.length) := by
  simp only [write, hd, ↓reduceIte, List.length_append, List.length_take, List.length_replicate,
    List.length_drop]
  omega

/-- The bytes a write leaves: its own in its range, zeros in the gap before it,
and what was there everywhere else. -/
theorem getElem?_write (f : Bytes) (off : Nat) {d : Bytes} (hd : d ≠ []) (j : Nat) :
    (write f off d)[j]? =
      if j < off then (if j < f.length then f[j]? else some 0)
      else if j < off + d.length then d[j - off]? else f[j]? := by
  simp only [write, hd, ↓reduceIte, List.getElem?_append, List.length_take, List.length_replicate,
    List.getElem?_take, List.getElem?_replicate, List.getElem?_drop]
  grind

theorem write_append (f : Bytes) (off : Nat) (a b : Bytes) :
    write (write f off a) (off + a.length) b = write f off (a ++ b) := by
  by_cases ha : a = []
  · simp [ha]
  by_cases hb : b = []
  · simp [hb]
  have hab : a ++ b ≠ [] := by simp [ha]
  apply List.ext_getElem?
  intro j
  rw [getElem?_write _ _ hb, getElem?_write _ _ hab, getElem?_write _ _ ha, length_write _ _ ha,
    List.length_append, List.getElem?_append]
  grind

/-- A write at the end appends. -/
theorem write_end (f d : Bytes) : write f f.length d = f ++ d := by
  by_cases hd : d = []
  · rw [hd, write_nil, List.append_nil]
  · rw [write, if_neg hd, List.take_length, Nat.sub_self, List.replicate_zero, List.nil_append,
      List.drop_eq_nil_of_le (Nat.le_add_right _ _), List.append_nil]

/-- A read of the middle of three pieces. -/
theorem read_middle (x y z : Bytes) {off n : Nat} (hx : x.length = off) (hy : y.length = n) :
    read (x ++ (y ++ z)) off n = y := by
  rw [read, List.drop_left' hx, List.take_left' hy]

/-- What was written is read back. -/
theorem read_write (f : Bytes) (off : Nat) (d : Bytes) :
    read (write f off d) off d.length = d := by
  by_cases hd : d = []
  · rw [hd, read, List.length_nil, List.take_zero]
  apply List.ext_getElem?
  intro j
  rw [read, List.getElem?_take, List.getElem?_drop, getElem?_write f off hd]
  by_cases inside : j < d.length
  · rw [if_pos inside, if_neg (by omega), if_pos (by omega), Nat.add_sub_cancel_left]
  · rw [if_neg inside, List.getElem?_eq_none (Nat.not_lt.mp inside)]

/-- A write leaves the bytes of the file outside its range alone. -/
theorem read_write_apart {f : Bytes} {off off' n : Nat} {d : Bytes} (there : off' + n ≤ f.length)
    (apart : off' + n ≤ off ∨ off + d.length ≤ off') :
    read (write f off d) off' n = read f off' n := by
  by_cases hd : d = []
  · rw [hd, write_nil]
  apply List.ext_getElem?
  intro j
  rw [read, read, List.getElem?_take, List.getElem?_take, List.getElem?_drop, List.getElem?_drop,
    getElem?_write f off hd]
  by_cases inside : j < n
  · rw [if_pos inside, if_pos inside]
    rcases apart with before | behind
    · rw [if_pos (by omega), if_pos (by omega)]
    · rw [if_neg (by omega), if_neg (by omega)]
  · rw [if_neg inside, if_neg inside]

/-- `d` copied into the block `b` at `at_`, nothing else moved. -/
def splice (b : Bytes) (at_ : Nat) (d : Bytes) : Bytes :=
  b.take at_ ++ (d ++ b.drop (at_ + d.length))

@[simp] theorem length_splice (b : Bytes) (at_ : Nat) (d : Bytes)
    (h : at_ + d.length ≤ b.length) : (splice b at_ d).length = b.length := by
  simp only [splice, List.length_append, List.length_take, List.length_drop]
  omega

/-- The bytes of a block after a copy into it: those copied in their range, and what
was there everywhere else. -/
theorem getElem?_splice (b : Bytes) (at_ : Nat) (d : Bytes) (h : at_ + d.length ≤ b.length)
    (j : Nat) : (splice b at_ d)[j]? =
      if at_ ≤ j ∧ j < at_ + d.length then d[j - at_]? else b[j]? := by
  have ha : (b.take at_).length = at_ := by simp only [List.length_take]; omega
  rw [splice, List.getElem?_append, ha, List.getElem?_append, List.getElem?_drop]
  by_cases before : j < at_
  · rw [if_pos before, if_neg (by omega), List.getElem?_take_of_lt before]
  · by_cases inside : j < at_ + d.length
    · rw [if_neg before, if_pos (by omega), if_pos (by omega)]
    · rw [if_neg before, if_neg (by omega), if_neg (by omega)]
      congr 1
      omega

/-- A copy leaves what is past its end alone. -/
theorem drop_splice_past (b : Bytes) (at_ : Nat) (d : Bytes) (h : at_ + d.length ≤ b.length)
    {n : Nat} (past : at_ + d.length ≤ n) : (splice b at_ d).drop n = b.drop n := by
  apply List.ext_getElem?
  intro j
  rw [List.getElem?_drop, List.getElem?_drop, getElem?_splice b at_ d h, if_neg (by omega)]

/-- What a block holds up to the end of a copy: what it held before, then the copy. -/
theorem take_splice (b : Bytes) (at_ : Nat) (d : Bytes) (h : at_ + d.length ≤ b.length) :
    (splice b at_ d).take (at_ + d.length) = b.take at_ ++ d := by
  have ha : (b.take at_).length = at_ := by simp only [List.length_take]; omega
  rw [splice, ← List.append_assoc]
  exact List.take_left' (by simp [ha])

@[simp] theorem splice_zero (b d : Bytes) (h : d.length = b.length) : splice b 0 d = d := by
  simp [splice, h]

/-- A copy to the start of a block. -/
theorem splice_start (b d : Bytes) : splice b 0 d = d ++ b.drop d.length := by
  rw [splice, List.take_zero, List.nil_append, Nat.zero_add]

/-- What was copied to the start of a block is there when the block is copied on. -/
theorem prefix_splice_take (b : Bytes) {d : Bytes} {n : Nat} (fits : d.length ≤ n) :
    d <+: (splice b 0 d).take n := by
  rw [splice_start, List.take_append, List.take_of_length_le fits]
  exact List.prefix_append _ _

theorem prefix_splice (b : Bytes) {d e : Bytes} (h : d <+: e) : d <+: splice b 0 e := by
  rw [splice_start]
  exact h.trans (List.prefix_append _ _)

/-- A copy over all that is past a point. -/
theorem drop_splice (b : Bytes) {at_ : Nat} {d : Bytes} (h : d.length = (b.drop at_).length) :
    (splice b at_ d).drop at_ = d := by
  rw [List.length_drop] at h
  have none_left : b.drop (at_ + d.length) = [] := List.drop_eq_nil_of_le (by omega)
  rw [splice, none_left, List.append_nil]
  rcases Nat.le_total at_ b.length with inside | past
  · exact List.drop_left' (by rw [List.length_take, Nat.min_eq_left inside])
  · obtain rfl : d = [] := List.length_eq_zero_iff.mp (by omega)
    rw [List.append_nil]
    exact List.drop_eq_nil_of_le (List.length_take_le at_ b)

/-- A copy over the middle of three pieces. -/
theorem splice_middle (x y z : Bytes) {d : Bytes} (h : d.length = y.length) {at_ : Nat}
    (hx : x.length = at_) : splice (x ++ (y ++ z)) at_ d = x ++ (d ++ z) := by
  subst hx
  rw [splice, List.take_left, h]
  congr 2
  rw [← List.append_assoc, ← List.length_append, List.drop_left]

/-- A copy over the first of two pieces. -/
theorem splice_first (y z : Bytes) {d : Bytes} (h : d.length = y.length) :
    splice (y ++ z) 0 d = d ++ z :=
  splice_middle [] y z h rfl

/-- A copy over the first `n` bytes leaves the rest alone. -/
theorem drop_splice_take (data : Bytes) {dst : Bytes} {n : Nat}
    (len : dst.length = (data.take n).length) : (splice data 0 dst).drop n = data.drop n := by
  have laid : splice data 0 dst = dst ++ data.drop n := by
    have whole := splice_first (data.take n) (data.drop n) len
    rwa [List.take_append_drop] at whole
  rw [List.length_take] at len
  rcases Nat.le_total n data.length with long | short
  · rw [laid, List.drop_left' (len.trans (Nat.min_eq_left long))]
  · rw [laid, List.drop_eq_nil_of_le short, List.append_nil]
    apply List.drop_eq_nil_of_le
    omega

/-- The bytes of a write, each with its place. -/
def bytesAt : Nat → Bytes → List (Nat × UInt8)
  | _, [] => []
  | off, b :: d => (off, b) :: bytesAt (off + 1) d

def writeEach (f : Bytes) (bs : List (Nat × UInt8)) : Bytes :=
  bs.foldl (fun f b => write f b.1 [b.2]) f

@[simp] theorem bytesAt_nil (off : Nat) : bytesAt off [] = [] := rfl

theorem bytesAt_append (off : Nat) (a b : Bytes) :
    bytesAt off (a ++ b) = bytesAt off a ++ bytesAt (off + a.length) b := by
  induction a generalizing off with
  | nil => rfl
  | cons x a ih =>
    simp only [List.cons_append, bytesAt, List.length_cons]
    rw [ih, Nat.add_right_comm, Nat.add_assoc]

theorem writeEach_append (f : Bytes) (bs cs : List (Nat × UInt8)) :
    writeEach f (bs ++ cs) = writeEach (writeEach f bs) cs := List.foldl_append

/-- A write is its bytes written one by one. -/
theorem writeEach_bytesAt (f : Bytes) (off : Nat) (d : Bytes) :
    writeEach f (bytesAt off d) = write f off d := by
  induction d generalizing f off with
  | nil => rfl
  | cons b d ih => exact (ih (write f off [b]) (off + 1)).trans (write_append f off [b] d)

end ByteFile
