import TeeSqlite.Vfs.Overlay

/-! What a successful sync says about the writes before it when the calls under
it may fail. A flush empties the buffer whether or not it was written, so the bytes
of earlier calls survive only where the flush that carries them delivers them. -/
namespace TeeSqlite
open ByteFile CTypes Runs

/-- The byte a call asks to be stored at an offset. -/
def FileOp.byte : FileOp → Nat → Option UInt8
  | .demoWrite zBuf iOfst, o => if iOfst ≤ o then zBuf[o - iOfst]? else none
  | _, _ => none

/-- The byte that the file owes at an offset: the one of the latest write there,
unless that write was refused. -/
def promised : List (FileOp × Answer) → Nat → Option UInt8
  | [], _ => none
  | (op, a) :: h, o =>
    match op.byte o with
    | some b => if a.rc = .SQLITE_OK then some b else none
    | none => promised h o

/-- After a sync that succeeds the file holds every promised byte. -/
def SyncDurable (h : List (FileOp × Answer)) (s : OpenFile) : Prop :=
  ∀ a, h.head? = some (.demoSync, a) → a.rc = .SQLITE_OK →
    ∀ o b, promised h o = some b → s.1.bytes[o]? = some b

/-- The size of the first flush of a call that carries bytes of earlier calls. -/
def DemoFile.firstFlush (p : DemoFile) : FileOp → Option Nat
  | .demoWrite zBuf iOfst =>
    if p.nBuffer = 0 ∨ zBuf = [] then none
    else if p.blocked iOfst then some p.nBuffer.toNat
    else if p.room < zBuf.length then some SQLITE_TEEVFS_BUFFERSZ
    else none
  | _ => if p.nBuffer = 0 then none else some p.nBuffer.toNat

/-- The first flush of a call gets the bytes of earlier calls to the file. -/
def Delivers (s : OpenFile) (op : FileOp) : Prop :=
  ∀ m ∈ s.2.firstFlush op,
    s.1.nextSeek = true ∧ s.2.nBuffer ≤ s.1.nextWrite.count m

/-- What a read at an offset would find: the pending byte, or else the file's. -/
def byteAt (s : OpenFile) (o : Nat) : Option UInt8 :=
  if s.2.iBufferOfst ≤ o ∧ o < s.2.iBufferOfst + s.2.nBuffer then
    s.2.pending[o - s.2.iBufferOfst.toNat]?
  else s.1.bytes[o]?

theorem byteAt_drained (d : Disk) (p : DemoFile) (o : Nat) :
    byteAt (d, p.drained) o = d.bytes[o]? := by
  rw [byteAt, if_neg]
  simp only [DemoFile.drained]
  omega

/-- Accepting bytes puts them at their offsets and hides nothing else. -/
theorem Buffered.byteAt_accept {p : DemoFile} (h : Buffered p) (d : Disk) (z : Bytes) {i : Int}
    (hready : p.nBuffer = 0 ∨ p.iBufferOfst + p.nBuffer = i) (hi : p.nBuffer ≤ i) (o : Nat) :
    byteAt (d, p.accept z i) o =
      if i ≤ o ∧ o < i + (z.take p.room).length then (z.take p.room)[o - i.toNat]?
      else byteAt (d, p) o := by
  have hlen := h.length_pending
  have hpos := h.nonneg
  have hplace := h.place
  have hn : (p.accept z i).nBuffer = p.nBuffer + (z.take p.room).length := rfl
  have hofst : (p.accept z i).iBufferOfst = i - p.nBuffer := rfl
  simp only [byteAt, h.accept_pending, hn, hofst]
  generalize z.take p.room = y
  by_cases new : i ≤ o ∧ o < i + y.length
  · rw [if_pos new, if_pos (by omega), List.getElem?_append_right (by omega)]
    congr 1
    omega
  · rw [if_neg new]
    by_cases old : i - p.nBuffer ≤ o ∧ (o : Int) < i
    · have same : i - p.nBuffer = p.iBufferOfst := by omega
      rw [if_pos (by omega), if_pos (by omega), List.getElem?_append_left (by omega), same]
    · rw [if_neg (by omega), if_neg (by omega)]

theorem Transfer.count_le (n : Nat) (t : Transfer) : t.count n ≤ n := by
  cases t with
  | full => exact Nat.le_refl n
  | short m => exact Nat.min_le_right m n
  | fail => exact Nat.zero_le n

/-- A transfer reports the whole amount only when it moved it. -/
theorem Transfer.ret_full {n : Nat} {t : Transfer} (h : t.ret n = n) : t.count n = n := by
  cases t with
  | full => rfl
  | short m => exact Int.ofNat.inj h
  | fail =>
    simp only [Transfer.ret] at h
    omega

theorem directWrite_seek (d : Disk) (p : DemoFile) (zBuf : Bytes) (iAmt : Int) {iOfst : Int}
    (seek : d.nextSeek = true) (hofst : 0 ≤ iOfst) :
    (demoDirectWrite Disk.calls d p zBuf iAmt iOfst).1.bytes =
      ByteFile.write d.bytes iOfst.toNat
        ((zBuf.take iAmt.toNat).take (d.nextWrite.count (zBuf.take iAmt.toNat).length)) ∧
    ((demoDirectWrite Disk.calls d p zBuf iAmt iOfst).2 = .SQLITE_OK →
      d.nextWrite.ret (zBuf.take iAmt.toNat).length = iAmt) := by
  unfold demoDirectWrite
  generalize zBuf.take iAmt.toNat = data
  have same : ({ d with pos := iOfst.toNat, seeks := d.seeks.tail } : Disk).nextWrite =
      d.nextWrite := rfl
  simp only [Disk.calls, Disk.lseek, seek, hofst, and_self, ↓reduceIte, ne_eq, not_true_eq_false,
    Disk.write, same]
  split_ifs with whole
  · exact ⟨rfl, fun _ => whole⟩
  · constructor
    · rfl
    · intro refused
      cases refused

theorem directWrite_no_seek (d : Disk) (p : DemoFile) (zBuf : Bytes) (iAmt : Int) {iOfst : Int}
    (seek : ¬ d.nextSeek = true) (hofst : 0 ≤ iOfst) :
    (demoDirectWrite Disk.calls d p zBuf iAmt iOfst).1.bytes = d.bytes ∧
    (demoDirectWrite Disk.calls d p zBuf iAmt iOfst).2 = .SQLITE_IOERR_WRITE := by
  have refused : (-1 : Int) ≠ iOfst := by omega
  simp only [demoDirectWrite, Disk.calls, Disk.lseek, seek, refused, ne_eq, not_false_eq_true,
    ↓reduceIte, Bool.false_eq_true, false_and, and_self]

/-- A flush leaves a first part of the pending bytes in the file: all of them when
it succeeds, and as many as the write moved once the seek was made. -/
theorem flush_bytes (d : Disk) {p : DemoFile} (h : Buffered p) :
    ∃ k, k ≤ p.nBuffer.toNat ∧
      (demoFlushBuffer Disk.calls d p).1.bytes =
        ByteFile.write d.bytes p.iBufferOfst.toNat (p.pending.take k) ∧
      ((demoFlushBuffer Disk.calls d p).2.2 = .SQLITE_OK → k = p.nBuffer.toNat) ∧
      (d.nextSeek = true → d.nextWrite.count p.nBuffer.toNat ≤ k) := by
  have hlen := h.length_pending
  have hpos := h.nonneg
  by_cases h0 : p.nBuffer = 0
  · refine ⟨0, Nat.zero_le _, ?_, ?_, ?_⟩
    · rw [flush_idle _ _ h0, List.take_zero, write_nil]
    · intro _
      omega
    · intro _
      have := Transfer.count_le p.nBuffer.toNat d.nextWrite
      omega
  · have hn : p.pending.length = p.nBuffer.toNat := by omega
    rw [demoFlushBuffer, if_pos h0]
    by_cases seek : d.nextSeek = true
    · obtain ⟨hbytes, hrc⟩ := directWrite_seek d p (p.aBuffer.getD []) p.nBuffer seek h.place
      rw [← DemoFile.pending, hn] at hbytes hrc
      refine ⟨d.nextWrite.count p.nBuffer.toNat, Transfer.count_le _ _, hbytes, ?_, ?_⟩
      · intro ok
        have := hrc ok
        exact Transfer.ret_full (by omega)
      · intro _
        exact Nat.le_refl _
    · obtain ⟨hbytes, hrc⟩ := directWrite_no_seek d p (p.aBuffer.getD []) p.nBuffer seek h.place
      refine ⟨0, Nat.zero_le _, hbytes, ?_, ?_⟩
      · intro ok
        cases hrc.symm.trans ok
      · intro seek'
        exact absurd seek' seek

/-- A flush, whatever it comes to, loses no byte outside the pending ones, none at
all when it succeeds, and never the first `c` pending ones when it delivers these. -/
theorem flush_keeps {d : Disk} {p : DemoFile} (h : Buffered p) (c : Int)
    (delivers : c = 0 ∨ d.nextSeek = true ∧ c ≤ d.nextWrite.count p.nBuffer.toNat) {o : Nat}
    {b : UInt8} (hb : byteAt (d, p) o = some b)
    (ho : (demoFlushBuffer Disk.calls d p).2.2 = .SQLITE_OK ∨ o < p.iBufferOfst + c ∨
      p.iBufferOfst + p.nBuffer ≤ o) :
    (demoFlushBuffer Disk.calls d p).1.bytes[o]? = some b := by
  obtain ⟨k, hk, hbytes, hrc, hcount⟩ := flush_bytes d h
  have hlen := h.length_pending
  have hpos := h.nonneg
  have hplace := h.place
  have reached : c ≤ k := by
    rcases delivers with rfl | ⟨seek, hc⟩
    · omega
    · have := hcount seek
      omega
  have htake : (p.pending.take k).length = k := by rw [List.length_take]; omega
  rw [hbytes]
  by_cases own : p.iBufferOfst ≤ o ∧ o < p.iBufferOfst + p.nBuffer
  · rw [byteAt, if_pos own] at hb
    have inside : o - p.iBufferOfst.toNat < k := by
      rcases ho with ok | before | after
      · have := hrc ok
        omega
      · omega
      · omega
    have some_bytes : p.pending.take k ≠ [] := by
      intro nil
      rw [nil] at htake
      simp only [List.length_nil] at htake
      omega
    rw [getElem?_write _ _ some_bytes, if_neg (by omega), if_pos (by omega),
      List.getElem?_take_of_lt inside]
    exact hb
  · rw [byteAt, if_neg own] at hb
    dsimp only at hb
    obtain ⟨hlt, -⟩ := List.getElem?_eq_some_iff.mp hb
    by_cases nil : p.pending.take k = []
    · rw [nil, write_nil]
      exact hb
    · rw [getElem?_write _ _ nil]
      by_cases before : o < p.iBufferOfst.toNat
      · rw [if_pos before, if_pos hlt]
        exact hb
      · rw [if_neg before, if_neg (by omega)]
        exact hb

/-- In the loop of `demoWrite` started at `w`, with `z` left to go to `i`: of the
pending bytes the first `c` are of earlier calls and will reach the file. -/
structure Carries (s : OpenFile) (z : Bytes) (w i c : Int) : Prop where
  nonneg : 0 ≤ c
  le : c ≤ s.2.nBuffer
  own : c < s.2.nBuffer → w ≤ s.2.iBufferOfst + c ∧ s.2.iBufferOfst + s.2.nBuffer ≤ i
  delivers : c = 0 ∨ ∀ m ∈ s.2.firstFlush (.demoWrite z i.toNat),
    s.1.nextSeek = true ∧ c ≤ s.1.nextWrite.count m

theorem Carries.start {s : OpenFile} (hp : Buffered s.2) {z : Bytes} {iOfst : Nat}
    (h : Delivers s (.demoWrite z iOfst)) : Carries s z iOfst iOfst s.2.nBuffer where
  nonneg := hp.nonneg
  le := Int.le_refl _
  own := fun less => absurd less (Int.lt_irrefl _)
  delivers := .inr h

/-- The flush at the head of a pass loses only bytes of the call itself, and what
it leaves pending is carried as before. -/
theorem Carries.settle {d : Disk} {p : DemoFile} {z : Bytes} {w i c : Int}
    (h : Carries (d, p) z w i c) (hp : Buffered p) (hz : z ≠ []) (hi : 0 ≤ i) :
    (∀ (o : Nat) b, byteAt (d, p) o = some b →
      (settle Disk.calls d p i).2.2 = .SQLITE_OK ∨ o < w ∨ i + z.length ≤ o →
      byteAt ((settle Disk.calls d p i).1, (settle Disk.calls d p i).2.1) o = some b) ∧
    ∃ c', Carries ((settle Disk.calls d p i).1, (settle Disk.calls d p i).2.1) z w i c' := by
  unfold TeeSqlite.settle
  split
  · rename_i blocked
    have hpos := hp.nonneg
    rw [flush_handle]
    refine ⟨?_, 0, Int.le_refl 0, Int.le_refl 0,
      fun less => absurd less (Int.lt_irrefl _), .inl rfl⟩
    intro o b hb ho
    have delivered : c = 0 ∨ d.nextSeek = true ∧ c ≤ d.nextWrite.count p.nBuffer.toNat := by
      by_cases h0 : p.nBuffer = 0
      · have hle : c ≤ p.nBuffer := h.le
        have := h.nonneg
        exact .inl (by omega)
      · refine h.delivers.imp_right fun all => all _ ?_
        rw [DemoFile.firstFlush, if_neg (by simp [h0, hz]),
          if_pos (by rwa [Int.toNat_of_nonneg hi])]
        rfl
    have hle := h.le
    have hown := h.own
    rw [byteAt_drained]
    refine flush_keeps hp c delivered hb (ho.imp_right fun outside => ?_)
    dsimp only at hle hown
    omega
  · exact ⟨fun o b hb _ => hb, c, h⟩

/-- Whatever is accepted belongs to the call; a flush that is still to come will
be of a full buffer. -/
theorem Carries.accept {d : Disk} {p : DemoFile} {z : Bytes} {w i c : Int}
    (h : Carries (d, p) z w i c) (hp : Buffered p) (hroom : 0 < p.room)
    (hready : p.nBuffer = 0 ∨ p.iBufferOfst + p.nBuffer = i) (hw : 0 ≤ w) (hi : w ≤ i) :
    Carries (d, p.accept z i) (z.drop p.room) w (i + (z.take p.room).length) c := by
  obtain ⟨hc, hcn, hown, hdel⟩ := h
  have hadd := hp.room_add
  have hn : (p.accept z i).nBuffer = p.nBuffer + (z.take p.room).length := rfl
  have hofst : (p.accept z i).iBufferOfst = i - p.nBuffer := rfl
  have hlen : (z.take p.room).length = min p.room z.length := List.length_take
  dsimp only at hcn hown hdel
  refine ⟨hc, ?_, ?_, ?_⟩
  · dsimp only
    omega
  · dsimp only
    rw [hn, hofst]
    omega
  · rcases hdel with rfl | all
    · exact .inl rfl
    by_cases h0 : c = 0
    · exact .inl h0
    refine .inr fun m hm => all m ?_
    have used : p.nBuffer ≠ 0 := by omega
    have contiguous : p.iBufferOfst + p.nBuffer = i := hready.resolve_left used
    have open_ : ¬ p.blocked i.toNat := by
      rw [DemoFile.blocked, Int.toNat_of_nonneg (by omega)]
      omega
    by_cases fits : z.length ≤ p.room
    · have rest : z.drop p.room = [] := List.drop_eq_nil_of_le fits
      simp only [DemoFile.firstFlush, rest, or_true, ↓reduceIte] at hm
      cases hm
    · have some_bytes : z ≠ [] := by
        rintro rfl
        exact fits (Nat.zero_le _)
      have full : (p.accept z i).nBuffer = SQLITE_TEEVFS_BUFFERSZ := by omega
      rw [DemoFile.firstFlush, if_neg (by simp [used, some_bytes]), if_neg open_,
        if_pos (by omega)]
      dsimp only [DemoFile.firstFlush] at hm
      split_ifs at hm with empty blocked
      · cases hm
      · rw [full] at hm
        exact hm
      · exact absurd (Or.inl full) blocked
      · cases hm

/-- The loop of `demoWrite` started at `w`, for any results of the calls. Outside
what the call writes nothing is lost; if it succeeds, it stored what it was given. -/
theorem writeLoop_keeps {w : Int} (hw : 0 ≤ w) (fuel : Nat) :
    ∀ (d : Disk) (p : DemoFile) (z : Bytes) (i c : Int), Buffered p → w ≤ i →
      z.length ≤ fuel → Carries (d, p) z w i c →
      ∃ d' p' rc, demoWriteLoop Disk.calls fuel d p z z.length i = some (d', p', rc) ∧
        Buffered p' ∧
        (∀ (o : Nat) b, byteAt (d, p) o = some b →
          o < w ∨ i + z.length ≤ o ∨ (rc = .SQLITE_OK ∧ o < i) → byteAt (d', p') o = some b) ∧
        (rc = .SQLITE_OK → ∀ j < z.length, byteAt (d', p') (i.toNat + j) = z[j]?) := by
  induction fuel with
  | zero =>
    intro d p z i c hp _ hz _
    obtain rfl : z = [] := List.length_eq_zero_iff.mp (by omega)
    refine ⟨d, p, .SQLITE_OK, demoWriteLoop_nil _ 0 _ p i, hp, fun o b hb _ => hb, ?_⟩
    intro _ j hj
    exact absurd hj (Nat.not_lt_zero j)
  | succ fuel ih =>
    intro d p z i c hp hi hz carries
    by_cases hnil : z = []
    · subst hnil
      refine ⟨d, p, .SQLITE_OK, demoWriteLoop_nil _ _ _ p i, hp, fun o b hb _ => hb, ?_⟩
      intro _ j hj
      exact absurd hj (Nat.not_lt_zero j)
    have hi0 : 0 ≤ i := Int.le_trans hw hi
    obtain ⟨hb, hroom, hready, hle⟩ := settle_ready Disk.calls (s := d) hp hi0
    obtain ⟨settled, c', carries'⟩ := carries.settle hp hnil hi0
    rw [demoWriteLoop_pass _ _ _ hp hnil hi0]
    generalize settle Disk.calls d p i = r at hb hroom hready hle settled carries'
    obtain ⟨d₁, p₁, rc₁⟩ := r
    dsimp only at hb hroom hready hle settled carries' ⊢
    split
    · -- the flush failed, and the call ends with its code
      rename_i failed
      refine ⟨d₁, p₁, rc₁, rfl, hb, ?_, fun ok => absurd ok failed⟩
      intro o b hbyte ho
      refine settled o b hbyte (.inr ?_)
      rcases ho with before | after | ⟨ok, -⟩
      · exact .inl before
      · exact .inr after
      · exact absurd ok failed
    · rename_i ok
      have hlen : (z.take p₁.room).length = min p₁.room z.length := List.length_take
      have hdrop : (z.drop p₁.room).length = z.length - p₁.room := List.length_drop
      have hpos : 0 < z.length := List.length_pos_iff.mpr hnil
      obtain ⟨d', p', rc, looped, hp', kept, stored⟩ := ih d₁ (p₁.accept z i) (z.drop p₁.room)
        (i + (z.take p₁.room).length) c' (hb.accept z hle) (by omega) (by omega)
        (carries'.accept hb hroom hready hw hi)
      refine ⟨d', p', rc, looped, hp', ?_, ?_⟩
      · intro o b hbyte ho
        refine kept o b ?_ ?_
        · have outside : ¬ (i ≤ o ∧ o < i + (z.take p₁.room).length) := by omega
          rw [hb.byteAt_accept d₁ z hready hle, if_neg outside]
          exact settled o b hbyte (.inl (not_not.mp ok))
        · rcases ho with before | after | ⟨hrc, before⟩
          · exact .inl before
          · exact .inr (.inl (by omega))
          · exact .inr (.inr ⟨hrc, by omega⟩)
      · intro hrc j hj
        by_cases first : j < (z.take p₁.room).length
        · have hz : z[j]? = some z[j] := List.getElem?_eq_getElem hj
          rw [hz]
          refine kept _ _ ?_ (.inr (.inr ⟨hrc, by omega⟩))
          rw [hb.byteAt_accept d₁ z hready hle, if_pos (by omega), Nat.add_sub_cancel_left,
            List.getElem?_take_of_lt (by omega), hz]
        · have later := stored hrc (j - p₁.room) (by omega)
          rw [List.getElem?_drop] at later
          have hj' : p₁.room + (j - p₁.room) = j := by omega
          have hofst : (i + (z.take p₁.room).length).toNat + (j - p₁.room) = i.toNat + j := by omega
          rw [hj', hofst] at later
          exact later

section
variable (d : Disk) (p : DemoFile)

theorem read_file (zBuf : Bytes) (iAmt iOfst : Int) :
    (demoRead Disk.calls d p zBuf iAmt iOfst).1.bytes =
      (demoFlushBuffer Disk.calls d p).1.bytes := by
  unfold demoRead
  generalize demoFlushBuffer Disk.calls d p = r
  obtain ⟨d, p, rc⟩ := r
  have seek : (Disk.calls.utee_vfs_lseek d p.fd iOfst SEEK_SET).1.bytes = d.bytes := by
    simp only [Disk.calls, Disk.lseek]
    split <;> rfl
  dsimp only
  split_ifs
  · rfl
  all_goals exact seek

theorem sync_file :
    (demoSync Disk.calls d p).1.bytes = (demoFlushBuffer Disk.calls d p).1.bytes := by
  unfold demoSync
  generalize demoFlushBuffer Disk.calls d p = r
  obtain ⟨d, p, rc⟩ := r
  dsimp only
  split_ifs <;> rfl

theorem fileSize_file (pSize : Int) :
    (demoFileSize Disk.calls d p pSize).1.bytes = (demoFlushBuffer Disk.calls d p).1.bytes := by
  unfold demoFileSize
  generalize demoFlushBuffer Disk.calls d p = r
  obtain ⟨d, p, rc⟩ := r
  dsimp only
  split_ifs <;> rfl

end

theorem flushes_file {s s' : OpenFile} {op : FileOp} {a : Answer} (hop : op.flushes = true)
    (h : fileStep s op = some (s', a)) :
    s'.1.bytes = (demoFlushBuffer Disk.calls s.1 s.2).1.bytes := by
  obtain ⟨d, p⟩ := s
  cases op with
  | demoWrite => cases hop
  | demoRead z n o =>
    have file := read_file d p z n o
    simp only [fileStep] at h
    generalize demoRead Disk.calls d p z n o = r at h file
    cases h
    exact file
  | demoSync =>
    have file := sync_file d p
    simp only [fileStep] at h
    generalize demoSync Disk.calls d p = r at h file
    cases h
    exact file
  | demoFileSize m =>
    have file := fileSize_file d p m
    simp only [fileStep] at h
    generalize demoFileSize Disk.calls d p m = r at h file
    cases h
    exact file

/-- A call that delivers the bytes of earlier calls keeps every byte it does not
write itself, and if it succeeds it stored its own. -/
theorem delivers_step {s s' : OpenFile} {op : FileOp} {a : Answer} (hp : Buffered s.2)
    (delivers : Delivers s op) (h : fileStep s op = some (s', a)) :
    Buffered s'.2 ∧
    (∀ o b, byteAt s o = some b → op.byte o = none → byteAt s' o = some b) ∧
    (a.rc = .SQLITE_OK → ∀ o b, op.byte o = some b → byteAt s' o = some b) := by
  by_cases hop : op.flushes = true
  · have handle := flushes_drains hop h
    have file := flushes_file hop h
    have silent : ∀ o, op.byte o = none := by
      cases op with
      | demoWrite => cases hop
      | demoRead => exact fun _ => rfl
      | demoSync => exact fun _ => rfl
      | demoFileSize => exact fun _ => rfl
    have size : s.2.firstFlush op = if s.2.nBuffer = 0 then none else some s.2.nBuffer.toNat := by
      cases op with
      | demoWrite => cases hop
      | demoRead => rfl
      | demoSync => rfl
      | demoFileSize => rfl
    refine ⟨handle ▸ hp.drained, ?_, ?_⟩
    · intro o b hb _
      have delivered : s.2.nBuffer = 0 ∨ s.1.nextSeek = true ∧
          s.2.nBuffer ≤ s.1.nextWrite.count s.2.nBuffer.toNat := by
        by_cases h0 : s.2.nBuffer = 0
        · exact .inl h0
        · exact .inr (delivers _ (by rw [size, if_neg h0]; rfl))
      have shown : byteAt s' o = s'.1.bytes[o]? := by
        rw [← byteAt_drained s'.1 s.2 o, ← handle]
      rw [shown, file]
      exact flush_keeps hp _ delivered hb (.inr (by omega))
    · intro _ o b hb
      cases (silent o).symm.trans hb
  · cases op with
    | demoRead => exact absurd rfl hop
    | demoSync => exact absurd rfl hop
    | demoFileSize => exact absurd rfl hop
    | demoWrite z ofst =>
      obtain ⟨d, p⟩ := s
      obtain ⟨d', p', rc, looped, hp', kept, stored⟩ := writeLoop_keeps (Int.natCast_nonneg ofst)
        z.length d p z ofst _ hp (Int.le_refl _) (Nat.le_refl _) (.start hp delivers)
      obtain ⟨buf, hbuf, -⟩ := hp.block
      dsimp only at hbuf
      simp only [fileStep, demoWrite, hbuf, looped, Option.map_some, Option.some.injEq,
        Prod.mk.injEq] at h
      obtain ⟨rfl, rfl⟩ := h
      refine ⟨hp', ?_, ?_⟩
      · intro o b hb outside
        refine kept o b hb ?_
        simp only [FileOp.byte] at outside
        split_ifs at outside with after
        · have := List.getElem?_eq_none_iff.mp outside
          exact .inr (.inl (by omega))
        · exact .inl (by omega)
      · intro ok o b inside
        simp only [FileOp.byte] at inside
        split_ifs at inside with after
        obtain ⟨hlt, -⟩ := List.getElem?_eq_some_iff.mp inside
        have at_ := stored ok _ hlt
        rw [Int.toNat_natCast, Nat.add_sub_cancel' after, inside] at at_
        exact at_

/-- In a run whose calls all deliver the bytes of earlier ones, whatever else goes
wrong, every state reached holds the promised bytes, in the buffer or in the file. -/
theorem holds_promised {d : Disk} {fd : Int} {aBuffer : Block} {h : List (FileOp × Answer)}
    {s : OpenFile} (run : Run fileStep Delivers (d, .opened fd (some aBuffer)) h s) :
    Buffered s.2 ∧ ∀ o b, promised h o = some b → byteAt s o = some b := by
  refine run.invariant (fun h s => Buffered s.2 ∧ ∀ o b, promised h o = some b →
    byteAt s o = some b) ⟨opened_buffered fd aBuffer, fun o b none_yet => nomatch none_yet⟩ ?_
  intro h s op s' a ⟨hp, holds⟩ delivers answer
  obtain ⟨hp', kept, stored⟩ := delivers_step hp delivers answer
  refine ⟨hp', fun o b owed => ?_⟩
  rw [promised] at owed
  cases hbyte : op.byte o with
  | none =>
    rw [hbyte] at owed
    exact kept o b (holds o b owed) hbyte
  | some b' =>
    rw [hbyte] at owed
    dsimp only at owed
    split_ifs at owed with ok
    rw [← owed]
    exact stored ok o b' hbyte

/-- A write of a few bytes to an idle handle at the head of the file stays pending. -/
theorem write_pending (d : Disk) (fd : Int) (aBuffer : Block) (b : UInt8) {z : Bytes}
    (fits : (b :: z).length ≤ SQLITE_TEEVFS_BUFFERSZ) :
    fileStep (d, .opened fd (some aBuffer)) (.demoWrite (b :: z) 0) =
      some ((d, (DemoFile.opened fd (some aBuffer)).accept (b :: z) 0),
        ⟨.SQLITE_OK, b :: z, 0⟩) := by
  have idle : settle Disk.calls d (.opened fd (some aBuffer)) 0 =
      (d, .opened fd (some aBuffer), .SQLITE_OK) := rfl
  have pass := demoWriteLoop_pass Disk.calls z.length d (opened_buffered fd aBuffer)
    (List.cons_ne_nil b z) (Int.le_refl 0)
  have whole : (b :: z).drop (DemoFile.opened fd (some aBuffer)).room = [] :=
    List.drop_eq_nil_of_le fits
  simp only [idle, ne_eq, not_true_eq_false, ↓reduceIte, whole, List.length_nil, Int.natCast_zero,
    demoWriteLoop_nil] at pass
  have looped : demoWrite Disk.calls d (.opened fd (some aBuffer)) (b :: z) (0 : Nat) =
      some (d, (DemoFile.opened fd (some aBuffer)).accept (b :: z) 0, .SQLITE_OK) := pass
  simp only [fileStep, looped, Option.map_some]

/-- A sync that succeeds has the promised bytes in the file, in every state of a
run whose calls all deliver the bytes of earlier calls. -/
theorem sync_keeps_promises {d : Disk} {fd : Int} {aBuffer : Block} {h : List (FileOp × Answer)}
    {s : OpenFile} (run : Run fileStep Delivers (d, .opened fd (some aBuffer)) h s) :
    SyncDurable h s := by
  intro a last _ o b owed
  have held := (holds_promised run).2 o b owed
  cases run with
  | start => cases last
  | next _ _ answer =>
    cases last
    have handle := flushes_drains (show FileOp.demoSync.flushes = true from rfl) answer
    rw [← byteAt_drained s.1 _ o, ← handle]
    exact held

/-- A journal just created, with the outcomes of the coming writes. -/
def freshJournal (writes : List Transfer) : OpenFile :=
  ({ bytes := [], pos := 0, seeks := [], writes, reads := [], syncs := [], sizes := [] },
    .opened 3 (some ⟨List.replicate SQLITE_TEEVFS_BUFFERSZ 0, List.length_replicate⟩))

theorem sync_keeps_promises_of_one_byte :
    ∃ h s, Run fileStep Delivers (freshJournal [.short 1]) h s ∧ promised h 0 = some 7 ∧
      s.1.bytes[0]? = some 7 := by
  obtain ⟨h, s, run, owed, synced⟩ : ∃ h s, Run fileStep Delivers (freshJournal [.short 1]) h s ∧
      promised h 0 = some 7 ∧ h.head? = some (.demoSync, ⟨.SQLITE_OK, [], 0⟩) := by
    refine ⟨_, _, .next (.next .start ?_ (write_pending _ 3 _ 7 (z := []) (by decide))) ?_
      (i := .demoSync) rfl, rfl, rfl⟩
    · intro m carried
      cases carried
    · intro m carried
      cases carried
      exact ⟨rfl, by decide⟩
  exact ⟨h, s, run, owed, sync_keeps_promises run _ synced rfl 0 7 owed⟩

/-- One byte is written, a read loses it in a flush that fails, and the sync
afterwards succeeds with an empty file. -/
theorem failed_flush_forgets_a_byte :
    ∃ h s, Run fileStep Free (freshJournal [.fail]) h s ∧
      h.map Prod.fst = [.demoSync, .demoRead [] 0 0, .demoWrite [7] 0] ∧ ¬ SyncDurable h s := by
  refine ⟨_, _, .next (.next (.next .start trivial
    (write_pending _ 3 _ 7 (z := []) (by decide))) trivial (i := .demoRead [] 0 0) rfl) trivial
    (i := .demoSync) rfl, rfl, ?_⟩
  intro durable
  have held := durable ⟨.SQLITE_OK, [], 0⟩ rfl rfl 0 7 rfl
  cases held

end TeeSqlite
