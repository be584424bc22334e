import TeeSqlite.Vfs.Disk

/-! The write buffer of a journal handle: what its bytes are, and one equation
for a pass of the loop of `demoWrite`. Over any system calls, whatever they
return, a pass either stops with the code of a failed flush or puts a non-empty
piece behind the pending bytes. -/
namespace TeeSqlite
open ByteFile CTypes

/-- The bytes a handle still owes its file. -/
def DemoFile.pending (p : DemoFile) : Bytes := (p.aBuffer.getD []).take p.nBuffer.toNat

/-- The representation invariant of a buffered handle. -/
structure Buffered (p : DemoFile) : Prop where
  block : ∃ buf, p.aBuffer = some buf ∧ buf.length = SQLITE_TEEVFS_BUFFERSZ
  nonneg : 0 ≤ p.nBuffer
  fits : p.nBuffer ≤ SQLITE_TEEVFS_BUFFERSZ
  place : 0 ≤ p.iBufferOfst

theorem opened_buffered (fd : Int) (b : Block) : Buffered (.opened fd (some b)) :=
  ⟨⟨b.1, rfl, b.2⟩, Int.le_refl 0, Int.natCast_nonneg _, Int.le_refl 0⟩

@[simp] theorem opened_pending (fd : Int) (b : Option Block) :
    (DemoFile.opened fd b).pending = [] := by
  simp [DemoFile.pending, DemoFile.opened]

theorem Buffered.length_pending {p : DemoFile} (h : Buffered p) :
    (p.pending.length : Int) = p.nBuffer := by
  obtain ⟨buf, hbuf, hlen⟩ := h.block
  have := h.nonneg
  have := h.fits
  simp only [DemoFile.pending, hbuf, Option.getD_some, List.length_take, hlen]
  omega

theorem Buffered.pending_nil {p : DemoFile} (h : Buffered p) : p.pending = [] ↔ p.nBuffer = 0 := by
  rw [← List.length_eq_zero_iff]
  have := h.length_pending
  omega

/-- The handle after a flush, successful or not. -/
def DemoFile.drained (p : DemoFile) : DemoFile := { p with nBuffer := 0 }

theorem Buffered.drained {p : DemoFile} (h : Buffered p) : Buffered p.drained :=
  ⟨h.block, Int.le_refl 0, Int.natCast_nonneg _, h.place⟩

@[simp] theorem drained_pending (p : DemoFile) : p.drained.pending = [] := by
  simp [DemoFile.pending, DemoFile.drained]

theorem flush_handle {σ : Type} (u : FileCalls σ) (s : σ) (p : DemoFile) :
    (demoFlushBuffer u s p).2.1 = p.drained := by
  unfold demoFlushBuffer
  split
  · rfl
  · rename_i h
    have h0 : p.nBuffer = 0 := by simpa using h
    cases p
    simp_all [DemoFile.drained]

theorem flush_idle {σ : Type} (u : FileCalls σ) (s : σ) {p : DemoFile} (h : p.nBuffer = 0) :
    demoFlushBuffer u s p = (s, p, .SQLITE_OK) := by
  rw [demoFlushBuffer, if_neg (by simp [h])]

theorem read_handle {σ : Type} (u : FileCalls σ) (s : σ) (p : DemoFile) (zBuf : Bytes)
    (iAmt iOfst : Int) : (demoRead u s p zBuf iAmt iOfst).2.1 = p.drained := by
  have handle := flush_handle u s p
  unfold demoRead
  generalize demoFlushBuffer u s p = r at handle
  obtain ⟨s, p, rc⟩ := r
  dsimp only at handle ⊢
  split_ifs <;> exact handle

theorem sync_handle {σ : Type} (u : FileCalls σ) (s : σ) (p : DemoFile) :
    (demoSync u s p).2.1 = p.drained := by
  have handle := flush_handle u s p
  unfold demoSync
  generalize demoFlushBuffer u s p = r at handle
  obtain ⟨s, p, rc⟩ := r
  dsimp only at handle ⊢
  split_ifs <;> exact handle

theorem fileSize_handle {σ : Type} (u : FileCalls σ) (s : σ) (p : DemoFile) (pSize : Int) :
    (demoFileSize u s p pSize).2.1 = p.drained := by
  have handle := flush_handle u s p
  unfold demoFileSize
  generalize demoFlushBuffer u s p = r at handle
  obtain ⟨s, p, rc⟩ := r
  dsimp only at handle ⊢
  split_ifs <;> exact handle

/-- How many bytes the buffer can still take. -/
def DemoFile.room (p : DemoFile) : Nat := SQLITE_TEEVFS_BUFFERSZ - p.nBuffer.toNat

/-- The buffer must be flushed before a byte for offset `i` can join it. -/
def DemoFile.blocked (p : DemoFile) (i : Int) : Prop :=
  p.nBuffer = SQLITE_TEEVFS_BUFFERSZ ∨ p.iBufferOfst + p.nBuffer ≠ i

instance (p : DemoFile) (i : Int) : Decidable (p.blocked i) :=
  inferInstanceAs (Decidable (_ ∨ _))

/-- The handle after a pass has put the first bytes of `z` behind the pending ones. -/
def DemoFile.accept (p : DemoFile) (z : Bytes) (i : Int) : DemoFile :=
  { p with aBuffer := some (splice (p.aBuffer.getD []) p.nBuffer.toNat (z.take p.room)),
           iBufferOfst := i - p.nBuffer, nBuffer := p.nBuffer + (z.take p.room).length }

theorem Buffered.room_add {p : DemoFile} (h : Buffered p) :
    (p.room : Int) + p.nBuffer = SQLITE_TEEVFS_BUFFERSZ := by
  have := h.nonneg
  have := h.fits
  unfold DemoFile.room
  omega

theorem Buffered.splice_fits {p : DemoFile} (h : Buffered p) (z : Bytes) {buf : Bytes}
    (hbuf : p.aBuffer = some buf) : p.nBuffer.toNat + (z.take p.room).length ≤ buf.length := by
  obtain ⟨buf', hbuf', hlen⟩ := h.block
  have := h.room_add
  have := h.nonneg
  rw [Option.some.inj (hbuf.symm.trans hbuf'), hlen, List.length_take]
  omega

theorem Buffered.accept {p : DemoFile} (h : Buffered p) (z : Bytes) {i : Int}
    (hi : p.nBuffer ≤ i) : Buffered (p.accept z i) := by
  obtain ⟨buf, hbuf, hlen⟩ := h.block
  have hfits := h.splice_fits z hbuf
  have hroom := h.room_add
  have hz : (z.take p.room).length ≤ p.room := by simp only [List.length_take]; omega
  have hpos := h.nonneg
  refine ⟨⟨_, rfl, ?_⟩, ?_, ?_, ?_⟩
  · simp only [hbuf, Option.getD_some]
    rw [length_splice _ _ _ hfits, hlen]
  · simp only [DemoFile.accept]; omega
  · simp only [DemoFile.accept]; omega
  · simp only [DemoFile.accept]; omega

theorem Buffered.accept_pending {p : DemoFile} (h : Buffered p) (z : Bytes) (i : Int) :
    (p.accept z i).pending = p.pending ++ z.take p.room := by
  obtain ⟨buf, hbuf, hlen⟩ := h.block
  have hfits := h.splice_fits z hbuf
  have htake : (p.nBuffer + (z.take p.room).length).toNat =
      p.nBuffer.toNat + (z.take p.room).length := by have := h.nonneg; omega
  simp only [DemoFile.pending, DemoFile.accept, hbuf, Option.getD_some, htake]
  exact take_splice _ _ _ hfits

/-- The copy of a pass that has `n` bytes to write: as many of them as there is room for. -/
theorem Buffered.copy {p : DemoFile} (h : Buffered p) {buf : Bytes} (hbuf : p.aBuffer = some buf)
    {z : Bytes} {n : Int} (hn : 0 < n) (hz : n ≤ z.length) :
    (if (SQLITE_TEEVFS_BUFFERSZ : Int) - p.nBuffer > n then n
      else SQLITE_TEEVFS_BUFFERSZ - p.nBuffer) =
        (((z.take n.toNat).take p.room).length : Int) ∧
    memcpy buf p.nBuffer z (((z.take n.toNat).take p.room).length : Int) =
      some (splice buf p.nBuffer.toNat ((z.take n.toNat).take p.room)) := by
  have hadd := h.room_add
  have hpos := h.nonneg
  have hfits := h.splice_fits (z.take n.toNat) hbuf
  have hle : ((z.take n.toNat).take p.room).length ≤ z.length := by
    rw [List.length_take, List.length_take]
    omega
  have hsame : z.take ((z.take n.toNat).take p.room).length = (z.take n.toNat).take p.room := by
    rw [List.take_take, List.length_take, ← List.take_eq_take_min]
  constructor
  · rw [List.length_take, List.length_take]
    split <;> omega
  · rw [memcpy, if_pos ⟨hpos, by omega, by omega, by omega⟩, Int.toNat_natCast, hsame]

section
variable {σ : Type} (u : FileCalls σ)

/-- The flush at the head of a pass: done only when the buffer is blocked. -/
def settle (s : σ) (p : DemoFile) (i : Int) : σ × DemoFile × Rc :=
  if p.blocked i then demoFlushBuffer u s p else (s, p, .SQLITE_OK)

/-- After the flush at the head of a pass the buffer has room, and whatever is
still pending ends where the next byte belongs. -/
theorem settle_ready {s : σ} {p : DemoFile} (h : Buffered p) {i : Int} (hi : 0 ≤ i) :
    Buffered (settle u s p i).2.1 ∧ 0 < (settle u s p i).2.1.room ∧
    ((settle u s p i).2.1.nBuffer = 0 ∨
      (settle u s p i).2.1.iBufferOfst + (settle u s p i).2.1.nBuffer = i) ∧
    (settle u s p i).2.1.nBuffer ≤ i := by
  unfold settle
  split
  · rw [flush_handle]
    have room : 0 < p.drained.room := by
      simp [DemoFile.room, DemoFile.drained, SQLITE_TEEVFS_BUFFERSZ]
    exact ⟨h.drained, room, .inl rfl, hi⟩
  · rename_i hb
    obtain ⟨full, contiguous⟩ : ¬ p.nBuffer = SQLITE_TEEVFS_BUFFERSZ ∧
        p.iBufferOfst + p.nBuffer = i := by
      simpa only [DemoFile.blocked, not_or, ne_eq, not_not] using hb
    have := h.room_add
    have := h.fits
    have := h.place
    exact ⟨h, by dsimp only; omega, .inr contiguous, by dsimp only; omega⟩

@[simp] theorem demoWriteLoop_nil (fuel : Nat) (s : σ) (p : DemoFile) (i : Int) :
    demoWriteLoop u fuel s p [] 0 i = some (s, p, .SQLITE_OK) := by
  cases fuel <;> rfl

/-- One pass of the loop, for any results of the system calls. No copy is out of
range, the assertion holds, and the bytes left are fewer. -/
theorem demoWriteLoop_pass (fuel : Nat) (s : σ) {p : DemoFile} (h : Buffered p) {z : Bytes}
    (hz : z ≠ []) {i : Int} (hi : 0 ≤ i) :
    demoWriteLoop u (fuel + 1) s p z z.length i =
      let r := settle u s p i
      if r.2.2 ≠ .SQLITE_OK then some r
      else demoWriteLoop u fuel r.1 (r.2.1.accept z i) (z.drop r.2.1.room)
        (z.drop r.2.1.room).length (i + (z.take r.2.1.room).length) := by
  have hlen : ¬ (z.length : Int) ≤ 0 := by
    have := List.length_pos_iff.mpr hz
    omega
  obtain ⟨hb, hroom, hassert, -⟩ := settle_ready u (s := s) h hi
  rw [demoWriteLoop, if_neg hlen]
  rw [show (if p.nBuffer = SQLITE_TEEVFS_BUFFERSZ ∨ p.iBufferOfst + p.nBuffer ≠ i then
    demoFlushBuffer u s p else (s, p, .SQLITE_OK)) = settle u s p i from rfl]
  generalize settle u s p i = r at hb hroom hassert ⊢
  obtain ⟨s', p', rc⟩ := r
  dsimp only at hb hroom hassert ⊢
  rw [if_pos hassert]
  split
  · rfl
  · obtain ⟨buf, hbuf, -⟩ := hb.block
    obtain ⟨hcopy, hmem⟩ := hb.copy hbuf (Int.not_le.mp hlen) (Int.le_refl z.length)
    rw [Int.toNat_natCast, List.take_length] at hcopy hmem
    have hdrop : z.drop (z.take p'.room).length = z.drop p'.room := by
      rw [List.length_take, ← List.drop_eq_drop_min]
    rw [hcopy, hbuf, Option.getD_some, hmem, Int.toNat_natCast, hdrop]
    dsimp only
    rw [show (z.length : Int) - (z.take p'.room).length = (z.drop p'.room).length by
      rw [List.length_take, List.length_drop]; omega]
    simp only [DemoFile.accept, hbuf, Option.getD_some]

end
end TeeSqlite
