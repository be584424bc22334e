import TeeSqlite.Vfs.Buffer

/-! A journal handle on a file that never fails answers every call as a handle
without a buffer does. The file of the second is at every moment the file of the
first with the pending bytes laid over it. -/
namespace TeeSqlite
open ByteFile CTypes Runs

/-- Accepting bytes writes them to the overlaid file: behind the pending ones,
or as the first pending ones wherever the buffer was left. -/
theorem Buffered.accept_overlay {p : DemoFile} (h : Buffered p) (f z : Bytes) {i : Int}
    (hready : p.nBuffer = 0 ∨ p.iBufferOfst + p.nBuffer = i) (hi : p.nBuffer ≤ i) :
    ByteFile.write f (p.accept z i).iBufferOfst.toNat (p.accept z i).pending =
      ByteFile.write (ByteFile.write f p.iBufferOfst.toNat p.pending) i.toNat (z.take p.room) := by
  rw [h.accept_pending]
  have hlen := h.length_pending
  have hpos := h.nonneg
  rcases hready with empty | contiguous
  · have hp : p.pending = [] := h.pending_nil.mpr empty
    simp only [hp, List.nil_append, write_nil, DemoFile.accept, empty, Int.sub_zero]
  · have hofst := h.place
    have hstart : (p.accept z i).iBufferOfst.toNat = p.iBufferOfst.toNat := by
      simp only [DemoFile.accept]
      omega
    have hnext : i.toNat = p.iBufferOfst.toNat + p.pending.length := by omega
    rw [hstart, hnext, write_append]

section
variable (f : Bytes) (pos : Nat) (syncs : List Int) (sizes : List Bool)

/-- The sound disks are the ones with no fault laid out. -/
abbrev soundAt : Disk :=
  ⟨f, pos, [], [], [], syncs, sizes⟩

@[simp] theorem lseek_sound (fd : Int) {o : Int} (ho : 0 ≤ o) (whence : Int) :
    Disk.calls.utee_vfs_lseek (soundAt f pos syncs sizes) fd o whence =
      (soundAt f o.toNat syncs sizes, o) := by
  simp [Disk.calls, Disk.lseek, Disk.nextSeek, ho]

@[simp] theorem write_sound (fd : Int) (z : Bytes) :
    Disk.calls.utee_vfs_write (soundAt f pos syncs sizes) fd z =
      (soundAt (ByteFile.write f pos z) (pos + z.length) syncs sizes, (z.length : Int)) := by
  simp [Disk.calls, Disk.write, Disk.nextWrite, Transfer.count, Transfer.ret]

@[simp] theorem read_sound (fd : Int) (z : Bytes) (n : Nat) :
    Disk.calls.utee_vfs_read (soundAt f pos syncs sizes) fd z n =
      (soundAt f (pos + (ByteFile.read f pos n).length) syncs sizes,
        ((ByteFile.read f pos n).length : Int), splice z 0 (ByteFile.read f pos n)) := by
  have got : (ByteFile.read f pos n).take n = ByteFile.read f pos n := by
    simp [ByteFile.read, List.take_take]
  simp only [Disk.calls, Disk.read, Disk.nextRead, List.headD_nil, Transfer.count, got,
    reduceCtorEq, ↓reduceIte, List.tail_nil]

@[simp] theorem filesize_sound (fd : Int) :
    Disk.calls.utee_vfs_filesize (soundAt f pos syncs sizes) fd =
      (soundAt f pos syncs sizes.tail, if sizes.headD true then (f.length : Int) else -1) := rfl

theorem directWrite_sound (p : DemoFile) (zBuf : Bytes) (iAmt iOfst : Int)
    (hamt : ((zBuf.take iAmt.toNat).length : Int) = iAmt) (hofst : 0 ≤ iOfst) :
    ∃ pos', demoDirectWrite Disk.calls (soundAt f pos syncs sizes) p zBuf iAmt iOfst =
      (soundAt (ByteFile.write f iOfst.toNat (zBuf.take iAmt.toNat)) pos' syncs sizes,
        .SQLITE_OK) := by
  refine ⟨iOfst.toNat + (zBuf.take iAmt.toNat).length, ?_⟩
  unfold demoDirectWrite
  generalize zBuf.take iAmt.toNat = data at hamt
  simp [hofst, hamt]

theorem flush_sound {p : DemoFile} (h : Buffered p) :
    ∃ pos', demoFlushBuffer Disk.calls (soundAt f pos syncs sizes) p =
      (soundAt (ByteFile.write f p.iBufferOfst.toNat p.pending) pos' syncs sizes,
        p.drained, .SQLITE_OK) := by
  by_cases h0 : p.nBuffer = 0
  · refine ⟨pos, ?_⟩
    have hd : p.drained = p := by cases p; simp_all [DemoFile.drained]
    simp [demoFlushBuffer, h0, h.pending_nil.mpr h0, hd]
  · obtain ⟨pos', hw⟩ := directWrite_sound f pos syncs sizes p (p.aBuffer.getD [])
      _ _ h.length_pending h.place
    refine ⟨pos', ?_⟩
    rw [demoFlushBuffer, if_pos h0, hw]
    rfl

/-- The loop of `demoWrite` writes all of `z` at `i` of the overlaid file. -/
theorem writeLoop_sound (syncs : List Int) (sizes : List Bool) (fuel : Nat) :
    ∀ (f : Bytes) (pos : Nat) (p : DemoFile) (z : Bytes) (i : Int), Buffered p → 0 ≤ i →
      z.length ≤ fuel → ∃ f' pos' p',
        demoWriteLoop Disk.calls fuel (soundAt f pos syncs sizes) p z z.length i =
          some (soundAt f' pos' syncs sizes, p', .SQLITE_OK) ∧ Buffered p' ∧
        ByteFile.write f' p'.iBufferOfst.toNat p'.pending =
          ByteFile.write (ByteFile.write f p.iBufferOfst.toNat p.pending) i.toNat z := by
  induction fuel with
  | zero =>
    intro f pos p z i hp _ hz
    obtain rfl : z = [] := List.length_eq_zero_iff.mp (by omega)
    exact ⟨f, pos, p, demoWriteLoop_nil _ 0 _ p i, hp, rfl⟩
  | succ fuel ih =>
    intro f pos p z i hp hi hz
    by_cases hnil : z = []
    · subst hnil
      exact ⟨f, pos, p, demoWriteLoop_nil _ _ _ p i, hp, rfl⟩
    -- the flush at the head of the pass leaves the overlaid file as it was
    obtain ⟨f₁, pos₁, hr, hf₁⟩ : ∃ f₁ pos₁,
        settle Disk.calls (soundAt f pos syncs sizes) p i =
          (soundAt f₁ pos₁ syncs sizes,
            (settle Disk.calls (soundAt f pos syncs sizes) p i).2.1, .SQLITE_OK) ∧
        ByteFile.write f₁
          (settle Disk.calls (soundAt f pos syncs sizes) p i).2.1.iBufferOfst.toNat
          (settle Disk.calls (soundAt f pos syncs sizes) p i).2.1.pending =
          ByteFile.write f p.iBufferOfst.toNat p.pending := by
      unfold settle
      split
      · obtain ⟨pos', hflush⟩ := flush_sound f pos syncs sizes hp
        refine ⟨ByteFile.write f p.iBufferOfst.toNat p.pending, pos', ?_, ?_⟩
        · rw [hflush]
        · rw [hflush]
          simp
      · exact ⟨f, pos, rfl, rfl⟩
    obtain ⟨hb, hroom, hready, hle⟩ :=
      settle_ready Disk.calls (s := soundAt f pos syncs sizes) hp hi
    rw [demoWriteLoop_pass _ _ _ hp hnil hi]
    generalize settle Disk.calls (soundAt f pos syncs sizes) p i = r at hr hf₁ hb hroom hready hle
    obtain ⟨d, p₁, rc⟩ := r
    obtain ⟨rfl, -, rfl⟩ : d = soundAt f₁ pos₁ syncs sizes ∧ True ∧ rc = .SQLITE_OK := by
      simpa using hr
    dsimp only at hf₁ hb hroom hready hle ⊢
    have hchunk : (z.take p₁.room).length = min p₁.room z.length := List.length_take
    obtain ⟨f', pos', p', hrun, hp', hover⟩ := ih f₁ pos₁ (p₁.accept z i) (z.drop p₁.room)
      (i + (z.take p₁.room).length) (hb.accept z hle) (by omega)
      (by have := List.length_pos_iff.mpr hnil; rw [List.length_drop]; omega)
    refine ⟨f', pos', p', by simpa using hrun, hp', ?_⟩
    have hsum : (i + (z.take p₁.room).length).toNat = i.toNat + (z.take p₁.room).length := by omega
    rw [hover, hb.accept_overlay f₁ z hready hle, hf₁, hsum, write_append, List.take_append_drop]

end

/-- The file of the second handle is the file of the first with the pending
bytes of its buffer laid over it. -/
inductive Overlaid : OpenFile → OpenFile → Prop
  | mk {p q : DemoFile} {f : Bytes} {pos pos' : Nat} {syncs : List Int} {sizes : List Bool} :
      Buffered p → q.aBuffer = none → q.nBuffer = 0 →
      Overlaid (soundAt f pos syncs sizes, p)
        (soundAt (ByteFile.write f p.iBufferOfst.toNat p.pending) pos' syncs sizes, q)

theorem Overlaid.bytes {s t : OpenFile} (h : Overlaid s t) :
    ByteFile.write s.1.bytes s.2.iBufferOfst.toNat s.2.pending = t.1.bytes := by
  cases h
  rfl

theorem Overlaid.drained (f : Bytes) (pos pos' : Nat) (syncs : List Int) (sizes : List Bool)
    {p q : DemoFile} (hp : Buffered p) (ha : q.aBuffer = none) (hn : q.nBuffer = 0) :
    Overlaid (soundAt f pos syncs sizes, p.drained) (soundAt f pos' syncs sizes, q) := by
  have h : Overlaid (soundAt f pos syncs sizes, p.drained) (soundAt (ByteFile.write f
      p.drained.iBufferOfst.toNat p.drained.pending) pos' syncs sizes, q) := .mk hp.drained ha hn
  rwa [drained_pending, write_nil] at h

/-- The calls that leave nothing pending. -/
def FileOp.flushes : FileOp → Bool
  | .demoWrite _ _ => false
  | _ => true

theorem flushes_drains {s s' : OpenFile} {op : FileOp} {a : Answer} (hop : op.flushes = true)
    (h : fileStep s op = some (s', a)) : s'.2 = s.2.drained := by
  obtain ⟨d, p⟩ := s
  cases op with
  | demoWrite => cases hop
  | demoRead z n o =>
    have handle := read_handle Disk.calls d p z n o
    simp only [fileStep] at h
    generalize demoRead Disk.calls d p z n o = r at h handle
    cases h
    exact handle
  | demoSync =>
    have handle := sync_handle Disk.calls d p
    simp only [fileStep] at h
    generalize demoSync Disk.calls d p = r at h handle
    cases h
    exact handle
  | demoFileSize m =>
    have handle := fileSize_handle Disk.calls d p m
    simp only [fileStep] at h
    generalize demoFileSize Disk.calls d p m = r at h handle
    cases h
    exact handle

/-- What a read does once the flush before it is done depends on the file alone,
not on the handle and not on where the descriptor stood. -/
theorem read_after_flush {s : Disk} {p h : DemoFile} {f : Bytes} {pos : Nat} {syncs : List Int}
    {sizes : List Bool} (z : Bytes) (n o : Nat)
    (hf : demoFlushBuffer Disk.calls s p = (soundAt f pos syncs sizes, h, .SQLITE_OK)) :
    ∃ pos', demoRead Disk.calls s p z n o =
      (soundAt f pos' syncs sizes, h,
        (demoRead Disk.calls (soundAt f 0 [] []) (.opened 0 none) z n o).2.2) := by
  refine ⟨o + (ByteFile.read f o n).length, ?_⟩
  have idle : demoFlushBuffer Disk.calls (soundAt f 0 [] []) (.opened 0 none) =
      (soundAt f 0 [] [], .opened 0 none, .SQLITE_OK) := rfl
  simp only [demoRead, hf, idle, lseek_sound, Int.natCast_nonneg, read_sound, Int.toNat_natCast,
    ne_eq, not_true_eq_false, ↓reduceIte]
  split_ifs <;> rfl

/-- The size is the length of the file, whichever handle asks. -/
theorem fileSize_after_flush {s : Disk} {p h : DemoFile} {f : Bytes} {pos : Nat}
    {syncs : List Int} {sizes : List Bool} (m : Int)
    (hf : demoFlushBuffer Disk.calls s p = (soundAt f pos syncs sizes, h, .SQLITE_OK)) :
    demoFileSize Disk.calls s p m =
      (soundAt f pos syncs sizes.tail, h,
        (demoFileSize Disk.calls (soundAt f 0 [] sizes) (.opened 0 none) m).2.2) := by
  have idle : demoFlushBuffer Disk.calls (soundAt f 0 [] sizes) (.opened 0 none) =
      (soundAt f 0 [] sizes, .opened 0 none, .SQLITE_OK) := rfl
  simp only [demoFileSize, hf, idle, filesize_sound, ne_eq, not_true_eq_false, ↓reduceIte]
  split_ifs <;> rfl

/-- One call on both handles: the same answer, and the overlay is kept. -/
theorem overlaid_step {s t : OpenFile} (h : Overlaid s t) (op : FileOp) :
    ∃ s' t' a, fileStep s op = some (s', a) ∧ fileStep t op = some (t', a) ∧ Overlaid s' t' := by
  cases h with
  | @mk p q f pos pos' syncs sizes hp ha hn =>
    obtain ⟨at₁, flushed⟩ := flush_sound f pos syncs sizes hp
    have idle : demoFlushBuffer Disk.calls
        (soundAt (ByteFile.write f p.iBufferOfst.toNat p.pending) pos' syncs sizes) q =
        (soundAt (ByteFile.write f p.iBufferOfst.toNat p.pending) pos' syncs sizes, q,
          .SQLITE_OK) := flush_idle _ _ hn
    cases op with
    | demoWrite z o =>
      obtain ⟨f', at', p', looped, hp', hover⟩ := writeLoop_sound syncs sizes z.length f pos p z o
        hp (Int.natCast_nonneg _) (Nat.le_refl _)
      obtain ⟨at₂, direct⟩ := directWrite_sound (ByteFile.write f p.iBufferOfst.toNat p.pending)
        pos' syncs sizes q z z.length o (by simp) (Int.natCast_nonneg _)
      rw [Int.toNat_natCast z.length, List.take_length, ← hover] at direct
      obtain ⟨buf, hbuf, -⟩ := hp.block
      have kept : Overlaid (soundAt f' at' syncs sizes, p')
          (soundAt (ByteFile.write f' p'.iBufferOfst.toNat p'.pending) at₂ syncs sizes, q) :=
        .mk hp' ha hn
      refine ⟨_, _, ⟨.SQLITE_OK, z, 0⟩, ?_, ?_, kept⟩
      · simp only [fileStep, demoWrite, hbuf, looped, Option.map_some]
      · simp only [fileStep, demoWrite, ha, direct, Option.map_some]
    | demoRead z n o =>
      obtain ⟨at', hread⟩ := read_after_flush z n o flushed
      obtain ⟨at₂, hread'⟩ := read_after_flush z n o idle
      have kept := Overlaid.drained (ByteFile.write f p.iBufferOfst.toNat p.pending) at' at₂ syncs
        sizes hp ha hn
      generalize (demoRead Disk.calls _ (.opened 0 none) z n o).2.2 = r at hread hread'
      refine ⟨_, _, ⟨r.1, r.2, 0⟩, ?_, ?_, kept⟩
      · simp only [fileStep, hread]
      · simp only [fileStep, hread']
    | demoSync =>
      have kept := Overlaid.drained (ByteFile.write f p.iBufferOfst.toNat p.pending) at₁ pos'
        syncs.tail sizes hp ha hn
      refine ⟨_, _, ⟨if syncs.headD 0 = 0 then .SQLITE_OK else .SQLITE_IOERR_FSYNC, [], 0⟩,
        ?_, ?_, kept⟩
      · simp only [fileStep, demoSync, flushed]
        rfl
      · simp only [fileStep, demoSync, idle]
        rfl
    | demoFileSize m =>
      have kept := Overlaid.drained (ByteFile.write f p.iBufferOfst.toNat p.pending) at₁ pos'
        syncs sizes.tail hp ha hn
      have hsize := fileSize_after_flush m flushed
      have hsize' := fileSize_after_flush m idle
      generalize (demoFileSize Disk.calls _ (.opened 0 none) m).2.2 = r at hsize hsize'
      refine ⟨_, _, ⟨r.1, [], r.2⟩, ?_, ?_, kept⟩
      · simp only [fileStep, hsize]
      · simp only [fileStep, hsize']

/-- `demoClose` answers the same on both handles, and leaves the same file. -/
theorem overlaid_close {s t : OpenFile} (h : Overlaid s t) :
    (demoClose Disk.calls s.1 s.2).2 = (demoClose Disk.calls t.1 t.2).2 ∧
    (demoClose Disk.calls s.1 s.2).1.bytes = (demoClose Disk.calls t.1 t.2).1.bytes := by
  cases h with
  | @mk p q f pos pos' syncs sizes hp ha hn =>
    obtain ⟨at₁, flushed⟩ := flush_sound f pos syncs sizes hp
    have idle : demoFlushBuffer Disk.calls
        (soundAt (ByteFile.write f p.iBufferOfst.toNat p.pending) pos' syncs sizes) q =
        (soundAt (ByteFile.write f p.iBufferOfst.toNat p.pending) pos' syncs sizes, q,
          .SQLITE_OK) := flush_idle _ _ hn
    simp only [demoClose, flushed, idle]
    exact ⟨trivial, rfl⟩

/-- Any calls on a journal handle and, over an equal sound file, on a handle
without a buffer: the answers are equal, the files are equal after every call that
flushes and after a close, and they differ at every moment by the pending bytes only. -/
theorem journal_handle_refines_direct (bytes : Bytes) (syncs : List Int) (sizes : List Bool)
    (fd fd' : Int) (aBuffer : Block) (ops : List FileOp) :
    ∃ answers s t,
      Run fileStep Free (Disk.sound bytes syncs sizes, .opened fd (some aBuffer)) answers s ∧
      Run fileStep Free (Disk.sound bytes syncs sizes, .opened fd' none) answers t ∧
      answers.map Prod.fst = ops.reverse ∧
      ByteFile.write s.1.bytes s.2.iBufferOfst.toNat s.2.pending = t.1.bytes ∧
      ((∃ op ∈ ops.getLast?, op.flushes = true) → s.1.bytes = t.1.bytes) ∧
      (demoClose Disk.calls s.1 s.2).2 = (demoClose Disk.calls t.1 t.2).2 ∧
      (demoClose Disk.calls s.1 s.2).1.bytes = (demoClose Disk.calls t.1 t.2).1.bytes := by
  have start : Overlaid (Disk.sound bytes syncs sizes, .opened fd (some aBuffer))
      (Disk.sound bytes syncs sizes, .opened fd' none) := by
    have h := Overlaid.drained bytes 0 0 syncs sizes (opened_buffered fd aBuffer)
      (q := .opened fd' none) rfl rfl
    exact h
  obtain ⟨answers, s, run, inputs, -⟩ := exists_run fileStep Free
    (fun s => ∃ t, Overlaid s t) ⟨_, start⟩ ops.reverse
    (fun s op _ ⟨t, h⟩ => by
      obtain ⟨s', t', a, hs, -, h'⟩ := overlaid_step h op
      exact ⟨trivial, s', a, hs, t', h'⟩)
  obtain ⟨t, run', related⟩ := run.simulate fileStep Free Overlaid start
    (fun s t op s' a h _ hs => by
      obtain ⟨s₁, t', a₁, hs₁, ht, h'⟩ := overlaid_step h op
      obtain ⟨rfl, rfl⟩ : s₁ = s' ∧ a₁ = a := by simpa using hs₁.symm.trans hs
      exact ⟨trivial, t', ht, h'⟩)
  have flushed : ∀ x ∈ answers.head?, x.1.flushes = true → s.2.pending = [] := by
    cases run with
    | start => intro x hx; cases hx
    | next _ _ answer =>
      intro x hx hop
      obtain rfl : _ = x := Option.some.inj hx
      rw [flushes_drains hop answer, drained_pending]
  refine ⟨answers, s, t, run, run', inputs, related.bytes, ?_, overlaid_close related⟩
  rintro ⟨op, hop, hflush⟩
  have last : (answers.map Prod.fst).head? = some op := by
    rw [inputs, List.head?_reverse]
    exact hop
  rw [List.head?_map] at last
  obtain ⟨x, hx, rfl⟩ := Option.map_eq_some_iff.mp last
  rw [← related.bytes, flushed x hx hflush, write_nil]

end TeeSqlite
