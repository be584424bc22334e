import TeeSqlite.Lib.Chunks
import TeeSqlite.Vfs.Buffer

/-! Writes that follow each other, on a buffered handle: the backing file gets them in
whole blocks, whatever the pieces are. -/
namespace TeeSqlite
open ByteFile CTypes Chunks

/-- The state of the system calls, with the place of the last `lseek` and the writes
made, in order. -/
structure Recorded (σ : Type) where
  state : σ
  place : Int
  writes : List (Int × Bytes)

/-- The same calls with a record of the writes. -/
def FileCalls.recorded {σ : Type} (u : FileCalls σ) : FileCalls (Recorded σ) where
  utee_vfs_lseek s fd ofst whence :=
    let (state, ret) := u.utee_vfs_lseek s.state fd ofst whence
    (⟨state, ret, s.writes⟩, ret)
  utee_vfs_write s fd buf :=
    let (state, ret) := u.utee_vfs_write s.state fd buf
    (⟨state, s.place, s.writes ++ [(s.place, buf)]⟩, ret)
  utee_vfs_read s fd buf n :=
    let (state, ret) := u.utee_vfs_read s.state fd buf n
    (⟨state, s.place, s.writes⟩, ret)
  utee_vfs_fsync s fd :=
    let (state, ret) := u.utee_vfs_fsync s.state fd
    (⟨state, s.place, s.writes⟩, ret)
  utee_vfs_filesize s fd :=
    let (state, ret) := u.utee_vfs_filesize s.state fd
    (⟨state, s.place, s.writes⟩, ret)
  utee_vfs_close s fd :=
    let (state, ret) := u.utee_vfs_close s.state fd
    (⟨state, s.place, s.writes⟩, ret)

/-- A file without faults between two offsets. -/
structure FaultFree {σ : Type} (u : FileCalls σ) (fd lo hi : Int) : Prop where
  lseek : ∀ s ofst, lo ≤ ofst → ofst < hi → (u.utee_vfs_lseek s fd ofst SEEK_SET).2 = ofst
  write : ∀ s buf, buf.length ≤ SQLITE_TEEVFS_BUFFERSZ →
    (u.utee_vfs_write s fd buf).2 = buf.length
  fsync : ∀ s, (u.utee_vfs_fsync s fd).2 = 0

section
variable {σ : Type} (u : FileCalls σ)

/-- Calls of `demoWrite`, each at the place where the one before ended. -/
def demoWrites (s : σ) (p : DemoFile) (o : Int) : List Bytes → Option (σ × DemoFile × Rc)
  | [] => some (s, p, .SQLITE_OK)
  | z :: zs =>
    match demoWrite u s p z o with
    | some (s, p, .SQLITE_OK) => demoWrites s p (o + z.length) zs
    | other => other

/-- The calls, and then a `demoSync`. -/
def writesThenSync (s : σ) (p : DemoFile) (o : Int) (zs : List Bytes) :
    Option (σ × DemoFile × Rc) :=
  match demoWrites u s p o zs with
  | some (s, p, .SQLITE_OK) => some (demoSync u s p)
  | other => other

end

/-- The writes cover the data from `o` on: all but the last are whole blocks, and the
last is what remains. -/
structure Coalesced (o : Int) (data : Bytes) (writes : List (Int × Bytes)) : Prop where
  covers : (writes.map Prod.snd).flatten = data
  starts : ∀ (k : Nat) w, writes[k]? = some w → w.1 = o + SQLITE_TEEVFS_BUFFERSZ * (k : Int)
  whole : ∀ (k : Nat) w, writes[k]? = some w → k + 1 < writes.length →
    w.2.length = SQLITE_TEEVFS_BUFFERSZ
  last : ∀ w, writes.getLast? = some w → 1 ≤ w.2.length ∧ w.2.length ≤ SQLITE_TEEVFS_BUFFERSZ
  none_ : data = [] ↔ writes = []

/-- The first `m` blocks of the data, with their places. -/
def blocksFrom (o : Int) (data : Bytes) (m : Nat) : List (Int × Bytes) :=
  (List.range m).map fun k : Nat =>
    (o + SQLITE_TEEVFS_BUFFERSZ * (k : Int), chunk SQLITE_TEEVFS_BUFFERSZ data k)

theorem blocksFrom_succ (o : Int) (data : Bytes) (m : Nat) :
    blocksFrom o data (m + 1) = blocksFrom o data m ++
      [(o + SQLITE_TEEVFS_BUFFERSZ * (m : Int), chunk SQLITE_TEEVFS_BUFFERSZ data m)] := by
  rw [blocksFrom, List.range_succ, List.map_append, List.map_singleton]
  rfl

theorem blocksFrom_data (o : Int) (data : Bytes) (m : Nat) :
    (blocksFrom o data m).map Prod.snd = chunks SQLITE_TEEVFS_BUFFERSZ data m := by
  rw [blocksFrom, List.map_map]
  rfl

theorem blocksFrom_append (o : Int) {data : Bytes} (t : Bytes) {m : Nat}
    (complete : SQLITE_TEEVFS_BUFFERSZ * m ≤ data.length) :
    blocksFrom o (data ++ t) m = blocksFrom o data m := by
  apply List.map_congr_left
  intro k inside
  have below := Nat.mul_le_mul_left SQLITE_TEEVFS_BUFFERSZ
    (Nat.succ_le_of_lt (List.mem_range.mp inside))
  rw [chunk_append t (below.trans complete)]

theorem blocksFrom_getElem? {o : Int} {data : Bytes} {m k : Nat} {w : Int × Bytes}
    (h : (blocksFrom o data m)[k]? = some w) : k < m ∧
      w = (o + SQLITE_TEEVFS_BUFFERSZ * (k : Int), chunk SQLITE_TEEVFS_BUFFERSZ data k) := by
  have inside : k < m := by
    have bound := (List.getElem?_eq_some_iff.mp h).1
    rwa [blocksFrom, List.length_map, List.length_range] at bound
  rw [blocksFrom, List.getElem?_map, List.getElem?_range inside, Option.map_some] at h
  exact ⟨inside, (Option.some.inj h).symm⟩

/-- All the blocks of the data are what the writes should be. -/
theorem coalesced_blocks (o : Int) (data : Bytes) :
    Coalesced o data (blocksFrom o data (ceil SQLITE_TEEVFS_BUFFERSZ data.length)) := by
  have positive : 0 < SQLITE_TEEVFS_BUFFERSZ := by decide
  have length : (blocksFrom o data (ceil SQLITE_TEEVFS_BUFFERSZ data.length)).length =
      ceil SQLITE_TEEVFS_BUFFERSZ data.length := by
    rw [blocksFrom, List.length_map, List.length_range]
  constructor
  · rw [blocksFrom_data, flatten_chunks]
    exact List.take_of_length_le (ceil_reaches positive data.length)
  · intro k w at_
    rw [(blocksFrom_getElem? at_).2]
  · intro k w at_ inner
    rw [length] at inner
    rw [(blocksFrom_getElem? at_).2]
    exact length_chunk (ceil_needed positive inner).le
  · intro w at_
    rw [List.getLast?_eq_getElem?, length] at at_
    obtain ⟨inside, rfl⟩ := blocksFrom_getElem? at_
    have needed := ceil_needed positive inside
    rw [chunk, List.length_take, List.length_drop]
    omega
  · rw [← List.length_eq_zero_iff, ← List.length_eq_zero_iff, length]
    constructor
    · intro empty
      rw [empty]
      exact ceil_zero positive
    · intro none_
      have reached := ceil_reaches positive data.length
      rw [none_] at reached
      omega

section
variable {σ : Type} {u : FileCalls σ} {fd lo hi : Int}

/-- A flush of pending bytes is one write of them. -/
theorem flush_recorded (sound : FaultFree u fd lo hi) (s : Recorded σ) {p : DemoFile}
    (buffered : Buffered p) (own : p.fd = fd) (some_bytes : p.nBuffer ≠ 0)
    (low : lo ≤ p.iBufferOfst) (high : p.iBufferOfst < hi) :
    ∃ state, demoFlushBuffer u.recorded s p =
      (⟨state, p.iBufferOfst, s.writes ++ [(p.iBufferOfst, p.pending)]⟩, p.drained,
        .SQLITE_OK) := by
  obtain rfl := own
  have there := sound.lseek s.state p.iBufferOfst low high
  have length := buffered.length_pending
  have fits := buffered.fits
  rw [demoFlushBuffer, if_pos some_bytes, demoDirectWrite]
  simp only [FileCalls.recorded, there, ne_eq, not_true_eq_false, ↓reduceIte]
  have whole := sound.write (u.utee_vfs_lseek s.state p.fd p.iBufferOfst SEEK_SET).1 p.pending
    (by omega)
  rw [DemoFile.pending] at whole length
  rw [whole, length, if_neg (not_not.mpr rfl)]
  exact ⟨_, rfl⟩

/-- `k` blocks of the bytes taken so far are written, and the rest is pending. -/
structure Holding (fd o : Int) (done : Bytes) (k : Nat) (s : Recorded σ) (p : DemoFile) :
    Prop where
  own : p.fd = fd
  buffered : Buffered p
  complete : SQLITE_TEEVFS_BUFFERSZ * k ≤ done.length
  pending : p.pending = done.drop (SQLITE_TEEVFS_BUFFERSZ * k)
  place : p.nBuffer ≠ 0 → p.iBufferOfst = o + SQLITE_TEEVFS_BUFFERSZ * (k : Int)
  writes : s.writes = blocksFrom o done k

theorem Holding.nBuffer {o : Int} {done : Bytes} {k : Nat} {s : Recorded σ} {p : DemoFile}
    (h : Holding fd o done k s p) :
    p.nBuffer + SQLITE_TEEVFS_BUFFERSZ * (k : Int) = done.length := by
  have length := h.buffered.length_pending
  have complete := h.complete
  rw [h.pending, List.length_drop] at length
  unfold SQLITE_TEEVFS_BUFFERSZ at complete length ⊢
  omega

/-- A flush of what is pending completes one more block, or the last one. -/
theorem Holding.flush (sound : FaultFree u fd lo hi) {done : Bytes} {k : Nat}
    {s : Recorded σ} {p : DemoFile} (h : Holding fd lo done k s p)
    (some_bytes : p.nBuffer ≠ 0) (within : lo + done.length ≤ hi) :
    ∃ s', demoFlushBuffer u.recorded s p = (s', p.drained, .SQLITE_OK) ∧
      s'.writes = blocksFrom lo done (k + 1) := by
  have count := h.nBuffer
  have place := h.place some_bytes
  have nonneg := h.buffered.nonneg
  have fits := h.buffered.fits
  obtain ⟨state, flushed⟩ := flush_recorded sound s h.buffered h.own some_bytes
    (by unfold SQLITE_TEEVFS_BUFFERSZ at place; omega) (by omega)
  refine ⟨_, flushed, ?_⟩
  have last : chunk SQLITE_TEEVFS_BUFFERSZ done k = p.pending := by
    rw [h.pending]
    apply chunk_last
    unfold SQLITE_TEEVFS_BUFFERSZ at count fits ⊢
    omega
  rw [blocksFrom_succ, last, ← place, h.writes]

/-- The flush at the head of a pass writes a block that is full, and nothing else. -/
theorem Holding.settle (sound : FaultFree u fd lo hi) {done : Bytes} {s : Recorded σ}
    {p : DemoFile} (h : Holding fd lo done ((done.length - 1) / SQLITE_TEEVFS_BUFFERSZ) s p)
    (within : lo + done.length ≤ hi) :
    ∃ s' q, TeeSqlite.settle u.recorded s p (lo + done.length) = (s', q, .SQLITE_OK) ∧
      Holding fd lo done (done.length / SQLITE_TEEVFS_BUFFERSZ) s' q := by
  have count := h.nBuffer
  have fits := h.buffered.fits
  have nonneg := h.buffered.nonneg
  unfold TeeSqlite.settle
  by_cases full : p.nBuffer = SQLITE_TEEVFS_BUFFERSZ
  · have some_bytes : p.nBuffer ≠ 0 := by rw [full]; decide
    obtain ⟨s', flushed, writes⟩ := h.flush sound some_bytes within
    have whole : done.length =
        SQLITE_TEEVFS_BUFFERSZ * (done.length / SQLITE_TEEVFS_BUFFERSZ) := by
      unfold SQLITE_TEEVFS_BUFFERSZ at count full ⊢
      omega
    have next : (done.length - 1) / SQLITE_TEEVFS_BUFFERSZ + 1 =
        done.length / SQLITE_TEEVFS_BUFFERSZ := by
      unfold SQLITE_TEEVFS_BUFFERSZ at count full whole ⊢
      omega
    rw [if_pos (.inl full), flushed]
    refine ⟨s', p.drained, rfl, h.own, h.buffered.drained, whole.ge, ?_, ?_, next ▸ writes⟩
    · rw [drained_pending, ← whole, List.drop_length]
    · exact fun none_left => absurd rfl none_left
  · have same : (done.length - 1) / SQLITE_TEEVFS_BUFFERSZ =
        done.length / SQLITE_TEEVFS_BUFFERSZ := by
      unfold SQLITE_TEEVFS_BUFFERSZ at count full fits ⊢
      omega
    rw [← same]
    by_cases idle : p.nBuffer = 0
    · refine ⟨s, p, ?_, h⟩
      rw [flush_idle u.recorded s idle, ite_self]
    · refine ⟨s, p, if_neg ?_, h⟩
      have place := h.place idle
      rw [DemoFile.blocked, not_or, not_not]
      refine ⟨full, ?_⟩
      rw [place, Int.add_assoc, Int.add_comm (SQLITE_TEEVFS_BUFFERSZ * _ : Int), count]

/-- A pass puts the next bytes behind what is pending. -/
theorem Holding.accept {o : Int} {done z : Bytes} {s : Recorded σ} {p : DemoFile} (start : 0 ≤ o)
    (h : Holding fd o done (done.length / SQLITE_TEEVFS_BUFFERSZ) s p) (some_bytes : z ≠ []) :
    Holding fd o (done ++ z.take p.room)
      (((done ++ z.take p.room).length - 1) / SQLITE_TEEVFS_BUFFERSZ) s
      (p.accept z (o + done.length)) := by
  have count := h.nBuffer
  have nonneg := h.buffered.nonneg
  have room := h.buffered.room_add
  have size := List.length_pos_iff.mpr some_bytes
  have taken : (z.take p.room).length = min p.room z.length := List.length_take
  have same : ((done ++ z.take p.room).length - 1) / SQLITE_TEEVFS_BUFFERSZ =
      done.length / SQLITE_TEEVFS_BUFFERSZ := by
    rw [List.length_append, taken]
    unfold SQLITE_TEEVFS_BUFFERSZ at count room ⊢
    omega
  rw [same]
  refine ⟨h.own, h.buffered.accept z ?_, ?_, ?_, ?_, ?_⟩
  · unfold SQLITE_TEEVFS_BUFFERSZ at count
    omega
  · rw [List.length_append]
    exact Nat.le_add_right_of_le h.complete
  · rw [h.buffered.accept_pending, h.pending, List.drop_append_of_le_length h.complete]
  · intro _
    simp only [DemoFile.accept]
    omega
  · rw [blocksFrom_append o _ h.complete, h.writes]

theorem demoWriteLoop_holds (sound : FaultFree u fd lo hi) (start : 0 ≤ lo) (fuel : Nat)
    {done z : Bytes} {s : Recorded σ} {p : DemoFile}
    (h : Holding fd lo done ((done.length - 1) / SQLITE_TEEVFS_BUFFERSZ) s p)
    (within : lo + (done ++ z).length ≤ hi) (enough : z.length ≤ fuel) :
    ∃ s' p', demoWriteLoop u.recorded fuel s p z z.length (lo + done.length) =
        some (s', p', .SQLITE_OK) ∧
      Holding fd lo (done ++ z) (((done ++ z).length - 1) / SQLITE_TEEVFS_BUFFERSZ) s' p' := by
  induction fuel generalizing done z s p with
  | zero =>
    obtain rfl : z = [] := List.length_eq_zero_iff.mp (Nat.le_zero.mp enough)
    refine ⟨s, p, demoWriteLoop_nil _ _ _ _ _, ?_⟩
    rwa [List.append_nil]
  | succ fuel ih =>
    by_cases none_left : z = []
    · subst none_left
      refine ⟨s, p, demoWriteLoop_nil _ _ _ _ _, ?_⟩
      rwa [List.append_nil]
    · have bound : lo + done.length ≤ hi := by
        rw [List.length_append] at within
        omega
      obtain ⟨s', q, settled, ready⟩ := h.settle sound bound
      have room := (settle_ready u.recorded (s := s) h.buffered
        (show 0 ≤ lo + (done.length : Int) by omega)).2.1
      rw [demoWriteLoop_pass _ _ _ h.buffered none_left (by omega), settled]
      rw [settled] at room
      dsimp only at room ⊢
      rw [if_neg (not_not.mpr rfl)]
      have split : (done ++ z.take q.room) ++ z.drop q.room = done ++ z := by
        rw [List.append_assoc, List.take_append_drop]
      have size := List.length_pos_iff.mpr none_left
      have next := ih (ready.accept start none_left) (split ▸ within)
        (by rw [List.length_drop]; omega)
      rw [split] at next
      rw [List.length_append, Int.natCast_add, ← Int.add_assoc] at next
      exact next

theorem demoWrites_hold (sound : FaultFree u fd lo hi) (start : 0 ≤ lo) (zs : List Bytes)
    {done : Bytes} {s : Recorded σ} {p : DemoFile}
    (h : Holding fd lo done ((done.length - 1) / SQLITE_TEEVFS_BUFFERSZ) s p)
    (within : lo + (done ++ zs.flatten).length ≤ hi) :
    ∃ s' p', demoWrites u.recorded s p (lo + done.length) zs = some (s', p', .SQLITE_OK) ∧
      Holding fd lo (done ++ zs.flatten)
        (((done ++ zs.flatten).length - 1) / SQLITE_TEEVFS_BUFFERSZ) s' p' := by
  induction zs generalizing done s p with
  | nil =>
    refine ⟨s, p, rfl, ?_⟩
    rwa [List.flatten_nil, List.append_nil]
  | cons z zs ih =>
    rw [List.flatten_cons, ← List.append_assoc] at within ⊢
    obtain ⟨buf, block, -⟩ := h.buffered.block
    have bound : lo + (done ++ z).length ≤ hi := by
      rw [List.length_append] at within
      omega
    obtain ⟨s', p', written, holding⟩ :=
      demoWriteLoop_holds sound start z.length h bound (Nat.le_refl _)
    have next := ih holding within
    have place : lo + ((done ++ z).length : Int) = lo + done.length + z.length := by
      rw [List.length_append]
      omega
    rw [place] at next
    unfold demoWrites demoWrite
    rw [block]
    dsimp only
    rw [written]
    exact next

theorem opened_holds (fd o : Int) (block : Block) (s : σ) (place : Int) :
    Holding fd o [] 0 ⟨s, place, []⟩ (.opened fd (some block)) where
  own := rfl
  buffered := opened_buffered fd block
  complete := Nat.le_refl _
  pending := opened_pending fd (some block)
  place none_left := absurd rfl none_left
  writes := rfl

/-- However the data is split, it is written in whole blocks and the rest. -/
theorem writesThenSync_blocks {o : Nat} (zs : List Bytes)
    (sound : FaultFree u fd o (o + zs.flatten.length)) (block : Block) (s : σ) (place : Int) :
    ∃ s' p', writesThenSync u.recorded ⟨s, place, []⟩ (.opened fd (some block)) o zs =
        some (s', p', .SQLITE_OK) ∧
      s'.writes = blocksFrom o zs.flatten (ceil SQLITE_TEEVFS_BUFFERSZ zs.flatten.length) := by
  have positive : 0 < SQLITE_TEEVFS_BUFFERSZ := by decide
  obtain ⟨s', p', written, holding⟩ := demoWrites_hold sound (Int.natCast_nonneg o) zs
    (opened_holds fd o block s place) (Int.le_refl _)
  rw [List.nil_append] at holding
  rw [List.length_nil, Int.natCast_zero, Int.add_zero] at written
  have count := holding.nBuffer
  have fits := holding.buffered.fits
  have complete := holding.complete
  unfold writesThenSync
  rw [written]
  dsimp only
  unfold demoSync
  by_cases idle : p'.nBuffer = 0
  · have number : ceil SQLITE_TEEVFS_BUFFERSZ zs.flatten.length =
        (zs.flatten.length - 1) / SQLITE_TEEVFS_BUFFERSZ := by
      unfold SQLITE_TEEVFS_BUFFERSZ at count ⊢
      unfold ceil
      omega
    rw [flush_idle _ _ idle]
    simp only [FileCalls.recorded, holding.own, sound.fsync, ne_eq, not_true_eq_false, ↓reduceIte]
    exact ⟨_, _, rfl, number ▸ holding.writes⟩
  · have number : ceil SQLITE_TEEVFS_BUFFERSZ zs.flatten.length =
        (zs.flatten.length - 1) / SQLITE_TEEVFS_BUFFERSZ + 1 := by
      unfold SQLITE_TEEVFS_BUFFERSZ at count fits ⊢
      unfold ceil
      omega
    obtain ⟨s'', flushed, writes⟩ := holding.flush sound idle (Int.le_refl _)
    rw [flushed]
    simp only [FileCalls.recorded, DemoFile.drained, holding.own, sound.fsync, ne_eq,
      not_true_eq_false, ↓reduceIte]
    exact ⟨_, _, rfl, number ▸ writes⟩

/-- Writes that follow each other reach the backing file in whole blocks and the rest,
and two ways to split the data cannot be told apart there. -/
theorem sequential_writes_coalesce {o : Nat} {zs : List Bytes}
    (sound : FaultFree u fd o (o + zs.flatten.length)) (block : Block) (s : σ) (place : Int) :
    ∃ s' p', writesThenSync u.recorded ⟨s, place, []⟩ (.opened fd (some block)) o zs =
        some (s', p', .SQLITE_OK) ∧
      Coalesced o zs.flatten s'.writes ∧
      ∀ zs' block' t place', zs'.flatten = zs.flatten → ∃ t' q',
        writesThenSync u.recorded ⟨t, place', []⟩ (.opened fd (some block')) o zs' =
            some (t', q', .SQLITE_OK) ∧
          t'.writes = s'.writes := by
  obtain ⟨s', p', done, writes⟩ := writesThenSync_blocks zs sound block s place
  refine ⟨s', p', done, ?_, ?_⟩
  · rw [writes]
    exact coalesced_blocks o zs.flatten
  · intro zs' block' t place' same
    obtain ⟨t', q', done', writes'⟩ := writesThenSync_blocks zs' (same ▸ sound) block' t place'
    refine ⟨t', q', done', ?_⟩
    rw [writes', writes, same]

end

/-- A file on which every call succeeds. -/
def willing : FileCalls Unit where
  utee_vfs_lseek s _ ofst _ := (s, ofst)
  utee_vfs_write s _ buf := (s, buf.length)
  utee_vfs_read s _ buf n := (s, n, buf)
  utee_vfs_fsync s _ := (s, 0)
  utee_vfs_filesize s _ := (s, 0)
  utee_vfs_close s _ := (s, 0)

theorem willing_faultFree (fd lo hi : Int) : FaultFree willing fd lo hi :=
  ⟨fun _ _ _ _ => rfl, fun _ _ _ => rfl, fun _ => rfl⟩

/-- The pieces of a rollback journal: a header, and three pages with their numbers and
checksums. -/
def journalPieces : List Bytes :=
  [512, 4, 4096, 4, 4, 4096, 4, 4, 4096, 4].map (List.replicate · 0)

theorem journal_coalesces : ∃ s' p', writesThenSync willing.recorded ⟨(), 0, []⟩
      (.opened 3 (some ⟨List.replicate SQLITE_TEEVFS_BUFFERSZ 0, List.length_replicate⟩))
      (0 : Nat) journalPieces = some (s', p', .SQLITE_OK) ∧
    Coalesced (0 : Nat) journalPieces.flatten s'.writes := by
  obtain ⟨s', p', done, coalesced, -⟩ :=
    sequential_writes_coalesce (o := 0) (willing_faultFree 3 _ _) _ () 0
  exact ⟨s', p', done, coalesced⟩

end TeeSqlite
