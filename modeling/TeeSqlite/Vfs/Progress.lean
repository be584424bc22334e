import TeeSqlite.Lib.Runs
import TeeSqlite.Vfs.Buffer

/-! The loop of `demoWrite` pass by pass, over system calls that may fail: what holds at
its assertion and at its copy, in every state that a buffered handle can get into. -/
namespace TeeSqlite
open ByteFile CTypes Runs

/-- A pass of the loop of `demoWrite` from its assertion on: the handle there, the offset
in the file, how far `z` is into `zBuf`, and how many bytes are copied. -/
structure Pass where
  p : DemoFile
  i : Int
  taken : Nat
  nCopy : Int

/-- A call on a handle. A buffer and a cell come with what they held before. -/
inductive HandleCall
  | demoWrite (zBuf : Bytes) (iAmt iOfst : Int)
  | demoRead (zBuf : Bytes) (iAmt iOfst : Int)
  | demoSync
  | demoFileSize (pSize : Int)

/-- Offsets are not negative, and there are `iAmt` bytes to write. -/
def HandleCall.Admitted : HandleCall → Prop
  | demoWrite zBuf iAmt iOfst => iAmt ≤ zBuf.length ∧ 0 ≤ iOfst
  | demoRead _ _ iOfst => 0 ≤ iOfst
  | _ => True

section
variable {σ : Type} (u : FileCalls σ)

/-- `demoWriteLoop` with a record of the passes that reach the assertion, the last one
among them when it goes wrong there or at the copy. -/
def demoWritePasses : Nat → σ → DemoFile → Nat → Bytes → Int → Int →
    List Pass × Option (σ × DemoFile × Rc)
  | fuel, s, p, taken, z, n, i =>
    if n ≤ 0 then ([], some (s, p, .SQLITE_OK))
    else match fuel with
      | 0 => ([], none)
      | fuel + 1 =>
        let (s, p, rc) :=
          if p.nBuffer = SQLITE_TEEVFS_BUFFERSZ ∨ p.iBufferOfst + p.nBuffer ≠ i then
            demoFlushBuffer u s p
          else (s, p, .SQLITE_OK)
        if rc ≠ .SQLITE_OK then ([], some (s, p, rc))
        else
          let room := SQLITE_TEEVFS_BUFFERSZ - p.nBuffer
          let nCopy := if room > n then n else room
          let pass := ⟨p, i, taken, nCopy⟩
          if p.nBuffer = 0 ∨ p.iBufferOfst + p.nBuffer = i then
            match memcpy (p.aBuffer.getD []) p.nBuffer z nCopy with
            | none => ([pass], none)
            | some aBuffer =>
              let p := { p with aBuffer := some aBuffer, iBufferOfst := i - p.nBuffer,
                                nBuffer := p.nBuffer + nCopy }
              let (passes, result) := demoWritePasses fuel s p (taken + nCopy.toNat)
                (z.drop nCopy.toNat) (n - nCopy) (i + nCopy)
              (pass :: passes, result)
          else ([pass], none)

/-- `demoWrite` with a count that need not be the size of the block. -/
def demoWriteAmt (s : σ) (p : DemoFile) (zBuf : Bytes) (iAmt iOfst : Int) :
    Option (σ × DemoFile × Rc) :=
  match p.aBuffer with
  | some _ => demoWriteLoop u iAmt.toNat s p zBuf iAmt iOfst
  | none =>
    let (s, rc) := demoDirectWrite u s p zBuf iAmt iOfst
    some (s, p, rc)

/-- The passes of a call of `demoWrite` on a buffered handle. -/
def writePasses (s : σ) (p : DemoFile) (zBuf : Bytes) (iAmt iOfst : Int) : List Pass :=
  (demoWritePasses u iAmt.toNat s p 0 zBuf iAmt iOfst).1

def handleStep : σ × DemoFile → HandleCall → Option ((σ × DemoFile) × Rc)
  | (s, p), .demoWrite zBuf iAmt iOfst =>
    (demoWriteAmt u s p zBuf iAmt iOfst).map fun (s, p, rc) => ((s, p), rc)
  | (s, p), .demoRead zBuf iAmt iOfst =>
    let (s, p, rc, _) := demoRead u s p zBuf iAmt iOfst
    some ((s, p), rc)
  | (s, p), .demoSync =>
    let (s, p, rc) := demoSync u s p
    some ((s, p), rc)
  | (s, p), .demoFileSize pSize =>
    let (s, p, rc, _) := demoFileSize u s p pSize
    some ((s, p), rc)

theorem demoWriteAmt_length (s : σ) (p : DemoFile) (zBuf : Bytes) (iOfst : Int) :
    demoWriteAmt u s p zBuf zBuf.length iOfst = demoWrite u s p zBuf iOfst := rfl

/-- The record does not change what the loop does. -/
theorem demoWritePasses_result (fuel : Nat) (s : σ) (p : DemoFile) (taken : Nat) (z : Bytes)
    (n i : Int) :
    (demoWritePasses u fuel s p taken z n i).2 = demoWriteLoop u fuel s p z n i := by
  induction fuel generalizing s p taken z n i with
  | zero =>
    unfold demoWritePasses demoWriteLoop
    by_cases done : n ≤ 0
    · rw [if_pos done, if_pos done]
    · rw [if_neg done, if_neg done]
  | succ fuel ih =>
    unfold demoWritePasses demoWriteLoop
    by_cases done : n ≤ 0
    · rw [if_pos done, if_pos done]
    · rw [if_neg done, if_neg done]
      generalize (if p.nBuffer = SQLITE_TEEVFS_BUFFERSZ ∨ p.iBufferOfst + p.nBuffer ≠ i then
        demoFlushBuffer u s p else (s, p, .SQLITE_OK)) = settled
      obtain ⟨s, p, rc⟩ := settled
      dsimp only
      by_cases failed : rc ≠ .SQLITE_OK
      · rw [if_pos failed, if_pos failed]
      · rw [if_neg failed, if_neg failed]
        by_cases assertion : p.nBuffer = 0 ∨ p.iBufferOfst + p.nBuffer = i
        · rw [if_pos assertion, if_pos assertion]
          generalize memcpy _ _ _ _ = copied
          cases copied with
          | none => rfl
          | some aBuffer => exact ih _ _ _ _ _ _
        · rw [if_neg assertion, if_neg assertion]

end

/-- What a pass promises when `iAmt` bytes are to be written. -/
structure Pass.Sound (iAmt : Int) (pass : Pass) : Prop where
  assertion : pass.p.nBuffer = 0 ∨ pass.p.iBufferOfst + pass.p.nBuffer = pass.i
  block : ∃ buf, pass.p.aBuffer = some buf ∧ buf.length = SQLITE_TEEVFS_BUFFERSZ
  start : 0 ≤ pass.p.nBuffer
  writes : pass.p.nBuffer + pass.nCopy ≤ SQLITE_TEEVFS_BUFFERSZ
  reads : pass.taken + pass.nCopy ≤ iAmt
  copies : 1 ≤ pass.nCopy

section
variable {σ : Type} (u : FileCalls σ)

/-- One pass of the recorded loop, for any results of the system calls. -/
theorem demoWritePasses_pass (fuel : Nat) (s : σ) {p : DemoFile} (h : Buffered p) (taken : Nat)
    {z : Bytes} {n i : Int} (some_ : 0 < n) (enough : n ≤ z.length) (hi : 0 ≤ i) :
    demoWritePasses u (fuel + 1) s p taken z n i =
      let r := settle u s p i
      if r.2.2 ≠ .SQLITE_OK then ([], some r)
      else
        let y := z.take n.toNat
        let nCopy : Nat := (y.take r.2.1.room).length
        let rest := demoWritePasses u fuel r.1 (r.2.1.accept y i) (taken + nCopy)
          (z.drop nCopy) (n - nCopy) (i + nCopy)
        (⟨r.2.1, i, taken, nCopy⟩ :: rest.1, rest.2) := by
  obtain ⟨hb, hroom, hassert, -⟩ := settle_ready u (s := s) h hi
  rw [demoWritePasses, if_neg (Int.not_le.mpr some_)]
  rw [show (if p.nBuffer = SQLITE_TEEVFS_BUFFERSZ ∨ p.iBufferOfst + p.nBuffer ≠ i then
    demoFlushBuffer u s p else (s, p, .SQLITE_OK)) = settle u s p i from rfl]
  generalize settle u s p i = r at hb hroom hassert ⊢
  obtain ⟨s', p', rc⟩ := r
  dsimp only at hb hroom hassert ⊢
  rw [if_pos hassert]
  split
  · rfl
  · obtain ⟨buf, hbuf, -⟩ := hb.block
    obtain ⟨hcopy, hmem⟩ := hb.copy hbuf some_ enough
    rw [hcopy, hbuf, Option.getD_some, hmem, Int.toNat_natCast]
    simp only [DemoFile.accept, hbuf, Option.getD_some]

/-- The passes of a loop that may make as many as there are bytes left. -/
theorem passes_sound {iAmt : Int} (fuel : Nat) (s : σ) {p : DemoFile} (h : Buffered p)
    (taken : Nat) (z : Bytes) (n i : Int) (left : taken + n ≤ iAmt) (enough : n ≤ z.length)
    (fuelled : n ≤ fuel) (hi : 0 ≤ i) :
    (∀ pass ∈ (demoWritePasses u fuel s p taken z n i).1, pass.Sound iAmt) ∧
    ∃ s' p' rc, (demoWritePasses u fuel s p taken z n i).2 = some (s', p', rc) ∧ Buffered p' := by
  induction fuel generalizing s p taken z n i with
  | zero =>
    have done : n ≤ 0 := fuelled
    rw [demoWritePasses, if_pos done]
    exact ⟨fun _ none => absurd none List.not_mem_nil, s, p, _, rfl, h⟩
  | succ fuel ih =>
    by_cases done : n ≤ 0
    · rw [demoWritePasses, if_pos done]
      exact ⟨fun _ none => absurd none List.not_mem_nil, s, p, _, rfl, h⟩
    · obtain ⟨ready, room, assertion, place⟩ := settle_ready u (s := s) h hi
      rw [demoWritePasses_pass u fuel s h taken (Int.not_le.mp done) enough hi]
      generalize settle u s p i = r at ready room assertion place ⊢
      dsimp only
      split
      · exact ⟨fun _ none => absurd none List.not_mem_nil, _, _, _, rfl, ready⟩
      · have accepted := ready.accept (z.take n.toNat) place
        have free := ready.room_add
        generalize copied : ((z.take n.toNat).take r.2.1.room).length = k
        have amount : (k : Int) = min (r.2.1.room : Int) n := by
          rw [← copied, List.length_take, List.length_take]
          omega
        -- the buffer has room, so the pass takes a byte and the rest needs less fuel
        obtain ⟨sound, s', p', rc, result, ready'⟩ := ih r.1 accepted (taken + k) (z.drop k)
          (n - k) (i + k) (by omega) (by rw [List.length_drop]; omega) (by omega) (by omega)
        refine ⟨?_, s', p', rc, result, ready'⟩
        intro pass member
        rcases List.mem_cons.mp member with rfl | later
        · exact ⟨assertion, ready.block, ready.nonneg, by dsimp only; omega, by dsimp only; omega,
            by dsimp only; omega⟩
        · exact sound pass later

variable {u}

/-- A write to a buffered handle returns, after passes that are all sound. -/
theorem write_progress {s : σ} {p : DemoFile} (h : Buffered p) {zBuf : Bytes} {iAmt iOfst : Int}
    (enough : iAmt ≤ zBuf.length) (hi : 0 ≤ iOfst) :
    (∀ pass ∈ writePasses u s p zBuf iAmt iOfst, pass.Sound iAmt) ∧
    ∃ s' p' rc, demoWriteAmt u s p zBuf iAmt iOfst = some (s', p', rc) ∧ Buffered p' := by
  obtain ⟨buf, block, -⟩ := h.block
  rw [writePasses, demoWriteAmt, block]
  dsimp only
  rw [← demoWritePasses_result u _ s p 0]
  exact passes_sound u _ s h 0 zBuf iAmt iOfst (by omega) enough (by omega) hi

/-- Whatever the system calls give, a call returns and leaves the handle buffered. -/
theorem handleStep_answers {x : σ × DemoFile} {call : HandleCall} (h : Buffered x.2)
    (admitted : call.Admitted) :
    ∃ x' rc, handleStep u x call = some (x', rc) ∧ Buffered x'.2 := by
  obtain ⟨s, p⟩ := x
  cases call with
  | demoWrite zBuf iAmt iOfst =>
    obtain ⟨-, s', p', rc, result, ready⟩ :=
      write_progress (u := u) (s := s) h admitted.1 admitted.2
    exact ⟨(s', p'), rc, by rw [handleStep, result]; rfl, ready⟩
  | demoRead zBuf iAmt iOfst =>
    exact ⟨_, _, rfl, (read_handle u s p zBuf iAmt iOfst).symm ▸ h.drained⟩
  | demoSync => exact ⟨_, _, rfl, (sync_handle u s p).symm ▸ h.drained⟩
  | demoFileSize pSize =>
    exact ⟨_, _, rfl, (fileSize_handle u s p pSize).symm ▸ h.drained⟩

/-- A run on a journal handle, whose calls are the admitted ones. -/
abbrev HandleRun (u : FileCalls σ) (s₀ : σ) (fd : Int) (b : Block) :
    List (HandleCall × Rc) → σ × DemoFile → Prop :=
  Run (handleStep u) (fun _ call => call.Admitted) (s₀, .opened fd (some b))

theorem HandleRun.buffered {s₀ : σ} {fd : Int} {b : Block} {h : List (HandleCall × Rc)}
    {x : σ × DemoFile} (run : HandleRun u s₀ fd b h x) : Buffered x.2 := by
  apply run.invariant (fun _ x => Buffered x.2) (opened_buffered fd b)
  intro h y call y' rc ready admitted answer
  obtain ⟨y'', rc', same, ready'⟩ := handleStep_answers (u := u) ready admitted
  obtain ⟨rfl, -⟩ := Prod.mk.inj (Option.some.inj (answer.symm.trans same))
  exact ready'

/-- No admitted call is left without an answer. -/
theorem exists_handleRun (u : FileCalls σ) (s₀ : σ) (fd : Int) (b : Block)
    (calls : List HandleCall) (admitted : ∀ call ∈ calls, call.Admitted) :
    ∃ h x, HandleRun u s₀ fd b h x ∧ h.map Prod.fst = calls := by
  have start : Buffered (s₀, DemoFile.opened fd (some b)).2 := opened_buffered fd b
  obtain ⟨h, x, run, inputs, -⟩ := exists_run (handleStep u) (fun _ call => call.Admitted)
    (fun x => Buffered x.2) start calls
    fun x call member ready =>
      ⟨admitted call member, handleStep_answers ready (admitted call member)⟩
  exact ⟨h, x, run, inputs⟩

/-- **The write buffer.** In every state that a journal handle gets into, whatever the
system calls under it gave, the count is that of bytes in the buffer, and a write of any
size returns: each of its passes meets the assertion, copies at least one byte, and copies
inside both blocks. -/
theorem write_buffer_sound {s₀ s : σ} {fd : Int} {b : Block} {p : DemoFile}
    {h : List (HandleCall × Rc)} (run : HandleRun u s₀ fd b h (s, p)) :
    0 ≤ p.nBuffer ∧ p.nBuffer ≤ SQLITE_TEEVFS_BUFFERSZ ∧
    ∀ (zBuf : Bytes) (iAmt iOfst : Int), iAmt ≤ zBuf.length → 0 ≤ iOfst →
      (∀ pass ∈ writePasses u s p zBuf iAmt iOfst, pass.Sound iAmt) ∧
      ∃ result, demoWriteAmt u s p zBuf iAmt iOfst = some result := by
  refine ⟨run.buffered.nonneg, run.buffered.fits, ?_⟩
  intro zBuf iAmt iOfst enough hi
  obtain ⟨sound, s', p', rc, result, -⟩ :=
    write_progress (u := u) (s := s) run.buffered enough hi
  exact ⟨sound, _, result⟩

end

/-- System calls of which each fails. -/
def failing : FileCalls Unit where
  utee_vfs_lseek _ _ _ _ := ((), -1)
  utee_vfs_write _ _ _ := ((), -1)
  utee_vfs_read _ _ zBuf _ := ((), -1, zBuf)
  utee_vfs_fsync _ _ := ((), -1)
  utee_vfs_filesize _ _ := ((), -1)
  utee_vfs_close _ _ := ((), -1)

/-- A byte is lost in the flush of a sync, and the next write finds the buffer in order. -/
theorem write_after_a_failed_flush : ∃ h p,
    HandleRun failing () 3 ⟨List.replicate _ 0, List.length_replicate⟩ h ((), p) ∧
    h.map Prod.fst = [.demoSync, .demoWrite [1] 1 5] ∧
    ∀ pass ∈ writePasses failing () p [1, 2] 2 0, pass.Sound 2 := by
  obtain ⟨h, ⟨s, p⟩, run, calls⟩ := exists_handleRun failing () 3
    ⟨List.replicate _ 0, List.length_replicate⟩ [.demoSync, .demoWrite [1] 1 5] (by
      simp [HandleCall.Admitted])
  exact ⟨h, p, run, calls, ((write_buffer_sound run).2.2 [1, 2] 2 0 (by decide) (by decide)).1⟩

end TeeSqlite
