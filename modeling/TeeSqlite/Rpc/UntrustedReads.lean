import TeeSqlite.Rpc.Failure
import TeeSqlite.Vfs.Buffer

/-! A read of the VFS against a normal world that answers anything: what it can do to
the caller's buffer, and what a result of it says about the bytes there. -/
namespace TeeSqlite
open ByteFile CTypes

section
variable {σ : Type}

/-- The call of `utee_vfs_read` that a read makes when it gets so far. -/
def readCall (u : FileCalls σ) (s : σ) (p : DemoFile) (zBuf : Bytes) (iAmt iOfst : Int) :
    σ × Int × Bytes :=
  let flushed := demoFlushBuffer u s p
  let sought := u.utee_vfs_lseek flushed.1 p.fd iOfst SEEK_SET
  u.utee_vfs_read sought.1 p.fd zBuf iAmt.toNat

/-- The count it answers with, converted to `int`. -/
def readCount (u : FileCalls σ) (s : σ) (p : DemoFile) (zBuf : Bytes) (iAmt iOfst : Int) : Int :=
  toInt32 (readCall u s p zBuf iAmt iOfst).2.1

theorem flush_code (u : FileCalls σ) (s : σ) (p : DemoFile) :
    (demoFlushBuffer u s p).2.2 = .SQLITE_OK ∨
      (demoFlushBuffer u s p).2.2 = .SQLITE_IOERR_WRITE := by
  unfold demoFlushBuffer demoDirectWrite
  dsimp only
  split_ifs
  · exact .inr rfl
  · exact .inr rfl
  · exact .inl rfl
  · exact .inl rfl

/-- What `demoRead` makes of the call, or of not getting there. -/
theorem demoRead_cases (u : FileCalls σ) (s : σ) (p : DemoFile) (zBuf : Bytes)
    (iAmt iOfst : Int) {s' : σ} {p' : DemoFile} {rc : Rc} {out : Bytes}
    (h : demoRead u s p zBuf iAmt iOfst = (s', p', rc, out)) :
    let n := readCount u s p zBuf iAmt iOfst
    let got := (readCall u s p zBuf iAmt iOfst).2.2
    (rc ≠ .SQLITE_OK ∧ rc ≠ .SQLITE_IOERR_SHORT_READ ∧ (out = zBuf ∨ out = got)) ∨
    (rc = .SQLITE_OK ∧ n = iAmt ∧ out = got) ∨
    (rc = .SQLITE_IOERR_SHORT_READ ∧ iAmt < n ∧ out = got) ∨
    (rc = .SQLITE_IOERR_SHORT_READ ∧ 0 ≤ n ∧ n < iAmt ∧
      out = splice got n.toNat (List.replicate (iAmt - n).toNat 0)) := by
  have fd : (demoFlushBuffer u s p).2.1.fd = p.fd := by rw [flush_handle]; rfl
  have code := flush_code u s p
  unfold demoRead at h
  unfold readCount readCall
  generalize demoFlushBuffer u s p = flushed at *
  dsimp only at h ⊢
  rw [fd] at h
  split_ifs at h with notFlushed notThere whole nonneg short
  all_goals
    simp only [Prod.mk.injEq] at h
    obtain ⟨-, -, rfl, rfl⟩ := h
  · rcases code with ok | failed
    · exact absurd ok notFlushed
    · rw [failed]
      exact .inl ⟨by decide, by decide, .inl rfl⟩
  · exact .inl ⟨by decide, by decide, .inl rfl⟩
  · exact .inr (.inl ⟨rfl, whole, rfl⟩)
  · exact .inr (.inr (.inr ⟨rfl, nonneg, short, rfl⟩))
  · have past := Int.lt_iff_le_and_ne.mpr ⟨Int.not_lt.mp short, Ne.symm whole⟩
    exact .inr (.inr (.inl ⟨rfl, past, rfl⟩))
  · exact .inl ⟨by decide, by decide, .inr rfl⟩

end

section
variable {σ : Type} (rpc : RpcCmd σ) (alloc : AllocPayload)

/-- The request of a read of `n` bytes into the payload `va`. -/
def readRequest (fd : Int) (n : Nat) (va : Bytes) : Request :=
  ⟨[zeroed va n], [THREAD_PARAM_VALUE .INOUT (OPTEE_VFS .READ) 0 0,
    THREAD_PARAM_MEMREF .OUT (some 0),
    THREAD_PARAM_VALUE .IN (sext (BitVec.ofInt 32 fd)) (BitVec.ofNat 64 n) 0]⟩

/-- The payload as the normal world leaves it is as long as before. -/
def KeepsSizes : Prop := ∀ s m, (rpc s m).2.1.shm.map List.length = m.shm.map List.length

/-- The system call copies `n` bytes of the payload out, or makes no request. -/
theorem utee_vfs_read_cases (s : σ) (fd : Int) (zBuf : Bytes) (n : Nat) :
    let call := (utee rpc alloc).utee_vfs_read s fd zBuf n
    call.2 = (-1, zBuf) ∨ ∃ va, n ≤ va.length ∧
      call.2.2 = splice zBuf 0 (((rpc s (readRequest fd n va)).2.1.shm[0]?.getD []).take n) := by
  simp only [utee, syscall_vfs_read]
  by_cases given : Given alloc 0 n
  · obtain ⟨va, -, fits, payload⟩ := given.withPayload_eq
    rw [payload]
    exact .inr ⟨va, fits, rfl⟩
  · rw [withPayload_exit given]
    exact .inl rfl

/-- A read with that count is safe: it writes the caller's bytes only, it reports
success for a whole read only, behind a short one it leaves zeros, and what it passes
on are bytes of the payload that came back. -/
structure SafeRead (fd : Int) (zBuf : Bytes) (iAmt count : Int) (rc : Rc) (out : Bytes) :
    Prop where
  length : out.length = zBuf.length
  beyond : out.drop iAmt.toNat = zBuf.drop iAmt.toNat
  whole : rc = .SQLITE_OK → count = iAmt
  counted : rc = .SQLITE_IOERR_SHORT_READ → 0 ≤ count
  zeros : rc = .SQLITE_IOERR_SHORT_READ → ∀ i : Nat, count ≤ i → i < iAmt → out[i]? = some 0
  received : rc = .SQLITE_OK ∨ rc = .SQLITE_IOERR_SHORT_READ → KeepsSizes rpc →
    ∃ s va block, (rpc s (readRequest fd iAmt.toNat va)).2.1.shm[0]? = some block ∧
      ∀ i : Nat, i < count → i < iAmt → out[i]? = block[i]?

/-- The buffer behind the call: no byte past the count is touched. -/
theorem readCall_confined (s : σ) (p : DemoFile) {zBuf : Bytes} {iAmt : Int}
    (fits : iAmt ≤ zBuf.length) (iOfst : Int) :
    let got := (readCall (utee rpc alloc).toFileCalls s p zBuf iAmt iOfst).2.2
    got.length = zBuf.length ∧ got.drop iAmt.toNat = zBuf.drop iAmt.toNat := by
  unfold readCall
  dsimp only
  generalize ((utee rpc alloc).utee_vfs_lseek _ p.fd iOfst SEEK_SET).1 = s'
  obtain unsent | ⟨va, -, made⟩ := utee_vfs_read_cases rpc alloc s' p.fd zBuf iAmt.toNat
  · rw [unsent]
    exact ⟨rfl, rfl⟩
  · rw [made]
    have short := List.length_take_le iAmt.toNat
      ((rpc s' (readRequest p.fd iAmt.toNat va)).2.1.shm[0]?.getD [])
    generalize ((rpc s' _).2.1.shm[0]?.getD []).take _ = reply at *
    constructor
    · exact length_splice zBuf 0 reply (by omega)
    · exact drop_splice_past zBuf 0 reply (by omega) (by omega)

/-- A call that answers with a count made its request, and the bytes are the reply's. -/
theorem readCall_received (keeps : KeepsSizes rpc) (s : σ) (p : DemoFile) {zBuf : Bytes}
    {iAmt : Int} (fits : iAmt ≤ zBuf.length) (iOfst : Int)
    (counted : 0 ≤ readCount (utee rpc alloc).toFileCalls s p zBuf iAmt iOfst) :
    ∃ s' va block, (rpc s' (readRequest p.fd iAmt.toNat va)).2.1.shm[0]? = some block ∧
      ∀ i : Nat, i < iAmt →
        (readCall (utee rpc alloc).toFileCalls s p zBuf iAmt iOfst).2.2[i]? = block[i]? := by
  unfold readCount readCall at counted
  unfold readCall
  dsimp only at counted ⊢
  generalize ((utee rpc alloc).utee_vfs_lseek _ p.fd iOfst SEEK_SET).1 = s' at counted ⊢
  obtain unsent | ⟨va, enough, made⟩ := utee_vfs_read_cases rpc alloc s' p.fd zBuf iAmt.toNat
  · rw [unsent] at counted
    have failed : ¬ 0 ≤ toInt32 (-1) := by decide
    exact absurd counted failed
  · have sizes := keeps s' (readRequest p.fd iAmt.toNat va)
    obtain ⟨block, shared, length⟩ : ∃ block,
        (rpc s' (readRequest p.fd iAmt.toNat va)).2.1.shm[0]? = some block ∧
          block.length = va.length := by
      generalize (rpc s' _).2.1.shm = shm at sizes
      cases shm with
      | nil => cases sizes
      | cons block rest =>
        refine ⟨block, rfl, ?_⟩
        have first := (List.cons.inj sizes).1
        rwa [length_zeroed enough] at first
    refine ⟨s', va, block, shared, ?_⟩
    intro i inside
    have copied : (block.take iAmt.toNat).length = iAmt.toNat := by
      rw [List.length_take]
      omega
    rw [made, shared, Option.getD_some, getElem?_splice _ _ _ (by omega), if_pos (by omega),
      List.getElem?_take_of_lt (by omega), Nat.sub_zero]

/-- A read is safe whatever the normal world does. -/
theorem read_is_safe (s : σ) (p : DemoFile) (zBuf : Bytes) (iAmt iOfst : Int)
    (some_bytes : 1 ≤ iAmt) (fits : iAmt ≤ zBuf.length) {s' : σ} {p' : DemoFile} {rc : Rc}
    {out : Bytes}
    (h : demoRead (utee rpc alloc).toFileCalls s p zBuf iAmt iOfst = (s', p', rc, out)) :
    SafeRead rpc p.fd zBuf iAmt (readCount (utee rpc alloc).toFileCalls s p zBuf iAmt iOfst) rc
      out := by
  have result := demoRead_cases _ s p zBuf iAmt iOfst h
  obtain ⟨length, beyond⟩ := readCall_confined rpc alloc s p fits iOfst
  have received (keeps : KeepsSizes rpc) := readCall_received rpc alloc keeps s p fits iOfst
  generalize readCount (utee rpc alloc).toFileCalls s p zBuf iAmt iOfst = c at result received ⊢
  generalize (readCall (utee rpc alloc).toFileCalls s p zBuf iAmt iOfst).2.2 = got
    at result received length beyond
  dsimp only at result
  obtain ⟨notOk, notShort, either⟩ | ⟨rfl, rfl, rfl⟩ | ⟨rfl, more, rfl⟩ |
    ⟨rfl, nonneg, less, rfl⟩ := result
  · have kept : out.length = zBuf.length ∧ out.drop iAmt.toNat = zBuf.drop iAmt.toNat := by
      rcases either with rfl | rfl
      · exact ⟨rfl, rfl⟩
      · exact ⟨length, beyond⟩
    exact ⟨kept.1, kept.2, fun ok => absurd ok notOk, fun short => absurd short notShort,
      fun short => absurd short notShort, fun either => (either.elim notOk notShort).elim⟩
  · refine ⟨length, beyond, fun _ => rfl, by rintro ⟨⟩, by rintro ⟨⟩, ?_⟩
    intro _ keeps
    obtain ⟨s', va, block, shared, bytes⟩ := received keeps (by omega)
    exact ⟨s', va, block, shared, fun i _ => bytes i⟩
  · refine ⟨length, beyond, by rintro ⟨⟩, fun _ => by omega, ?_, ?_⟩
    · intro _ i past inside
      omega
    · intro _ keeps
      obtain ⟨s', va, block, shared, bytes⟩ := received keeps (by omega)
      exact ⟨s', va, block, shared, fun i _ => bytes i⟩
  · have zeros : (List.replicate (iAmt - c).toNat (0 : UInt8)).length = (iAmt - c).toNat :=
      List.length_replicate
    have bytes := getElem?_splice got c.toNat (List.replicate (iAmt - c).toNat 0) (by omega)
    refine ⟨?_, ?_, by rintro ⟨⟩, fun _ => nonneg, ?_, ?_⟩
    · rw [length_splice got _ _ (by omega), length]
    · rw [drop_splice_past got _ _ (by omega) (by omega), beyond]
    · intro _ i past inside
      rw [bytes, if_pos (by omega), List.getElem?_replicate, if_pos (by omega)]
    · intro _ keeps
      obtain ⟨s', va, block, shared, same⟩ := received keeps nonneg
      refine ⟨s', va, block, shared, ?_⟩
      intro i before inside
      rw [bytes, if_neg (by omega), same i inside]

end

/-- Every request is answered with 2^32 + 1, and no payload is filled. -/
def farAnswers : RpcCmd Unit := fun s m => (s, ⟨m.shm, [.value .INOUT ⟨0, 0x100000001, 0⟩]⟩, 0)

/-- The count is 1 as an `int`, so that the other stale bytes are zeroed. -/
theorem far_answer_is_a_short_read :
    SafeRead farAnswers 3 [1, 2, 3, 4] 3 1 .SQLITE_IOERR_SHORT_READ [0, 0, 0, 4] :=
  read_is_safe farAnswers freshBlocks () ⟨3, none, 0, 0⟩ [1, 2, 3, 4] 3 0x100000001 (by decide)
    (by decide) rfl

end TeeSqlite
