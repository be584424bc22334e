import TeeSqlite.Vfs.Coalesce
import TeeSqlite.Vfs.Durable
import TeeSqlite.Vfs.Progress

/-! The order in which the bytes of a journal get to its file. -/
namespace TeeSqlite
open ByteFile CTypes Runs

/-- The bytes that a handle owes its file, with their places. -/
def DemoFile.owed (p : DemoFile) : List (Nat × UInt8) := bytesAt p.iBufferOfst.toNat p.pending

/-- The bytes that a call asks to write, with their places. -/
def HandleCall.bytes : HandleCall → List (Nat × UInt8)
  | .demoWrite zBuf iAmt iOfst => bytesAt iOfst.toNat (zBuf.take iAmt.toNat)
  | _ => []

/-- What the calls asked to write, in order. -/
def bytesAsked : List (HandleCall × Rc) → List (Nat × UInt8)
  | [] => []
  | (call, _) :: h => bytesAsked h ++ call.bytes

section
variable {σ : Type} (u : FileCalls σ) (Sent : σ → List (Nat × UInt8) → Prop) (Failed : σ → Prop)

/-- `Sent` says what was sent to the file so far: a flush adds what the handle owes, unless
it fails, and nothing else adds to it. -/
structure Sends : Prop where
  flush : ∀ {s bs p}, Sent s bs → Buffered p → p.nBuffer ≠ 0 →
    let r := demoFlushBuffer u s p
    r.2.2 = .SQLITE_OK ∧ Sent r.1 (bs ++ p.owed) ∨
      r.2.2 = .SQLITE_IOERR_WRITE ∧ Failed r.1 ∧ (Sent r.1 bs ∨ Sent r.1 (bs ++ p.owed))
  lseek : ∀ {s bs}, Sent s bs → ∀ fd ofst whence, Sent (u.utee_vfs_lseek s fd ofst whence).1 bs
  read : ∀ {s bs}, Sent s bs → ∀ fd buf n, Sent (u.utee_vfs_read s fd buf n).1 bs
  fsync : ∀ {s bs}, Sent s bs → ∀ fd, Sent (u.utee_vfs_fsync s fd).1 bs
  filesize : ∀ {s bs}, Sent s bs → ∀ fd, Sent (u.utee_vfs_filesize s fd).1 bs

/-- After `bs` was sent and `all` was due: all of it is sent or owed, or a flush failed and
the file got the first of it. -/
def Outgoing (bs all : List (Nat × UInt8)) (s : σ) (p : DemoFile) (rc : Rc) : Prop :=
  ∃ bs', Sent s bs' ∧ bs <+: bs' ∧
    (rc ≠ .SQLITE_IOERR_WRITE ∧ bs' ++ p.owed = all ∨
      rc = .SQLITE_IOERR_WRITE ∧ Failed s ∧ bs' <+: all ∧ p.owed = [])

end

@[simp] theorem drained_owed (p : DemoFile) : p.drained.owed = [] := by
  rw [DemoFile.owed, drained_pending, bytesAt_nil]

theorem Buffered.owed_idle {p : DemoFile} (h : Buffered p) (idle : p.nBuffer = 0) :
    p.owed = [] := by
  rw [DemoFile.owed, h.pending_nil.mpr idle, bytesAt_nil]

/-- A pass puts its piece behind what is owed. -/
theorem Buffered.accept_owed {p : DemoFile} (h : Buffered p) (z : Bytes) {i : Int} (hi : 0 ≤ i)
    (ready : p.nBuffer = 0 ∨ p.iBufferOfst + p.nBuffer = i) :
    (p.accept z i).owed = p.owed ++ bytesAt i.toNat (z.take p.room) := by
  have length := h.length_pending
  have place := h.place
  rw [DemoFile.owed, h.accept_pending, bytesAt_append]
  simp only [DemoFile.accept]
  rcases ready with idle | contiguous
  · rw [h.owed_idle idle, h.pending_nil.mpr idle, idle]
    simp
  · rw [DemoFile.owed]
    congr 2 <;> omega

theorem flush_cases {σ : Type} (u : FileCalls σ) (s : σ) {p : DemoFile}
    (some_bytes : p.nBuffer ≠ 0) :
    let sought := u.utee_vfs_lseek s p.fd p.iBufferOfst SEEK_SET
    let wrote := u.utee_vfs_write sought.1 p.fd p.pending
    let r := demoFlushBuffer u s p
    sought.2 ≠ p.iBufferOfst ∧ r.1 = sought.1 ∧ r.2.2 = .SQLITE_IOERR_WRITE ∨
      sought.2 = p.iBufferOfst ∧ r.1 = wrote.1 ∧
        r.2.2 = if wrote.2 = p.nBuffer then .SQLITE_OK else .SQLITE_IOERR_WRITE := by
  dsimp only
  rw [DemoFile.pending]
  by_cases there : (u.utee_vfs_lseek s p.fd p.iBufferOfst SEEK_SET).2 = p.iBufferOfst
  · refine .inr ⟨there, ?_⟩
    by_cases whole : (u.utee_vfs_write (u.utee_vfs_lseek s p.fd p.iBufferOfst SEEK_SET).1 p.fd
        ((p.aBuffer.getD []).take p.nBuffer.toNat)).2 = p.nBuffer
    · simp [demoFlushBuffer, demoDirectWrite, some_bytes, there, whole]
    · simp [demoFlushBuffer, demoDirectWrite, some_bytes, there, whole]
  · refine .inl ⟨there, ?_⟩
    simp [demoFlushBuffer, demoDirectWrite, some_bytes, there]

section
variable {σ : Type} {Sent : σ → List (Nat × UInt8) → Prop} {Failed : σ → Prop} {s : σ}
  {p : DemoFile} {bs bs₀ all : List (Nat × UInt8)} {rc : Rc}

theorem Outgoing.here (sent : Sent s bs) (fine : rc ≠ .SQLITE_IOERR_WRITE) :
    Outgoing Sent Failed bs (bs ++ p.owed) s p rc :=
  ⟨bs, sent, List.prefix_rfl, .inl ⟨fine, rfl⟩⟩

theorem Outgoing.after (before : bs₀ <+: bs) (out : Outgoing Sent Failed bs all s p rc) :
    Outgoing Sent Failed bs₀ all s p rc := by
  obtain ⟨bs', sent, grown, outcome⟩ := out
  exact ⟨bs', sent, before.trans grown, outcome⟩

theorem Outgoing.goes {s' : σ} (out : Outgoing Sent Failed bs all s p .SQLITE_OK)
    (fine : rc ≠ .SQLITE_IOERR_WRITE) (keeps : ∀ bs, Sent s bs → Sent s' bs) :
    Outgoing Sent Failed bs all s' p rc := by
  obtain ⟨bs', sent, grown, ⟨-, same⟩ | ⟨bad, -⟩⟩ := out
  · exact ⟨bs', keeps bs' sent, grown, .inl ⟨fine, same⟩⟩
  · cases bad

/-- After a failed flush it does not matter what else is due. -/
theorem Outgoing.failed (out : Outgoing Sent Failed bs all s p .SQLITE_IOERR_WRITE)
    (more : List (Nat × UInt8)) :
    Outgoing Sent Failed bs (all ++ more) s p .SQLITE_IOERR_WRITE := by
  obtain ⟨bs', sent, grown, ⟨fine, -⟩ | ⟨-, failed, first, none⟩⟩ := out
  · exact absurd rfl fine
  · exact ⟨bs', sent, grown, .inr ⟨rfl, failed, first.trans (List.prefix_append _ _), none⟩⟩

end

section
variable {σ : Type} {u : FileCalls σ} {Sent : σ → List (Nat × UInt8) → Prop} {Failed : σ → Prop}
  (sends : Sends u Sent Failed) {s : σ} {p : DemoFile} {bs all : List (Nat × UInt8)}
include sends

theorem Sends.flush_outgoing (sent : Sent s bs) (h : Buffered p) :
    let r := demoFlushBuffer u s p
    (r.2.2 = .SQLITE_OK ∨ r.2.2 = .SQLITE_IOERR_WRITE) ∧
      Outgoing Sent Failed bs (bs ++ p.owed) r.1 r.2.1 r.2.2 := by
  dsimp only
  have handle := flush_handle u s p
  by_cases idle : p.nBuffer = 0
  · rw [flush_idle u s idle]
    exact ⟨.inl rfl, .here sent (by rintro ⟨⟩)⟩
  · have outcome := sends.flush sent h idle
    generalize demoFlushBuffer u s p = r at handle outcome
    obtain ⟨s', p', rc⟩ := r
    dsimp only at handle outcome ⊢
    subst handle
    obtain ⟨rfl, all⟩ | ⟨rfl, failed, none | all⟩ := outcome
    · exact ⟨.inl rfl, _, all, List.prefix_append _ _, .inl ⟨by decide, by simp⟩⟩
    · exact ⟨.inr rfl, _, none, List.prefix_rfl,
        .inr ⟨rfl, failed, List.prefix_append _ _, drained_owed p⟩⟩
    · exact ⟨.inr rfl, _, all, List.prefix_append _ _,
        .inr ⟨rfl, failed, List.prefix_rfl, drained_owed p⟩⟩

theorem Sends.settle_outgoing (sent : Sent s bs) (h : Buffered p) (i : Int) :
    let r := settle u s p i
    (r.2.2 = .SQLITE_OK ∨ r.2.2 = .SQLITE_IOERR_WRITE) ∧
      Outgoing Sent Failed bs (bs ++ p.owed) r.1 r.2.1 r.2.2 := by
  unfold settle
  split
  · exact sends.flush_outgoing sent h
  · exact ⟨.inl rfl, .here sent (by rintro ⟨⟩)⟩

/-- The loop of `demoWrite` takes its bytes in order. -/
theorem Sends.writeLoop (fuel : Nat) (sent : Sent s bs) (h : Buffered p) {z : Bytes} {n i : Int}
    (enough : n ≤ z.length) (fuelled : n ≤ fuel) (hi : 0 ≤ i) :
    ∃ s' p' rc, demoWriteLoop u fuel s p z n i = some (s', p', rc) ∧ Buffered p' ∧
      Outgoing Sent Failed bs (bs ++ p.owed ++ bytesAt i.toNat (z.take n.toNat)) s' p' rc := by
  induction fuel generalizing s p bs z n i with
  | zero =>
    have done : n ≤ 0 := fuelled
    rw [demoWriteLoop, if_pos done, Int.toNat_of_nonpos done, List.take_zero, bytesAt_nil,
      List.append_nil]
    exact ⟨s, p, _, rfl, h, .here sent (by decide)⟩
  | succ fuel ih =>
    by_cases done : n ≤ 0
    · rw [demoWriteLoop, if_pos done, Int.toNat_of_nonpos done, List.take_zero, bytesAt_nil,
        List.append_nil]
      exact ⟨s, p, _, rfl, h, .here sent (by decide)⟩
    · obtain ⟨ready, room, contiguous, place⟩ := settle_ready u (s := s) h hi
      obtain ⟨code, out⟩ := sends.settle_outgoing sent h i
      rw [← demoWritePasses_result u (fuel + 1) s p 0,
        demoWritePasses_pass u fuel s h 0 (Int.not_le.mp done) enough hi]
      generalize settle u s p i = r at ready room contiguous place code out ⊢
      obtain ⟨s', q, rc⟩ := r
      dsimp only at ready room contiguous place code out ⊢
      rcases code with rfl | rfl
      · rw [if_neg (not_not.mpr rfl)]
        obtain ⟨bs', sent', grown, ⟨-, same⟩ | ⟨bad, -⟩⟩ := out
        · have free := ready.room_add
          generalize copied : ((z.take n.toNat).take q.room).length = k
          have amount : (k : Int) = min (q.room : Int) n := by
            rw [← copied, List.length_take, List.length_take]
            omega
          have left : (z.drop k).length = z.length - k := List.length_drop
          obtain ⟨s'', p'', rc, result, buffered, out⟩ :=
            ih sent' (ready.accept (z.take n.toNat) place) (z := z.drop k) (n := n - k) (i := i + k)
              (by omega) (by omega) (by omega)
          rw [ready.accept_owed (z.take n.toNat) hi contiguous] at out
          have piece : (z.take n.toNat).take q.room = (z.take n.toNat).take k := by
            rw [← copied, List.length_take, ← List.take_eq_take_min]
          have rest : (z.drop k).take (n - k).toNat = (z.take n.toNat).drop k := by
            rw [List.drop_take, show (n - k).toNat = n.toNat - k by omega]
          have ended : i.toNat + k = (i + k).toNat := by omega
          have due : bs' ++ (q.owed ++ bytesAt i.toNat ((z.take n.toNat).take q.room)) ++
              bytesAt (i + k).toNat ((z.drop k).take (n - k).toNat) =
                bs ++ p.owed ++ bytesAt i.toNat (z.take n.toNat) := by
            have whole := bytesAt_append i.toNat ((z.take n.toNat).take k) ((z.take n.toNat).drop k)
            rw [List.take_append_drop, ← piece, copied, ended, ← rest] at whole
            rw [whole, ← same, List.append_assoc, List.append_assoc, List.append_assoc]
          rw [due] at out
          refine ⟨s'', p'', rc, ?_, buffered, out.after grown⟩
          rw [demoWritePasses_result]
          exact result
        · cases bad
      · rw [if_pos (by decide)]
        exact ⟨s', q, _, rfl, ready, out.failed _⟩

/-- One call, whatever comes back from the system calls. -/
theorem Sends.step (sent : Sent s bs) (h : Buffered p) {call : HandleCall}
    (admitted : call.Admitted) {s' : σ} {p' : DemoFile} {rc : Rc}
    (answer : handleStep u (s, p) call = some ((s', p'), rc)) :
    Buffered p' ∧ Outgoing Sent Failed bs (bs ++ p.owed ++ call.bytes) s' p' rc := by
  cases call with
  | demoWrite zBuf iAmt iOfst =>
    obtain ⟨buf, block, -⟩ := h.block
    obtain ⟨s'', p'', rc'', result, buffered, out⟩ := sends.writeLoop iAmt.toNat sent h admitted.1
      (by omega) admitted.2
    simp only [handleStep, demoWriteAmt, block, result, Option.map_some] at answer
    cases answer
    exact ⟨buffered, out⟩
  | demoRead | demoSync | demoFileSize =>
    -- these start with a flush, and what comes after it sends nothing
    obtain ⟨code, out⟩ := sends.flush_outgoing sent h
    have handle := flush_handle u s p
    simp only [handleStep, demoRead, demoSync, demoFileSize] at answer
    generalize demoFlushBuffer u s p = r at code out handle answer
    obtain ⟨s₁, q, rc₁⟩ := r
    dsimp only at code out handle answer
    subst handle
    simp only [HandleCall.bytes, List.append_nil]
    rcases code with rfl | rfl
    · simp only [ne_eq, not_true_eq_false, if_false] at answer
      split_ifs at answer
      all_goals
        cases answer
        refine ⟨h.drained, out.goes (by rintro ⟨⟩) fun bs sent => ?_⟩
        first
          | exact sends.lseek sent _ _ _
          | exact sends.read (sends.lseek sent _ _ _) _ _ _
          | exact sends.fsync sent _
          | exact sends.filesize sent _
    · cases answer
      exact ⟨h.drained, out⟩

/-- A run, whatever comes back from the system calls. -/
theorem Sends.run {s₀ : σ} {fd : Int} {b : Block} (start : Sent s₀ []) {h : List (HandleCall × Rc)}
    (run : HandleRun u s₀ fd b h (s, p)) : ∃ bs, Sent s bs ∧
      (bs ++ p.owed).Sublist (bytesAsked h) ∧
      ((∀ e ∈ h, e.2 ≠ .SQLITE_IOERR_WRITE) → bs ++ p.owed = bytesAsked h) := by
  have reached := run.invariant (fun h x => Buffered x.2 ∧ ∃ bs, Sent x.1 bs ∧
    (bs ++ x.2.owed).Sublist (bytesAsked h) ∧
    ((∀ e ∈ h, e.2 ≠ .SQLITE_IOERR_WRITE) → bs ++ x.2.owed = bytesAsked h))
    ⟨opened_buffered fd b, [], start, by simp [DemoFile.owed, bytesAsked]⟩ ?_
  · exact reached.2
  · rintro h ⟨s, p⟩ call ⟨s', p'⟩ rc ⟨buffered, bs, sent, least, most⟩ admitted answer
    obtain ⟨buffered', bs', sent', -, outcome⟩ := sends.step sent buffered admitted answer
    have more : (bs ++ p.owed ++ call.bytes).Sublist (bytesAsked ((call, rc) :: h)) :=
      least.append_right _
    refine ⟨buffered', bs', sent', ?_, ?_⟩
    · rcases outcome with ⟨-, same⟩ | ⟨-, -, first, none⟩
      · exact same ▸ more
      · rw [none, List.append_nil]
        exact first.sublist.trans more
    · intro fine
      rcases outcome with ⟨-, same⟩ | ⟨bad, -⟩
      · rw [same, most fun e member => fine e (List.mem_cons_of_mem _ member), bytesAsked]
      · exact absurd bad (fine (call, rc) List.mem_cons_self)

end

/-- The bytes of all writes made, with their places. -/
def Recorded.sent {σ : Type} (s : Recorded σ) : List (Nat × UInt8) :=
  s.writes.flatMap fun w => bytesAt w.1.toNat w.2

theorem recorded_sends {σ : Type} (u : FileCalls σ) :
    Sends u.recorded (fun s bs => s.sent = bs) fun _ => True where
  flush := by
    rintro s bs p rfl h some_bytes
    have written : (s.writes ++ [(p.iBufferOfst, p.pending)]).flatMap
        (fun w => bytesAt w.1.toNat w.2) = s.sent ++ p.owed := by
      rw [List.flatMap_append, List.flatMap_singleton]
      rfl
    rcases flush_cases u.recorded s some_bytes with ⟨-, state, code⟩ | ⟨there, state, code⟩
    · have sent : (demoFlushBuffer u.recorded s p).1.sent = s.sent := by
        rw [state]
        rfl
      exact .inr ⟨code, trivial, .inl sent⟩
    · have sent : (demoFlushBuffer u.recorded s p).1.sent = s.sent ++ p.owed := by
        have last : (u.recorded.utee_vfs_write (u.recorded.utee_vfs_lseek s p.fd p.iBufferOfst
            SEEK_SET).1 p.fd p.pending).1.writes = s.writes ++ [(p.iBufferOfst, p.pending)] :=
          congrArg (fun place => s.writes ++ [(place, p.pending)]) there
        rw [state, Recorded.sent, last, written]
      by_cases whole : (u.recorded.utee_vfs_write (u.recorded.utee_vfs_lseek s p.fd p.iBufferOfst
          SEEK_SET).1 p.fd p.pending).2 = p.nBuffer
      · rw [if_pos whole] at code
        exact .inl ⟨code, sent⟩
      · rw [if_neg whole] at code
        exact .inr ⟨code, trivial, .inr sent⟩
  lseek sent _ _ _ := sent
  read sent _ _ _ := sent
  fsync sent _ := sent
  filesize sent _ := sent

/-- **Nothing twice, nothing out of order.** Whatever the system calls come to, the bytes
that go to the file of a journal, and those that the handle owes it, are among those that
were asked for, in this order; and they are all of them as long as no call answers that a
write failed. -/
theorem bytes_leave_in_order {σ : Type} {u : FileCalls σ} {s₀ : σ} {place fd : Int} {b : Block}
    {h : List (HandleCall × Rc)} {s : Recorded σ} {p : DemoFile}
    (run : HandleRun u.recorded ⟨s₀, place, []⟩ fd b h (s, p)) :
    (s.sent ++ p.owed).Sublist (bytesAsked h) ∧
      ((∀ e ∈ h, e.2 ≠ .SQLITE_IOERR_WRITE) → s.sent ++ p.owed = bytesAsked h) := by
  obtain ⟨bs, rfl, reached⟩ := (recorded_sends u).run rfl run
  exact reached

theorem length_zeroes : (List.replicate SQLITE_TEEVFS_BUFFERSZ (0 : UInt8)).length =
    SQLITE_TEEVFS_BUFFERSZ :=
  List.length_replicate

def zeroBlock : Block := ⟨List.replicate SQLITE_TEEVFS_BUFFERSZ 0, length_zeroes⟩

/-- Two bytes are written and synced, and a third is still owed. -/
theorem two_bytes_left_one_owed : ∃ h s p,
    HandleRun Disk.calls.recorded ⟨soundAt [] 0 [] [], 0, []⟩ 3 zeroBlock h (s, p) ∧
    s.sent = [(0, 1), (1, 2)] ∧ p.owed = [(7, 3)] ∧
    (s.sent ++ p.owed).Sublist (bytesAsked h) := by
  have made : ((exec (handleStep Disk.calls.recorded) (⟨soundAt [] 0 [] [], 0, []⟩,
      .opened 3 (some zeroBlock)) [] [.demoWrite [1, 2] 2 0, .demoSync, .demoWrite [3] 1 7]).map
        fun r => (r.2.1.sent, r.2.2.owed)) = some ([(0, 1), (1, 2)], [(7, 3)]) := by decide +kernel
  obtain ⟨⟨h, s, p⟩, ran, left⟩ := Option.map_eq_some_iff.mp made
  obtain ⟨sent, owed⟩ := Prod.mk.inj left
  have run : HandleRun Disk.calls.recorded ⟨soundAt [] 0 [] [], 0, []⟩ 3 zeroBlock h (s, p) :=
    Run.exec .start (by simp [HandleCall.Admitted]) ran
  exact ⟨h, s, p, run, sent, owed, (bytes_leave_in_order run).1⟩

/-- A system call on a machine that makes so many more of them and then stops. -/
def beforeCrash {σ α : Type} (failed : α) (call : σ → σ × α) : σ × Nat → (σ × Nat) × α
  | (s, 0) => ((s, 0), failed)
  | (s, left + 1) => let (s, ret) := call s; ((s, left), ret)

def FileCalls.crashing {σ : Type} (u : FileCalls σ) : FileCalls (σ × Nat) where
  utee_vfs_lseek s fd ofst whence := beforeCrash (-1) (u.utee_vfs_lseek · fd ofst whence) s
  utee_vfs_write s fd buf := beforeCrash (-1) (u.utee_vfs_write · fd buf) s
  utee_vfs_read s fd buf n := beforeCrash (-1, buf) (u.utee_vfs_read · fd buf n) s
  utee_vfs_fsync s fd := beforeCrash (-1) (u.utee_vfs_fsync · fd) s
  utee_vfs_filesize s fd := beforeCrash (-1) (u.utee_vfs_filesize · fd) s
  utee_vfs_close s fd := beforeCrash (-1) (u.utee_vfs_close · fd) s

/-- What was asked for before the last sync that succeeded. -/
def bytesSynced : List (HandleCall × Rc) → List (Nat × UInt8)
  | [] => []
  | (.demoSync, .SQLITE_OK) :: h => bytesAsked h
  | _ :: h => bytesSynced h

theorem bytesSynced_cons (call : HandleCall) (rc : Rc) (h : List (HandleCall × Rc)) :
    call = .demoSync ∧ rc = .SQLITE_OK ∧ bytesSynced ((call, rc) :: h) = bytesAsked h ∨
      ¬ (call = .demoSync ∧ rc = .SQLITE_OK) ∧ bytesSynced ((call, rc) :: h) = bytesSynced h := by
  cases call with
  | demoSync =>
    cases rc with
    | SQLITE_OK => exact .inl ⟨rfl, rfl, rfl⟩
    | _ => exact .inr ⟨fun both => (by cases both.2), rfl⟩
  | _ => exact .inr ⟨fun both => (by cases both.1), rfl⟩

/-- A file without faults that holds these bytes over what it had. -/
def HoldsOver (f : Bytes) (s : Disk × Nat) (bs : List (Nat × UInt8)) : Prop :=
  ∃ pos syncs sizes, s.1 = soundAt (writeEach f bs) pos syncs sizes

theorem lseek_soundAt (f : Bytes) (pos : Nat) (syncs : List Int) (sizes : List Bool)
    (fd ofst whence : Int) : ∃ pos',
      (Disk.calls.utee_vfs_lseek (soundAt f pos syncs sizes) fd ofst whence).1 =
        soundAt f pos' syncs sizes := by
  by_cases there : 0 ≤ ofst
  · exact ⟨_, congrArg Prod.fst (lseek_sound f pos syncs sizes fd there whence)⟩
  · refine ⟨pos, ?_⟩
    simp [Disk.calls, Disk.lseek, there]

theorem crashing_sends (f : Bytes) :
    Sends Disk.calls.crashing (HoldsOver f) fun s => s.2 = 0 where
  flush := by
    rintro ⟨d, left⟩ bs p ⟨pos, syncs, sizes, rfl⟩ h some_bytes
    have length := h.length_pending
    have place := h.place
    rcases flush_cases Disk.calls.crashing (soundAt (writeEach f bs) pos syncs sizes, left)
      some_bytes with ⟨astray, state, code⟩ | ⟨there, state, code⟩
    · cases left with
      | zero => exact .inr ⟨code, by rw [state]; rfl, .inl ⟨pos, syncs, sizes, by rw [state]; rfl⟩⟩
      | succ left =>
        refine absurd ?_ astray
        exact congrArg Prod.snd (lseek_sound _ pos syncs sizes p.fd place SEEK_SET)
    · cases left with
      | zero =>
        have minus : (-1 : Int) = p.iBufferOfst := there
        omega
      | succ left =>
        have sought : Disk.calls.crashing.utee_vfs_lseek
            (soundAt (writeEach f bs) pos syncs sizes, left + 1) p.fd p.iBufferOfst SEEK_SET =
              ((soundAt (writeEach f bs) p.iBufferOfst.toNat syncs sizes, left),
                p.iBufferOfst) := by
          simp only [FileCalls.crashing, beforeCrash, lseek_sound _ pos syncs sizes p.fd place]
        rw [sought] at state code
        cases left with
        | zero =>
          have short : (-1 : Int) ≠ p.nBuffer := by omega
          exact .inr ⟨code.trans (if_neg short), by rw [state]; rfl,
            .inl ⟨_, syncs, sizes, by rw [state]; rfl⟩⟩
        | succ left =>
          have wrote : Disk.calls.crashing.utee_vfs_write
              (soundAt (writeEach f bs) p.iBufferOfst.toNat syncs sizes, left + 1) p.fd p.pending =
                ((soundAt (ByteFile.write (writeEach f bs) p.iBufferOfst.toNat p.pending)
                  (p.iBufferOfst.toNat + p.pending.length) syncs sizes, left), p.nBuffer) := by
            simp only [FileCalls.crashing, beforeCrash, write_sound, length]
          rw [wrote] at state code
          refine .inl ⟨code.trans (if_pos rfl), p.iBufferOfst.toNat + p.pending.length, syncs,
            sizes, ?_⟩
          rw [state, writeEach_append, DemoFile.owed, writeEach_bytesAt]
  lseek := by
    rintro ⟨d, left⟩ bs ⟨pos, syncs, sizes, rfl⟩ fd ofst whence
    cases left with
    | zero => exact ⟨pos, syncs, sizes, rfl⟩
    | succ left =>
      obtain ⟨pos', moved⟩ := lseek_soundAt (writeEach f bs) pos syncs sizes fd ofst whence
      exact ⟨pos', syncs, sizes, moved⟩
  read := by
    rintro ⟨d, left⟩ bs ⟨pos, syncs, sizes, rfl⟩ fd buf n
    cases left with
    | zero => exact ⟨pos, syncs, sizes, rfl⟩
    | succ left =>
      have got := read_sound (writeEach f bs) pos syncs sizes fd buf n
      exact ⟨_, syncs, sizes, congrArg Prod.fst got⟩
  fsync := by
    rintro ⟨d, left⟩ bs ⟨pos, syncs, sizes, rfl⟩ fd
    cases left with
    | zero => exact ⟨pos, syncs, sizes, rfl⟩
    | succ left => exact ⟨pos, syncs.tail, sizes, rfl⟩
  filesize := by
    rintro ⟨d, left⟩ bs ⟨pos, syncs, sizes, rfl⟩ fd
    cases left with
    | zero => exact ⟨pos, syncs, sizes, rfl⟩
    | succ left => exact ⟨pos, syncs, sizes.tail, rfl⟩

/-- Nothing is sent any more. -/
def Stopped (d : Disk) (s : Disk × Nat) (_ : List (Nat × UInt8)) : Prop := s = (d, 0)

theorem stopped_sends (d : Disk) : Sends Disk.calls.crashing (Stopped d) fun _ => True where
  flush := by
    rintro s bs p rfl h some_bytes
    have place := h.place
    rcases flush_cases Disk.calls.crashing (d, 0) some_bytes with ⟨-, state, code⟩ | ⟨there, -⟩
    · exact .inr ⟨code, trivial, .inl state⟩
    · have minus : (-1 : Int) = p.iBufferOfst := there
      omega
  lseek := by rintro s bs rfl _ _ _; rfl
  read := by rintro s bs rfl _ _ _; rfl
  fsync := by rintro s bs rfl _; rfl
  filesize := by rintro s bs rfl _; rfl

/-- After the crash nothing changes, and no sync succeeds. -/
theorem stopped_step {d : Disk} {p p' : DemoFile} (h : Buffered p) {call : HandleCall}
    (admitted : call.Admitted) {s' : Disk × Nat} {rc : Rc}
    (answer : handleStep Disk.calls.crashing ((d, 0), p) call = some ((s', p'), rc)) :
    s' = (d, 0) ∧ (call = .demoSync → rc ≠ .SQLITE_OK) := by
  have here : Stopped d (d, 0) [] := rfl
  obtain ⟨-, bs, same, -⟩ := (stopped_sends d).step here h admitted answer
  refine ⟨same, ?_⟩
  rintro rfl
  obtain ⟨code, bs, flushed, -⟩ := (stopped_sends d).flush_outgoing here h
  simp only [handleStep, demoSync] at answer
  generalize demoFlushBuffer Disk.calls.crashing (d, 0) p = r at code flushed answer
  obtain ⟨s, q, rc₁⟩ := r
  obtain rfl : s = (d, 0) := flushed
  dsimp only at code answer
  rcases code with rfl | rfl
  · rw [if_neg (not_not.mpr rfl)] at answer
    cases answer
    rintro ⟨⟩
  · cases answer
    rintro ⟨⟩

/-- **A crash keeps the order.** Wherever a machine stops among its system calls, the file
of a journal holds the first of the bytes that were asked for, written one by one in their
order, and at least those from before the last sync that succeeded. -/
theorem crash_keeps_order {f : Bytes} {pos left : Nat} {syncs : List Int} {sizes : List Bool}
    {fd : Int} {b : Block} {h : List (HandleCall × Rc)} {s : Disk × Nat} {p : DemoFile}
    (run : HandleRun Disk.calls.crashing (soundAt f pos syncs sizes, left) fd b h (s, p)) :
    ∃ bs, bytesSynced h <+: bs ∧ bs <+: bytesAsked h ∧ s.1.bytes = writeEach f bs := by
  have reached := run.invariant (fun h x => Buffered x.2 ∧ ∃ bs, HoldsOver f x.1 bs ∧
    bytesSynced h <+: bs ∧ bs <+: bytesAsked h ∧ (x.1.2 = 0 ∨ bs ++ x.2.owed = bytesAsked h))
    ⟨opened_buffered fd b, [], ⟨pos, syncs, sizes, rfl⟩, List.prefix_rfl, List.prefix_rfl,
      .inr (by simp [DemoFile.owed, bytesAsked])⟩ ?_
  · obtain ⟨-, bs, ⟨pos, syncs, sizes, disk⟩, synced, first, -⟩ := reached
    exact ⟨bs, synced, first, congrArg Disk.bytes disk⟩
  · rintro h ⟨s, p⟩ call ⟨s', p'⟩ rc ⟨buffered, bs, holds, synced, first, account⟩ admitted answer
    have more : bs <+: bytesAsked ((call, rc) :: h) := first.trans (List.prefix_append _ _)
    have now := bytesSynced_cons call rc h
    by_cases dead : s.2 = 0
    · obtain ⟨d, left⟩ := s
      obtain rfl : left = 0 := dead
      obtain ⟨rfl, unsynced⟩ := stopped_step buffered admitted answer
      have buffered' := ((crashing_sends f).step holds buffered admitted answer).1
      refine ⟨buffered', bs, holds, ?_, more, .inl rfl⟩
      rcases now with ⟨rfl, rfl, -⟩ | ⟨-, same⟩
      · exact absurd rfl (unsynced rfl)
      · rwa [same]
    · have account := account.resolve_left dead
      obtain ⟨buffered', bs', holds', grown, outcome⟩ :=
        (crashing_sends f).step holds buffered admitted answer
      rw [account] at outcome
      rcases outcome with ⟨fine, same⟩ | ⟨rfl, stopped, first', -⟩
      · refine ⟨buffered', bs', holds', ?_, ⟨_, same⟩, .inr same⟩
        rcases now with ⟨rfl, rfl, all⟩ | ⟨-, before⟩
        · -- a sync leaves nothing owed
          have none : p'.owed = [] := by
            have handle : (demoSync Disk.calls.crashing s p).2.1 = p' :=
              congrArg (fun r => r.1.2) (Option.some.inj answer)
            rw [← handle, sync_handle, drained_owed]
          rw [none, List.append_nil] at same
          rw [all, same]
          exact List.prefix_append _ _
        · rw [before]
          exact synced.trans grown
      · refine ⟨buffered', bs', holds', ?_, first', .inl stopped⟩
        rcases now with ⟨-, ⟨⟩, -⟩ | ⟨-, before⟩
        rw [before]
        exact synced.trans grown

/-- The machine stops between the `lseek` and the `write` of the second sync. -/
theorem crash_keeps_two_bytes : ∃ h s p,
    HandleRun Disk.calls.crashing (soundAt [] 0 [] [], 4) 3 zeroBlock h (s, p) ∧
    s.1.bytes = [1, 2] ∧
    ∃ bs, bytesSynced h <+: bs ∧ bs <+: bytesAsked h ∧ s.1.bytes = writeEach [] bs := by
  have made : ((exec (handleStep Disk.calls.crashing) ((soundAt [] 0 [] [], 4),
      .opened 3 (some zeroBlock)) [] [.demoWrite [1, 2] 2 0, .demoSync, .demoWrite [3] 1 7,
        .demoSync]).map fun r => r.2.1.1.bytes) = some [1, 2] := by decide +kernel
  obtain ⟨⟨h, s, p⟩, ran, left⟩ := Option.map_eq_some_iff.mp made
  have run : HandleRun Disk.calls.crashing (soundAt [] 0 [] [], 4) 3 zeroBlock h (s, p) :=
    Run.exec .start (by simp [HandleCall.Admitted]) ran
  exact ⟨h, s, p, run, left, crash_keeps_order run⟩

end TeeSqlite
