import TeeSqlite.Rpc.Failure

/-! One file system under both ways to it: the system calls of a TA, which go through
the requests, and the C library called directly. -/
namespace TeeSqlite
open ByteFile CTypes

/-- An operating system: what a call of the C library does to its state, and what the
call gives. -/
abbrev FileSystem (σ : Type) := σ → LibcCall → σ × OsResult

section
variable {σ : Type}

/-- What the calls may return. `write` and `read` give -1 or a number of bytes that is not
more than was asked for, `read` having written that many; `fstat` gives -1, or 0 and
a size that is not negative. -/
structure Posix (fs : FileSystem σ) : Prop where
  write : ∀ s fd data, -1 ≤ (fs s (.write fd data)).2.ret.toInt ∧
    (fs s (.write fd data)).2.ret.toInt ≤ data.length
  read : ∀ s fd nbytes, (fs s (.read fd nbytes)).2.ret.toInt = -1 ∨
    (fs s (.read fd nbytes)).2.ret.toInt = (fs s (.read fd nbytes)).2.out.length ∧
      (fs s (.read fd nbytes)).2.out.length ≤ nbytes.toNat
  fstat : ∀ s fd, low (fs s (.fstat fd)).2.ret = -1 ∨
    low (fs s (.fstat fd)).2.ret = 0 ∧ 0 ≤ (fs s (.fstat fd)).2.st_size.toInt

/-- The normal world on a file system. The second `fstat` of `vfs_fstat`, which the VFS
does not use, is answered as the first. -/
def supplicantOn (fs : FileSystem σ) : RpcCmd σ := fun s m =>
  let handled := tee_supp_vfs_process (fun call => (fs s call).2) m
  let (m, result) := handled.reply.getD (m, TEEC_ERROR_COMMUNICATION)
  (handled.libc.foldl (fun s call => (fs s call).1) s, m, result)

/-- The C library in the place of the system calls. It has no call for the size of a
file: in that place stands what `fstat` says. -/
def libc (fs : FileSystem σ) : Utee σ where
  utee_vfs_lseek s fd offset whence :=
    let (s, r) :=
      fs s (.lseek (BitVec.ofInt 32 fd) (BitVec.ofInt 64 offset) (BitVec.ofInt 32 whence))
    (s, r.ret.toInt)
  utee_vfs_write s fd buf :=
    let (s, r) := fs s (.write (BitVec.ofInt 32 fd) buf)
    (s, r.ret.toInt)
  utee_vfs_read s fd buf n :=
    let (s, r) := fs s (.read (BitVec.ofInt 32 fd) (BitVec.ofNat 64 n))
    (s, r.ret.toInt, splice buf 0 (r.out.take n))
  utee_vfs_fsync s fd :=
    let (s, r) := fs s (.fsync (BitVec.ofInt 32 fd))
    (s, (low r.ret).toInt)
  utee_vfs_filesize s fd :=
    let (s, r) := fs s (.fstat (BitVec.ofInt 32 fd))
    (s, if low r.ret = 0 then r.st_size.toInt else -1)
  utee_vfs_close s fd :=
    let (s, r) := fs s (.close (BitVec.ofInt 32 fd))
    (s, (low r.ret).toInt)
  utee_vfs_open s path oflag arg1 :=
    let (s, r) := fs s (.open_ path (BitVec.ofNat 32 oflag) (BitVec.ofNat 32 arg1))
    (s, (low r.ret).toInt)
  utee_vfs_unlink s name _ :=
    let (s, r) := fs s (.unlink name)
    (s, (low r.ret).toInt, r.errno.toInt)
  utee_vfs_access s name type :=
    let (s, r) := fs s (.access name (BitVec.ofNat 32 type))
    (s, (low r.ret).toInt)
  utee_vfs_getcwd s buf :=
    let (s, r) := fs s (.getcwd (BitVec.ofNat 64 buf.length))
    (s, r.ret ≠ 0, splice buf 0 (r.out.take buf.length))

/-- Two sets of system calls between which the VFS sees no difference. What a `read`
leaves past the bytes it has read may differ, and so may a `write` of 2 GiB. -/
structure Interchangeable (u l : Utee σ) : Prop where
  lseek : u.utee_vfs_lseek = l.utee_vfs_lseek
  fsync : u.utee_vfs_fsync = l.utee_vfs_fsync
  filesize : u.utee_vfs_filesize = l.utee_vfs_filesize
  close : u.utee_vfs_close = l.utee_vfs_close
  open_ : u.utee_vfs_open = l.utee_vfs_open
  unlink : u.utee_vfs_unlink = l.utee_vfs_unlink
  access : u.utee_vfs_access = l.utee_vfs_access
  write : ∀ s fd buf, buf.length < 2 ^ 31 → u.utee_vfs_write s fd buf = l.utee_vfs_write s fd buf
  read : ∀ s fd buf, buf.length < 2 ^ 31 → ∃ s' ret out out',
    u.utee_vfs_read s fd buf buf.length = (s', ret, out) ∧
    l.utee_vfs_read s fd buf buf.length = (s', ret, out') ∧ -1 ≤ ret ∧ ret ≤ buf.length ∧
    out.length = buf.length ∧ out'.length = buf.length ∧ out.take ret.toNat = out'.take ret.toNat

attribute [simp] supplicantOn

variable {fs : FileSystem σ} {alloc : AllocPayload}

theorem filesize_interchangeable (laws : Posix fs) :
    (utee (supplicantOn fs) alloc).utee_vfs_filesize = (libc fs).utee_vfs_filesize := by
  funext s fd
  rcases laws.fstat s (BitVec.ofInt 32 fd) with failed | ⟨sized, -⟩
  · simp [utee, libc, syscall_vfs_filesize, vfs_filesize, failed]
  · simp [utee, libc, syscall_vfs_filesize, vfs_filesize, sized]

theorem path_calls_interchangeable (fs : FileSystem σ) (ok : Allocates alloc) :
    (utee (supplicantOn fs) alloc).utee_vfs_open = (libc fs).utee_vfs_open ∧
    (utee (supplicantOn fs) alloc).utee_vfs_unlink = (libc fs).utee_vfs_unlink ∧
    (utee (supplicantOn fs) alloc).utee_vfs_access = (libc fs).utee_vfs_access := by
  refine ⟨?_, ?_, ?_⟩
  · funext s path oflag arg1
    obtain ⟨va, -, -, payload⟩ := (ok 0 (path.bytes.length + 1)).withPayload_eq
    simp [-BitVec.toInt_setWidth, utee, libc, syscall_vfs_open, vfs_open, payload, OsResult.int]
  · funext s name errno
    obtain ⟨va, -, -, payload⟩ := (ok 0 (name.bytes.length + 1)).withPayload_eq
    simp [utee, libc, syscall_vfs_unlink, vfs_unlink, payload, OsResult.int]
  · funext s name type
    obtain ⟨va, -, -, payload⟩ := (ok 0 (name.bytes.length + 1)).withPayload_eq
    simp [-BitVec.toInt_setWidth, utee, libc, syscall_vfs_access, vfs_access, payload, OsResult.int]

theorem descriptor_calls_interchangeable (fs : FileSystem σ) (alloc : AllocPayload) :
    (utee (supplicantOn fs) alloc).utee_vfs_lseek = (libc fs).utee_vfs_lseek ∧
    (utee (supplicantOn fs) alloc).utee_vfs_fsync = (libc fs).utee_vfs_fsync ∧
    (utee (supplicantOn fs) alloc).utee_vfs_close = (libc fs).utee_vfs_close := by
  refine ⟨?_, ?_, ?_⟩
  · funext s fd offset whence
    simp [utee, libc, syscall_vfs_lseek, vfs_lseek]
  · funext s fd
    simp [utee, libc, syscall_vfs_fsync, vfs_fsync, OsResult.int]
  · funext s fd
    simp [utee, libc, syscall_vfs_close, vfs_close, OsResult.int]

/-- A count that fits an `int` survives the passage through one. -/
theorem toInt_low {x : BitVec 64} (lower : -2 ^ 31 ≤ x.toInt) (upper : x.toInt < 2 ^ 31) :
    (low x).toInt = x.toInt := by
  rw [BitVec.toInt_eq_toNat_cond] at lower upper ⊢
  rw [BitVec.toInt_eq_toNat_cond, BitVec.toNat_setWidth]
  have := x.isLt
  split_ifs at lower upper ⊢ <;> omega

theorem write_interchangeable (laws : Posix fs) (ok : Allocates alloc) (s : σ) (fd : Int)
    {buf : Bytes} (small : buf.length < 2 ^ 31) :
    (utee (supplicantOn fs) alloc).utee_vfs_write s fd buf = (libc fs).utee_vfs_write s fd buf := by
  obtain ⟨va, -, enough, payload⟩ := (ok 0 buf.length).withPayload_eq
  obtain ⟨lower, upper⟩ := laws.write s (BitVec.ofInt 32 fd) buf
  have size := VfsCall.length_mod ⟨buf, by omega⟩
  have count : (low (fs s (.write (BitVec.ofInt 32 fd) buf)).2.ret).toInt =
      (fs s (.write (BitVec.ofInt 32 fd) buf)).2.ret.toInt := toInt_low (by omega) (by omega)
  simp [-BitVec.toInt_setWidth, utee, libc, syscall_vfs_write, vfs_write, payload, size,
    splice_start, count]

/-- The bytes that were read are at the start of whatever they were copied through. -/
theorem take_of_prefix {out buf : Bytes} {n : Nat} (fits : out.length ≤ n)
    (h : out.take n <+: buf) : buf.take out.length = out := by
  rw [List.take_of_length_le fits] at h
  exact (List.prefix_iff_eq_take.mp h).symm

theorem read_interchangeable (laws : Posix fs) (ok : Allocates alloc) (s : σ) (fd : Int)
    {buf : Bytes} (small : buf.length < 2 ^ 31) : ∃ s' ret out out',
    (utee (supplicantOn fs) alloc).utee_vfs_read s fd buf buf.length = (s', ret, out) ∧
    (libc fs).utee_vfs_read s fd buf buf.length = (s', ret, out') ∧ -1 ≤ ret ∧ ret ≤ buf.length ∧
    out.length = buf.length ∧ out'.length = buf.length ∧
    out.take ret.toNat = out'.take ret.toNat := by
  obtain ⟨va, -, enough, payload⟩ := (ok 0 buf.length).withPayload_eq
  have size := VfsCall.length_mod ⟨buf, by omega⟩
  have law := laws.read s (BitVec.ofInt 32 fd) (BitVec.ofNat 64 buf.length)
  have remote : (utee (supplicantOn fs) alloc).utee_vfs_read s fd buf buf.length =
      let (s', r) := fs s (.read (BitVec.ofInt 32 fd) (BitVec.ofNat 64 buf.length))
      (s', r.ret.toInt, splice buf 0
        ((splice (zeroed va buf.length) 0 (r.out.take buf.length)).take buf.length)) := by
    simp [utee, syscall_vfs_read, vfs_read, payload, size]
  generalize answer : fs s (.read (BitVec.ofInt 32 fd) (BitVec.ofNat 64 buf.length)) = r
  obtain ⟨s', r⟩ := r
  have through := VfsCall.delivered va ⟨buf, by omega⟩ r.out
  rw [answer] at remote law
  rw [BitVec.toNat_ofNat, Nat.mod_eq_of_lt (by omega)] at law
  dsimp only at law
  have direct : (libc fs).utee_vfs_read s fd buf buf.length =
      (s', r.ret.toInt, splice buf 0 (r.out.take buf.length)) := by
    simp only [libc, answer]
  refine ⟨s', r.ret.toInt, _, _, remote, direct, ?_, ?_, ?_, ?_, ?_⟩
  · omega
  · omega
  · apply length_splice
    rw [Nat.zero_add]
    exact List.length_take_le _ _
  · apply length_splice
    rw [Nat.zero_add]
    exact List.length_take_le _ _
  · rcases law with failed | ⟨count, fits⟩
    · rw [failed]
      rfl
    · rw [count, Int.toNat_natCast, take_of_prefix fits through,
        take_of_prefix fits (prefix_splice buf (List.prefix_refl _))]

/-- Through the requests the VFS gets what the C library gives. -/
theorem utee_interchangeable (laws : Posix fs) (ok : Allocates alloc) :
    Interchangeable (utee (supplicantOn fs) alloc) (libc fs) := by
  obtain ⟨open_, unlink, access⟩ := path_calls_interchangeable fs ok
  obtain ⟨lseek, fsync, close⟩ := descriptor_calls_interchangeable fs alloc
  exact ⟨lseek, fsync, filesize_interchangeable laws, close, open_, unlink, access,
    fun s fd _ => write_interchangeable laws ok s fd,
    fun s fd _ => read_interchangeable laws ok s fd⟩

end
end TeeSqlite
