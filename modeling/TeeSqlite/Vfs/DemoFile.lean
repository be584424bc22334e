import TeeSqlite.Lib.CTypes

/-! The SQLite VFS of the TA, `tee_vfs.c`, over the `utee_vfs_*` system calls.
A result `none` is a call that goes wrong inside the C code: a copy out of
range, a failed assertion, a loop that does not end. -/
namespace TeeSqlite
open ByteFile CTypes

/-- The SQLite result codes the VFS returns. -/
inductive Rc
  | SQLITE_OK | SQLITE_NOMEM | SQLITE_IOERR | SQLITE_CANTOPEN | SQLITE_IOERR_READ
  | SQLITE_IOERR_SHORT_READ | SQLITE_IOERR_WRITE | SQLITE_IOERR_FSYNC | SQLITE_IOERR_FSTAT
  | SQLITE_IOERR_DELETE
  deriving DecidableEq, Repr

/-- The system calls on an open descriptor. `utee_vfs_read` gets the caller's
buffer and the count and returns the buffer as it left it. -/
structure FileCalls (σ : Type) where
  utee_vfs_lseek : σ → Int → Int → Int → σ × Int
  utee_vfs_write : σ → Int → Bytes → σ × Int
  utee_vfs_read : σ → Int → Bytes → Nat → σ × Int × Bytes
  utee_vfs_fsync : σ → Int → σ × Int
  utee_vfs_filesize : σ → Int → σ × Int
  utee_vfs_close : σ → Int → σ × Int

/-- The system calls that take a path. `utee_vfs_unlink` gets and returns the
caller's errno cell; `utee_vfs_getcwd` says whether it returned a pointer. -/
structure Utee (σ : Type) extends FileCalls σ where
  utee_vfs_open : σ → CStr → Nat → Nat → σ × Int
  utee_vfs_unlink : σ → CStr → Int → σ × Int × Int
  utee_vfs_access : σ → CStr → Nat → σ × Int
  utee_vfs_getcwd : σ → Bytes → σ × Bool × Bytes

def SQLITE_TEEVFS_BUFFERSZ : Nat := 8192
def MAXPATHNAME : Nat := 512

def SEEK_SET : Int := 0
def ENOENT : Int := 2
def O_RDONLY : Nat := 0
def O_RDWR : Nat := 0o2
def O_CREAT : Nat := 0o100
def O_EXCL : Nat := 0o200
def F_OK : Nat := 0
def W_OK : Nat := 2
def R_OK : Nat := 4

def SQLITE_OPEN_READONLY : Nat := 0x1
def SQLITE_OPEN_READWRITE : Nat := 0x2
def SQLITE_OPEN_CREATE : Nat := 0x4
def SQLITE_OPEN_EXCLUSIVE : Nat := 0x10
def SQLITE_OPEN_MAIN_JOURNAL : Nat := 0x800
def SQLITE_ACCESS_READWRITE : Nat := 1
def SQLITE_ACCESS_READ : Nat := 2

/-- An open handle. `aBuffer` is NULL or the block that holds pending bytes, of
which the first `nBuffer` are valid and belong at `iBufferOfst` of the file. -/
structure DemoFile where
  fd : Int
  aBuffer : Option Bytes
  nBuffer : Int
  iBufferOfst : Int
  deriving DecidableEq

/-- What `sqlite3_malloc(SQLITE_TEEVFS_BUFFERSZ)` gives: a block with any contents. -/
abbrev Block := { b : Bytes // b.length = SQLITE_TEEVFS_BUFFERSZ }

/-- A handle as `demoOpen` leaves it. -/
def DemoFile.opened (fd : Int) (aBuf : Option Block) : DemoFile :=
  { fd, aBuffer := aBuf.map Subtype.val, nBuffer := 0, iBufferOfst := 0 }

/-- `memcpy(&dst[at_], src, n)`, undefined outside either block. -/
def memcpy (dst : Bytes) (at_ : Int) (src : Bytes) (n : Int) : Option Bytes :=
  if 0 ≤ at_ ∧ 0 ≤ n ∧ at_ + n ≤ dst.length ∧ n ≤ src.length then
    some (splice dst at_.toNat (src.take n.toNat))
  else none

section
variable {σ : Type} (u : FileCalls σ)

/-- The comparison of `nWrite` with `iAmt` is one of two values widened from `int`. -/
def demoDirectWrite (s : σ) (p : DemoFile) (zBuf : Bytes) (iAmt iOfst : Int) : σ × Rc :=
  let (s, ofst) := u.utee_vfs_lseek s p.fd iOfst SEEK_SET
  if ofst ≠ iOfst then (s, .SQLITE_IOERR_WRITE)
  else
    let (s, nWrite) := u.utee_vfs_write s p.fd (zBuf.take iAmt.toNat)
    if nWrite ≠ iAmt then (s, .SQLITE_IOERR_WRITE) else (s, .SQLITE_OK)

/-- The buffer is empty afterwards whether or not it was written. -/
def demoFlushBuffer (s : σ) (p : DemoFile) : σ × DemoFile × Rc :=
  if p.nBuffer ≠ 0 then
    let (s, rc) := demoDirectWrite u s p (p.aBuffer.getD []) p.nBuffer p.iBufferOfst
    (s, { p with nBuffer := 0 }, rc)
  else (s, p, .SQLITE_OK)

def demoClose (s : σ) (p : DemoFile) : σ × Rc :=
  let (s, p, rc) := demoFlushBuffer u s p
  let (s, _) := u.utee_vfs_close s p.fd
  (s, rc)

/-- Returns the caller's buffer as well. `nRead` is an `int`. -/
def demoRead (s : σ) (p : DemoFile) (zBuf : Bytes) (iAmt iOfst : Int) : σ × DemoFile × Rc × Bytes :=
  let (s, p, rc) := demoFlushBuffer u s p
  if rc ≠ .SQLITE_OK then (s, p, rc, zBuf)
  else
    let (s, ofst) := u.utee_vfs_lseek s p.fd iOfst SEEK_SET
    if ofst ≠ iOfst then (s, p, .SQLITE_IOERR_READ, zBuf)
    else
      let (s, ret, zBuf) := u.utee_vfs_read s p.fd zBuf iAmt.toNat
      let nRead := toInt32 ret
      if nRead = iAmt then (s, p, .SQLITE_OK, zBuf)
      else if 0 ≤ nRead then
        if nRead < iAmt then
          (s, p, .SQLITE_IOERR_SHORT_READ,
            splice zBuf nRead.toNat (List.replicate (iAmt - nRead).toNat 0))
        else (s, p, .SQLITE_IOERR_SHORT_READ, zBuf)
      else (s, p, .SQLITE_IOERR_READ, zBuf)

/-- The loop of `demoWrite` on a handle whose `aBuffer` is `buf`: `n` bytes are
left at `z`, and belong at `i`. The fuel bounds the passes. -/
def demoWriteLoop : Nat → σ → DemoFile → Bytes → Int → Int → Option (σ × DemoFile × Rc)
  | fuel, s, p, z, n, i =>
    if n ≤ 0 then some (s, p, .SQLITE_OK)
    else match fuel with
      | 0 => none
      | fuel + 1 =>
        let (s, p, rc) :=
          if p.nBuffer = SQLITE_TEEVFS_BUFFERSZ ∨ p.iBufferOfst + p.nBuffer ≠ i then
            demoFlushBuffer u s p
          else (s, p, .SQLITE_OK)
        if rc ≠ .SQLITE_OK then some (s, p, rc)
        else if p.nBuffer = 0 ∨ p.iBufferOfst + p.nBuffer = i then
          let room := SQLITE_TEEVFS_BUFFERSZ - p.nBuffer
          let nCopy := if room > n then n else room
          match memcpy (p.aBuffer.getD []) p.nBuffer z nCopy with
          | none => none
          | some aBuffer =>
            let p := { p with aBuffer := some aBuffer, iBufferOfst := i - p.nBuffer,
                              nBuffer := p.nBuffer + nCopy }
            demoWriteLoop fuel s p (z.drop nCopy.toNat) (n - nCopy) (i + nCopy)
        else none

/-- `zBuf` is the caller's block of `iAmt` bytes. Every pass of the loop consumes
a byte of it or more, so `iAmt` passes are enough. -/
def demoWrite (s : σ) (p : DemoFile) (zBuf : Bytes) (iOfst : Int) : Option (σ × DemoFile × Rc) :=
  let iAmt : Int := zBuf.length
  match p.aBuffer with
  | some _ => demoWriteLoop u zBuf.length s p zBuf iAmt iOfst
  | none =>
    let (s, rc) := demoDirectWrite u s p zBuf iAmt iOfst
    some (s, p, rc)

def demoSync (s : σ) (p : DemoFile) : σ × DemoFile × Rc :=
  let (s, p, rc) := demoFlushBuffer u s p
  if rc ≠ .SQLITE_OK then (s, p, rc)
  else
    let (s, rc) := u.utee_vfs_fsync s p.fd
    (s, p, if rc = 0 then .SQLITE_OK else .SQLITE_IOERR_FSYNC)

/-- The size is written to `*pSize` only on success. -/
def demoFileSize (s : σ) (p : DemoFile) (pSize : Int) : σ × DemoFile × Rc × Int :=
  let (s, p, rc) := demoFlushBuffer u s p
  if rc ≠ .SQLITE_OK then (s, p, rc, pSize)
  else
    let (s, rc) := u.utee_vfs_filesize s p.fd
    if rc = -1 then (s, p, .SQLITE_IOERR_FSTAT, pSize) else (s, p, .SQLITE_OK, rc)

end

section
variable {σ : Type} (u : Utee σ)

/-- The `open()` flags for SQLite's open flags. -/
def oflagsOf (flags : Nat) : Nat :=
  (if flags &&& SQLITE_OPEN_EXCLUSIVE ≠ 0 then O_EXCL else 0) |||
  (if flags &&& SQLITE_OPEN_CREATE ≠ 0 then O_CREAT else 0) |||
  (if flags &&& SQLITE_OPEN_READONLY ≠ 0 then O_RDONLY else 0) |||
  (if flags &&& SQLITE_OPEN_READWRITE ≠ 0 then O_RDWR else 0)

/-- `malloc` is what `sqlite3_malloc` gives for the buffer: NULL or a block. The
handle is filled in only when the file opens. -/
def demoOpen (s : σ) (malloc : Option Block) (zName : Option CStr) (flags : Nat) :
    σ × Option DemoFile × Rc :=
  match zName with
  | none => (s, none, .SQLITE_IOERR)
  | some zName =>
    let journal := flags &&& SQLITE_OPEN_MAIN_JOURNAL ≠ 0
    if journal ∧ malloc = none then (s, none, .SQLITE_NOMEM)
    else
      let aBuf := if journal then malloc else none
      let (s, fd) := u.utee_vfs_open s zName (oflagsOf flags) 0o600
      if fd < 0 then (s, none, .SQLITE_CANTOPEN)
      else (s, some (.opened fd aBuf), .SQLITE_OK)

/-- `strrchr(z, '/')` and the NUL put in its place: the part before the last slash. -/
def cutAtSlash (z : CStr) : Option CStr :=
  if 47 ∈ z.bytes then
    some (z.take (z.bytes.length - 1 - z.bytes.reverse.findIdx (· = 47)))
  else none

def demoDelete (s : σ) (zPath : CStr) (dirSync : Bool) : σ × Rc :=
  let (s, rc, errno) := u.utee_vfs_unlink s zPath 0
  if rc ≠ 0 ∧ errno = ENOENT then (s, .SQLITE_OK)
  else
    let (s, rc) :=
      if rc = 0 ∧ dirSync then
        match cutAtSlash (zPath.take (MAXPATHNAME - 1)) with
        | none => (s, rc)
        | some zDir =>
          let (s, dfd) := u.utee_vfs_open s zDir O_RDONLY 0
          if dfd < 0 then (s, -1)
          else
            let (s, rc) := u.utee_vfs_fsync s dfd
            let (s, _) := u.utee_vfs_close s dfd
            (s, rc)
      else (s, rc)
    (s, if rc = 0 then .SQLITE_OK else .SQLITE_IOERR_DELETE)

/-- Always succeeds; the answer is in `*pResOut`. -/
def demoAccess (s : σ) (zPath : CStr) (flags : Nat) : σ × Rc × Bool :=
  let eAccess :=
    if flags = SQLITE_ACCESS_READ then R_OK
    else if flags = SQLITE_ACCESS_READWRITE then R_OK ||| W_OK else F_OK
  let (s, rc) := u.utee_vfs_access s zPath eAccess
  (s, .SQLITE_OK, rc = 0)

/-- `zDir` is the uninitialised local of `MAXPATHNAME + 1` bytes. Returns what
`sqlite3_snprintf` leaves in an output block of `nPathOut` bytes. -/
def demoFullPathname (s : σ) (zDir : Bytes) (zPath : CStr) (nPathOut : Nat) :
    σ × Rc × Option CStr :=
  let full (s : σ) (zDir : Bytes) : σ × Rc × Option CStr :=
    let dir := CStr.ofBytes (zDir.set MAXPATHNAME 0)
    (s, .SQLITE_OK, some (.ofBytes ((dir.bytes ++ 47 :: zPath.bytes).take (nPathOut - 1))))
  if zPath.bytes.head? = some 47 then full s (zDir.set 0 0)
  else
    let (s, found, zDir) := u.utee_vfs_getcwd s zDir
    if found then full s zDir else (s, .SQLITE_IOERR, none)

end
end TeeSqlite
