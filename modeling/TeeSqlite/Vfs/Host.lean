import Mathlib.Logic.Function.Basic
import TeeSqlite.Lib.Runs
import TeeSqlite.Rpc.Remote
import TeeSqlite.Vfs.Buffer

/-! The VFS of the host, `demovfs.c`, beside the one of the TA. Its text is that of
`tee_vfs.c` with calls of the C library for system calls, but for the size of a file. -/
namespace TeeSqlite
open ByteFile CTypes Runs

namespace Host
section
variable {σ : Type} (fs : FileSystem σ)

/-- The length that it takes of `zBuf` with `strlen` is not used. -/
def demoDirectWrite (s : σ) (p : DemoFile) (zBuf : Bytes) (iAmt iOfst : Int) : σ × Rc :=
  TeeSqlite.demoDirectWrite (libc fs).toFileCalls s p zBuf iAmt iOfst

def demoFlushBuffer (s : σ) (p : DemoFile) : σ × DemoFile × Rc :=
  TeeSqlite.demoFlushBuffer (libc fs).toFileCalls s p

def demoClose (s : σ) (p : DemoFile) : σ × Rc :=
  TeeSqlite.demoClose (libc fs).toFileCalls s p

def demoRead (s : σ) (p : DemoFile) (zBuf : Bytes) (iAmt iOfst : Int) :
    σ × DemoFile × Rc × Bytes :=
  TeeSqlite.demoRead (libc fs).toFileCalls s p zBuf iAmt iOfst

def demoWrite (s : σ) (p : DemoFile) (zBuf : Bytes) (iOfst : Int) : Option (σ × DemoFile × Rc) :=
  TeeSqlite.demoWrite (libc fs).toFileCalls s p zBuf iOfst

def demoSync (s : σ) (p : DemoFile) : σ × DemoFile × Rc :=
  TeeSqlite.demoSync (libc fs).toFileCalls s p

/-- The size comes from `fstat`. -/
def demoFileSize (s : σ) (p : DemoFile) (pSize : Int) : σ × DemoFile × Rc × Int :=
  let (s, p, rc) := demoFlushBuffer fs s p
  if rc ≠ .SQLITE_OK then (s, p, rc, pSize)
  else
    let (s, sStat) := fs s (.fstat (BitVec.ofInt 32 p.fd))
    let rc := low sStat.ret
    if rc ≠ 0 then (s, p, .SQLITE_IOERR_FSTAT, pSize)
    else (s, p, .SQLITE_OK, sStat.st_size.toInt)

def demoOpen (s : σ) (malloc : Option Block) (zName : Option CStr) (flags : Nat) :
    σ × Option DemoFile × Rc :=
  TeeSqlite.demoOpen (libc fs) s malloc zName flags

def demoDelete (s : σ) (zPath : CStr) (dirSync : Bool) : σ × Rc :=
  TeeSqlite.demoDelete (libc fs) s zPath dirSync

def demoAccess (s : σ) (zPath : CStr) (flags : Nat) : σ × Rc × Bool :=
  TeeSqlite.demoAccess (libc fs) s zPath flags

end
end Host

/-- The methods of a VFS and of its files. `xOpen` gets what `sqlite3_malloc` gives: two
blocks, one for each side, or NULL for both. -/
structure Vfs (σ : Type) where
  xOpen : σ → Option (Block × Block) → Option CStr → Nat → σ × Option DemoFile × Rc
  xDelete : σ → CStr → Bool → σ × Rc
  xAccess : σ → CStr → Nat → σ × Rc × Bool
  xClose : σ → DemoFile → σ × Rc
  xRead : σ → DemoFile → Bytes → Int → Int → σ × DemoFile × Rc × Bytes
  xWrite : σ → DemoFile → Bytes → Int → Option (σ × DemoFile × Rc)
  xSync : σ → DemoFile → σ × DemoFile × Rc
  xFileSize : σ → DemoFile → Int → σ × DemoFile × Rc × Int

def sqlite3_demovfs {σ : Type} (u : Utee σ) : Vfs σ where
  xOpen s malloc := demoOpen u s (malloc.map Prod.fst)
  xDelete := demoDelete u
  xAccess := demoAccess u
  xClose := demoClose u.toFileCalls
  xRead := demoRead u.toFileCalls
  xWrite := demoWrite u.toFileCalls
  xSync := demoSync u.toFileCalls
  xFileSize := demoFileSize u.toFileCalls

def Host.sqlite3_demovfs {σ : Type} (fs : FileSystem σ) : Vfs σ where
  xOpen s malloc := Host.demoOpen fs s (malloc.map Prod.snd)
  xDelete := Host.demoDelete fs
  xAccess := Host.demoAccess fs
  xClose := Host.demoClose fs
  xRead := Host.demoRead fs
  xWrite := Host.demoWrite fs
  xSync := Host.demoSync fs
  xFileSize := Host.demoFileSize fs

/-- A call of a method. A file is named by the number of its `sqlite3_file`; a buffer
and a cell come with what they held before, the buffer being all that is asked for. -/
inductive Method
  | xOpen (pFile : Nat) (malloc : Option (Block × Block)) (zName : Option CStr) (flags : Nat)
  | xDelete (zPath : CStr) (dirSync : Bool)
  | xAccess (zPath : CStr) (flags : Nat)
  | xClose (pFile : Nat)
  | xRead (pFile : Nat) (zBuf : Bytes) (iOfst : Int)
  | xWrite (pFile : Nat) (zBuf : Bytes) (iOfst : Int)
  | xSync (pFile : Nat)
  | xFileSize (pFile : Nat) (pSize : Int)

namespace Method

/-- Offsets are not negative, and amounts are positive `int`s. -/
def Fits : Method → Prop
  | xRead _ zBuf iOfst | xWrite _ zBuf iOfst =>
    0 ≤ iOfst ∧ 1 ≤ zBuf.length ∧ zBuf.length < 2 ^ 31
  | _ => True

/-- The file that a method is called on is open. -/
def Ready (files : Nat → Option DemoFile) : Method → Prop
  | xClose pFile | xRead pFile _ _ | xWrite pFile _ _ | xSync pFile | xFileSize pFile _ =>
    (files pFile).isSome
  | _ => True

end Method

/-- What SQLite sees of a call. The buffer of a read is looked at when there are
bytes in it. -/
structure Reply where
  rc : Rc
  zBuf : Bytes
  pSize : Int
  pResOut : Bool
  deriving DecidableEq

def Reply.code (rc : Rc) : Reply := ⟨rc, [], 0, false⟩

/-- The `sqlite3_file`s; one that is not open has no methods. -/
abbrev Files := Nat → Option DemoFile

/-- A method of a file that is not open is a call through NULL. A failed `open()` leaves
a file that is not open. -/
def vfsStep {σ : Type} (v : Vfs σ) : σ × Files → Method → Option ((σ × Files) × Reply)
  | (s, files), .xOpen pFile malloc zName flags =>
    let (s, p, rc) := v.xOpen s malloc zName flags
    let files :=
      if rc = .SQLITE_OK ∨ rc = .SQLITE_CANTOPEN then Function.update files pFile p else files
    some ((s, files), .code rc)
  | (s, files), .xDelete zPath dirSync =>
    let (s, rc) := v.xDelete s zPath dirSync
    some ((s, files), .code rc)
  | (s, files), .xAccess zPath flags =>
    let (s, rc, pResOut) := v.xAccess s zPath flags
    some ((s, files), { Reply.code rc with pResOut })
  | (s, files), .xClose pFile => (files pFile).map fun p =>
    let (s, rc) := v.xClose s p
    ((s, Function.update files pFile none), .code rc)
  | (s, files), .xRead pFile zBuf iOfst => (files pFile).map fun p =>
    let (s, p, rc, zBuf) := v.xRead s p zBuf zBuf.length iOfst
    let zBuf := if rc = .SQLITE_OK ∨ rc = .SQLITE_IOERR_SHORT_READ then zBuf else []
    ((s, Function.update files pFile p), { Reply.code rc with zBuf })
  | (s, files), .xWrite pFile zBuf iOfst => (files pFile).bind fun p =>
    (v.xWrite s p zBuf iOfst).map fun (s, p, rc) =>
      ((s, Function.update files pFile p), .code rc)
  | (s, files), .xSync pFile => (files pFile).map fun p =>
    let (s, p, rc) := v.xSync s p
    ((s, Function.update files pFile p), .code rc)
  | (s, files), .xFileSize pFile pSize => (files pFile).map fun p =>
    let (s, p, rc, pSize) := v.xFileSize s p pSize
    ((s, Function.update files pFile p), { Reply.code rc with pSize })

end TeeSqlite
