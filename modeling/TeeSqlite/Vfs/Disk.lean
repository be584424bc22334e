import TeeSqlite.Lib.Runs
import TeeSqlite.Vfs.DemoFile

/-! A backing file that can fail. The outcomes of the coming calls are laid out
in advance, one list for each system call; past its list a call succeeds in full.
The methods of one handle are run on it, one call at a time. -/
namespace TeeSqlite
open ByteFile CTypes

/-- What a transfer of bytes comes to. -/
inductive Transfer
  | full | short (n : Nat) | fail
  deriving DecidableEq

/-- The bytes that get through when `n` are asked for. -/
def Transfer.count (n : Nat) : Transfer → Nat
  | .full => n
  | .short m => min m n
  | .fail => 0

/-- What the call returns. -/
def Transfer.ret (n : Nat) : Transfer → Int
  | .fail => -1
  | t => t.count n

structure Disk where
  bytes : Bytes
  pos : Nat
  seeks : List Bool
  writes : List Transfer
  reads : List Transfer
  syncs : List Int
  sizes : List Bool

namespace Disk

/-- A file on which `lseek`, `read` and `write` never fail and never transfer
short. What `fsync` and `fstat` return is still open. -/
def sound (bytes : Bytes) (syncs : List Int) (sizes : List Bool) : Disk :=
  { bytes, pos := 0, seeks := [], writes := [], reads := [], syncs, sizes }

def nextSeek (d : Disk) : Bool := d.seeks.headD true
def nextWrite (d : Disk) : Transfer := d.writes.headD .full
def nextRead (d : Disk) : Transfer := d.reads.headD .full

def lseek (d : Disk) (ofst : Int) : Disk × Int :=
  if d.nextSeek ∧ 0 ≤ ofst then ({ d with pos := ofst.toNat, seeks := d.seeks.tail }, ofst)
  else ({ d with seeks := d.seeks.tail }, -1)

def write (d : Disk) (buf : Bytes) : Disk × Int :=
  let n := d.nextWrite.count buf.length
  ({ d with bytes := ByteFile.write d.bytes d.pos (buf.take n), pos := d.pos + n,
            writes := d.writes.tail }, d.nextWrite.ret buf.length)

def read (d : Disk) (buf : Bytes) (n : Nat) : Disk × Int × Bytes :=
  let got := (ByteFile.read d.bytes d.pos n).take (d.nextRead.count n)
  let ret : Int := if d.nextRead = .fail then -1 else got.length
  ({ d with pos := d.pos + got.length, reads := d.reads.tail }, ret, splice buf 0 got)

def fsync (d : Disk) : Disk × Int := ({ d with syncs := d.syncs.tail }, d.syncs.headD 0)

def filesize (d : Disk) : Disk × Int :=
  ({ d with sizes := d.sizes.tail }, if d.sizes.headD true then d.bytes.length else -1)

/-- The system calls of one open descriptor on the disk. -/
def calls : FileCalls Disk where
  utee_vfs_lseek d _ ofst _ := d.lseek ofst
  utee_vfs_write d _ buf := d.write buf
  utee_vfs_read d _ buf n := d.read buf n
  utee_vfs_fsync d _ := d.fsync
  utee_vfs_filesize d _ := d.filesize
  utee_vfs_close d _ := (d, 0)

end Disk

/-- One call of a method of the handle. Offsets and amounts are not negative;
`zBuf` is the caller's block and `pSize` the caller's size cell. -/
inductive FileOp
  | demoWrite (zBuf : Bytes) (iOfst : Nat)
  | demoRead (zBuf : Bytes) (iAmt iOfst : Nat)
  | demoSync
  | demoFileSize (pSize : Int)
  deriving DecidableEq

/-- Everything a method hands back: its code, the block, the size cell. -/
structure Answer where
  rc : Rc
  zBuf : Bytes
  pSize : Int
  deriving DecidableEq

/-- A handle in use, on the disk. -/
abbrev OpenFile := Disk × DemoFile

def fileStep : OpenFile → FileOp → Option (OpenFile × Answer)
  | (d, p), .demoWrite zBuf iOfst =>
    (demoWrite Disk.calls d p zBuf iOfst).map fun (d, p, rc) => ((d, p), ⟨rc, zBuf, 0⟩)
  | (d, p), .demoRead zBuf iAmt iOfst =>
    let (d, p, rc, zBuf) := demoRead Disk.calls d p zBuf iAmt iOfst
    some ((d, p), ⟨rc, zBuf, 0⟩)
  | (d, p), .demoSync =>
    let (d, p, rc) := demoSync Disk.calls d p
    some ((d, p), ⟨rc, [], 0⟩)
  | (d, p), .demoFileSize pSize =>
    let (d, p, rc, pSize) := demoFileSize Disk.calls d p pSize
    some ((d, p), ⟨rc, [], pSize⟩)

end TeeSqlite
