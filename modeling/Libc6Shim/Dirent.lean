import Libc6Shim.Abi
import Libc6Shim.CSemHeap
import Libc6Shim.CSemString

/-!
# Directory streams

`src/libc/dirent.c` keeps its own record of a stream: the native one, and a
list of the entries it has handed out. Each call of `readdir` or `readdir64`
makes a new entry, and a record in the list that holds it; `closedir` frees
them all. `readdir_r` and `readdir64_r` fill an entry of the caller's
instead.

Entries, records and the stream itself are objects of one heap. What fresh
memory holds is a parameter (`Junk`): a copied name ends at its NUL, and the
bytes behind it stay as they were.
-/

namespace Libc6Shim

open CSem Buf Outcome

/-! ## Entries -/

/-- The widths of the fields of a Linux `struct dirent` that differ. -/
structure DirentLayout where
  inoBits : Nat
  offBits : Nat

/-- `struct linux_dirent`. -/
def linuxDirent : Abi → DirentLayout
  | .i386 => ⟨32, 32⟩
  | .amd64 => ⟨64, 64⟩

/-- `struct linux_dirent64`. -/
def linuxDirent64 (_ : Abi) : DirentLayout := ⟨64, 64⟩

/-- `char d_name[256]`. -/
abbrev DirentName := { b : Buf // b.length = 256 }

theorem length_zeroName : (List.replicate 256 (0 : UInt8)).length = 256 :=
  List.length_replicate

def zeroName : DirentName := ⟨_, length_zeroName⟩

structure LinuxDirent (l : DirentLayout) where
  dIno : BitVec l.inoBits
  dOff : BitVec l.offBits
  dReclen : BitVec 16
  dType : BitVec 8
  dName : DirentName

/-- FreeBSD's `struct dirent`. -/
structure NativeDirent where
  dIno : BitVec 64
  dOff : BitVec 64
  dReclen : BitVec 16
  dType : BitVec 8
  dName : Buf

/-- `strlcpy(dst, src, sizeof(dst))` -/
def copyName (dst : DirentName) (src : Buf) : DirentName :=
  ⟨dst.1.patch 0 (src.take 255 ++ [0]), by
    have hdst := dst.2
    have htake : (src.take 255).length ≤ 255 := List.length_take_le ..
    rw [length_patch, hdst]
    rw [List.length_append, List.length_singleton]
    omega⟩

/-- `copy_direntry` and `copy_direntry64`. -/
def copyDirentry {l : DirentLayout} (dst : LinuxDirent l) (src : NativeDirent) :
    LinuxDirent l where
  dIno := src.dIno.setWidth _
  dOff := src.dOff.setWidth _
  dReclen := src.dReclen
  dType := src.dType
  dName := copyName dst.dName src.dName

/-! ## Objects -/

/-- `struct shim_dir_entry`. -/
structure ShimDirEntry where
  entries : Ptr
  linuxEntry : Ptr
  linuxEntry64 : Ptr

/-- `struct shim_directory`, whose mutex is locked or not. -/
structure ShimDirectory where
  dir : Ptr
  head : Ptr
  locked : Bool

inductive DirObj (abi : Abi) where
  | directory (d : ShimDirectory)
  | record (r : ShimDirEntry)
  | entry (e : LinuxDirent (linuxDirent abi))
  | entry64 (e : LinuxDirent (linuxDirent64 abi))

abbrev DirHeap (abi : Abi) := Heap (DirObj abi)

/-- What the memory of a new object holds. -/
structure Junk (abi : Abi) where
  entry : Ptr → LinuxDirent (linuxDirent abi)
  entry64 : Ptr → LinuxDirent (linuxDirent64 abi)
  link : Ptr → Ptr

variable {abi : Abi}

/-- `SLIST_ENTRY(shim_dir_entry) entries` -/
def recordEntry : SlistEntry (DirObj abi) where
  next a := match a with
    | .record r => some r.entries
    | _ => none
  link q a := match a with
    | .record r => .record { r with entries := q }
    | a => a
  next_link q a p hp := by
    cases a <;> first | rfl | cases hp

def loadDirectory (h : DirHeap abi) (p : Ptr) : Outcome ShimDirectory := do
  match ← h.load p with
  | .directory d => .ok d
  | _ => .error .fault

def loadRecord (h : DirHeap abi) (p : Ptr) : Outcome ShimDirEntry := do
  match ← h.load p with
  | .record r => .ok r
  | _ => .error .fault

/-- `pthread_mutex_lock`, which waits for ever if the thread has the mutex. -/
def lockDirectory (h : DirHeap abi) (p : Ptr) : Outcome (DirHeap abi) := do
  let d ← loadDirectory h p
  if d.locked then .error .spin
  else h.store p (.directory { d with locked := true })

/-- `pthread_mutex_unlock`. -/
def unlockDirectory (h : DirHeap abi) (p : Ptr) : Outcome (DirHeap abi) := do
  let d ← loadDirectory h p
  h.store p (.directory { d with locked := false })

/-! ## The list of a stream -/

def createShimDir (dir : Ptr) (h : DirHeap abi) : Ptr × DirHeap abi :=
  h.malloc (.directory ⟨dir, null, false⟩)

/-- The second half of `insert_entry` and `insert_entry64`: a record for the
new entry, with `fields` but the link. -/
def insertRecord (junk : Junk abi) (shimDir : Ptr) (fields : Ptr → ShimDirEntry)
    (h : DirHeap abi) : Outcome (DirHeap abi) := do
  let (shimEntry, h) := h.malloc (.record (fields (junk.link h.next)))
  let h ← lockDirectory h shimDir
  let d ← loadDirectory h shimDir
  let (head, h) ← Slist.insertHead recordEntry h d.head shimEntry
  let h ← h.store shimDir (.directory { d with head })
  unlockDirectory h shimDir

def insertEntry (junk : Junk abi) (shimDir : Ptr) (entry : NativeDirent)
    (h : DirHeap abi) : Outcome (Ptr × DirHeap abi) := do
  let (linuxEntry, h) :=
    h.malloc (.entry (copyDirentry (junk.entry h.next) entry))
  let h ← insertRecord junk shimDir (fun link => ⟨link, linuxEntry, null⟩) h
  return (linuxEntry, h)

def insertEntry64 (junk : Junk abi) (shimDir : Ptr) (entry : NativeDirent)
    (h : DirHeap abi) : Outcome (Ptr × DirHeap abi) := do
  let (linuxEntry64, h) :=
    h.malloc (.entry64 (copyDirentry (junk.entry64 h.next) entry))
  let h ← insertRecord junk shimDir (fun link => ⟨link, null, linuxEntry64⟩) h
  return (linuxEntry64, h)

/-- The body of the loop of `destroy_shim_dir`. -/
def releaseEntry (budget : Nat) (shimDir shimEntry : Ptr) (h : DirHeap abi) :
    Outcome (DirHeap abi) := do
  let d ← loadDirectory h shimDir
  let (head, h) ← Slist.remove recordEntry budget h d.head shimEntry
  let h ← h.store shimDir (.directory { d with head })
  let r ← loadRecord h shimEntry
  let h ← if r.linuxEntry ≠ null then h.free r.linuxEntry else .ok h
  let r ← loadRecord h shimEntry
  let h ← if r.linuxEntry64 ≠ null then h.free r.linuxEntry64 else .ok h
  h.free shimEntry

/-- All the entries and their records are freed. -/
def releaseEntries (budget : Nat) (shimDir : Ptr) (h : DirHeap abi) :
    Outcome (DirHeap abi) := do
  let d ← loadDirectory h shimDir
  Slist.foreachSafe recordEntry (releaseEntry budget shimDir) budget d.head h

/-- A mutex that is locked is not destroyed. -/
def destroyShimDir (budget : Nat) (shimDir : Ptr) (h : DirHeap abi) :
    Outcome (DirHeap abi) := do
  let h ← lockDirectory h shimDir
  let h ← releaseEntries budget shimDir h
  let h ← unlockDirectory h shimDir
  let d ← loadDirectory h shimDir
  require (d.locked = false)
  h.free shimDir

/-! ## The native calls -/

inductive DirCall where
  | opendir (filename : Buf)
  | fdopendir (fd : Word)
  | readdir (dir : Ptr)
  | rewinddir (dir : Ptr)
  | seekdir (dir : Ptr) (loc : Int)
  | telldir (dir : Ptr)
  | closedir (dir : Ptr)
deriving DecidableEq

/-- What a call answers with; the null pointer is a stream that was not
opened, and no entry the end of one. -/
@[reducible] def DirAnswer : DirCall → Type
  | .opendir _ | .fdopendir _ => Ptr
  | .readdir _ => Option NativeDirent
  | .rewinddir _ | .seekdir .. => Unit
  | .telldir _ => Int
  | .closedir _ => Word

abbrev DirProg (abi : Abi) := Stateful (DirHeap abi) DirCall DirAnswer

def callDir (c : DirCall) : DirProg abi (DirAnswer c) := Stateful.call c

/-- A step of the shim's own. -/
def onDirHeap {α : Type} (f : DirHeap abi → Outcome (α × DirHeap abi)) :
    DirProg abi α := Stateful.onState f

/-! ## The shim -/

/-- The native stream of a directory. -/
def nativeDir (shimDir : Ptr) : DirProg abi Ptr :=
  onDirHeap fun h => do return ((← loadDirectory h shimDir).dir, h)

def shimFdopendir (fd : Word) : DirProg abi Ptr := do
  let dir ← callDir (.fdopendir fd)
  if dir ≠ null then onDirHeap fun h => .ok (createShimDir dir h)
  else return null

/-- One directory is opened as another, and then without a test. -/
def shimOpendir (filename : Buf) : DirProg abi Ptr := do
  if filename = lit "/sys/devices/" then
    let dir ← callDir (.opendir (lit "/libexec"))
    onDirHeap fun h => .ok (createShimDir dir h)
  else
    let dir ← callDir (.opendir filename)
    if dir ≠ null then onDirHeap fun h => .ok (createShimDir dir h)
    else return null

/-- The next entry of the native stream, and what is made of it. -/
def readNext (shimDir : Ptr)
    (take : NativeDirent → DirHeap abi → Outcome (Ptr × DirHeap abi)) :
    DirProg abi Ptr := do
  match ← callDir (.readdir (← nativeDir shimDir)) with
  | some entry => onDirHeap (take entry)
  | none => return null

def shimReaddir (junk : Junk abi) (shimDir : Ptr) : DirProg abi Ptr :=
  readNext shimDir (insertEntry junk shimDir)

def shimReaddir64 (junk : Junk abi) (shimDir : Ptr) : DirProg abi Ptr :=
  readNext shimDir (insertEntry64 junk shimDir)

/-- Fill the entry at `linuxEntry`, which `*result` is then. -/
def fillEntry (linuxEntry : Ptr) (e : NativeDirent) (h : DirHeap abi) :
    Outcome (Ptr × DirHeap abi) := do
  match ← h.load linuxEntry with
  | .entry dst =>
      return (linuxEntry, ← h.store linuxEntry (.entry (copyDirentry dst e)))
  | _ => .error .fault

def fillEntry64 (linuxEntry : Ptr) (e : NativeDirent) (h : DirHeap abi) :
    Outcome (Ptr × DirHeap abi) := do
  match ← h.load linuxEntry with
  | .entry64 dst =>
      return (linuxEntry, ← h.store linuxEntry (.entry64 (copyDirentry dst e)))
  | _ => .error .fault

/-- The answer is what is stored in `*result`; `readdir_r` itself returns
0. -/
def shimReaddirR (shimDir linuxEntry : Ptr) : DirProg abi Ptr :=
  readNext shimDir (fillEntry linuxEntry)

def shimReaddir64R (shimDir linuxEntry : Ptr) : DirProg abi Ptr :=
  readNext shimDir (fillEntry64 linuxEntry)

def shimRewinddir (shimDir : Ptr) : DirProg abi Unit := do
  callDir (.rewinddir (← nativeDir shimDir))

def shimSeekdir (shimDir : Ptr) (loc : Int) : DirProg abi Unit := do
  callDir (.seekdir (← nativeDir shimDir) loc)

def shimTelldir (shimDir : Ptr) : DirProg abi Int := do
  callDir (.telldir (← nativeDir shimDir))

def shimClosedir (budget : Nat) (shimDir : Ptr) : DirProg abi Word := do
  let err ← callDir (.closedir (← nativeDir shimDir))
  onDirHeap fun h => do return ((), ← destroyShimDir budget shimDir h)
  return err

end Libc6Shim
