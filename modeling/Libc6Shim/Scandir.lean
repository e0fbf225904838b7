import Libc6Shim.Dirent

/-!
# Listing a directory

`scandir` and `scandir64` of `src/libc/dirent.c`, which are one function over
two layouts of an entry. The entries of the native stream are copied one by
one; those that `select` accepts go to an array that is made twice as long
whenever it is full, and the others are freed.

`select` and `compar` are functions on entries, and `qsort` is a parameter
(`Qsort`). Signed overflow is undefined, and `realloc` always moves the array.
-/

namespace Libc6Shim

open CSem Buf Outcome

/-! ## Objects -/

/-- An entry, or an array of pointers to entries. -/
inductive ScanObj (l : DirentLayout) where
  | entry (e : LinuxDirent l)
  | slots (ps : List Ptr)

abbrev ScanHeap (l : DirentLayout) := Heap (ScanObj l)

/-- What new memory holds: that of the `i`-th entry, and the `i`-th slot of an
array. -/
structure ScanJunk (l : DirentLayout) where
  entry : Nat → LinuxDirent l
  slot : Nat → Ptr

abbrev ScanProg (l : DirentLayout) := Stateful (ScanHeap l) DirCall DirAnswer

variable {l : DirentLayout}

def callScan (c : DirCall) : ScanProg l (DirAnswer c) := Stateful.call c

/-- A step of the shim's own. -/
def onScanHeap {α : Type} (f : ScanHeap l → Outcome (α × ScanHeap l)) :
    ScanProg l α := Stateful.onState f

def loadDirent (h : ScanHeap l) (p : Ptr) : Outcome (LinuxDirent l) := do
  match ← h.load p with
  | .entry e => .ok e
  | _ => .error .fault

def loadSlots (h : ScanHeap l) (p : Ptr) : Outcome (List Ptr) := do
  match ← h.load p with
  | .slots ps => .ok ps
  | _ => .error .fault

/-- The value of an `int`. -/
def checkInt (n : Nat) : Outcome Nat :=
  if n < 2 ^ 31 then .ok n else .error .fault

/-- The slots in `sizeof(linux_dirent*) * len` bytes. -/
def slotsIn (abi : Abi) (len : Nat) : Nat :=
  abi.wordBytes * len % abi.sizeMod / abi.wordBytes

def mallocSlots (abi : Abi) (junk : ScanJunk l) (len : Nat) (h : ScanHeap l) :
    Ptr × ScanHeap l :=
  h.malloc (.slots ((List.range (slotsIn abi len)).map junk.slot))

def reallocSlots (abi : Abi) (junk : ScanJunk l) (arr : Ptr) (len : Nat)
    (h : ScanHeap l) : Outcome (Ptr × ScanHeap l) := do
  let ps ← loadSlots h arr
  let new := (List.range (slotsIn abi len)).drop ps.length
  let h ← h.free arr
  return h.malloc (.slots (ps.take (slotsIn abi len) ++ new.map junk.slot))

/-! ## The loop -/

/-- `out` and `nitems`. -/
structure ScanOut where
  arr : Ptr
  len : Nat
  nitems : Nat

/-- No `select` accepts everything. -/
def selected (select : Option (LinuxDirent l → Bool)) (x : LinuxDirent l) : Bool :=
  match select with
  | some f => f x
  | none => true

/-- A full array is made twice as long. -/
def makeRoom (abi : Abi) (junk : ScanJunk l) (s : ScanOut) (h : ScanHeap l) :
    Outcome (ScanOut × ScanHeap l) := do
  if s.nitems ≥ s.len then
    let len ← checkInt (s.len * 2)
    let (arr, h) ← reallocSlots abi junk s.arr len h
    return (⟨arr, len, s.nitems⟩, h)
  else return (s, h)

/-- `out.arr[nitems] = linux_entry` -/
def storeSlot (s : ScanOut) (linuxEntry : Ptr) (h : ScanHeap l) :
    Outcome (ScanHeap l) := do
  let ps ← loadSlots h s.arr
  if s.nitems < ps.length then
    h.store s.arr (.slots (ps.set s.nitems linuxEntry))
  else .error .fault

/-- The `i`-th entry of the stream. -/
def scanEntry (abi : Abi) (junk : ScanJunk l)
    (select : Option (LinuxDirent l → Bool)) (i : Nat) (e : NativeDirent)
    (s : ScanOut) (h : ScanHeap l) : Outcome (ScanOut × ScanHeap l) := do
  let (linuxEntry, h) := h.malloc (.entry (copyDirentry (junk.entry i) e))
  let x ← loadDirent h linuxEntry
  if selected select x then
    let (s, h) ← makeRoom abi junk s h
    let h ← storeSlot s linuxEntry h
    let nitems ← checkInt (s.nitems + 1)
    return ({ s with nitems }, h)
  else
    let h ← h.free linuxEntry
    return (s, h)

def scanLoop (abi : Abi) (junk : ScanJunk l)
    (select : Option (LinuxDirent l → Bool)) (dir : Ptr) :
    Nat → Nat → ScanOut → ScanProg l ScanOut
  | 0, _, _ => Stateful.lift (.error .spin)
  | budget + 1, i, s => do
      match ← callScan (.readdir dir) with
      | some e =>
          let s ← onScanHeap (scanEntry abi junk select i e s)
          scanLoop abi junk select dir budget (i + 1) s
      | none => return s

/-! ## The calls -/

/-- The native `qsort`, which knows nothing of what it sorts. -/
structure Qsort where
  sort : ∀ {α : Type}, (α → α → Int) → List α → List α

/-- The signs are those of a total preorder. -/
structure IsTotalPreorder {α : Type} (cmp : α → α → Int) : Prop where
  sign : ∀ a b, 0 < cmp a b ↔ cmp b a < 0
  trans : ∀ a b c, cmp a b ≤ 0 → cmp b c ≤ 0 → cmp a c ≤ 0

structure Qsort.Documented (q : Qsort) : Prop where
  perm : ∀ {α : Type} (cmp : α → α → Int) xs, (q.sort cmp xs).Perm xs
  sorted : ∀ {α : Type} (cmp : α → α → Int) xs, IsTotalPreorder cmp →
    (q.sort cmp xs).Pairwise fun a b => cmp a b ≤ 0

/-- What the slots point to is compared. -/
def sortSlots (q : Qsort) (compar : LinuxDirent l → LinuxDirent l → Int)
    (s : ScanOut) (h : ScanHeap l) : Outcome (ScanHeap l) := do
  let ps ← loadSlots h s.arr
  let items ← (ps.take s.nitems).mapM fun p => do return (p, ← loadDirent h p)
  let sorted := q.sort (fun a b => compar a.2 b.2) items
  h.store s.arr (.slots (sorted.map Prod.fst ++ ps.drop s.nitems))

/-- With no comparison, or nothing to compare, there is no sorting. -/
def sortIf (q : Qsort) (compar : Option (LinuxDirent l → LinuxDirent l → Int))
    (s : ScanOut) (h : ScanHeap l) : Outcome (Unit × ScanHeap l) := do
  match compar with
  | some f => if 0 < s.nitems then return ((), ← sortSlots q f s h) else return ((), h)
  | none => return ((), h)

/-- What is returned, and what is stored in `*linux_namelist`. -/
def scandirAs (abi : Abi) (q : Qsort) (junk : ScanJunk l) (budget : Nat)
    (dirname : Buf) (select : Option (LinuxDirent l → Bool))
    (compar : Option (LinuxDirent l → LinuxDirent l → Int)) :
    ScanProg l (Int × Option Ptr) := do
  let dir ← callScan (.opendir dirname)
  if dir = null then return (-1, none)
  else
    let arr ← onScanHeap fun h => .ok (mallocSlots abi junk 32 h)
    let s ← scanLoop abi junk select dir budget 0 ⟨arr, 32, 0⟩
    let _ ← callScan (.closedir dir)
    onScanHeap (sortIf q compar s)
    return (s.nitems, some s.arr)

def shimScandir (abi : Abi) (q : Qsort) (junk : ScanJunk (linuxDirent abi))
    (budget : Nat) (dirname : Buf)
    (select : Option (LinuxDirent (linuxDirent abi) → Bool))
    (compar : Option (LinuxDirent (linuxDirent abi) →
      LinuxDirent (linuxDirent abi) → Int)) :
    ScanProg (linuxDirent abi) (Int × Option Ptr) :=
  scandirAs abi q junk budget dirname select compar

def shimScandir64 (abi : Abi) (q : Qsort) (junk : ScanJunk (linuxDirent64 abi))
    (budget : Nat) (dirname : Buf)
    (select : Option (LinuxDirent (linuxDirent64 abi) → Bool))
    (compar : Option (LinuxDirent (linuxDirent64 abi) →
      LinuxDirent (linuxDirent64 abi) → Int)) :
    ScanProg (linuxDirent64 abi) (Int × Option Ptr) :=
  scandirAs abi q junk budget dirname select compar

end Libc6Shim
