import Libc6Shim.Abi
import Libc6Shim.CSemFlags
import Libc6Shim.CSemHeap
import Libc6Shim.CSemString

/-!
# Matching paths

`glob` and `globfree` (`src/libc/glob.c`). The shim has its own `glob_t` and
copies it into a native one and back, field by field. The native structure
is a local: for `glob` all of it but `gl_offs` is whatever the stack holds.

The native functions are a parameter (`GlobLib`), of which `GlobLib.Lawful`
says what the manual does. A call comes with what there is to find.
-/

namespace Libc6Shim

open CSem Buf Outcome

/-! ## Structures -/

/-- A string that was found, or a vector of them. -/
inductive GlobObj where
  | path (s : Buf)
  | pathv (slots : List Ptr)

abbrev GlobHeap := Heap GlobObj

/-- FreeBSD's `glob_t`, without its functions. -/
structure NativeGlob where
  glPathc : Nat
  glMatchc : Nat
  glOffs : Nat
  glFlags : Word
  glPathv : Ptr

/-- `linux_glob_t`. -/
structure LinuxGlob where
  glPathc : Nat
  glPathv : Ptr
  glOffs : Nat
  glFlags : Word

/-! ## Flags and results -/

def linuxGlobErr : Word := 0x0001
def linuxGlobMark : Word := 0x0002
def linuxGlobNosort : Word := 0x0004
def linuxGlobDooffs : Word := 0x0008
def linuxGlobNocheck : Word := 0x0010
def linuxGlobAppend : Word := 0x0020
def linuxGlobNoescape : Word := 0x0040
def linuxGlobMagchar : Word := 0x0100
def linuxGlobAltdirfunc : Word := 0x0200
def linuxGlobBrace : Word := 0x0400
def linuxGlobNomagic : Word := 0x0800
def linuxGlobTilde : Word := 0x1000

def knownLinuxGlobFlags : Word :=
  linuxGlobErr ||| linuxGlobMark ||| linuxGlobNosort ||| linuxGlobDooffs |||
  linuxGlobNocheck ||| linuxGlobAppend ||| linuxGlobNoescape |||
  linuxGlobMagchar ||| linuxGlobAltdirfunc ||| linuxGlobBrace |||
  linuxGlobNomagic ||| linuxGlobTilde

def globAppend : Word := 0x0001
def globDooffs : Word := 0x0002
def globErr : Word := 0x0004
def globMark : Word := 0x0008
def globNocheck : Word := 0x0010
def globNosort : Word := 0x0020
def globAltdirfunc : Word := 0x0040
def globBrace : Word := 0x0080
def globMagchar : Word := 0x0100
def globNomagic : Word := 0x0200
def globTilde : Word := 0x0800
def globNoescape : Word := 0x2000

/-- The flags of `glob`, in the source's order: Linux bit, native bit. -/
def globFlagPairs : List (Word × Word) :=
  [(linuxGlobErr, globErr), (linuxGlobMark, globMark),
    (linuxGlobNosort, globNosort), (linuxGlobDooffs, globDooffs),
    (linuxGlobNocheck, globNocheck), (linuxGlobAppend, globAppend),
    (linuxGlobNoescape, globNoescape), (linuxGlobMagchar, globMagchar),
    (linuxGlobAltdirfunc, globAltdirfunc), (linuxGlobBrace, globBrace),
    (linuxGlobNomagic, globNomagic), (linuxGlobTilde, globTilde)]

def linuxToNativeGlobFlags (linuxFlags : Word) : Outcome Word := do
  require (linuxFlags &&& ~~~knownLinuxGlobFlags = 0)
  return setFlags 0 globFlagPairs linuxFlags

def globNospace : Int := -1
def globAborted : Int := -2
def globNomatch : Int := -3

def linuxGlobNospace : Int := 1
def linuxGlobAborted : Int := 2
def linuxGlobNomatch : Int := 3

/-- The `switch` of `shim_glob_impl`. -/
def linuxGlobResult (err : Int) : Outcome Int :=
  if err = 0 then .ok 0
  else if err = globNospace then .ok linuxGlobNospace
  else if err = globAborted then .ok linuxGlobAborted
  else if err = globNomatch then .ok linuxGlobNomatch
  else .error .abort

/-! ## The native library -/

/-- What a native `glob` finds, and what it returns. -/
structure GlobAnswer where
  found : List Buf
  err : Int
  err_known : err = 0 ∨ err = globNospace ∨ err = globAborted ∨ err = globNomatch

structure GlobLib where
  glob : Buf → Word → GlobAnswer → NativeGlob → GlobHeap →
    Outcome (NativeGlob × GlobHeap)
  globfree : NativeGlob → GlobHeap → Outcome (NativeGlob × GlobHeap)

/-- The fields of a `glob_t` list the strings `found`, at `ps`, behind `offs`
empty slots. -/
structure Lists (h : GlobHeap) (pathc : Nat) (pathv : Ptr) (offs : Nat)
    (ps : List Ptr) (found : List Buf) : Prop where
  pathc_eq : pathc = ps.length
  pathv_eq : if ps = [] then pathv = null
    else h.obj pathv = some (.pathv (List.replicate offs null ++ ps ++ [null]))
  paths : ps.map h.obj = found.map fun s => some (.path s)
  nodup : ps.Nodup

structure GlobLib.Lawful (lib : GlobLib) : Prop where
  /-- Without `GLOB_APPEND`, what is found is all there is. -/
  glob_new : ∀ pattern flags answer g h, flags &&& globAppend = 0 →
    ∃ g' h' ps, lib.glob pattern flags answer g h = .ok (g', h') ∧
      g'.glOffs = (if flags &&& globDooffs ≠ 0 then g.glOffs else 0) ∧
      Lists h' g'.glPathc g'.glPathv g'.glOffs ps answer.found
  /-- With it, the structure is extended. -/
  glob_append : ∀ pattern flags answer g h g' h', flags &&& globAppend ≠ 0 →
    lib.glob pattern flags answer g h = .ok (g', h') →
      g'.glPathc = g.glPathc + answer.found.length
  globfree_null : ∀ g h, g.glPathv = null → lib.globfree g h = .ok (g, h)
  /-- The strings and the vector are freed. -/
  globfree_lists : ∀ (g : NativeGlob) h ps found, g.glPathv ≠ null →
    Lists h g.glPathc g.glPathv g.glOffs ps found →
    ∃ g' h' gone, lib.globfree g h = .ok (g', h') ∧
      h'.freed = h.freed ++ gone ∧ gone.map Prod.fst = ps ++ [g.glPathv]
  globfree_frees : ∀ (g : NativeGlob) h g' h', g.glPathv ≠ null →
    lib.globfree g h = .ok (g', h') →
    ∃ gone, h'.freed = h.freed ++ gone ∧ g.glPathv ∈ gone.map Prod.fst

/-! ## The shim -/

variable (lib : GlobLib)

/-- What the caller's structure is given back. -/
def copyGlob (linuxFlags : Word) (out : NativeGlob) : LinuxGlob where
  glPathc := out.glPathc
  glPathv := out.glPathv
  glOffs := out.glOffs
  glFlags :=
    if out.glFlags &&& globMagchar ≠ 0 then linuxFlags ||| linuxGlobMagchar
    else linuxFlags &&& ~~~linuxGlobMagchar

/-- `garbage` is what the stack holds where `out` is. -/
def shimGlob (garbage : NativeGlob) (pattern : Buf) (linuxFlags : Word)
    (errfunc : Ptr) (answer : GlobAnswer) (pglob : LinuxGlob) (h : GlobHeap) :
    Outcome (Int × LinuxGlob × GlobHeap) := do
  require (linuxFlags &&& linuxGlobAltdirfunc = 0)
  require (errfunc = null)
  let out := { garbage with glOffs := pglob.glOffs }
  let flags ← linuxToNativeGlobFlags linuxFlags
  let (out, h) ← lib.glob pattern flags answer out h
  let r ← linuxGlobResult answer.err
  return (r, copyGlob linuxFlags out, h)

/-- The structure that the native `globfree` clears is a local one. -/
def shimGlobfree (pglob : LinuxGlob) (h : GlobHeap) : Outcome GlobHeap := do
  let flags ← linuxToNativeGlobFlags pglob.glFlags
  let g : NativeGlob := {
    glPathc := pglob.glPathc, glPathv := pglob.glPathv, glMatchc := 0,
    glOffs := pglob.glOffs, glFlags := flags }
  let (_, h) ← lib.globfree g h
  return h

def shimGlob64 (garbage : NativeGlob) (pattern : Buf) (linuxFlags : Word)
    (errfunc : Ptr) (answer : GlobAnswer) (pglob : LinuxGlob) (h : GlobHeap) :
    Outcome (Int × LinuxGlob × GlobHeap) :=
  shimGlob lib garbage pattern linuxFlags errfunc answer pglob h

def shimGlobfree64 (pglob : LinuxGlob) (h : GlobHeap) : Outcome GlobHeap :=
  shimGlobfree lib pglob h

end Libc6Shim
