import Libc6Shim.Abi
import Libc6Shim.CSemFlags
import Libc6Shim.CSemMachine
import Libc6Shim.RubyRegex

/-!
# Dynamic linking

`src/libc/dlfcn.c`. A symbol is looked for among the shim's own functions
first, under its name with `shim_` before it, which goes through a buffer of
100 bytes; then the malloc hooks are withheld, and the rest is the native
linker's. `dladdr1` gets the link map that Linux code asks for by opening the
object once more.

The native linker is a parameter (`Rtld`): what it finds and opens. It counts
the references to each object, and keeps what `dlerror` is to tell.

Of a reference that `dladdr1` takes nothing is left: in every run the linker
holds what the program opened and did not close (`references_kept`). And a
program that asks `dlerror` before and after each call, as it should, is told
of the errors of that call and of no other, although the shim has the native
linker look for names of its own (`checkedCalls_traces`). What it finds in an
object, or in all of them, is what the native linker finds there; behind the
object that asks (`RTLD_NEXT`) it finds what is behind the shim.
-/

namespace Libc6Shim

open CSem Outcome
open Ruby (Text)

/-! ## The native linker -/

/-- What is known of an address. -/
structure DlInfo where
  dliFname : Option Text
  dliFbase : Ptr
  dliSname : Option Text
  dliSaddr : Ptr
deriving DecidableEq

/-- References to each object that is open, by its handle. -/
abbrev References := Ptr → Nat

/-- What is open about the native linker. The error of a lookup, and of
whatever else may fail, is the text that `dlerror` has for it. -/
structure Rtld where
  /-- What `dlsym(NULL, name)` finds in the library that asks: the shim. -/
  own : Text → Option Ptr
  ownMissing : Text → Text
  find : References → Ptr → Text → Option Text → Except Text Ptr
  load : References → Option Text → Word → Except Text Ptr
  locate : References → Ptr → Except Text DlInfo
  linkMap : References → Ptr → Except Text Ptr
  origin : References → Ptr → Except Text Text
  badHandle : Ptr → Text
  own_ne_null : ∀ {name p}, own name = some p → p ≠ 0
  load_ne_null : ∀ {held path mode p}, load held path mode = .ok p → p ≠ 0

structure LinkerState where
  held : References
  error : Option Text

/-- The two requests of `dlinfo` are calls of their own. -/
inductive NativeDl where
  | dlopen (path : Option Text) (mode : Word)
  | dlclose (handle : Ptr)
  | dlsym (handle : Ptr) (symbol : Text)
  | dlvsym (handle : Ptr) (symbol version : Text)
  | dladdr (address : Ptr)
  | dlinfoLinkmap (handle : Ptr)
  | dlinfoOrigin (handle : Ptr)
  | dlerror

@[reducible] def NativeDlAnswer : NativeDl → Type
  | .dlopen .. => Ptr
  | .dlclose _ => Int
  | .dlsym .. => Ptr
  | .dlvsym .. => Ptr
  | .dladdr _ => Option DlInfo
  | .dlinfoLinkmap _ => Option Ptr
  | .dlinfoOrigin _ => Option Text
  | .dlerror => Option Text

namespace Rtld

/-- A pointer, or `NULL` and the error. -/
def orNull (r : Except Text Ptr) (st : LinkerState) : Ptr × LinkerState :=
  match r with
  | .ok p => (p, st)
  | .error e => (0, { st with error := some e })

/-- An object with one more reference, or `NULL` and the error. -/
def opened (r : Except Text Ptr) (st : LinkerState) : Ptr × LinkerState :=
  match r with
  | .ok p => (p, { st with held := Function.update st.held p (st.held p + 1) })
  | .error e => (0, { st with error := some e })

/-- What was asked for, or nothing and the error. -/
def orNone {α : Type} (r : Except Text α) (st : LinkerState) : Option α × LinkerState :=
  match r with
  | .ok a => (some a, st)
  | .error e => (none, { st with error := some e })

def answer (rtld : Rtld) :
    (c : NativeDl) → LinkerState → NativeDlAnswer c × LinkerState
  | .dlopen path mode, st => opened (rtld.load st.held path mode) st
  | .dlclose handle, st =>
      if st.held handle = 0 then (-1, { st with error := some (rtld.badHandle handle) })
      else (0, { st with held := Function.update st.held handle (st.held handle - 1) })
  | .dlsym handle symbol, st =>
      if handle = 0 then
        match rtld.own symbol with
        | some p => (p, st)
        | none => (0, { st with error := some (rtld.ownMissing symbol) })
      else orNull (rtld.find st.held handle symbol none) st
  | .dlvsym handle symbol version, st =>
      orNull (rtld.find st.held handle symbol (some version)) st
  | .dladdr address, st => orNone (rtld.locate st.held address) st
  | .dlinfoLinkmap handle, st => orNone (rtld.linkMap st.held handle) st
  | .dlinfoOrigin handle, st => orNone (rtld.origin st.held handle) st
  | .dlerror, st => (st.error, { st with error := none })

end Rtld

/-- A routine over the native linker. -/
abbrev Dl := Prog NativeDl NativeDlAnswer

instance : MonadLift Outcome Dl where
  monadLift := Prog.ofOutcome

def callDl (c : NativeDl) : Dl (NativeDlAnswer c) := .call c .ret

/-! ## The entry points -/

def linuxRtldLocal : Word := 0
def linuxRtldLazy : Word := 0x1
def linuxRtldNow : Word := 0x2
def linuxRtldNoload : Word := 0x4
def linuxRtldDeepbind : Word := 0x8
def linuxRtldGlobal : Word := 0x100
def linuxRtldNodelete : Word := 0x1000

def rtldNoload : Word := 0x2000
def rtldDeepbind : Word := 0x4000

def knownLinuxDlopenModeFlags : Word :=
  linuxRtldLocal ||| linuxRtldLazy ||| linuxRtldNow ||| linuxRtldNoload |||
  linuxRtldGlobal ||| linuxRtldNodelete ||| linuxRtldDeepbind

/-- What is handed down of the flags. -/
def dlopenMode (linuxMode : Word) : Word :=
  setFlags (linuxMode &&& ~~~(linuxRtldNoload ||| linuxRtldDeepbind))
    [(linuxRtldNoload, rtldNoload), (linuxRtldDeepbind, rtldDeepbind)] linuxMode

/-- With `DEBUG` the error of a library that is not opened is printed. -/
def shimDlopen (debug : Bool) (path : Option Text) (linuxMode : Word) : Dl Ptr := do
  require (linuxMode &&& knownLinuxDlopenModeFlags = linuxMode)
  let p ← callDl (.dlopen path (dlopenMode linuxMode))
  if debug ∧ p = 0 then
    let _ ← callDl .dlerror
    return p
  else return p

def shimDlmopen (debug : Bool) (_lmid : Int) (path : Option Text) (mode : Word) : Dl Ptr :=
  shimDlopen debug path mode

def linuxRtldDiLinkmap : Int := 2
def linuxRtldDiOrigin : Int := 6

/-- What is returned, `*info`, and `*extra_info` if it is written. -/
def shimDladdr1 (address : Ptr) (extraInfoType : Int) :
    Dl (Int × Option DlInfo × Option Ptr) := do
  match ← callDl (.dladdr address) with
  | none => return (0, none, none)
  | some info =>
      require (extraInfoType = linuxRtldDiLinkmap)
      require (info.dliFname ≠ none)
      let handle ← callDl (.dlopen info.dliFname rtldNoload)
      if handle ≠ 0 then
        let extraInfo ← callDl (.dlinfoLinkmap handle)
        let _ ← callDl (.dlclose handle)
        if extraInfo = none then return (0, some info, none)
        else return (1, some info, extraInfo)
      else return (1, some info, some 0)

def glibcRtldDefault : Ptr := 0
def glibcRtldNext (abi : Abi) : Ptr := abi.sizeMod - 1
def rtldNext (abi : Abi) : Ptr := abi.sizeMod - 1
def rtldDefault (abi : Abi) : Ptr := abi.sizeMod - 2

def nativeHandle (abi : Abi) (linuxHandle : Ptr) : Ptr :=
  if linuxHandle = glibcRtldDefault then rtldDefault abi
  else if linuxHandle = glibcRtldNext abi then rtldNext abi
  else linuxHandle

/-- `snprintf(buf, sizeof(buf), "shim_%s", symbol)` -/
def shimNameBuf (symbol : Text) : Text := ("shim_".toList ++ symbol).take 99

/-- What is never handed out. -/
def isMallocHook (symbol : Text) : Bool :=
  symbol == "__malloc_hook".toList || symbol == "__realloc_hook".toList ||
    symbol == "__free_hook".toList || symbol == "__memalign_hook".toList

def shimDlvsymAs (abi : Abi) (linuxHandle : Ptr) (symbol : Text)
    (version : Option Text) : Dl Ptr := do
  let shimFn ← callDl (.dlsym 0 (shimNameBuf symbol))
  if shimFn ≠ 0 then return shimFn
  else if isMallocHook symbol then return 0
  else
    let _ ← callDl .dlerror
    match version with
    | none => callDl (.dlsym (nativeHandle abi linuxHandle) symbol)
    | some version => callDl (.dlvsym (nativeHandle abi linuxHandle) symbol version)

def shimDlsym (abi : Abi) (handle : Ptr) (symbol : Text) : Dl Ptr :=
  shimDlvsymAs abi handle symbol none

def shimDlvsym (abi : Abi) (handle : Ptr) (symbol version : Text) : Dl Ptr :=
  shimDlvsymAs abi handle symbol (some version)

def shimDlinfo (handle : Ptr) (request : Int) : Dl (Option Text) := do
  require (request = linuxRtldDiOrigin)
  callDl (.dlinfoOrigin handle)

/-! ## What a program does -/

/-- The calls. `dlclose` and `dlerror` are handed down as they are. -/
inductive DlCall where
  | dlopen (path : Option Text) (linuxMode : Word)
  | dlmopen (lmid : Int) (path : Option Text) (linuxMode : Word)
  | dlclose (handle : Ptr)
  | dlsym (handle : Ptr) (symbol : Text)
  | dlvsym (handle : Ptr) (symbol version : Text)
  | dladdr1 (address : Ptr) (extraInfoType : Int)
  | dlinfo (handle : Ptr) (request : Int)
  | dlerror

inductive DlAnswer where
  | pointer (p : Ptr)
  | status (err : Int)
  | address (err : Int) (info : Option DlInfo) (extraInfo : Option Ptr)
  | text (t : Option Text)
deriving DecidableEq

def shimDl (debug : Bool) (abi : Abi) : DlCall → Dl DlAnswer
  | .dlopen path linuxMode => .pointer <$> shimDlopen debug path linuxMode
  | .dlmopen lmid path linuxMode => .pointer <$> shimDlmopen debug lmid path linuxMode
  | .dlclose handle => .status <$> callDl (.dlclose handle)
  | .dlsym handle symbol => .pointer <$> shimDlsym abi handle symbol
  | .dlvsym handle symbol version => .pointer <$> shimDlvsym abi handle symbol version
  | .dladdr1 address extraInfoType => do
      let (err, info, extraInfo) ← shimDladdr1 address extraInfoType
      return .address err info extraInfo
  | .dlinfo handle request => .text <$> shimDlinfo handle request
  | .dlerror => .text <$> callDl .dlerror

namespace Rtld

variable {rtld : Rtld} {α β : Type} {st : LinkerState}

/-- A routine under the linker. A process that is stopped has no state. -/
def exec (rtld : Rtld) (p : Dl α) (st : LinkerState) : Outcome (α × LinkerState) :=
  match Prog.exec rtld.answer p st with
  | (.ok a, st') => .ok (a, st')
  | (.error e, _) => .error e

@[simp] theorem exec_pure (a : α) : rtld.exec (pure a : Dl α) st = .ok (a, st) := rfl

@[simp] theorem exec_bind (p : Dl α) (f : α → Dl β) :
    rtld.exec (p >>= f) st = rtld.exec p st >>= fun r => rtld.exec (f r.1) r.2 := by
  unfold exec
  rw [Prog.exec_bind]
  rcases Prog.exec rtld.answer p st with ⟨_ | a, st'⟩ <;> rfl

@[simp] theorem exec_map (f : α → β) (p : Dl α) :
    rtld.exec (f <$> p) st = rtld.exec p st >>= fun r => .ok (f r.1, r.2) := by
  rw [← bind_pure_comp, exec_bind]
  rfl

@[simp] theorem exec_call (c : NativeDl) :
    rtld.exec (callDl c) st = .ok (rtld.answer c st) := rfl

@[simp] theorem exec_lift (x : Outcome α) :
    rtld.exec (liftM x : Dl α) st = x >>= fun a => .ok (a, st) := by
  cases x <;> rfl

theorem exec_bind_of {p : Dl α} {a : α} {st' : LinkerState}
    (hp : rtld.exec p st = .ok (a, st')) (f : α → Dl β) :
    rtld.exec (p >>= f) st = rtld.exec (f a) st' := by
  rw [exec_bind, hp]
  rfl

section Native

variable {p : Prop} [Decidable p] {path : Option Text} {mode : Word} {address handle : Ptr}
  {info : DlInfo} {e : Text}

theorem exec_require (h : p) (f : Unit → Dl α) :
    rtld.exec (liftM (require p) >>= f) st = rtld.exec (f ()) st := by
  rw [require_of h]
  exact exec_bind_of rfl f

theorem exec_require_not (h : ¬p) (f : Unit → Dl α) :
    rtld.exec (liftM (require p) >>= f) st = .error .abort := by
  rw [require_of_not h, exec_bind]
  rfl

theorem exec_dlopen_ok (h : rtld.load st.held path mode = .ok handle) :
    rtld.exec (callDl (.dlopen path mode)) st =
      .ok (handle, { st with held := Function.update st.held handle (st.held handle + 1) }) := by
  rw [exec_call, answer, h, opened]

theorem exec_dlopen_error (h : rtld.load st.held path mode = .error e) :
    rtld.exec (callDl (.dlopen path mode)) st = .ok (0, { st with error := some e }) := by
  rw [exec_call, answer, h, opened]

theorem exec_dladdr_ok (h : rtld.locate st.held address = .ok info) :
    rtld.exec (callDl (.dladdr address)) st = .ok (some info, st) := by
  rw [exec_call, answer, h, orNone]

theorem exec_dladdr_error (h : rtld.locate st.held address = .error e) :
    rtld.exec (callDl (.dladdr address)) st = .ok (none, { st with error := some e }) := by
  rw [exec_call, answer, h, orNone]

theorem exec_linkmap_ok {linkMap : Ptr} (h : rtld.linkMap st.held handle = .ok linkMap) :
    rtld.exec (callDl (.dlinfoLinkmap handle)) st = .ok (some linkMap, st) := by
  rw [exec_call, answer, h, orNone]

theorem exec_linkmap_error (h : rtld.linkMap st.held handle = .error e) :
    rtld.exec (callDl (.dlinfoLinkmap handle)) st = .ok (none, { st with error := some e }) := by
  rw [exec_call, answer, h, orNone]

theorem exec_dlclose (h : st.held handle ≠ 0) :
    rtld.exec (callDl (.dlclose handle)) st =
      .ok (0, { st with held := Function.update st.held handle (st.held handle - 1) }) := by
  rw [exec_call, answer, if_neg h]

end Native

/-! ## What the calls are for -/

/-- The names of the shim's own leave room for the end of the buffer. -/
def OwnFit (rtld : Rtld) : Prop := ∀ name p, rtld.own name = some p → name.length < 99

/-- The handles that Linux has for searches in more than one object, and what
FreeBSD has for them: 0 there is `RTLD_DEFAULT`, -2 here, and -1 is
`RTLD_NEXT`, here too. -/
def specialHandles (abi : Abi) : List (Ptr × Ptr) :=
  [(0, abi.sizeMod - 2), (abi.sizeMod - 1, abi.sizeMod - 1)]

/-- A symbol, as the shim finds it. The search of `RTLD_NEXT` begins behind the
object that calls the native linker, and that is the shim. -/
def resolve (rtld : Rtld) (abi : Abi) (held : References) (linuxHandle : Ptr)
    (symbol : Text) (version : Option Text) : Except Text Ptr :=
  match rtld.own ("shim_".toList ++ symbol) with
  | some shimFn => .ok shimFn
  | none =>
      if isMallocHook symbol then .error (rtld.ownMissing ("shim_".toList ++ symbol))
      else rtld.find held (((specialHandles abi).lookup linuxHandle).getD linuxHandle)
        symbol version

/-- Where each flag of Linux is on the native side. -/
def dlopenBits : List (Nat × Nat) := [(0, 0), (1, 1), (2, 13), (3, 14), (8, 8), (12, 12)]

/-- A call, and what `dlerror` has to tell of it. -/
abbrev Served := (DlAnswer × Option Text) × References

def servePointer (r : Except Text Ptr) (held : References) : Served :=
  match r with
  | .ok p => ((.pointer p, none), held)
  | .error e => ((.pointer 0, some e), held)

def serveOpen (rtld : Rtld) (debug : Bool) (path : Option Text) (linuxMode : Word)
    (held : References) : Outcome Served := do
  require (linuxMode &&& knownLinuxDlopenModeFlags = linuxMode)
  match rtld.load held path (setFlags 0 (bitTable 32 dlopenBits) linuxMode) with
  | .ok p => return ((.pointer p, none), Function.update held p (held p + 1))
  | .error e => return ((.pointer 0, if debug then none else some e), held)

def serveAddress (rtld : Rtld) (address : Ptr) (extraInfoType : Int)
    (held : References) : Outcome Served := do
  match rtld.locate held address with
  | .error e => return ((.address 0 none none, some e), held)
  | .ok info =>
      require (extraInfoType = linuxRtldDiLinkmap)
      require (info.dliFname ≠ none)
      match rtld.load held info.dliFname rtldNoload with
      | .error e => return ((.address 1 (some info) (some 0), some e), held)
      | .ok handle =>
          match rtld.linkMap (Function.update held handle (held handle + 1)) handle with
          | .error e => return ((.address 0 (some info) none, some e), held)
          | .ok linkMap => return ((.address 1 (some info) (some linkMap), none), held)

/-- The calls on the references alone, without an error that is kept from one
call to another. -/
def serve (rtld : Rtld) (debug : Bool) (abi : Abi) : DlCall → References → Outcome Served
  | .dlopen path linuxMode, held => rtld.serveOpen debug path linuxMode held
  | .dlmopen _ path linuxMode, held => rtld.serveOpen debug path linuxMode held
  | .dlclose handle, held =>
      return if held handle = 0 then
        ((.status (-1), some (rtld.badHandle handle)), held)
      else ((.status 0, none), Function.update held handle (held handle - 1))
  | .dlsym handle symbol, held =>
      return servePointer (rtld.resolve abi held handle symbol none) held
  | .dlvsym handle symbol version, held =>
      return servePointer (rtld.resolve abi held handle symbol (some version)) held
  | .dladdr1 address extraInfoType, held => rtld.serveAddress address extraInfoType held
  | .dlinfo handle request, held => do
      require (request = linuxRtldDiOrigin)
      match rtld.origin held handle with
      | .ok path => return ((.text (some path), none), held)
      | .error e => return ((.text none, some e), held)
  | .dlerror, held => return ((.text none, none), held)

/-- What a routine comes to is what is served; and the error that is left is
that of the call, if there was none before. -/
def Comes (x : Outcome (DlAnswer × LinkerState)) (error : Option Text)
    (served : Outcome Served) : Prop :=
  match served with
  | .error e => x = .error e
  | .ok ((a, told), held) => ∃ error', x = .ok (a, ⟨held, error'⟩) ∧
      (error = none → error' = told)

section Calls

variable {debug : Bool} {abi : Abi} {symbol : Text} {version : Option Text}
  {path : Option Text} {linuxMode : Word} {handle : Ptr}

theorem own_shimNameBuf (hfit : rtld.OwnFit) (symbol : Text) :
    rtld.own (shimNameBuf symbol) = rtld.own ("shim_".toList ++ symbol) := by
  have hnone : ∀ {name : Text}, 99 ≤ name.length → rtld.own name = none := by
    intro name hlong
    cases hown : rtld.own name with
    | none => rfl
    | some p => exact absurd (hfit name p hown) (Nat.not_lt.mpr hlong)
  by_cases hlen : ("shim_".toList ++ symbol).length ≤ 99
  · rw [shimNameBuf, List.take_of_length_le hlen]
  · have hcut : (shimNameBuf symbol).length = 99 := by
      rw [shimNameBuf, List.length_take, Nat.min_eq_left (by omega)]
    rw [hnone hcut.ge, hnone (by omega)]

theorem nativeHandle_ne_null (abi : Abi) (linuxHandle : Ptr) :
    nativeHandle abi linuxHandle ≠ 0 := by
  have hsize := abi.sizeMod_ge
  unfold nativeHandle
  split
  · exact Nat.sub_ne_zero_of_lt (by omega)
  · split
    · exact Nat.sub_ne_zero_of_lt (by omega)
    · assumption

theorem specialHandles_eq (abi : Abi) (linuxHandle : Ptr) :
    ((specialHandles abi).lookup linuxHandle).getD linuxHandle =
      nativeHandle abi linuxHandle := by
  unfold specialHandles nativeHandle
  simp only [List.lookup_cons, List.lookup_nil]
  by_cases hdefault : linuxHandle = glibcRtldDefault
  · subst hdefault
    rfl
  · rw [if_neg hdefault, show (linuxHandle == 0) = false from beq_false_of_ne hdefault]
    by_cases hnext : linuxHandle = glibcRtldNext abi
    · subst hnext
      rw [if_pos rfl, show (glibcRtldNext abi == abi.sizeMod - 1) = true from beq_self_eq_true _]
      rfl
    · rw [if_neg hnext, show (linuxHandle == abi.sizeMod - 1) = false from
        beq_false_of_ne hnext]
      rfl

/-- A lookup, by where the symbol is. -/
theorem exec_shimDlvsymAs :
    rtld.exec (shimDlvsymAs abi handle symbol version) st = .ok
      (match rtld.own (shimNameBuf symbol) with
        | some shimFn => (shimFn, st)
        | none =>
            if isMallocHook symbol then
              (0, { st with error := some (rtld.ownMissing (shimNameBuf symbol)) })
            else orNull (rtld.find st.held (nativeHandle abi handle) symbol version)
              { st with error := none }) := by
  unfold shimDlvsymAs
  rw [exec_bind, exec_call, ok_bind]
  simp only [answer, if_pos]
  cases hown : rtld.own (shimNameBuf symbol) with
  | some shimFn =>
      simp only
      rw [if_pos (rtld.own_ne_null hown), exec_pure]
  | none =>
      simp only [ne_eq, not_true_eq_false, if_false]
      by_cases hhook : isMallocHook symbol
      · rw [if_pos hhook, if_pos hhook, exec_pure]
      · rw [if_neg hhook, if_neg hhook, exec_bind, exec_call, ok_bind]
        cases version with
        | none =>
            rw [exec_call]
            simp only [answer, if_neg (nativeHandle_ne_null abi handle)]
        | some version => rw [exec_call]; rfl

theorem shimNameBuf_hook (h : isMallocHook symbol) :
    shimNameBuf symbol = "shim_".toList ++ symbol := by
  simp only [isMallocHook, Bool.or_eq_true, beq_iff_eq] at h
  rcases h with ((rfl | rfl) | rfl) | rfl <;> rfl

theorem comes_lookup (hfit : rtld.OwnFit) :
    Comes (rtld.exec (.pointer <$> shimDlvsymAs abi handle symbol version) st) st.error
      (.ok (servePointer (rtld.resolve abi st.held handle symbol version) st.held)) := by
  rw [exec_map, exec_shimDlvsymAs, ok_bind, resolve, own_shimNameBuf hfit]
  cases hown : rtld.own ("shim_".toList ++ symbol) with
  | some shimFn => exact ⟨st.error, rfl, id⟩
  | none =>
      simp only
      by_cases hhook : isMallocHook symbol
      · rw [if_pos hhook, if_pos hhook, shimNameBuf_hook hhook]
        exact ⟨_, rfl, fun _ => rfl⟩
      · rw [if_neg hhook, if_neg hhook, specialHandles_eq]
        cases rtld.find st.held (nativeHandle abi handle) symbol version with
        | ok p => exact ⟨none, rfl, fun _ => rfl⟩
        | error e => exact ⟨some e, rfl, fun _ => rfl⟩

/-- The flags the shim knows, each where the native linker has it. -/
theorem dlopenMode_eq (h : linuxMode &&& knownLinuxDlopenModeFlags = linuxMode) :
    dlopenMode linuxMode = setFlags 0 (bitTable 32 dlopenBits) linuxMode := by
  have hlt : ∀ p ∈ dlopenBits, p.1 < 32 := by decide
  have hkept : ∀ i < 32, (~~~(linuxRtldNoload ||| linuxRtldDeepbind)).getLsbD i = true ↔
      i ≠ 2 ∧ i ≠ 3 := by decide
  have hmoved : ∀ i < 32, (rtldNoload.getLsbD i = true ↔ i = 13) ∧
      (rtldDeepbind.getLsbD i = true ↔ i = 14) := by decide
  have hbits : ∀ i < 32, knownLinuxDlopenModeFlags.getLsbD i = true →
      i = 0 ∨ i = 1 ∨ i = 2 ∨ i = 3 ∨ i = 8 ∨ i = 12 := by decide
  have hnoload := and_bit_ne_zero (w := linuxMode) (m := linuxRtldNoload) (i := 2) rfl (by decide)
  have hdeepbind := and_bit_ne_zero (w := linuxMode) (m := linuxRtldDeepbind) (i := 3) rfl
    (by decide)
  refine BitVec.eq_of_getLsbD_eq fun i hi => ?_
  have hset : linuxMode.getLsbD i = true →
      i = 0 ∨ i = 1 ∨ i = 2 ∨ i = 3 ∨ i = 8 ∨ i = 12 := by
    intro hset
    rw [← h, BitVec.getLsbD_and, Bool.and_eq_true] at hset
    exact hbits i hi hset.2
  rw [Bool.eq_iff_iff, getLsbD_setFlags_bits hlt linuxMode hi, dlopenMode, getLsbD_setFlags]
  simp only [List.any_cons, List.any_nil, hnoload, hdeepbind, Bool.or_eq_true, Bool.and_eq_true,
    BitVec.getLsbD_and, hkept i hi, hmoved i hi, Bool.or_false, dlopenBits, List.mem_cons,
    List.not_mem_nil, or_false, exists_eq_or_imp, exists_eq_left]
  constructor
  · rintro (⟨hset', hne⟩ | ⟨hset', rfl⟩ | ⟨hset', rfl⟩)
    · rcases hset hset' with rfl | rfl | rfl | rfl | rfl | rfl <;> simp_all
    · simp [hset']
    · simp [hset']
  · rintro (⟨hset', rfl⟩ | ⟨hset', rfl⟩ | ⟨hset', rfl⟩ | ⟨hset', rfl⟩ | ⟨hset', rfl⟩ |
      ⟨hset', rfl⟩) <;> simp [hset']

theorem comes_open :
    Comes (rtld.exec (.pointer <$> shimDlopen debug path linuxMode) st) st.error
      (rtld.serveOpen debug path linuxMode st.held) := by
  rw [exec_map]
  unfold shimDlopen serveOpen
  by_cases hknown : linuxMode &&& knownLinuxDlopenModeFlags = linuxMode
  swap
  · rw [exec_require_not hknown, require_of_not hknown]
    rfl
  rw [exec_require hknown, require_of hknown, ok_bind, ← dlopenMode_eq hknown]
  cases hload : rtld.load st.held path (dlopenMode linuxMode) with
  | ok p =>
      rw [exec_bind_of (exec_dlopen_ok hload), if_neg fun h => rtld.load_ne_null hload h.2]
      exact ⟨st.error, rfl, id⟩
  | error e =>
      rw [exec_bind_of (exec_dlopen_error hload)]
      cases debug with
      | true => exact ⟨none, rfl, fun _ => rfl⟩
      | false => exact ⟨some e, rfl, fun _ => rfl⟩

/-- The reference that is taken for the link map is given back. -/
theorem update_back (held : References) (handle : Ptr) :
    Function.update (Function.update held handle (held handle + 1)) handle
      (Function.update held handle (held handle + 1) handle - 1) = held := by
  rw [Function.update_idem, Function.update_self, Nat.add_sub_cancel, Function.update_eq_self]

theorem comes_address {address : Ptr} {extraInfoType : Int} :
    Comes (rtld.exec (shimDl debug abi (.dladdr1 address extraInfoType)) st) st.error
      (rtld.serveAddress address extraInfoType st.held) := by
  rw [shimDl, exec_bind]
  unfold shimDladdr1 serveAddress
  cases hlocate : rtld.locate st.held address with
  | error e =>
      rw [exec_bind_of (exec_dladdr_error hlocate)]
      exact ⟨some e, rfl, fun _ => rfl⟩
  | ok info =>
      rw [exec_bind_of (exec_dladdr_ok hlocate)]
      dsimp only
      by_cases htype : extraInfoType = linuxRtldDiLinkmap
      swap
      · rw [exec_require_not htype, require_of_not htype]
        rfl
      by_cases hname : info.dliFname ≠ none
      swap
      · rw [exec_require htype, exec_require_not hname, require_of htype, require_of_not hname]
        rfl
      rw [exec_require htype, exec_require hname, require_of htype, require_of hname, ok_bind,
        ok_bind]
      cases hload : rtld.load st.held info.dliFname rtldNoload with
      | error e =>
          rw [exec_bind_of (exec_dlopen_error hload)]
          exact ⟨some e, rfl, fun _ => rfl⟩
      | ok handle =>
          rw [exec_bind_of (exec_dlopen_ok hload), if_pos (rtld.load_ne_null hload)]
          dsimp only
          have hheld : Function.update st.held handle (st.held handle + 1) handle ≠ 0 := by
            rw [Function.update_self]
            exact Nat.succ_ne_zero _
          cases hmap : rtld.linkMap
              (Function.update st.held handle (st.held handle + 1)) handle with
          | error e =>
              rw [exec_bind_of (exec_linkmap_error hmap), exec_bind_of (exec_dlclose hheld),
                update_back]
              exact ⟨some e, rfl, fun _ => rfl⟩
          | ok linkMap =>
              rw [exec_bind_of (exec_linkmap_ok hmap), exec_bind_of (exec_dlclose hheld),
                update_back]
              exact ⟨st.error, rfl, id⟩

/-- Each call but `dlerror` does what is served, whatever error is left from
before. -/
theorem comes_serve (hfit : rtld.OwnFit) {c : DlCall} (hc : c ≠ .dlerror) :
    Comes (rtld.exec (shimDl debug abi c) st) st.error (rtld.serve debug abi c st.held) := by
  cases c with
  | dlopen path linuxMode => exact comes_open
  | dlmopen lmid path linuxMode => exact comes_open
  | dlclose handle =>
      rw [shimDl, serve, exec_map]
      by_cases hheld : st.held handle = 0
      · rw [exec_call, answer, if_pos hheld, if_pos hheld]
        exact ⟨_, rfl, fun _ => rfl⟩
      · rw [exec_dlclose hheld, if_neg hheld]
        exact ⟨st.error, rfl, id⟩
  | dlsym handle symbol => exact comes_lookup hfit
  | dlvsym handle symbol version => exact comes_lookup hfit
  | dladdr1 address extraInfoType => exact comes_address
  | dlinfo handle request =>
      rw [shimDl, serve, exec_map]
      unfold shimDlinfo
      by_cases hrequest : request = linuxRtldDiOrigin
      swap
      · rw [exec_require_not hrequest, require_of_not hrequest]
        rfl
      rw [exec_require hrequest, require_of hrequest, exec_call, answer]
      cases rtld.origin st.held handle with
      | ok path => exact ⟨st.error, rfl, id⟩
      | error e => exact ⟨some e, rfl, fun _ => rfl⟩
  | dlerror => exact absurd rfl hc

end Calls

end Rtld

/-! ## Runs -/

/-- A call, and what comes of it. -/
abbrev DlEvent := DlCall × Outcome DlAnswer

/-- The event opens the object. -/
def opens (handle : Ptr) : DlEvent → Bool
  | (.dlopen .., .ok (.pointer p)) => p = handle ∧ p ≠ 0
  | (.dlmopen .., .ok (.pointer p)) => p = handle ∧ p ≠ 0
  | _ => false

/-- The event closes it. -/
def closes (handle : Ptr) : DlEvent → Bool
  | (.dlclose closed, .ok (.status err)) => closed = handle ∧ err = 0
  | _ => false

section Runs

variable {rtld : Rtld} {debug : Bool} {abi : Abi}

/-- A process over the linker. -/
def DlStep (rtld : Rtld) (debug : Bool) (abi : Abi) :
    Option LinkerState → DlEvent → Option LinkerState → Prop :=
  CallStep fun c st => rtld.exec (shimDl debug abi c) st

theorem Rtld.Comes.served {x : Outcome (DlAnswer × LinkerState)} {error : Option Text}
    {served : Outcome Rtld.Served} {a : DlAnswer} {st : LinkerState}
    (h : Rtld.Comes x error served) (hx : x = .ok (a, st)) :
    ∃ told, served = .ok ((a, told), st.held) := by
  subst hx
  cases served with
  | error e => cases h
  | ok r =>
      obtain ⟨⟨a', told⟩, held⟩ := r
      obtain ⟨error', heq, -⟩ := h
      cases heq
      exact ⟨told, rfl⟩

theorem held_of_lookup {linuxHandle : Ptr} {symbol : Text} {version : Option Text}
    {a : DlAnswer} {st st' : LinkerState}
    (h : rtld.exec (.pointer <$> shimDlvsymAs abi linuxHandle symbol version) st =
      .ok (a, st')) : st'.held = st.held := by
  rw [Rtld.exec_map, Rtld.exec_shimDlvsymAs, ok_bind] at h
  obtain ⟨-, rfl⟩ := Prod.mk.inj (Except.ok.inj h)
  cases rtld.own (shimNameBuf symbol) with
  | some shimFn => rfl
  | none =>
      dsimp only
      split
      · rfl
      · cases rtld.find st.held (nativeHandle abi linuxHandle) symbol version <;> rfl

theorem held_of_serveOpen {path : Option Text} {linuxMode : Word} {held held' : References}
    {a : DlAnswer} {told : Option Text}
    (h : rtld.serveOpen debug path linuxMode held = .ok ((a, told), held')) :
    (∃ p, p ≠ 0 ∧ a = .pointer p ∧ held' = Function.update held p (held p + 1)) ∨
      a = .pointer 0 ∧ held' = held := by
  unfold Rtld.serveOpen at h
  obtain ⟨_, -, h⟩ := bind_eq_ok.mp h
  split at h
  · rename_i p hload
    cases h
    exact .inl ⟨p, rtld.load_ne_null hload, rfl, rfl⟩
  · cases h
    exact .inr ⟨rfl, rfl⟩

theorem held_of_serveAddress {address : Ptr} {extraInfoType : Int} {held held' : References}
    {a : DlAnswer} {told : Option Text}
    (h : rtld.serveAddress address extraInfoType held = .ok ((a, told), held')) :
    held' = held := by
  unfold Rtld.serveAddress at h
  split at h
  · cases h
    rfl
  · obtain ⟨_, -, h⟩ := bind_eq_ok.mp h
    obtain ⟨_, -, h⟩ := bind_eq_ok.mp h
    split at h
    · cases h
      rfl
    · split at h <;> cases h <;> rfl

/-- An object that is opened has one reference more. -/
theorem held_of_opened {held held' : References} {a : DlAnswer} (handle : Ptr)
    (h : (∃ p, p ≠ 0 ∧ a = .pointer p ∧ held' = Function.update held p (held p + 1)) ∨
      a = .pointer 0 ∧ held' = held) (path : Option Text) (linuxMode : Word) :
    held' handle = held handle + (opens handle (.dlopen path linuxMode, .ok a)).toNat := by
  rcases h with ⟨p, hp, rfl, rfl⟩ | ⟨rfl, rfl⟩
  · by_cases heq : p = handle
    · subst heq
      simp [opens, hp]
    · simp [opens, heq, Function.update_of_ne (Ne.symm heq)]
  · simp [opens]

/-- One call: a reference more for an object that is opened, and one less for
one that is closed. -/
theorem held_of_exec {c : DlCall} {a : DlAnswer} {st st' : LinkerState}
    (h : rtld.exec (shimDl debug abi c) st = .ok (a, st')) (handle : Ptr) :
    st'.held handle + (closes handle (c, .ok a)).toNat =
      st.held handle + (opens handle (c, .ok a)).toNat := by
  cases c with
  | dlopen path linuxMode =>
      obtain ⟨told, hserved⟩ := Rtld.comes_open.served h
      exact held_of_opened handle (held_of_serveOpen hserved) path linuxMode
  | dlmopen lmid path linuxMode =>
      obtain ⟨told, hserved⟩ := Rtld.comes_open.served h
      have hheld := held_of_opened handle (held_of_serveOpen hserved) path linuxMode
      cases a <;> exact hheld
  | dlclose closed =>
      rw [shimDl, Rtld.exec_map, Rtld.exec_call, ok_bind, Rtld.answer] at h
      by_cases hheld : st.held closed = 0
      · rw [if_pos hheld] at h
        cases h
        simp [opens, closes]
      · rw [if_neg hheld] at h
        cases h
        by_cases heq : closed = handle
        · subst heq
          simp only [Function.update_self, opens, closes]
          simp
          omega
        · simp [opens, closes, heq, Function.update_of_ne (Ne.symm heq)]
  | dlsym linuxHandle symbol => rw [held_of_lookup h]; rfl
  | dlvsym linuxHandle symbol version => rw [held_of_lookup h]; rfl
  | dladdr1 address extraInfoType =>
      obtain ⟨told, hserved⟩ := Rtld.comes_address.served h
      rw [held_of_serveAddress hserved]
      rfl
  | dlinfo linuxHandle request =>
      rw [shimDl, Rtld.exec_map] at h
      unfold shimDlinfo at h
      by_cases hrequest : request = linuxRtldDiOrigin
      swap
      · rw [Rtld.exec_require_not hrequest] at h
        cases h
      rw [Rtld.exec_require hrequest, Rtld.exec_call, Rtld.answer] at h
      cases horigin : rtld.origin st.held linuxHandle <;> rw [horigin] at h <;> cases h <;> rfl
  | dlerror =>
      rw [shimDl, Rtld.exec_map, Rtld.exec_call, ok_bind, Rtld.answer] at h
      cases h
      rfl

theorem countP_event (p : DlEvent → Bool) (e : DlEvent) : [e].countP p = (p e).toNat := by
  rw [List.countP_singleton]
  cases p e <;> rfl

/-- The linker holds what the program opened and did not close, whatever else
it called. -/
theorem references_kept {es : List DlEvent} {st₀ st : LinkerState}
    (hrun : Runs (· = some st₀) (DlStep rtld debug abi) es (some st)) (handle : Ptr) :
    st.held handle + es.countP (closes handle) =
      st₀.held handle + es.countP (opens handle) := by
  refine hrun.invariant (I := fun es s => ∀ st, s = some st →
    st.held handle + es.countP (closes handle) =
      st₀.held handle + es.countP (opens handle)) ?_ ?_ st rfl
  · rintro _ rfl st hst
    cases hst
    rfl
  · rintro es s e s' - ih hstep st hst
    cases hstep with
    | stops _ => cases hst
    | @returns c s₁ s₂ a hexec =>
        cases hst
        have hbefore := ih s₁ rfl
        have hcall := held_of_exec hexec handle
        rw [List.countP_append, List.countP_append, countP_event, countP_event]
        omega

/-! ## Programs that ask for errors -/

/-- A call with `dlerror` before and after it. -/
def checkedDl (debug : Bool) (abi : Abi) (c : DlCall) : Dl (DlAnswer × Option Text) := do
  let _ ← callDl .dlerror
  let a ← shimDl debug abi c
  let told ← callDl .dlerror
  return (a, told)

theorem exec_dlerror (st : LinkerState) :
    rtld.exec (callDl .dlerror) st = .ok (st.error, { st with error := none }) := rfl

/-- A program that asks for errors is told of those that are its own. -/
theorem checkedCalls_traces (hfit : rtld.OwnFit) (debug : Bool) (abi : Abi)
    (held : References) (tr : List (DlCall × Outcome (DlAnswer × Option Text))) :
    Traces (Begins (·.held = held)) (CallStep fun c st => rtld.exec (checkedDl debug abi c) st)
        some tr ↔
      Traces (Begins (· = held)) (CallStep (rtld.serve debug abi)) some tr := by
  refine traces_iff_of_matches (R := fun st held => st.held = held) ?_ ?_ ?_ some tr
  · rintro st rfl
    exact ⟨st.held, rfl, rfl⟩
  · rintro held rfl
    exact ⟨⟨held, none⟩, rfl, rfl⟩
  · rintro c st _ rfl
    unfold checkedDl
    rw [Rtld.exec_bind_of (exec_dlerror st)]
    by_cases hc : c = .dlerror
    · subst hc
      exact ⟨rfl, rfl⟩
    have hcomes : Rtld.Comes (rtld.exec (shimDl debug abi c) ⟨st.held, none⟩) none
        (rtld.serve debug abi c st.held) := Rtld.comes_serve hfit hc
    revert hcomes
    cases rtld.serve debug abi c st.held with
    | error e =>
        intro hcomes
        rw [Rtld.exec_bind, show rtld.exec (shimDl debug abi c) ⟨st.held, none⟩ = .error e from
          hcomes]
        exact rfl
    | ok served =>
        obtain ⟨⟨a, told⟩, held⟩ := served
        rintro ⟨error', hexec, htold⟩
        rw [Rtld.exec_bind_of hexec, Rtld.exec_bind_of (exec_dlerror _), htold rfl]
        exact ⟨rfl, rfl⟩

end Runs

/-! ## A linker -/

/-- One library to open, at 8, and one function in it; and `memcpy` of the
shim's own. -/
def smallRtld : Rtld where
  own name := if name = "shim_memcpy".toList then some 4096 else none
  ownMissing name := "Undefined symbol ".toList ++ name
  find _ _ symbol _ :=
    if symbol = "cos".toList then .ok 8192 else .error "Undefined symbol".toList
  load _ path _ :=
    if path = some "libm.so.6".toList then .ok 8 else .error "not found".toList
  locate _ _ := .ok ⟨some "libm.so.6".toList, 8, some "cos".toList, 8192⟩
  linkMap held handle :=
    if held handle = 0 then .error "Invalid shared object handle".toList else .ok handle
  origin held handle :=
    if held handle = 0 then .error "Invalid shared object handle".toList
    else .ok "/lib".toList
  badHandle _ := "Invalid shared object handle".toList
  own_ne_null h := by
    split at h
    · cases h
      decide
    · cases h
  load_ne_null h := by
    split at h
    · cases h
      decide
    · cases h

theorem smallRtld_fits : smallRtld.OwnFit := by
  intro name p h
  simp only [smallRtld] at h
  split at h
  · rename_i hname
    rw [hname]
    decide
  · cases h

theorem references_kept_libm : ∃ es st,
    Runs (· = some ⟨fun _ => 0, none⟩) (DlStep smallRtld false .amd64) es (some st) ∧
      st.held 8 + es.countP (closes 8) = 0 + es.countP (opens 8) ∧
      es.map Prod.fst = [.dlopen (some "libm.so.6".toList) linuxRtldNow,
        .dladdr1 8192 linuxRtldDiLinkmap] := by
  let held : References := Function.update (fun _ => 0) 8 1
  have hopen : DlStep smallRtld false .amd64 (some ⟨fun _ => 0, none⟩)
      (.dlopen (some "libm.so.6".toList) linuxRtldNow, .ok (.pointer 8))
      (some ⟨held, none⟩) := .returns rfl
  have hlocate : DlStep smallRtld false .amd64 (some ⟨held, none⟩)
      (.dladdr1 8192 linuxRtldDiLinkmap, .ok (.address 1
        (some ⟨some "libm.so.6".toList, 8, some "cos".toList, 8192⟩) (some 8)))
      (some ⟨held, none⟩) :=
    .returns (congrArg (fun held => Except.ok (_, LinkerState.mk held none))
      (Rtld.update_back held 8))
  have hnil : Runs (· = some ⟨fun _ => 0, none⟩) (DlStep smallRtld false .amd64) []
      (some ⟨fun _ => 0, none⟩) := .nil rfl
  have hrun := (hnil.snoc hopen).snoc hlocate
  exact ⟨_, _, hrun, references_kept hrun 8, rfl⟩

theorem checkedCalls_traces_memcpy :
    Traces (Begins (·.held = fun _ => 0))
      (CallStep fun c st => smallRtld.exec (checkedDl false .amd64 c) st) some
      [(.dlsym glibcRtldDefault "nothing".toList,
          .ok (.pointer 0, some "Undefined symbol".toList)),
        (.dlsym glibcRtldDefault "memcpy".toList, .ok (.pointer 4096, none))] := by
  refine (checkedCalls_traces smallRtld_fits false .amd64 (fun _ => 0) _).mpr ?_
  have hnothing : CallStep (smallRtld.serve false .amd64) (some fun _ => 0)
      (.dlsym glibcRtldDefault "nothing".toList,
        .ok (.pointer 0, some "Undefined symbol".toList)) (some fun _ => 0) := .returns rfl
  have hmemcpy : CallStep (smallRtld.serve false .amd64) (some fun _ => 0)
      (.dlsym glibcRtldDefault "memcpy".toList, .ok (.pointer 4096, none))
      (some fun _ => 0) := .returns rfl
  exact ⟨_, _, ((Runs.nil ⟨_, rfl, rfl⟩).snoc hnothing).snoc hmemcpy, rfl⟩

end Libc6Shim
