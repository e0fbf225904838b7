import Libc6Shim.Abi
import Libc6Shim.CSemSystem
import Libc6Shim.WrapperGen

/-!
# Option parsing

Linux code has `optarg`, `optind`, `opterr` and `optopt` of its own, beside
libc's. `getopt` has an implementation in `src/libc/unistd.c` that copies
them to and fro (`shimGetoptImpl`); `getopt_long` and `getopt_long_only` are
left to the generator, whose wrappers call libc and copy nothing
(`OptCall.exec_long`).

A run is a sequence of calls, with the program's own assignments to its
`optind` and `opterr` in between. Every call of `getopt` keeps the two sets
in step; one of the others does only if it finds them in step and leaves
libc's as they were (`optVars_inStep_iff`).
-/

namespace Libc6Shim

open CSem Ruby

variable {α η : Type}

/-! ## The system -/

/-- The variables of `getopt`. -/
structure OptVars where
  optarg : Ptr
  optind : Int
  opterr : Int
  optopt : Int
deriving DecidableEq

/-- As a library starts with them. -/
def OptVars.initial : OptVars where
  optarg := null
  optind := 1
  opterr := 1
  optopt := 0

/-- libc's parsers, by their names. What they return and leave behind depends
on their arguments, on libc's variables, and on what they remember. -/
structure GetoptLib (α η : Type) where
  parse : Text → List α → OptVars → η → Int × OptVars × η

/-- The process: the variables of the shim and of libc, what libc's parsers
remember, and the variables the last of them was started with. -/
structure OptSys (η : Type) where
  linux : OptVars
  native : OptVars
  memory : η
  started : OptVars

/-- After the constructor. -/
def OptSys.atStart (memory : η) : OptSys η where
  linux := .initial
  native := .initial
  memory := memory
  started := .initial

/-- A call of one of libc's parsers. -/
def GetoptLib.run (lib : GetoptLib α η) (f : Text) (args : List α)
    (s : OptSys η) : Int × OptSys η :=
  let (ret, native, memory) := lib.parse f args s.native s.memory
  (ret, { s with native, memory, started := s.native })

def shimGetoptImpl (lib : GetoptLib α η) (args : List α) (s : OptSys η) :
    Int × OptSys η :=
  let s := { s with
    native :=
      { s.native with optind := s.linux.optind, opterr := s.linux.opterr } }
  let (err, s) := lib.run "getopt".toList args s
  (err, { s with
    linux :=
      { s.linux with
        optarg := s.native.optarg
        optind := s.native.optind
        optopt := s.native.optopt } })

/-! ## The calls -/

inductive OptCall (α : Type) where
  | getopt (argc argv optstring : α)
  | getoptLong (argc argv optstring longopts longindex : α)
  | getoptLongOnly (argc argv optstring longopts longindex : α)

namespace OptCall

/-- The prototypes of `src/prototypes.rb`. -/
def prototype : OptCall α → Text
  | .getopt .. =>
      "int getopt(int argc, char* const argv[], const char* optstring)".toList
  | .getoptLong .. =>
      "int getopt_long(int argc, char* const* argv, ".toList ++
        "const char* optstring, const struct option* longopts, ".toList ++
        "int* longindex)".toList
  | .getoptLongOnly .. =>
      "int getopt_long_only(int argc, char* const* argv, ".toList ++
        "const char* optstring, const struct option* longopts, ".toList ++
        "int* longindex)".toList

/-- The implementation of the shim's, if there is one. -/
def impl : OptCall α → Option Text
  | .getopt .. => some "shim_getopt_impl".toList
  | _ => none

def args : OptCall α → List α
  | .getopt argc argv optstring => [argc, argv, optstring]
  | .getoptLong argc argv optstring longopts longindex
  | .getoptLongOnly argc argv optstring longopts longindex =>
      [argc, argv, optstring, longopts, longindex]

/-- libc's parser of that name. -/
def name : OptCall α → Text
  | .getopt .. => "getopt".toList
  | .getoptLong .. => "getopt_long".toList
  | .getoptLongOnly .. => "getopt_long_only".toList

def IsLong : OptCall α → Prop
  | .getopt .. => False
  | _ => True

/-- A call of the wrapper. -/
def exec (lib : GetoptLib α η) (c : OptCall α) (s : OptSys η) :
    Option (Int × OptSys η) := do
  let (f, passed) ← wrapperInvokes c.prototype c.impl c.args
  if f = "shim_getopt_impl".toList then
    return shimGetoptImpl lib passed s
  else return lib.run f passed s

set_option maxRecDepth 2000 in
theorem wrapper_invokes (c : OptCall α) :
    wrapperInvokes c.prototype c.impl c.args =
      some (c.impl.getD c.name, c.args) := by
  cases c <;> rfl

theorem exec_getopt (lib : GetoptLib α η) (argc argv optstring : α)
    (s : OptSys η) :
    (getopt argc argv optstring).exec lib s =
      some (shimGetoptImpl lib [argc, argv, optstring] s) := by
  rw [exec, wrapper_invokes]
  rfl

/-- The generated wrappers call libc's parser, and do nothing else. -/
theorem exec_long (lib : GetoptLib α η) {c : OptCall α} (hlong : c.IsLong)
    (s : OptSys η) : c.exec lib s = some (lib.run c.name c.args s) := by
  rw [exec, wrapper_invokes]
  cases c with
  | getopt => exact hlong.elim
  | getoptLong => rfl
  | getoptLongOnly => rfl

end OptCall

/-- What a program does. -/
inductive OptEvent (α : Type) where
  | call (c : OptCall α)
  | setOptind (n : Int)
  | setOpterr (n : Int)

/-- One event. -/
def OptStep (lib : GetoptLib α η) (s : OptSys η) (ev : OptEvent α)
    (s' : OptSys η) : Prop :=
  match ev with
  | .call c => ∃ ret, c.exec lib s = some (ret, s')
  | .setOptind n => s' = { s with linux := { s.linux with optind := n } }
  | .setOpterr n => s' = { s with linux := { s.linux with opterr := n } }

/-! ## In step -/

/-- A call started libc's parser with the `optind` and `opterr` of Linux, and
has left `optarg`, `optind` and `optopt` as the parser did. -/
structure InStep (s s' : OptSys η) : Prop where
  optind_in : s'.started.optind = s.linux.optind
  opterr_in : s'.started.opterr = s.linux.opterr
  optarg_out : s'.linux.optarg = s'.native.optarg
  optind_out : s'.linux.optind = s'.native.optind
  optopt_out : s'.linux.optopt = s'.native.optopt

/-- The event is in step, if it is a call. -/
def OptEvent.InStep (lib : GetoptLib α η) (s : OptSys η) (ev : OptEvent α) :
    Prop :=
  ∀ c, ev = .call c → ∀ s', OptStep lib s ev s' → Libc6Shim.InStep s s'

/-- A call of a long parser in whose view `optind` or `opterr` are not what
Linux has, or which moves one of libc's variables. -/
def OptEvent.Slips (lib : GetoptLib α η) (s : OptSys η) (ev : OptEvent α) :
    Prop :=
  ∃ c : OptCall α, ev = .call c ∧ c.IsLong ∧
    ¬(s.native.optind = s.linux.optind ∧ s.native.opterr = s.linux.opterr ∧
      let native := (lib.run c.name c.args s).2.native
      native.optarg = s.native.optarg ∧ native.optind = s.native.optind ∧
        native.optopt = s.native.optopt)

/-- What is in step between the calls whatever the program assigns. -/
structure OptInv (s : OptSys η) : Prop where
  optarg : s.linux.optarg = s.native.optarg
  optopt : s.linux.optopt = s.native.optopt

section Steps

variable {lib : GetoptLib α η} {s s' : OptSys η} {ev : OptEvent α}

/-- `getopt` copies to and fro. -/
theorem shimGetoptImpl_inStep (lib : GetoptLib α η) (args : List α)
    (s : OptSys η) : InStep s (shimGetoptImpl lib args s).2 :=
  ⟨rfl, rfl, rfl, rfl, rfl⟩

theorem OptInv.inStep_long_iff (hinv : OptInv s) (f : Text) (args : List α) :
    InStep s (lib.run f args s).2 ↔
      s.native.optind = s.linux.optind ∧ s.native.opterr = s.linux.opterr ∧
        let native := (lib.run f args s).2.native
        native.optarg = s.native.optarg ∧ native.optind = s.native.optind ∧
          native.optopt = s.native.optopt := by
  constructor
  · rintro ⟨hind, herr, hargOut, hindOut, hoptOut⟩
    exact ⟨hind, herr, hargOut.symm.trans hinv.optarg,
      hindOut.symm.trans hind.symm, hoptOut.symm.trans hinv.optopt⟩
  · rintro ⟨hind, herr, harg, hindOut, hopt⟩
    exact ⟨hind, herr, hinv.optarg.trans harg.symm,
      hind.symm.trans hindOut.symm, hinv.optopt.trans hopt.symm⟩

theorem inStep_call_iff {c : OptCall α} :
    (OptEvent.call c).InStep lib s ↔
      ∀ ret s', c.exec lib s = some (ret, s') → InStep s s' := by
  constructor
  · intro hin ret s' hexec
    exact hin c rfl s' ⟨ret, hexec⟩
  · rintro hin c' hc s' ⟨ret, hexec⟩
    obtain rfl := OptEvent.call.inj hc
    exact hin ret s' hexec

theorem slips_call_iff {c : OptCall α} (hlong : c.IsLong) :
    (OptEvent.call c).Slips lib s ↔
      ¬(s.native.optind = s.linux.optind ∧ s.native.opterr = s.linux.opterr ∧
        let native := (lib.run c.name c.args s).2.native
        native.optarg = s.native.optarg ∧ native.optind = s.native.optind ∧
          native.optopt = s.native.optopt) := by
  constructor
  · rintro ⟨c', hc, -, hslips⟩
    obtain rfl := OptEvent.call.inj hc
    exact hslips
  · intro hslips
    exact ⟨c, rfl, hlong, hslips⟩

/-- An event is in step exactly if it does not slip. -/
theorem OptInv.inStep_iff (hinv : OptInv s) :
    ev.InStep lib s ↔ ¬ev.Slips lib s := by
  cases ev with
  | setOptind n =>
      exact iff_of_true (fun c hc => by cases hc) (fun ⟨c, hc, _⟩ => by cases hc)
  | setOpterr n =>
      exact iff_of_true (fun c hc => by cases hc) (fun ⟨c, hc, _⟩ => by cases hc)
  | call c =>
      rw [inStep_call_iff]
      by_cases hlong : c.IsLong
      · rw [slips_call_iff hlong, not_not, ← hinv.inStep_long_iff]
        constructor
        · intro hin
          exact hin _ _ (c.exec_long lib hlong s)
        · intro hin ret s' hexec
          rw [c.exec_long lib hlong] at hexec
          obtain rfl := congrArg Prod.snd (Option.some.inj hexec)
          exact hin
      · refine iff_of_true (fun ret s' hexec => ?_) fun ⟨c', hc, hl, _⟩ => ?_
        · cases c with
          | getopt =>
              rw [OptCall.exec_getopt] at hexec
              obtain rfl := congrArg Prod.snd (Option.some.inj hexec)
              exact shimGetoptImpl_inStep lib _ s
          | getoptLong => exact absurd trivial hlong
          | getoptLongOnly => exact absurd trivial hlong
        · obtain rfl := OptEvent.call.inj hc
          exact hlong hl

theorem OptInv.step (hinv : OptInv s) (hstep : OptStep lib s ev s')
    (hin : ev.InStep lib s) : OptInv s' := by
  cases ev with
  | call c =>
      have hin' := hin c rfl s' hstep
      exact ⟨hin'.optarg_out, hin'.optopt_out⟩
  | setOptind n =>
      obtain rfl := hstep
      exact ⟨hinv.optarg, hinv.optopt⟩
  | setOpterr n =>
      obtain rfl := hstep
      exact ⟨hinv.optarg, hinv.optopt⟩

end Steps

/-- In a program's run every call is in step exactly if none slips. -/
theorem optVars_inStep_iff (lib : GetoptLib α η) (memory : η)
    (evs : List (OptEvent α)) :
    Throughout (OptStep lib) (fun _ s ev => ev.InStep lib s)
        [] (OptSys.atStart memory) evs ↔
      Throughout (OptStep lib) (fun _ s ev => ¬ev.Slips lib s)
        [] (OptSys.atStart memory) evs := by
  have hstart : OptInv (OptSys.atStart memory) := ⟨rfl, rfl⟩
  refine throughout_congr (I := fun _ s => OptInv s) ?_ ?_ hstart
    (throughout_of_forall (fun _ _ _ => trivial) [] _ evs)
  · intro _ s ev hinv _
    exact hinv.inStep_iff
  · intro _ s ev s' hinv _ hin hstep
    exact hinv.step hstep hin

/-- A parser for which each argument is an option. -/
def countingLib : GetoptLib Unit Unit where
  parse _ _ v _ := (97, { v with optind := v.optind + 1 }, ())

/-- A program that uses `getopt_long` is told nothing. -/
theorem getoptLong_slips :
    ¬Throughout (OptStep countingLib) (fun _ s ev => ev.InStep countingLib s)
      [] (OptSys.atStart ()) [.call (.getoptLong () () () () ())] := by
  rintro ⟨hin, -⟩
  have hlong : (OptCall.getoptLong () () () () ()).IsLong := trivial
  have hstep : OptStep countingLib (OptSys.atStart ())
      (.call (.getoptLong () () () () ())) _ :=
    ⟨_, OptCall.exec_long countingLib hlong _⟩
  have hout := (hin _ rfl _ hstep).optind_out
  exact absurd hout (by decide)

end Libc6Shim
