import Libc6Shim.Abi
import Libc6Shim.CSemSystem
import Libc6Shim.WrapperGen

/-!
# The environment

Linux code sees the environment through three variables of the shim's, set
once to the array the process was started with (`shimInit`), and changes it
through wrappers that the generator makes of three prototypes. Those call
the native functions and nothing else (`shimCall_eq`), so that the variables
go on denoting the array of the start, whatever libc does with its own
`environ`.

A run is a sequence of such calls, over a libc that may change the array its
`environ` points to or make it point to another. The variables follow
exactly as long as no call takes a changed environment elsewhere
(`linuxEnviron_follows_iff`).
-/

namespace Libc6Shim

open CSem Ruby

/-! ## The system -/

/-- An environment: its `NAME=VALUE` texts. -/
abbrev Environment := List Text

/-- libc: the arrays in memory, and the variable `environ`. -/
structure NativeEnv where
  arrays : Ptr → Environment
  environ : Ptr

/-- What `getenv` reads. -/
def NativeEnv.read (n : NativeEnv) : Environment := n.arrays n.environ

/-- An argument of one of the functions. -/
inductive EnvArg where
  | text (s : Text)
  | int (n : Int)

/-- The functions of libc, by their names. -/
structure EnvLib where
  act : Text → List EnvArg → NativeEnv → Int × NativeEnv

/-- They work on `environ`: whatever array it points to after the call, no
other one has been changed. -/
def EnvLib.ActsOnEnviron (lib : EnvLib) : Prop :=
  ∀ f args n p, p ≠ (lib.act f args n).2.environ →
    (lib.act f args n).2.arrays p = n.arrays p

/-- The process: libc, and the variables `environ`, `_environ` and
`__environ` of the shim. -/
structure EnvSys where
  native : NativeEnv
  environ : Ptr
  environ₁ : Ptr
  environ₂ : Ptr

/-- The constructor, which gets libc's `environ`. -/
def shimInit (native : NativeEnv) : EnvSys where
  native := native
  environ := native.environ
  environ₁ := native.environ
  environ₂ := native.environ

/-! ## The calls -/

inductive EnvCall where
  | setenv (name value : Text) (overwrite : Int)
  | unsetenv (name : Text)
  | putenv (string : Text)

namespace EnvCall

/-- The prototypes of `src/prototypes.rb`. -/
def prototype : EnvCall → Text
  | .setenv .. =>
      "int setenv(const char* name, const char* value, int overwrite)".toList
  | .unsetenv _ => "int unsetenv(const char* name)".toList
  | .putenv _ => "int putenv(char* string)".toList

def name : EnvCall → Text
  | .setenv .. => "setenv".toList
  | .unsetenv _ => "unsetenv".toList
  | .putenv _ => "putenv".toList

def args : EnvCall → List EnvArg
  | .setenv name value overwrite => [.text name, .text value, .int overwrite]
  | .unsetenv name => [.text name]
  | .putenv string => [.text string]

end EnvCall

/-- A call of the generated wrapper. -/
def shimCall (lib : EnvLib) (c : EnvCall) (s : EnvSys) :
    Option (Int × EnvSys) := do
  let (f, passed) ← wrapperInvokes c.prototype none c.args
  let (r, native) := lib.act f passed s.native
  return (r, { s with native })

/-- The wrappers are generated, and forward the call. -/
theorem EnvCall.wrapper_forwards (c : EnvCall) :
    wrapperInvokes c.prototype none c.args = some (c.name, c.args) := by
  cases c <;> rfl

/-- What libc makes of its environment in a call. -/
def EnvCall.after (lib : EnvLib) (c : EnvCall) (n : NativeEnv) : NativeEnv :=
  (lib.act c.name c.args n).2

/-- The process after the call. -/
def EnvSys.after (lib : EnvLib) (s : EnvSys) (c : EnvCall) : EnvSys :=
  { s with native := c.after lib s.native }

theorem shimCall_eq (lib : EnvLib) (c : EnvCall) (s : EnvSys) :
    shimCall lib c s =
      some ((lib.act c.name c.args s.native).1, s.after lib c) := by
  rw [shimCall, c.wrapper_forwards]
  rfl

/-- A call that is made. -/
def EnvStep (lib : EnvLib) (s : EnvSys) (c : EnvCall) (s' : EnvSys) : Prop :=
  ∃ r, shimCall lib c s = some (r, s')

theorem envStep_iff {lib : EnvLib} {s s' : EnvSys} {c : EnvCall} :
    EnvStep lib s c s' ↔ s' = s.after lib c := by
  unfold EnvStep
  rw [shimCall_eq]
  constructor
  · rintro ⟨r, h⟩
    cases h
    rfl
  · rintro rfl
    exact ⟨_, rfl⟩

/-! ## Following -/

/-- The three variables denote the environment that `getenv` reads. -/
def Follows (s : EnvSys) : Prop :=
  s.native.arrays s.environ = s.native.read ∧
    s.native.arrays s.environ₁ = s.native.read ∧
    s.native.arrays s.environ₂ = s.native.read

/-- The call changes the environment, and not in the array the process was
started with. -/
def EnvCall.Strays (lib : EnvLib) (start : Ptr) (s : EnvSys) (c : EnvCall) :
    Prop :=
  (c.after lib s.native).read ≠ s.native.read ∧
    (c.after lib s.native).environ ≠ start

section Steps

variable {lib : EnvLib} {start : Ptr} {s s' : EnvSys} {c : EnvCall}

/-- The variables point to the array of the start, which denotes the
environment. -/
structure EnvInv (start : Ptr) (s : EnvSys) : Prop where
  environ : s.environ = start
  environ₁ : s.environ₁ = start
  environ₂ : s.environ₂ = start
  follows : s.native.arrays start = s.native.read

/-- The array of the start still denotes the environment after a call that
does not stray, and after no other. -/
theorem EnvInv.read_after_iff (hlib : lib.ActsOnEnviron)
    (hinv : EnvInv start s) :
    (c.after lib s.native).arrays start = (c.after lib s.native).read ↔
      ¬c.Strays lib start s := by
  by_cases hstart : (c.after lib s.native).environ = start
  · refine iff_of_true ?_ fun hstrays => hstrays.2 hstart
    rw [NativeEnv.read, hstart]
  · have hkept : (c.after lib s.native).arrays start = s.native.read := by
      rw [← hinv.follows]
      exact hlib _ _ _ _ (Ne.symm hstart)
    rw [hkept]
    constructor
    · intro hread hstrays
      exact hstrays.1 hread.symm
    · intro hstays
      by_contra hne
      exact hstays ⟨Ne.symm hne, hstart⟩

/-- The variables are not touched, so that they follow if the array of the
start does. -/
theorem EnvInv.follows_after (hinv : EnvInv start s) :
    Follows (s.after lib c) ↔
      (c.after lib s.native).arrays start = (c.after lib s.native).read := by
  unfold Follows EnvSys.after
  rw [hinv.environ, hinv.environ₁, hinv.environ₂]
  exact ⟨And.left, fun hread => ⟨hread, hread, hread⟩⟩

theorem EnvInv.follows_iff (hlib : lib.ActsOnEnviron)
    (hinv : EnvInv start s) :
    (∀ s', EnvStep lib s c s' → Follows s') ↔ ¬c.Strays lib start s := by
  rw [← hinv.read_after_iff hlib, ← hinv.follows_after]
  constructor
  · intro hfollows
    exact hfollows _ (envStep_iff.mpr rfl)
  · intro hfollows s' hstep
    rw [envStep_iff] at hstep
    exact hstep ▸ hfollows

theorem EnvInv.step (hinv : EnvInv start s) (hstep : EnvStep lib s c s')
    (hfollows : Follows s') : EnvInv start s' := by
  rw [envStep_iff] at hstep
  subst hstep
  exact ⟨hinv.environ, hinv.environ₁, hinv.environ₂,
    hinv.follows_after.mp hfollows⟩

end Steps

theorem envInv_shimInit (n : NativeEnv) : EnvInv n.environ (shimInit n) :=
  ⟨rfl, rfl, rfl, rfl⟩

/-- From the state `shim_init` leaves, the variables denote the environment
`getenv` reads after every call of a sequence exactly if no call strays. -/
theorem linuxEnviron_follows_iff {lib : EnvLib} (hlib : lib.ActsOnEnviron)
    (n : NativeEnv) (calls : List EnvCall) :
    Throughout (EnvStep lib)
        (fun _ s c => ∀ s', EnvStep lib s c s' → Follows s')
        [] (shimInit n) calls ↔
      Throughout (EnvStep lib) (fun _ s c => ¬c.Strays lib n.environ s)
        [] (shimInit n) calls := by
  refine throughout_congr (I := fun _ s => EnvInv n.environ s) ?_ ?_
    (envInv_shimInit n)
    (throughout_of_forall (fun _ _ _ => trivial) [] _ calls)
  · intro _ s c hinv _
    exact hinv.follows_iff hlib
  · intro _ s c s' hinv _ hfollows hstep
    exact hinv.step hstep (hfollows s' hstep)

/-- The text is a setting of the name. -/
def sets (name entry : Text) : Bool := (name ++ ['=']).isPrefixOf entry

/-- `setenv` of a libc that builds a new array for each change. -/
def rebuildingSetenv (name value : Text) (overwrite : Int) (n : NativeEnv) :
    NativeEnv :=
  if overwrite = 0 ∧ n.read.any (sets name) then n
  else
    { arrays := Function.update n.arrays (n.environ + 1)
        (n.read.filter (!sets name ·) ++ [name ++ '=' :: value])
      environ := n.environ + 1 }

/-- The libc of that `setenv`, whose other functions do nothing. -/
def rebuildingEnvLib : EnvLib where
  act _ args n :=
    match args with
    | [.text name, .text value, .int overwrite] =>
        (0, rebuildingSetenv name value overwrite n)
    | _ => (-1, n)

theorem rebuildingSetenv_arrays {name value : Text} {overwrite : Int}
    {n : NativeEnv} {p : Ptr}
    (hp : p ≠ (rebuildingSetenv name value overwrite n).environ) :
    (rebuildingSetenv name value overwrite n).arrays p = n.arrays p := by
  unfold rebuildingSetenv at hp ⊢
  split
  · rfl
  · rename_i hset
    rw [if_neg hset] at hp
    exact Function.update_of_ne hp _ _

theorem rebuildingEnvLib_acts : rebuildingEnvLib.ActsOnEnviron := by
  intro f args n p hp
  unfold rebuildingEnvLib at hp ⊢
  simp only at hp ⊢
  split at hp
  · exact rebuildingSetenv_arrays hp
  · rfl

/-- A process started with one setting, at address 8. -/
def startedEnv : NativeEnv where
  arrays p := if p = 8 then ["FOO=old".toList] else []
  environ := 8

/-- A setting that is there and may stay does not stray. -/
theorem setenv_kept_follows :
    rebuildingEnvLib.ActsOnEnviron ∧
      Throughout (EnvStep rebuildingEnvLib)
        (fun _ s c => ∀ s', EnvStep rebuildingEnvLib s c s' → Follows s')
        [] (shimInit startedEnv)
        [.setenv "FOO".toList "new".toList 0] := by
  refine ⟨rebuildingEnvLib_acts,
    (linuxEnviron_follows_iff rebuildingEnvLib_acts startedEnv _).mpr
      ⟨?_, fun _ _ => trivial⟩⟩
  rintro ⟨-, hmoved⟩
  exact hmoved rfl

/-- A new setting is not seen through the Linux variables. -/
theorem setenv_strays :
    rebuildingEnvLib.ActsOnEnviron ∧
      ¬Throughout (EnvStep rebuildingEnvLib)
        (fun _ s c => ∀ s', EnvStep rebuildingEnvLib s c s' → Follows s')
        [] (shimInit startedEnv)
        [.setenv "BAR".toList "bar".toList 1] := by
  refine ⟨rebuildingEnvLib_acts, ?_⟩
  rintro ⟨hfollows, -⟩
  have hafter : Follows ((shimInit startedEnv).after rebuildingEnvLib _) :=
    hfollows _ (envStep_iff.mpr rfl)
  exact absurd hafter.1 (by decide)

end Libc6Shim
