import Libc6Shim.Abi
import Libc6Shim.CSemTrampolineRuns

/-!
# Callbacks on i386

On i386 `shim___cxa_atexit_impl` (`src/main.c`) and `shim_pthread_create_impl`
(`src/libthr/pthread.c`) hand the native library a wrapper in the place of the
Linux program's function, for the sake of the stack's alignment. The wrapper
gets a `struct wrapper_args`, with the function and its argument, and frees
it when the function is done.

Neither the program nor the native library can tell (`callbacks_unchanged`),
and no `wrapper_args` is touched after it was freed, or freed but after its
function returned (`wrapperArgs_tidy`): the one of a function that never
returns, as one that calls `pthread_exit`, stays, and so does that of a
registration that failed.
-/

namespace Libc6Shim

open CSem

/-! ## The functions -/

/-- `__cxa_atexit` takes a `dso`, and its functions return nothing. -/
abbrev AtexitRoutine (α : Type) := Trampoline.Routine Ptr Ptr Unit α

/-- `pthread_create` takes a `pthread_t*` and the attributes. -/
abbrev ThreadRoutine (α : Type) := Trampoline.Routine Ptr (Ptr × Ptr) Ptr α

/-- `__cxa_atexit_cb_wrapper`. -/
def cxaAtexitCbWrapper (arg : Ptr) : AtexitRoutine Unit :=
  Trampoline.trampoline arg

def shimCxaAtexit (abi : Abi) (cb arg dso : Ptr) : AtexitRoutine Errno :=
  match abi with
  | .i386 => Trampoline.register cb arg dso
  | .amd64 => Trampoline.registerAsIs cb arg dso

/-- `pthread_create_start_routine_wrapper`. -/
def pthreadCreateStartRoutineWrapper (arg : Ptr) : ThreadRoutine Ptr :=
  Trampoline.trampoline arg

/-- On amd64 there is none but the generated one, which passes everything
on. -/
def shimPthreadCreate (abi : Abi) (startRoutine arg : Ptr) (attrs : Ptr × Ptr) :
    ThreadRoutine Errno :=
  match abi with
  | .i386 => Trampoline.register startRoutine arg attrs
  | .amd64 => Trampoline.registerAsIs startRoutine arg attrs

/-! ## The systems they make -/

/-- The program and the C library, of which `P` says what it does: when it
calls the functions registered with `__cxa_atexit`, if at all. -/
def AtexitStep (abi : Abi) (P : Trampoline.Policy Ptr Unit) :
    Trampoline.State Ptr Ptr Unit → Trampoline.Event Ptr Ptr Unit →
      Trampoline.State Ptr Ptr Unit → Prop :=
  Trampoline.Step (shimCxaAtexit abi) cxaAtexitCbWrapper P

/-- The program and libthr. -/
def ThreadStep (abi : Abi) (P : Trampoline.Policy (Ptr × Ptr) Ptr) :
    Trampoline.State Ptr (Ptr × Ptr) Ptr → Trampoline.Event Ptr (Ptr × Ptr) Ptr →
      Trampoline.State Ptr (Ptr × Ptr) Ptr → Prop :=
  Trampoline.Step (shimPthreadCreate abi) pthreadCreateStartRoutineWrapper P

/-- Whatever the native library does, and however calls and registrations
interleave, the program and the library see on i386 what they see on amd64:
which function is called with which argument at which point, and what it
returns. This is as far as `malloc` succeeds, which the source never asks,
and the library does not look at the functions it is handed, other than to
call them. -/
theorem callbacks_unchanged :
    (∀ P tr, Traces (· = Trampoline.fresh) (AtexitStep .i386 P) Trampoline.view tr ↔
      Traces (· = Trampoline.fresh) (AtexitStep .amd64 P) Trampoline.view tr) ∧
    ∀ P tr, Traces (· = Trampoline.fresh) (ThreadStep .i386 P) Trampoline.view tr ↔
      Traces (· = Trampoline.fresh) (ThreadStep .amd64 P) Trampoline.view tr :=
  ⟨Trampoline.traces_iff, Trampoline.traces_iff⟩

/-- In every run no `wrapper_args` is used after it was freed, freed twice or
read before it is filled in, and the ones that were freed are those of the
functions that returned. -/
theorem wrapperArgs_tidy :
    (∀ P es s, Runs (· = Trampoline.fresh) (AtexitStep .i386 P) es s →
      Trampoline.Tidy s) ∧
    ∀ P es s, Runs (· = Trampoline.fresh) (ThreadStep .i386 P) es s →
      Trampoline.Tidy s :=
  ⟨fun _ _ _ => Trampoline.tidy_of_runs, fun _ _ _ => Trampoline.tidy_of_runs⟩

/-- A function that is registered, called at exit with the argument it was
registered with, and returns: its `wrapper_args` is gone, and that of a
registration under way is there. -/
theorem wrapperArgs_tidy_called :
    ∃ s, Runs (· = Trampoline.fresh) (AtexitStep .i386 fun _ _ => True)
      [.ask 0 7 8 9, .askStep 0 .malloc 1, .askStep 0 (.setCb 1 7) (.ok ()),
        .askStep 0 (.setArg 1 8) (.ok ()),
        .askStep 0 (.register .trampoline 1 9) 0,
        .begin 0, .runStep 0 (.getCb 1) (.ok 7), .runStep 0 (.getArg 1) (.ok 8),
        .runStep 0 (.enter 7 8) (), .ask 1 7 3 9, .askStep 1 .malloc 2,
        .runStep 0 .leave (), .runStep 0 (.free 1) (.ok ()), .finish 0 ()] s ∧
      Trampoline.Tidy s ∧ s.heap.obj 1 = none ∧
      s.heap.obj 2 = some ⟨none, none⟩ := by
  have hstart : Runs (· = Trampoline.fresh) (AtexitStep .i386 fun _ _ => True) []
      Trampoline.fresh := .nil rfl
  have hasked := hstart.snoc (e := Trampoline.Event.ask 0 7 8 9) ⟨rfl, rfl⟩
  have hcell := hasked.snoc (e := Trampoline.Event.askStep 0 .malloc 1)
    ⟨_, _, _, rfl, rfl, rfl, rfl⟩
  have hcb := hcell.snoc (e := Trampoline.Event.askStep 0 (.setCb 1 7) (.ok ()))
    ⟨_, _, _, rfl, ⟨rfl, rfl⟩, rfl, rfl⟩
  have harg := hcb.snoc (e := Trampoline.Event.askStep 0 (.setArg 1 8) (.ok ()))
    ⟨_, _, _, rfl, ⟨rfl, rfl⟩, rfl, rfl⟩
  have hregistered := harg.snoc (e := Trampoline.Event.askStep 0 (.register .trampoline 1 9) 0)
    ⟨_, _, _, rfl, rfl, ⟨trivial, rfl⟩, rfl⟩
  have hbegun := hregistered.snoc (e := Trampoline.Event.begin 0) ⟨_, _, rfl, rfl, trivial, rfl⟩
  have hgotCb := hbegun.snoc (e := Trampoline.Event.runStep 0 (.getCb 1) (.ok 7))
    ⟨_, _, rfl, ⟨rfl, rfl⟩, rfl⟩
  have hgotArg := hgotCb.snoc (e := Trampoline.Event.runStep 0 (.getArg 1) (.ok 8))
    ⟨_, _, rfl, ⟨rfl, rfl⟩, rfl⟩
  have hentered := hgotArg.snoc (e := Trampoline.Event.runStep 0 (.enter 7 8) ())
    ⟨_, _, rfl, rfl, rfl⟩
  have hother := (hentered.snoc (e := Trampoline.Event.ask 1 7 3 9) ⟨rfl, rfl⟩).snoc
    (e := Trampoline.Event.askStep 1 .malloc 2) ⟨_, _, _, rfl, rfl, rfl, rfl⟩
  have hleft := hother.snoc (e := Trampoline.Event.runStep 0 .leave ()) ⟨_, _, rfl, rfl, rfl⟩
  have hfreed := hleft.snoc (e := Trampoline.Event.runStep 0 (.free 1) (.ok ()))
    ⟨_, _, rfl, ⟨rfl, rfl⟩, rfl⟩
  have hrun := hfreed.snoc (e := Trampoline.Event.finish 0 ()) ⟨rfl, trivial, rfl⟩
  exact ⟨_, hrun, wrapperArgs_tidy.1 _ _ _ hrun, rfl, rfl⟩

end Libc6Shim
