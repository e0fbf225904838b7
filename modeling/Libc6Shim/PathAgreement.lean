import Libc6Shim.FileCalls

/-!
# What a path means

A program that asks for a file by its path in more than one way wants the
same file each time. The nine entry points here all go down to one native
call on one path at most, so what is asked is whether that path is the same
for all of them: the redirected one, or none if the redirection hides the
file.

`__xstat` does not redirect and `__lxstat` does not look for a path that is
hidden, so the nine agree on exactly the paths the redirection leaves alone
(`pathCalls_agree_iff`) - as far as `open` is asked for something it knows.
-/

namespace Libc6Shim

open CSem Buf Outcome Routine

/-! ## Entry points -/

/-- The calls that take the path of a file, with their other arguments. -/
inductive PathCall where
  | open (linuxFlags mode : Word)
  | open64 (linuxFlags mode : Word)
  | fopen (mode : Buf)
  | fopen64 (mode : Buf)
  | access (mode : Word)
  | xstat
  | xstat64
  | lxstat
  | lxstat64

namespace PathCall

/-- The call, answering whether it succeeded. -/
def routine (abi : Abi) (linuxEmulPath path : Buf) : PathCall → FileRoutine Bool
  | .open linuxFlags mode =>
      Option.isSome <$> shimOpen linuxEmulPath path linuxFlags mode
  | .open64 linuxFlags mode =>
      Option.isSome <$> shimOpen64 linuxEmulPath path linuxFlags mode
  | .fopen mode => Option.isSome <$> shimFopen linuxEmulPath path mode
  | .fopen64 mode => Option.isSome <$> shimFopen64 linuxEmulPath path mode
  | .access mode => Option.isSome <$> shimAccess linuxEmulPath path mode
  | .xstat => Option.isSome <$> shimXstat abi path
  | .xstat64 => Option.isSome <$> shimXstat64 abi path
  | .lxstat => Option.isSome <$> shimLxstat abi linuxEmulPath path
  | .lxstat64 => Option.isSome <$> shimLxstat64 abi linuxEmulPath path

/-- If the call is an `open`, it is with these flags. -/
def Opens (linuxFlags : Word) : PathCall → Prop
  | .open flags _ | .open64 flags _ => flags = linuxFlags
  | _ => True

end PathCall

/-- The path a native call is on. -/
def FileCall.path : FileCall → Option Buf
  | .open path .. | .fopen path _ | .access path _ => some path
  | .stat path | .lstat path => path
  | .fmemopen .. | .fwrite .. | .rewind _ => none

/-- Whether a native call succeeds. -/
def succeeds (h : (c : FileCall) → Except Errno (FileAnswer c)) (c : FileCall) :
    Bool :=
  (h c).toBool

/-- The routine makes one native call, on `p`, and if it returns reports
what that call comes to. -/
def OperatesOn (p : Buf) (r : FileRoutine Bool) : Prop :=
  ∀ h errno, ∃ c, r.calls h errno = [c] ∧ c.path = some p ∧
    ∀ ok e, r.run h errno = .ok (ok, e) → ok = succeeds h c

/-- The routine fails with EACCES, and makes no native call. -/
def Refuses (r : FileRoutine Bool) : Prop :=
  ∀ h errno, r.run h errno = .ok (false, eacces) ∧ r.calls h errno = []

/-- All the calls agree on what the path means. `linuxFlags` are the flags
of `open`. -/
def Agree (abi : Abi) (linuxEmulPath path : Buf) (linuxFlags : Word) : Prop :=
  ∀ c : PathCall, c.Opens linuxFlags →
    match redirect linuxEmulPath path with
    | some p => OperatesOn p (c.routine abi linuxEmulPath path)
    | none => Refuses (c.routine abi linuxEmulPath path)

/-- Flags `open` knows, and hands down. -/
def OpenFlagsOk (linuxFlags : Word) : Prop :=
  linuxFlags &&& knownLinuxOpenFlags = linuxFlags ∧
    linuxFlags &&& linuxOTmpfile = 0

/-! ## Redirection -/

section Redirection

variable {linuxEmulPath path : Buf}

/-- Nothing under `/proc/` is left alone. -/
theorem redirect_ne_of_proc (hproc : startsWith path (lit "/proc/") = true) :
    redirect linuxEmulPath path ≠ some path := by
  intro hself
  rw [redirect] at hself
  by_cases huvm : lit "/dev/nvidia-uvm" = path
  · rw [← huvm] at hproc
    exact absurd hproc (by decide)
  · rw [if_neg huvm, if_pos hproc] at hself
    by_cases hmaps : path = lit "/proc/self/maps"
    · have hlookup : (procfsRedirects linuxEmulPath).lookup
          (lit "/proc/self/maps") = some (lit "/dev/null") := rfl
      rw [hmaps, hlookup] at hself
      exact absurd hself (by decide)
    · by_cases hcpu : path = lit "/proc/cpuinfo"
      · rw [hcpu] at hself
        -- the emulated file has a longer path
        have hlookup : (procfsRedirects linuxEmulPath).lookup
            (lit "/proc/cpuinfo") =
            some (linuxEmulPath ++ lit "/" ++ lit "/proc/cpuinfo") := rfl
        have hlen := congrArg (Option.map List.length) (hlookup.symm.trans hself)
        simp only [Option.map_some, List.length_append, Option.some.injEq]
          at hlen
        have : (lit "/").length = 1 := by decide
        omega
      · have hlookup : (procfsRedirects linuxEmulPath).lookup path = none := by
          simp only [procfsRedirects, List.lookup, beq_eq_false_iff_ne.mpr hmaps,
            beq_eq_false_iff_ne.mpr hcpu]
        rw [hlookup] at hself
        cases hself

/-- A path that is left alone is none of the special cases of `fopen`. -/
theorem not_special_of_redirect (hself : redirect linuxEmulPath path = some path) :
    path ≠ lit "/proc/driver/nvidia/params" ∧ isTaskComm path = .ok false := by
  have hproc : ¬startsWith path (lit "/proc/") = true := fun hproc =>
    redirect_ne_of_proc hproc hself
  constructor
  · rintro rfl
    exact hproc (by decide)
  · have htask : ¬startsWith path (lit "/proc/self/task/") = true := by
      intro htask
      obtain ⟨r, rfl⟩ := startsWith_iff.mp htask
      have hsplit : lit "/proc/self/task/" = lit "/proc/" ++ lit "self/task/" := by
        decide
      exact hproc (startsWith_iff.mpr ⟨lit "self/task/" ++ r, by
        rw [hsplit, List.append_assoc]⟩)
    rw [isTaskComm, if_neg htask]
    rfl

end Redirection

/-! ## The calls on a path that is left alone -/

section Calls

variable {abi : Abi} {linuxEmulPath path : Buf} {linuxFlags : Word}

/-- A routine that is one native call. -/
theorem operatesOn_of_call {p : Buf} {c : FileCall} (hpath : c.path = some p) :
    OperatesOn p (Option.isSome <$> callFile c) := by
  intro h errno
  refine ⟨c, ?_, hpath, fun ok e hrun => ?_⟩
  · rw [calls_map, callFile, calls_native]
  · rw [run_map, callFile, run_native] at hrun
    rw [succeeds]
    cases hc : h c with
    | error e' =>
        rw [hc] at hrun
        cases hrun
        rfl
    | ok a =>
        rw [hc] at hrun
        cases hrun
        rfl

/-- The routine returns a result, if it returns. -/
def Yields {α : Type} (r : FileRoutine (Option α)) : Prop :=
  ∀ h errno a e, r.run h errno = .ok (a, e) → a.isSome = true

/-- A native call whose answer, if there is one, is converted without
another. -/
theorem operatesOn_of_convert {α : Type} {p : Buf} {c : FileCall}
    {k : Option (FileAnswer c) → FileRoutine (Option α)}
    (hpath : c.path = some p) (hnone : k none = pure none)
    (hsilent : ∀ a, Silent (k (some a))) (hyields : ∀ a, Yields (k (some a))) :
    OperatesOn p (Option.isSome <$> (callFile c >>= k)) := by
  intro h errno
  refine ⟨c, ?_, hpath, fun ok e hrun => ?_⟩
  · rw [calls_map, calls_bind, callFile, calls_native, run_native]
    cases h c with
    | error e' =>
        rw [Prog.ifReturns_ok, hnone]
        rfl
    | ok a =>
        rw [Prog.ifReturns_ok, hsilent a]
        rfl
  · rw [run_map, run_bind, callFile, run_native] at hrun
    rw [succeeds]
    cases hc : h c with
    | error e' =>
        rw [hc, ok_bind, hnone] at hrun
        cases hrun
        rfl
    | ok a =>
        rw [hc, ok_bind] at hrun
        obtain ⟨⟨r, e'⟩, hconv, hrun⟩ := bind_eq_ok.mp hrun
        cases hrun
        exact hyields a h errno r _ hconv

theorem silent_modifyErrno (e : Errno) :
    Silent (set e : FileRoutine PUnit) := fun _ _ => rfl

/-- The device number of a node is made without a native call. -/
theorem silent_fixNvDevId {l : StatLayout} (path : Buf) (statBuf : LinuxStat l) :
    Silent (fixNvDevId abi path statBuf) := by
  unfold fixNvDevId
  split
  · dsimp only
    split
    · exact silent_pure _
    · split
      · exact silent_pure _
      · refine silent_bind (silent_modifyErrno 0) fun _ => ?_
        split
        · exact silent_bind (silent_modifyErrno _) fun _ => silent_pure _
        · exact silent_bind (silent_lift _) fun _ => silent_pure _
  · exact silent_pure _

theorem operatesOn_xstat (l : StatLayout) :
    OperatesOn path (Option.isSome <$> xstat abi l path) := by
  refine operatesOn_of_convert (c := .stat (some path)) rfl rfl ?_ ?_
  · intro sb h errno
    show calls h (some <$> fixNvDevId abi path (copyStatBuf l sb)) errno = []
    rw [calls_map]
    exact silent_fixNvDevId path _ h errno
  · intro sb h errno a e hrun
    have hrun : run h (some <$> fixNvDevId abi path (copyStatBuf l sb)) errno =
        .ok (a, e) := hrun
    rw [run_map] at hrun
    obtain ⟨r, -, hrun⟩ := bind_eq_ok.mp hrun
    cases hrun
    rfl

theorem operatesOn_lxstat (l : StatLayout)
    (hself : redirect linuxEmulPath path = some path) :
    OperatesOn path (Option.isSome <$> lxstat l linuxEmulPath path) := by
  refine operatesOn_of_convert (c := .lstat (redirect linuxEmulPath path)) hself
    rfl (fun sb => silent_pure _) ?_
  intro sb h errno a e hrun
  cases hrun
  rfl

theorem shimOpen_of_redirect {mode : Word}
    (hself : redirect linuxEmulPath path = some path)
    (hflags : OpenFlagsOk linuxFlags) :
    shimOpen linuxEmulPath path linuxFlags mode =
      callFile (.open path (setFlags 0 openFlagPairs linuxFlags)
        (if setFlags 0 openFlagPairs linuxFlags &&& oCreat ≠ 0 then
          mode.setWidth 16 else 0)) := by
  rw [shimOpen, hself]
  dsimp only
  rw [require_of hflags.1, if_neg (not_not.mpr hflags.2)]
  rfl

theorem shimFopen_of_redirect {mode : Buf}
    (hself : redirect linuxEmulPath path = some path) :
    shimFopen linuxEmulPath path mode = callFile (.fopen path mode) := by
  obtain ⟨hparams, htask⟩ := not_special_of_redirect hself
  rw [shimFopen, if_neg hparams, htask, hself]
  rfl

theorem shimAccess_of_redirect {mode : Word}
    (hself : redirect linuxEmulPath path = some path) :
    shimAccess linuxEmulPath path mode = callFile (.access path mode) := by
  rw [shimAccess, hself]

theorem agree_of_redirect (hself : redirect linuxEmulPath path = some path)
    (hflags : OpenFlagsOk linuxFlags) :
    Agree abi linuxEmulPath path linuxFlags := by
  intro c hopens
  rw [hself]
  cases c with
  | «open» flags mode =>
      obtain rfl : flags = linuxFlags := hopens
      rw [PathCall.routine, shimOpen_of_redirect hself hflags]
      exact operatesOn_of_call rfl
  | open64 flags mode =>
      obtain rfl : flags = linuxFlags := hopens
      rw [PathCall.routine, shimOpen64, shimOpen_of_redirect hself hflags]
      exact operatesOn_of_call rfl
  | fopen mode =>
      rw [PathCall.routine, shimFopen_of_redirect hself]
      exact operatesOn_of_call rfl
  | fopen64 mode =>
      rw [PathCall.routine, shimFopen64, shimFopen_of_redirect hself]
      exact operatesOn_of_call rfl
  | access mode =>
      rw [PathCall.routine, shimAccess_of_redirect hself]
      exact operatesOn_of_call rfl
  | xstat => exact operatesOn_xstat _
  | xstat64 => exact operatesOn_xstat _
  | lxstat => exact operatesOn_lxstat _ hself
  | lxstat64 => exact operatesOn_lxstat _ hself

/-! ## What agreement takes -/

/-- A kernel in which nothing succeeds. -/
def refusingKernel (c : FileCall) : Except Errno (FileAnswer c) := .error eacces

theorem calls_xstat :
    (PathCall.xstat.routine abi linuxEmulPath path).calls refusingKernel 0 =
      [.stat (some path)] := by
  show calls refusingKernel (Option.isSome <$> xstat abi _ path) 0 = _
  rw [calls_map]
  rfl

/-- Since `__xstat` looks at the path itself, agreement means that the path
is left alone. -/
theorem Agree.redirect_eq (hagree : Agree abi linuxEmulPath path linuxFlags) :
    redirect linuxEmulPath path = some path := by
  have hxstat := hagree .xstat trivial
  cases hredirect : redirect linuxEmulPath path with
  | none =>
      rw [hredirect] at hxstat
      obtain ⟨-, hcalls⟩ := hxstat refusingKernel 0
      rw [calls_xstat] at hcalls
      cases hcalls
  | some p =>
      rw [hredirect] at hxstat
      obtain ⟨c, hcalls, hpath, -⟩ := hxstat refusingKernel 0
      rw [calls_xstat] at hcalls
      cases hcalls
      exact hpath.symm

/-- And since `open` makes a native call then, its flags are right. -/
theorem Agree.openFlagsOk (hagree : Agree abi linuxEmulPath path linuxFlags) :
    OpenFlagsOk linuxFlags := by
  have hself := hagree.redirect_eq
  have hopen := hagree (.open linuxFlags 0) rfl
  rw [hself] at hopen
  obtain ⟨c, hcalls, -⟩ := hopen refusingKernel 0
  have hroutine : PathCall.routine abi linuxEmulPath path (.open linuxFlags 0) =
      Option.isSome <$> (do
        Outcome.require (linuxFlags &&& knownLinuxOpenFlags = linuxFlags)
        let flags := setFlags 0 openFlagPairs linuxFlags
        if linuxFlags &&& linuxOTmpfile ≠ 0 then return none
        else
          let mode : BitVec 16 :=
            if flags &&& oCreat ≠ 0 then (0 : Word).setWidth 16 else 0
          callFile (.open path flags mode) : FileRoutine (Option Word)) := by
    rw [PathCall.routine, shimOpen, hself]
  rw [hroutine, calls_map] at hcalls
  constructor
  · by_contra hunknown
    rw [require_of_not hunknown] at hcalls
    cases hcalls
  · by_contra htmpfile
    rw [if_pos htmpfile, calls_bind, calls_lift, run_lift] at hcalls
    cases hknown : require (linuxFlags &&& knownLinuxOpenFlags = linuxFlags) with
    | error e =>
        rw [hknown] at hcalls
        cases hcalls
    | ok u =>
        rw [hknown] at hcalls
        cases hcalls

end Calls

/-- All nine entry points agree on what a path means exactly if the
redirection leaves the path alone, and `open` is asked for something it
knows and hands down. -/
theorem pathCalls_agree_iff (abi : Abi) (linuxEmulPath path : Buf)
    (linuxFlags : Word) :
    Agree abi linuxEmulPath path linuxFlags ↔
      redirect linuxEmulPath path = some path ∧ OpenFlagsOk linuxFlags :=
  ⟨fun hagree => ⟨hagree.redirect_eq, hagree.openFlagsOk⟩,
    fun ⟨hself, hflags⟩ => agree_of_redirect hself hflags⟩

/-- The processor of the emulated system, and of this one. -/
theorem cpuinfo_not_agree :
    (PathCall.routine .amd64 (lit "/compat/linux") (lit "/proc/cpuinfo")
        (.access 4)).calls refusingKernel 0 =
        [.access (lit "/compat/linux//proc/cpuinfo") 4] ∧
      (PathCall.routine .amd64 (lit "/compat/linux") (lit "/proc/cpuinfo")
        .xstat).calls refusingKernel 0 = [.stat (some (lit "/proc/cpuinfo"))] ∧
      ¬Agree .amd64 (lit "/compat/linux") (lit "/proc/cpuinfo") 0 := by
  have hredirect : redirect (lit "/compat/linux") (lit "/proc/cpuinfo") =
      some (lit "/compat/linux//proc/cpuinfo") := by decide
  refine ⟨?_, calls_xstat, fun hagree => ?_⟩
  · rw [PathCall.routine, calls_map, shimAccess, hredirect]
    rfl
  · exact absurd hagree.redirect_eq (by decide)

/-- An ordinary path, opened for reading and writing. -/
theorem hostname_agree :
    Agree .amd64 (lit "/compat/linux") (lit "/etc/hostname") linuxORdwr :=
  (pathCalls_agree_iff _ _ _ _).mpr ⟨by decide, by decide, by decide⟩

end Libc6Shim
