import Libc6Shim.ProcExe

/-!
# Three ways to one executable

A program that asks for `/proc/<pid>/exe` calls `realpath` or, when it was
built with fortification, `__realpath_chk` (both `src/libc/stdlib.c`), or it
calls `readlink` (`src/libc/unistd.c`). `realpath` and `readlink` answer for the
path themselves (`ProcExe`), and they answer alike: the one stores a string
with its NUL, the other hands over the length of the same string.

`__realpath_chk` checks the length it is handed and then calls the native
`realpath`, which looks into the native `/proc`. The three ways agree exactly
where that one has the executable as the shim has it, or has none where the
shim has none (`exeAgree_iff`). What the native `realpath` leaves in the buffer
when it fails is not modelled.
-/

namespace Libc6Shim

open CSem Buf Outcome

/-! ## The shim -/

/-- As `shimRealpath`. The caller says how large its buffer is. -/
def shimRealpathChk (fresh path : Buf) (resolvedPath : Option Buf)
    (resolvedLen : Nat) : ExeRoutine (Option Buf × Option Buf) := do
  require (pathMax ≤ resolvedLen)
  match ← callExe (.realpath path) with
  | some target =>
      let out ← ((resolvedPath.getD fresh).store 0 (target.str ++ [0]) :
        Outcome Buf)
      return (some out, resolvedPath.map fun _ => out)
  | none => return (none, resolvedPath)

/-! ## Answers -/

section Answers

variable (h : (c : ExeCall) → Except Errno (ExeAnswer c)) (errno : Errno)

/-- A pointer to the string `s` is returned. -/
def Gives (r : ExeRoutine (Option Buf × Option Buf)) (s : Buf) : Prop :=
  ∃ out left errno', r.run h errno = .ok ((some out, left), errno') ∧
    out.cstrAt 0 = .ok s

/-- NULL is returned. -/
def Fails (r : ExeRoutine (Option Buf × Option Buf)) : Prop :=
  ∃ left errno', r.run h errno = .ok ((none, left), errno')

/-- The bytes of `s` are stored, with a NUL behind them or without, and its
length is returned. -/
def Reads (r : ExeRoutine (Option Nat × Buf)) (buf s : Buf) : Prop :=
  ∃ buf' errno', r.run h errno = .ok ((some s.length, buf'), errno') ∧
    (buf' = patch buf 0 s ∨ buf' = patch buf 0 (s ++ [0]))

/-- What a routine that returns a pointer comes to. -/
def ComesTo (r : ExeRoutine (Option Buf × Option Buf)) :
    Except Errno Buf → Prop
  | .ok s => Gives h errno r s
  | .error _ => Fails h errno r

end Answers

/-- `/proc/self/exe`, or `/proc/<pid>/exe` with the digits of a positive
number. -/
def IsExePath (path : Buf) : Prop :=
  ∃ name, (name = lit "self" ∨
      (∀ c ∈ name, isDigit c = true) ∧ 0 < digitsVal name) ∧
    path = lit "/proc/" ++ (name ++ slash :: lit "exe")

/-- The three ways to the executable agree. -/
def ExeAgree (abi : Abi) (process : Process)
    (h : (c : ExeCall) → Except Errno (ExeAnswer c)) (path : Buf) : Prop :=
  ∀ errno fresh resolvedPath buf n, pathMax ≤ fresh.length →
    (∀ b, resolvedPath = some b → pathMax ≤ b.length) →
    pathMax ≤ buf.length → pathMax ≤ n →
    let realpath := shimRealpath abi process fresh path resolvedPath
    let realpathChk := shimRealpathChk fresh path (some buf) n
    ((∃ s, Gives h errno realpath s ∧ Gives h errno realpathChk s) ∨
      (Fails h errno realpath ∧ Fails h errno realpathChk)) ∧
    ∀ s, Gives h errno realpath s → ∀ buf bufsize, s.length < bufsize →
      bufsize ≤ buf.length →
      Reads h errno (shimReadlink abi process path buf bufsize) buf s

/-- What is documented of the environment and of the kernel: they hand out
strings, and a path name is the same in every buffer it fits. -/
structure Documented (process : Process)
    (h : (c : ExeCall) → Except Errno (ExeAnswer c)) : Prop where
  override : ∀ exe, process.procSelfExeOverride = some exe → 0 ∉ exe
  pathname : ∀ pid size exe, h (.pathname pid size) = .ok exe → 0 ∉ exe.str
  realpath : ∀ path target, h (.realpath path) = .ok target → 0 ∉ target.str
  sizes : ∀ pid exe, h (.pathname pid pathMax) = .ok exe →
    ∀ size, exe.str.length < size →
      (h (.pathname pid size)).map Fitted.str = .ok exe.str

section

variable {abi : Abi} {process : Process} {path fresh : Buf}
  {resolvedPath : Option Buf}
  {h : (c : ExeCall) → Except Errno (ExeAnswer c)} {errno : Errno}

/-! ## What an answer says -/

section Answers

variable {r r' : ExeRoutine (Option Buf × Option Buf)} {a b : Except Errno Buf}
  {s : Buf}

theorem Gives.unique {t : Buf} (hs : Gives h errno r s)
    (ht : Gives h errno r t) : s = t := by
  obtain ⟨out, left, errno', hrun, hout⟩ := hs
  obtain ⟨out', left', errno'', hrun', hout'⟩ := ht
  rw [hrun] at hrun'
  cases hrun'
  rw [hout] at hout'
  exact Except.ok.inj hout'

theorem Gives.not_fails (hs : Gives h errno r s) : ¬Fails h errno r := by
  rintro ⟨left, errno', hrun⟩
  obtain ⟨out, left', errno'', hrun', -⟩ := hs
  rw [hrun] at hrun'
  cases hrun'

theorem ComesTo.gives_iff (ha : ComesTo h errno r a) :
    Gives h errno r s ↔ a = .ok s := by
  cases a with
  | ok t =>
      refine ⟨fun hs => congrArg Except.ok (ha.unique hs), fun heq => ?_⟩
      cases heq
      exact ha
  | error e => exact ⟨fun hs => absurd ha hs.not_fails, nofun⟩

theorem ComesTo.fails_iff (ha : ComesTo h errno r a) :
    Fails h errno r ↔ ∃ e, a = .error e := by
  cases a with
  | ok t => exact ⟨fun hf => absurd hf ha.not_fails, nofun⟩
  | error e => exact ⟨fun _ => ⟨e, rfl⟩, fun _ => ha⟩

/-- Two answers are one string, or both are none. -/
theorem ComesTo.agree_iff (ha : ComesTo h errno r a)
    (hb : ComesTo h errno r' b) :
    ((∃ s, Gives h errno r s ∧ Gives h errno r' s) ∨
        (Fails h errno r ∧ Fails h errno r')) ↔
      ∀ s, a = .ok s ↔ b = .ok s := by
  simp only [ha.gives_iff, hb.gives_iff, ha.fails_iff, hb.fails_iff]
  cases a with
  | ok s =>
      constructor
      · rintro (⟨t, hs, rfl⟩ | ⟨⟨e, hs⟩, -⟩)
        · rw [hs]
          exact fun _ => Iff.rfl
        · cases hs
      · exact fun hsame => .inl ⟨s, rfl, (hsame s).mp rfl⟩
  | error e =>
      cases b with
      | ok t =>
          constructor
          · rintro (⟨t, hs, -⟩ | ⟨-, e', ht⟩)
            · cases hs
            · cases ht
          · exact fun hsame => absurd ((hsame t).mpr rfl) nofun
      | error e' =>
          exact ⟨fun _ _ => ⟨nofun, nofun⟩, fun _ => .inr ⟨⟨e, rfl⟩, e', rfl⟩⟩

end Answers

/-! ## The routines -/

theorem IsExePath.proc (hpath : IsExePath path) :
    ∃ rest, path = lit "/proc/" ++ rest := by
  obtain ⟨name, -, hname⟩ := hpath
  exact ⟨_, hname⟩

/-- The path of an executable is taken for one, or the number is refused. -/
theorem IsExePath.procExePid (abi : Abi) (hpath : IsExePath path) :
    (∃ e, procExePid abi path = .error e) ∨
      ∃ pid, procExePid abi path = .ok (some pid) := by
  obtain ⟨name, hname, rfl⟩ := hpath
  have hslash : slash ∉ name := by
    rcases hname with rfl | ⟨hdigits, -⟩
    · decide
    · exact fun hmem => absurd (hdigits slash hmem) (by decide)
  exact procExePid_of_exe abi hslash (by decide)

/-- The executable is the override's or the kernel's. -/
theorem Process.exe_inv {pid : Int} {size : Nat} {exe : Buf}
    (hexe : process.exe h pid size = .ok exe) :
    process.override pid = some exe ∨
      process.override pid = none ∧
        ∃ answer, h (.pathname pid size) = .ok answer ∧ answer.str = exe := by
  rw [Process.exe] at hexe
  cases hoverride : process.override pid with
  | some override =>
      rw [hoverride] at hexe
      cases hexe
      exact .inl rfl
  | none =>
      rw [hoverride] at hexe
      cases hcall : h (.pathname pid size) with
      | error e =>
          rw [hcall] at hexe
          cases hexe
      | ok answer =>
          rw [hcall] at hexe
          exact .inr ⟨rfl, answer, rfl, Except.ok.inj hexe⟩

/-- And it is a string. -/
theorem Documented.exe {pid : Int} {size : Nat} {exe : Buf}
    (hdoc : Documented process h) (hexe : process.exe h pid size = .ok exe) :
    0 ∉ exe := by
  rcases Process.exe_inv hexe with hoverride | ⟨-, answer, hcall, rfl⟩
  · exact hdoc.override exe (Process.override_eq_some_iff.mp hoverride).2
  · exact hdoc.pathname pid size answer hcall

variable (errno) in
theorem shimRealpath_comesTo {pid : Int}
    (hproc : ∃ rest, path = lit "/proc/" ++ rest)
    (hpid : procExePid abi path = .ok (some pid))
    (hdoc : Documented process h) (hfresh : pathMax ≤ fresh.length)
    (hresolved : ∀ b, resolvedPath = some b → pathMax ≤ b.length)
    (hfits : ∀ exe, process.override pid = some exe → exe.length < pathMax) :
    ComesTo h errno (shimRealpath abi process fresh path resolvedPath)
      (process.exe h pid pathMax) := by
  have hrun := shimRealpath_of_some process h errno hproc hpid hfresh hresolved
    hfits
  cases hexe : process.exe h pid pathMax with
  | error e =>
      rw [hexe] at hrun
      exact ⟨_, _, hrun⟩
  | ok exe =>
      rw [hexe] at hrun
      obtain ⟨out, hrun, htake⟩ := hrun
      have hdrop : out.drop 0 = exe ++ 0 :: out.drop (exe.length + 1) := by
        rw [List.drop_zero]
        nth_rewrite 1 [← List.take_append_drop (exe.length + 1) out]
        rw [htake, List.append_assoc]
        rfl
      exact ⟨out, _, _, hrun, cstrAt_of_drop hdrop (hdoc.exe hexe)⟩

variable (errno) in
theorem shimRealpathChk_comesTo {buf : Buf} {n : Nat}
    (hdoc : Documented process h) (hbuf : pathMax ≤ buf.length)
    (hn : pathMax ≤ n) :
    ComesTo h errno (shimRealpathChk fresh path (some buf) n)
      ((h (.realpath path)).map Fitted.str) := by
  cases hcall : h (.realpath path) with
  | error e =>
      refine ⟨some buf, e, ?_⟩
      simp only [shimRealpathChk, callExe, Routine.run_bind, Routine.run_lift,
        Routine.run_native, require_of hn, ok_bind, hcall]
      rfl
  | ok target =>
      have hfits := target.fits
      have hroom : 0 + (target.str ++ [0]).length ≤ buf.length := by
        rw [List.length_append, List.length_singleton]
        omega
      have hdrop : (patch buf 0 (target.str ++ [0])).drop 0 =
          target.str ++ 0 :: buf.drop (0 + (target.str ++ [0]).length) := by
        rw [List.drop_zero, patch, List.take_zero, List.nil_append,
          List.append_assoc]
        rfl
      refine ⟨_, some (patch buf 0 (target.str ++ [0])), errno, ?_,
        cstrAt_of_drop hdrop (hdoc.realpath _ _ hcall)⟩
      simp only [shimRealpathChk, callExe, Routine.run_bind, Routine.run_lift,
        Routine.run_native, require_of hn, ok_bind, hcall, Option.getD_some,
        store_of hroom, Routine.run_pure]
      rfl

variable (errno) in
/-- `readlink` hands over what `realpath` does. -/
theorem shimReadlink_reads {pid : Int} {buf exe : Buf} {bufsize : Nat}
    (hproc : ∃ rest, path = lit "/proc/" ++ rest)
    (hpid : procExePid abi path = .ok (some pid))
    (hdoc : Documented process h)
    (hexe : process.exe h pid pathMax = .ok exe)
    (hsize : exe.length < bufsize) (hbuf : bufsize ≤ buf.length) :
    Reads h errno (shimReadlink abi process path buf bufsize) buf exe := by
  rw [shimReadlink, if_pos (startsWith_proc hproc), hpid]
  rcases Process.exe_inv hexe with hoverride | ⟨hoverride, answer, hcall, rfl⟩
  · have hroom : 0 + exe.length ≤ buf.length := by omega
    have hmin : min exe.length bufsize = exe.length := by omega
    refine ⟨patch buf 0 exe, errno, ?_, .inl rfl⟩
    simp only [Routine.run_bind, Routine.run_lift, ok_bind, hoverride, hmin,
      List.take_length, store_of hroom, Routine.run_pure]
  · -- the query is made again, for the caller's buffer
    have hsame := hdoc.sizes pid answer hcall bufsize hsize
    cases hagain : h (.pathname pid bufsize) with
    | error e =>
        rw [hagain] at hsame
        cases hsame
    | ok answer' =>
        rw [hagain] at hsame
        have hstr : answer'.str = answer.str := Except.ok.inj hsame
        have hroom : 0 + (answer.str ++ [0]).length ≤ buf.length := by
          rw [List.length_append, List.length_singleton]
          omega
        refine ⟨patch buf 0 (answer.str ++ [0]), errno, ?_, .inr rfl⟩
        simp only [callExe, Routine.run_bind, Routine.run_lift, ok_bind,
          hoverride, Routine.run_native, hagain, hstr, store_of hroom,
          Routine.run_pure]

/-! ## Agreement -/

/-- A buffer of `PATH_MAX` bytes. -/
def pathBuf : Buf := .replicate pathMax 0

theorem pathMax_le_pathBuf : pathMax ≤ pathBuf.length :=
  List.length_replicate.ge

theorem pathMax_le_null : ∀ b : Buf, none = some b → pathMax ≤ b.length :=
  nofun

/-- `realpath` returns, where the three agree. -/
theorem ExeAgree.realpath_returns (hagree : ExeAgree abi process h path) :
    ∃ a, (shimRealpath abi process pathBuf path none).run h 0 = .ok a := by
  obtain ⟨htwo, -⟩ := hagree 0 pathBuf none pathBuf pathMax pathMax_le_pathBuf
    pathMax_le_null pathMax_le_pathBuf (Nat.le_refl _)
  rcases htwo with ⟨s, ⟨out, left, errno', hrun, -⟩, -⟩ |
    ⟨⟨left, errno', hrun⟩, -⟩
  · exact ⟨_, hrun⟩
  · exact ⟨_, hrun⟩

theorem ExeAgree.exists_pid (hpath : IsExePath path)
    (hagree : ExeAgree abi process h path) :
    ∃ pid, procExePid abi path = .ok (some pid) := by
  obtain ⟨a, hrun⟩ := hagree.realpath_returns
  rcases hpath.procExePid abi with ⟨e, hpid⟩ | hpid
  · rw [shimRealpath_of_error hpath.proc hpid] at hrun
    cases hrun
  · exact hpid

/-- An override that is too long stops `realpath`. -/
theorem ExeAgree.override_fits {pid : Int} (hpath : IsExePath path)
    (hpid : procExePid abi path = .ok (some pid))
    (hagree : ExeAgree abi process h path) :
    ∀ exe, process.override pid = some exe → exe.length < pathMax := by
  intro exe hoverride
  obtain ⟨a, hrun⟩ := hagree.realpath_returns
  by_contra hlong
  rw [shimRealpath_of_long hpath.proc hpid pathMax_le_pathBuf pathMax_le_null
    hoverride hlong] at hrun
  cases hrun

/-- The native `realpath` has the executable for the path, if it has one. -/
def NativeProc (process : Process)
    (h : (c : ExeCall) → Except Errno (ExeAnswer c)) (path : Buf) (pid : Int) :
    Prop :=
  ∀ exe, process.exe h pid pathMax = .ok exe ↔
    (h (.realpath path)).map Fitted.str = .ok exe

theorem ExeAgree.nativeProc {pid : Int} (hpath : IsExePath path)
    (hpid : procExePid abi path = .ok (some pid))
    (hdoc : Documented process h) (hagree : ExeAgree abi process h path) :
    NativeProc process h path pid := by
  have hrealpath := shimRealpath_comesTo 0 hpath.proc hpid hdoc
    pathMax_le_pathBuf pathMax_le_null (hagree.override_fits hpath hpid)
  have hchk := @shimRealpathChk_comesTo process path pathBuf h 0 pathBuf pathMax
    hdoc pathMax_le_pathBuf (Nat.le_refl _)
  obtain ⟨htwo, -⟩ := hagree 0 pathBuf none pathBuf pathMax pathMax_le_pathBuf
    pathMax_le_null pathMax_le_pathBuf (Nat.le_refl _)
  exact (hrealpath.agree_iff hchk).mp htwo

/-- What the native `realpath` answers with fits. -/
theorem NativeProc.override_fits {pid : Int}
    (hnative : NativeProc process h path pid) :
    ∀ exe, process.override pid = some exe → exe.length < pathMax := by
  intro exe hoverride
  have hexe : process.exe h pid pathMax = .ok exe := by
    rw [Process.exe, hoverride]
  have htarget := (hnative exe).mp hexe
  cases hcall : h (.realpath path) with
  | error e =>
      rw [hcall] at htarget
      cases htarget
  | ok target =>
      rw [hcall] at htarget
      cases htarget
      exact target.fits

theorem NativeProc.exeAgree {pid : Int} (hpath : IsExePath path)
    (hpid : procExePid abi path = .ok (some pid))
    (hdoc : Documented process h) (hnative : NativeProc process h path pid) :
    ExeAgree abi process h path := by
  intro errno fresh resolvedPath buf n hfresh hresolved hbuf hn
  have hrealpath := shimRealpath_comesTo errno hpath.proc hpid hdoc hfresh
    hresolved hnative.override_fits
  have hchk := @shimRealpathChk_comesTo process path fresh h errno buf n hdoc hbuf
    hn
  refine ⟨(hrealpath.agree_iff hchk).mpr hnative, ?_⟩
  intro s hgives buf bufsize hsize hroom
  exact shimReadlink_reads errno hpath.proc hpid hdoc
    (hrealpath.gives_iff.mp hgives) hsize hroom

/-- The three ways to an executable agree just where the number of the process
is not refused and the native `realpath` has for the path what the environment
or the kernel has for the process. -/
theorem exeAgree_iff (abi : Abi) (hpath : IsExePath path)
    (hdoc : Documented process h) :
    ExeAgree abi process h path ↔
      ∃ pid, procExePid abi path = .ok (some pid) ∧
        NativeProc process h path pid := by
  constructor
  · intro hagree
    obtain ⟨pid, hpid⟩ := hagree.exists_pid hpath
    exact ⟨pid, hpid, hagree.nativeProc hpath hpid hdoc⟩
  · rintro ⟨pid, hpid, hnative⟩
    exact hnative.exeAgree hpath hpid hdoc

end

/-! ## With a native `/proc` and without -/

/-- A kernel in which every program is `exe`, and a native `/proc` in which it
is `target`. -/
def programAt (exe : Buf) (target : Except Errno (Fitted pathMax)) :
    (c : ExeCall) → Except Errno (ExeAnswer c)
  | .pathname _ size =>
      if fits : exe.length < size then .ok ⟨exe, fits⟩ else .error 12
  | .readlink _ _ => .error 2
  | .realpath _ => target

theorem documented_programAt {exe : Buf} {target : Except Errno (Fitted pathMax)}
    (hexe : 0 ∉ exe) (htarget : ∀ t, target = .ok t → 0 ∉ t.str) (getpid : Int) :
    Documented ⟨none, getpid⟩ (programAt exe target) where
  override := nofun
  pathname := by
    intro pid size answer hcall
    rw [programAt] at hcall
    split at hcall
    · cases hcall
      exact hexe
    · cases hcall
  realpath := fun path t ht => htarget t ht
  sizes := by
    intro pid answer hcall size hsize
    rw [programAt] at hcall
    split at hcall
    · cases hcall
      rw [programAt, dif_pos hsize]
      rfl
    · cases hcall

theorem exe_programAt {exe : Buf} {target : Except Errno (Fitted pathMax)}
    {getpid pid : Int} {size : Nat} (hsize : exe.length < size) :
    Process.exe ⟨none, getpid⟩ (programAt exe target) pid size = .ok exe := by
  have hnone : Process.override ⟨none, getpid⟩ pid = none := ite_self none
  rw [Process.exe, hnone, programAt, dif_pos hsize]
  rfl

theorem isExePath_self : IsExePath (lit "/proc/self/exe") :=
  ⟨lit "self", .inl rfl, by decide⟩

theorem procExePid_self (abi : Abi) :
    procExePid abi (lit "/proc/self/exe") = .ok (some (-1)) :=
  procExePid_of_names ⟨lit "self", .inl ⟨rfl, rfl⟩, by decide⟩

/-- Where no `/proc` is mounted, `realpath` has the executable and
`__realpath_chk` has not. -/
theorem realpathChk_without_proc :
    let process : Process := ⟨none, 100⟩
    let h := programAt (lit "/opt/app/bin") (.error 2)
    let path := lit "/proc/self/exe"
    IsExePath path ∧ Documented process h ∧
      Gives h 0 (shimRealpath .amd64 process pathBuf path none)
        (lit "/opt/app/bin") ∧
      Fails h 0 (shimRealpathChk pathBuf path (some pathBuf) pathMax) ∧
      ¬ExeAgree .amd64 process h path := by
  have hdoc := @documented_programAt (lit "/opt/app/bin") (.error 2) (by decide)
    nofun 100
  have hexe := @exe_programAt (lit "/opt/app/bin") (.error 2) 100 (-1) pathMax
    (by decide)
  have hrealpath := shimRealpath_comesTo 0 isExePath_self.proc
    (procExePid_self .amd64) hdoc pathMax_le_pathBuf pathMax_le_null nofun
  have hgives := hrealpath.gives_iff.mpr hexe
  have hfails := @shimRealpathChk_comesTo ⟨none, 100⟩ (lit "/proc/self/exe")
    pathBuf _ 0 pathBuf pathMax hdoc pathMax_le_pathBuf (Nat.le_refl _)
  refine ⟨isExePath_self, hdoc, hgives, hfails, fun hagree => ?_⟩
  obtain ⟨htwo, -⟩ := hagree 0 pathBuf none pathBuf pathMax pathMax_le_pathBuf
    pathMax_le_null pathMax_le_pathBuf (Nat.le_refl _)
  rcases htwo with ⟨s, -, hs⟩ | ⟨hf, -⟩
  · exact hs.not_fails hfails
  · exact hgives.not_fails hf

/-- With one that knows the program, the three agree. -/
theorem exeAgree_with_proc :
    ExeAgree .amd64 ⟨none, 100⟩
      (programAt (lit "/opt/app/bin") (.ok ⟨lit "/opt/app/bin", by decide⟩))
      (lit "/proc/self/exe") := by
  have hnul : 0 ∉ lit "/opt/app/bin" := by decide
  have hanswer : ∀ t : Fitted pathMax,
      .ok ⟨lit "/opt/app/bin", by decide⟩ = (.ok t : Except Errno _) →
        0 ∉ t.str := by
    intro t ht
    cases ht
    exact hnul
  have hdoc := documented_programAt hnul hanswer 100
  refine (exeAgree_iff .amd64 isExePath_self hdoc).mpr
    ⟨-1, procExePid_self .amd64, fun exe => ?_⟩
  rw [exe_programAt (by decide)]
  exact Iff.rfl

end Libc6Shim
