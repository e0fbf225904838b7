import Libc6Shim.Abi
import Libc6Shim.CSemString

/-!
# The executable of a process

`readlink` (`src/libc/unistd.c`) and `realpath` (`src/libc/stdlib.c`) answer
for `/proc/<pid>/exe` themselves. Both take the path apart with `strsep` in
the same few lines (`procExePid`), and both ask the kernel for the path name
of the process, unless it is the process itself and `SHIM_PROC_SELF_EXE` has
one for it. Allocations are taken to succeed.

`NamesExe` says what the paths of executables are. The lines that take a
path apart agree with it on every path whose second component is there and
is not `exe` (`procExePid_of_other`), and on the executables themselves
(`procExePid_of_names`); they fault or abort on the rest, or take it for an
executable it is not.
-/

namespace Libc6Shim

open CSem Buf Outcome

/-! ## The native calls -/

inductive ExeCall where
  /-- `sysctl` of `KERN_PROC_PATHNAME` into `size` bytes. -/
  | pathname (pid : Int) (size : Nat)
  | readlink (path : Buf) (bufsize : Nat)
  | realpath (path : Buf)

/-- A string that fits `size` bytes with its NUL. -/
structure Fitted (size : Nat) where
  str : Buf
  fits : str.length < size

/-- What a call that succeeds answers with. -/
@[reducible] def ExeAnswer : ExeCall → Type
  | .pathname _ size => Fitted size
  | .readlink _ bufsize => Fitted (bufsize + 1)
  | .realpath _ => Fitted pathMax

abbrev ExeRoutine := Routine ExeCall ExeAnswer

def callExe (c : ExeCall) : ExeRoutine (Option (ExeAnswer c)) := Routine.native c

/-- The process the shim runs in. -/
structure Process where
  procSelfExeOverride : Option Buf
  getpid : Int

/-! ## The shim -/

def slash : UInt8 := 47

/-- The argument of `strcmp`. -/
def derefStr : Option Buf → Outcome Buf
  | some s => .ok s
  | none => .error .fault

/-- The process a path under `/proc/` names the executable of, `-1` for the
process itself; none for every other path. -/
def procExePid (abi : Abi) (path : Buf) : Outcome (Option Int) := do
  let s := some (path.drop (lit "/proc/").length)
  let (node, s) := strsep slash s
  let (entry, _) := strsep slash s
  if (← derefStr entry) = lit "exe" then
    let node ← derefStr node
    if node = lit "self" then return some (-1)
    else
      let pid := toInt32 (strtoul (abi.sizeMod - 1) node)
      require (0 < pid)
      return some pid
  else return none

/-- `errno = native_to_linux_errno(EACCES)` -/
def refuse : ExeRoutine Unit := set (nativeToLinuxErrno eacces)

/-- The override, if it is for `pid`. -/
def Process.override (process : Process) (pid : Int) : Option Buf :=
  if pid = -1 ∨ pid = process.getpid then process.procSelfExeOverride else none

/-- What is read and the buffer as it is left; `none` for `-1`. -/
def shimReadlink (abi : Abi) (process : Process) (path buf : Buf)
    (bufsize : Nat) : ExeRoutine (Option Nat × Buf) := do
  if startsWith path (lit "/proc/") then
    match ← (procExePid abi path : Outcome (Option Int)) with
    | some pid =>
        match process.override pid with
        | some exe =>
            let nchars := min exe.length bufsize
            let buf ← (buf.store 0 (exe.take nchars) : Outcome Buf)
            return (some nchars, buf)
        | none =>
            match ← callExe (.pathname pid bufsize) with
            | some exe =>
                let buf ← (buf.store 0 (exe.str ++ [0]) : Outcome Buf)
                return (some exe.str.length, buf)
            | none =>
                modify nativeToLinuxErrno
                return (none, buf)
    | none =>
        refuse
        return (none, buf)
  else if startsWith path (lit "/sys/") then
    refuse
    return (none, buf)
  else
    match ← callExe (.readlink path bufsize) with
    | some target =>
        let buf ← (buf.store 0 target.str : Outcome Buf)
        return (some target.str.length, buf)
    | none => return (none, buf)

/-- What is behind the pointer that is returned, `none` for NULL, and the
caller's buffer as it is left. `fresh` is what `malloc` gives. -/
def shimRealpath (abi : Abi) (process : Process) (fresh path : Buf)
    (resolvedPath : Option Buf) : ExeRoutine (Option Buf × Option Buf) := do
  if startsWith path (lit "/proc/") then
    match ← (procExePid abi path : Outcome (Option Int)) with
    | some pid =>
        let out := resolvedPath.getD fresh
        match process.override pid with
        | some exe =>
            let out ← (out.storeStr 0 pathMax exe : Outcome Buf)
            require (exe.length < pathMax)
            return (some out, resolvedPath.map fun _ => out)
        | none =>
            match ← callExe (.pathname pid pathMax) with
            | some exe =>
                let out ← (out.store 0 (exe.str ++ [0]) : Outcome Buf)
                return (some out, resolvedPath.map fun _ => out)
            | none =>
                modify nativeToLinuxErrno
                return (none, resolvedPath)
    | none =>
        refuse
        return (none, resolvedPath)
  else if startsWith path (lit "/sys/") then
    refuse
    return (none, resolvedPath)
  else
    match ← callExe (.realpath path) with
    | some target =>
        let out ← ((resolvedPath.getD fresh).store 0 (target.str ++ [0]) :
          Outcome Buf)
        return (some out, resolvedPath.map fun _ => out)
    | none => return (none, resolvedPath)

/-! ## The paths of executables -/

/-- A process by its name under `/proc`. -/
def PidName (name : Buf) (pid : Int) : Prop :=
  name = lit "self" ∧ pid = -1 ∨
    ∃ n : Nat, 0 < n ∧ n < 2 ^ 31 ∧ name = decimal n ∧ pid = n

/-- The path of the executable of `pid`. -/
def NamesExe (path : Buf) (pid : Int) : Prop :=
  ∃ name, PidName name pid ∧
    path = lit "/proc/" ++ (name ++ slash :: lit "exe")

/-- The executable of `pid`, as the kernel or the override has it. -/
def Process.exe (process : Process)
    (h : (c : ExeCall) → Except Errno (ExeAnswer c)) (pid : Int) (size : Nat) :
    Except Errno Buf :=
  match process.override pid with
  | some exe => .ok exe
  | none => (h (.pathname pid size)).map Fitted.str

/-- What `readlink` owes the caller: for the path of an executable that
executable, cut to the buffer, and otherwise EACCES without a native call
and an untouched buffer. -/
def ReadlinkMeets (abi : Abi) (process : Process) (path : Buf) : Prop :=
  ∀ h errno buf bufsize, bufsize ≤ buf.length →
    let r := shimReadlink abi process path buf bufsize
    (∀ pid, NamesExe path pid →
      match process.exe h pid bufsize with
      | .ok exe => ∃ buf',
          r.run h errno = .ok ((some (min exe.length bufsize), buf'), errno) ∧
            buf'.length = buf.length ∧
            buf'.take (min exe.length bufsize) =
              exe.take (min exe.length bufsize)
      | .error e => r.run h errno = .ok ((none, buf), nativeToLinuxErrno e)) ∧
    ((∀ pid, ¬NamesExe path pid) →
      r.run h errno = .ok ((none, buf), nativeToLinuxErrno eacces) ∧
        r.calls h errno = [])

/-- What `realpath` owes the caller. -/
def RealpathMeets (abi : Abi) (process : Process) (path : Buf) : Prop :=
  ∀ h errno fresh resolvedPath, pathMax ≤ fresh.length →
    (∀ buf, resolvedPath = some buf → pathMax ≤ buf.length) →
    let r := shimRealpath abi process fresh path resolvedPath
    (∀ pid, NamesExe path pid →
      match process.exe h pid pathMax with
      | .ok exe => ∃ out,
          r.run h errno = .ok ((some out, resolvedPath.map fun _ => out), errno) ∧
            out.take (exe.length + 1) = exe ++ [0]
      | .error e =>
          r.run h errno = .ok ((none, resolvedPath), nativeToLinuxErrno e)) ∧
    ((∀ pid, ¬NamesExe path pid) →
      r.run h errno = .ok ((none, resolvedPath), nativeToLinuxErrno eacces) ∧
        r.calls h errno = [])

/-- A path the splitting is clear about: that of an executable, or one whose
second component under `/proc` is there and is not `exe`. -/
def Clear (path : Buf) : Prop :=
  (∃ pid, NamesExe path pid) ∨
    ∃ node rest, slash ∉ node ∧
      path = lit "/proc/" ++ (node ++ slash :: rest) ∧
      rest.takeWhile (· ≠ slash) ≠ lit "exe"

/-! ## Taking a path apart -/

section Split

variable {abi : Abi} {path node rest : Buf} {pid : Int}

/-- `strcmp` is handed the null token of a spent string. -/
theorem procExePid_of_one_component (hrest : slash ∉ rest) :
    procExePid abi (lit "/proc/" ++ rest) = .error .fault := by
  rw [procExePid, List.drop_left, strsep_of_notMem hrest]
  rfl

/-- The two components that are looked at. -/
theorem procExePid_of_components (hnode : slash ∉ node) :
    procExePid abi (lit "/proc/" ++ (node ++ slash :: rest)) =
      if rest.takeWhile (· ≠ slash) = lit "exe" then
        if node = lit "self" then .ok (some (-1))
        else do
          require (0 < toInt32 (strtoul (abi.sizeMod - 1) node))
          return some (toInt32 (strtoul (abi.sizeMod - 1) node))
      else .ok none := by
  rw [procExePid, List.drop_left, strsep_append hnode]
  rfl

/-- A second component that is not `exe`. -/
theorem procExePid_of_other (hnode : slash ∉ node)
    (hother : rest.takeWhile (· ≠ slash) ≠ lit "exe") :
    procExePid abi (lit "/proc/" ++ (node ++ slash :: rest)) = .ok none := by
  rw [procExePid_of_components hnode, if_neg hother]

theorem slash_notMem_decimal (n : Nat) : slash ∉ decimal n := by
  intro hmem
  have hrange := mem_decimal hmem
  exact absurd hrange.1 (by decide)

theorem decimal_ne_self (n : Nat) : decimal n ≠ lit "self" := by
  intro heq
  have hmem : (115 : UInt8) ∈ decimal n := by
    rw [heq]
    decide
  exact absurd (mem_decimal hmem).2 (by decide)

/-- The path of an executable is taken for that. -/
theorem procExePid_of_names (hpath : NamesExe path pid) :
    procExePid abi path = .ok (some pid) := by
  obtain ⟨name, hname, rfl⟩ := hpath
  have hexe : (lit "exe").takeWhile (· ≠ slash) = lit "exe" := by decide
  rcases hname with ⟨rfl, rfl⟩ | ⟨n, hpos, hlt, rfl, rfl⟩
  · rw [procExePid_of_components (by decide), if_pos hexe, if_pos rfl]
  · have hmax : n ≤ abi.sizeMod - 1 := by
      have := abi.sizeMod_ge
      omega
    rw [procExePid_of_components (slash_notMem_decimal n), if_pos hexe,
      if_neg (decimal_ne_self n), strtoul_decimal hmax, toInt32_of_lt hlt,
      require_of (by omega)]
    rfl

/-- A first component that is no process stops it. -/
theorem procExePid_of_exe (abi : Abi) (hnode : slash ∉ node)
    (hexe : rest.takeWhile (· ≠ slash) = lit "exe") :
    (∃ e, procExePid abi (lit "/proc/" ++ (node ++ slash :: rest)) =
        .error e) ∨
      ∃ pid, procExePid abi (lit "/proc/" ++ (node ++ slash :: rest)) =
        .ok (some pid) := by
  rw [procExePid_of_components hnode, if_pos hexe]
  by_cases hself : node = lit "self"
  · exact .inr ⟨_, if_pos hself⟩
  · rw [if_neg hself]
    by_cases hpos : 0 < toInt32 (strtoul (abi.sizeMod - 1) node)
    · exact .inr ⟨_, by rw [require_of hpos]; rfl⟩
    · exact .inl ⟨.abort, by rw [require_of_not hpos]; rfl⟩

/-- Where the splitting is not clear it stops, or takes the path for an
executable. -/
theorem procExePid_of_not_clear (abi : Abi)
    (hproc : ∃ rest, path = lit "/proc/" ++ rest)
    (hclear : ¬Clear path) :
    (∃ e, procExePid abi path = .error e) ∨
      ∃ pid, procExePid abi path = .ok (some pid) := by
  obtain ⟨rest, rfl⟩ := hproc
  rcases token_cases slash rest with hnot | ⟨node, rest, hnode, rfl⟩
  · exact .inl ⟨_, procExePid_of_one_component hnot⟩
  · have hexe : rest.takeWhile (· ≠ slash) = lit "exe" := by
      by_contra hother
      exact hclear (.inr ⟨node, rest, hnode, rfl, hother⟩)
    exact procExePid_of_exe abi hnode hexe

/-- Where it is clear, it says of which process the path names the
executable, if it names one. -/
theorem Clear.procExePid (abi : Abi) (hclear : Clear path) :
    (∃ pid, NamesExe path pid ∧ procExePid abi path = .ok (some pid)) ∨
      procExePid abi path = .ok none := by
  rcases hclear with ⟨pid, hpath⟩ | ⟨node, rest, hnode, rfl, hother⟩
  · exact .inl ⟨pid, hpath, procExePid_of_names hpath⟩
  · exact .inr (procExePid_of_other hnode hother)

end Split

/-! ## `readlink` -/

section Readlink

variable {abi : Abi} {process : Process} {path buf : Buf} {bufsize : Nat}
  {h : (c : ExeCall) → Except Errno (ExeAnswer c)} {errno : Errno}

theorem startsWith_proc (hproc : ∃ rest, path = lit "/proc/" ++ rest) :
    startsWith path (lit "/proc/") = true :=
  startsWith_iff.mpr hproc

theorem shimReadlink_of_error {e : Stop}
    (hproc : ∃ rest, path = lit "/proc/" ++ rest)
    (hpid : procExePid abi path = .error e) :
    (shimReadlink abi process path buf bufsize).run h errno = .error e := by
  rw [shimReadlink, if_pos (startsWith_proc hproc), hpid]
  rfl

theorem shimReadlink_of_none (hproc : ∃ rest, path = lit "/proc/" ++ rest)
    (hpid : procExePid abi path = .ok none) :
    (shimReadlink abi process path buf bufsize).run h errno =
        .ok ((none, buf), nativeToLinuxErrno eacces) ∧
      (shimReadlink abi process path buf bufsize).calls h errno = [] := by
  rw [shimReadlink, if_pos (startsWith_proc hproc), hpid]
  exact ⟨rfl, rfl⟩

variable (process h errno) in
/-- The executable is handed over. -/
theorem shimReadlink_of_some {pid : Int}
    (hproc : ∃ rest, path = lit "/proc/" ++ rest)
    (hpid : procExePid abi path = .ok (some pid))
    (hbuf : bufsize ≤ buf.length) :
    match process.exe h pid bufsize with
    | .ok exe => ∃ buf',
        (shimReadlink abi process path buf bufsize).run h errno =
            .ok ((some (min exe.length bufsize), buf'), errno) ∧
          buf'.length = buf.length ∧
          buf'.take (min exe.length bufsize) =
            exe.take (min exe.length bufsize)
    | .error e =>
        (shimReadlink abi process path buf bufsize).run h errno =
          .ok ((none, buf), nativeToLinuxErrno e) := by
  rw [shimReadlink, if_pos (startsWith_proc hproc), hpid, Process.exe]
  simp only [Routine.run_bind, Routine.run_lift, ok_bind]
  cases process.override pid with
  | some exe =>
      dsimp only
      have hmin : (exe.take (min exe.length bufsize)).length =
          min exe.length bufsize := by
        rw [List.length_take]
        omega
      have hroom : (exe.take (min exe.length bufsize)).length ≤ buf.length := by
        omega
      obtain ⟨buf', hstore, hlen, htake⟩ := store_start hroom
      refine ⟨buf', ?_, hlen, ?_⟩
      · simp only [Routine.run_bind, Routine.run_lift, hstore, ok_bind,
          Routine.run_pure]
      · rw [htake _ hmin.ge, List.take_take, Nat.min_self]
  | none =>
      simp only [callExe, Routine.run_bind, Routine.run_native]
      cases h (.pathname pid bufsize) with
      | error e => rfl
      | ok exe =>
          have hfits := exe.fits
          have hmin : min exe.str.length bufsize = exe.str.length := by omega
          have hnul : (exe.str ++ [0]).length = exe.str.length + 1 :=
            List.length_append
          have hroom : (exe.str ++ [0]).length ≤ buf.length := by omega
          obtain ⟨buf', hstore, hlen, htake⟩ := store_start hroom
          refine ⟨buf', ?_, hlen, ?_⟩
          · simp only [Routine.run_bind, Routine.run_lift, hstore, ok_bind,
              Routine.run_pure, hmin]
          · rw [hmin, htake _ (by omega),
              List.take_append_of_le_length (Nat.le_refl _)]

/-- A kernel in which every program has the empty path. -/
def blankKernel : (c : ExeCall) → Except Errno (ExeAnswer c)
  | .pathname _ 0 => .error efault
  | .pathname _ (_ + 1) => .ok ⟨[], Nat.succ_pos _⟩
  | .readlink _ _ => .ok ⟨[], Nat.succ_pos _⟩
  | .realpath _ => .ok ⟨[], by decide⟩

theorem exe_blankKernel (process : Process) (pid : Int) {size : Nat}
    (hsize : 0 < size) : ∃ exe, process.exe blankKernel pid size = .ok exe := by
  obtain ⟨n, rfl⟩ := Nat.exists_eq_succ_of_ne_zero hsize.ne'
  rw [Process.exe]
  cases process.override pid with
  | some exe => exact ⟨exe, rfl⟩
  | none => exact ⟨[], rfl⟩

/-- A path that names no executable, where it is not clear, does not come
to EACCES. -/
theorem Clear.of_readlinkMeets (hproc : ∃ rest, path = lit "/proc/" ++ rest)
    (hmeets : ReadlinkMeets abi process path) : Clear path := by
  by_contra hclear
  obtain ⟨-, hother⟩ := hmeets blankKernel 0 [0] 1 (Nat.le_refl 1)
  obtain ⟨hrun, -⟩ := hother fun pid hpath => hclear (.inl ⟨pid, hpath⟩)
  rcases procExePid_of_not_clear abi hproc hclear with
    ⟨e, hpid⟩ | ⟨pid, hpid⟩
  · rw [shimReadlink_of_error hproc hpid] at hrun
    cases hrun
  · have hbuf : 1 ≤ [(0 : UInt8)].length := Nat.le_refl 1
    have hsome := shimReadlink_of_some process blankKernel 0 hproc hpid hbuf
    obtain ⟨exe, hexe⟩ := exe_blankKernel process pid Nat.one_pos
    rw [hexe] at hsome
    obtain ⟨buf', hrun', -⟩ := hsome
    rw [hrun] at hrun'
    cases hrun'

theorem Clear.readlinkMeets (hproc : ∃ rest, path = lit "/proc/" ++ rest)
    (hclear : Clear path) : ReadlinkMeets abi process path := by
  intro h errno buf bufsize hbuf
  refine ⟨fun pid hpath => ?_, fun hother => ?_⟩
  · exact shimReadlink_of_some _ h errno hproc (procExePid_of_names hpath) hbuf
  · rcases hclear.procExePid abi with ⟨pid, hpath, -⟩ | hpid
    · exact absurd hpath (hother pid)
    · exact shimReadlink_of_none hproc hpid

end Readlink

/-! ## `realpath` -/

section Realpath

variable {abi : Abi} {process : Process} {path fresh : Buf}
  {resolvedPath : Option Buf}
  {h : (c : ExeCall) → Except Errno (ExeAnswer c)} {errno : Errno}

theorem shimRealpath_of_error {e : Stop}
    (hproc : ∃ rest, path = lit "/proc/" ++ rest)
    (hpid : procExePid abi path = .error e) :
    (shimRealpath abi process fresh path resolvedPath).run h errno =
      .error e := by
  rw [shimRealpath, if_pos (startsWith_proc hproc), hpid]
  rfl

theorem shimRealpath_of_none (hproc : ∃ rest, path = lit "/proc/" ++ rest)
    (hpid : procExePid abi path = .ok none) :
    (shimRealpath abi process fresh path resolvedPath).run h errno =
        .ok ((none, resolvedPath), nativeToLinuxErrno eacces) ∧
      (shimRealpath abi process fresh path resolvedPath).calls h errno =
        [] := by
  rw [shimRealpath, if_pos (startsWith_proc hproc), hpid]
  exact ⟨rfl, rfl⟩

/-- The object that is written to. -/
theorem pathMax_le_out (hfresh : pathMax ≤ fresh.length)
    (hresolved : ∀ buf, resolvedPath = some buf → pathMax ≤ buf.length) :
    pathMax ≤ (resolvedPath.getD fresh).length := by
  cases resolvedPath with
  | none => exact hfresh
  | some buf => exact hresolved buf rfl

variable (process h errno) in
/-- The executable is handed over, if an override fits. -/
theorem shimRealpath_of_some {pid : Int}
    (hproc : ∃ rest, path = lit "/proc/" ++ rest)
    (hpid : procExePid abi path = .ok (some pid))
    (hfresh : pathMax ≤ fresh.length)
    (hresolved : ∀ buf, resolvedPath = some buf → pathMax ≤ buf.length)
    (hoverride : ∀ exe, process.override pid = some exe →
      exe.length < pathMax) :
    match process.exe h pid pathMax with
    | .ok exe => ∃ out,
        (shimRealpath abi process fresh path resolvedPath).run h errno =
            .ok ((some out, resolvedPath.map fun _ => out), errno) ∧
          out.take (exe.length + 1) = exe ++ [0]
    | .error e =>
        (shimRealpath abi process fresh path resolvedPath).run h errno =
          .ok ((none, resolvedPath), nativeToLinuxErrno e) := by
  have hout := pathMax_le_out hfresh hresolved
  have hstore : ∀ exe : Buf, exe.length < pathMax →
      ∃ out, (resolvedPath.getD fresh).store 0 (exe ++ [0]) = .ok out ∧
        out.take (exe.length + 1) = exe ++ [0] := by
    intro exe hlt
    have hnul : (exe ++ [0]).length = exe.length + 1 := List.length_append
    have hroom : (exe ++ [0]).length ≤ (resolvedPath.getD fresh).length := by
      omega
    obtain ⟨out, hstore, -, htake⟩ := store_start hroom
    refine ⟨out, hstore, ?_⟩
    rw [← hnul, htake _ (Nat.le_refl _), List.take_length]
  rw [shimRealpath, if_pos (startsWith_proc hproc), hpid, Process.exe]
  simp only [Routine.run_bind, Routine.run_lift, ok_bind]
  cases hexe : process.override pid with
  | some exe =>
      have hlt := hoverride exe hexe
      have hcopy : (resolvedPath.getD fresh).storeStr 0 pathMax exe =
          (resolvedPath.getD fresh).store 0 (exe ++ [0]) := by
        rw [storeStr, if_neg (by decide), List.take_of_length_le (by omega)]
      obtain ⟨out, hout, htake⟩ := hstore exe hlt
      refine ⟨out, ?_, htake⟩
      simp only [Routine.run_bind, Routine.run_lift, hcopy, hout, ok_bind,
        require_of hlt, Routine.run_pure]
  | none =>
      simp only [callExe, Routine.run_bind, Routine.run_native]
      cases h (.pathname pid pathMax) with
      | error e => rfl
      | ok exe =>
          obtain ⟨out, hout, htake⟩ := hstore exe.str exe.fits
          refine ⟨out, ?_, htake⟩
          simp only [Routine.run_bind, Routine.run_lift, hout, ok_bind,
            Routine.run_pure]

/-- An override that does not fit trips the assertion. -/
theorem shimRealpath_of_long {pid : Int} {exe : Buf}
    (hproc : ∃ rest, path = lit "/proc/" ++ rest)
    (hpid : procExePid abi path = .ok (some pid))
    (hfresh : pathMax ≤ fresh.length)
    (hresolved : ∀ buf, resolvedPath = some buf → pathMax ≤ buf.length)
    (hoverride : process.override pid = some exe)
    (hlong : ¬exe.length < pathMax) :
    (shimRealpath abi process fresh path resolvedPath).run h errno =
      .error .abort := by
  have hout := pathMax_le_out hfresh hresolved
  have hlen : (exe.take (pathMax - 1) ++ [0]).length ≤
      (resolvedPath.getD fresh).length := by
    rw [List.length_append, List.length_take]
    have : [(0 : UInt8)].length = 1 := rfl
    have : 0 < pathMax := by decide
    omega
  obtain ⟨out, hstore, -⟩ := store_start hlen
  rw [shimRealpath, if_pos (startsWith_proc hproc), hpid]
  simp only [Routine.run_bind, Routine.run_lift, ok_bind, hoverride, storeStr,
    if_neg (by decide : ¬pathMax = 0), hstore, require_of_not hlong,
    error_bind]

/-- The override, where the path names the executable of the process itself,
fits `PATH_MAX`. -/
def OverrideFits (process : Process) (path : Buf) : Prop :=
  ∀ exe pid, process.procSelfExeOverride = some exe → NamesExe path pid →
    pid = -1 ∨ pid = process.getpid → exe.length < pathMax

theorem Process.override_eq_some_iff {process : Process} {pid : Int} {exe : Buf} :
    process.override pid = some exe ↔
      (pid = -1 ∨ pid = process.getpid) ∧ process.procSelfExeOverride = some exe := by
  rw [Process.override]
  split
  · exact (and_iff_right ‹_›).symm
  · exact iff_of_false nofun fun h => absurd h.1 ‹_›

theorem Clear.realpathMeets (hproc : ∃ rest, path = lit "/proc/" ++ rest)
    (hclear : Clear path) (hfits : OverrideFits process path) :
    RealpathMeets abi process path := by
  intro h errno fresh resolvedPath hfresh hresolved
  refine ⟨fun pid hpath => ?_, fun hother => ?_⟩
  · refine shimRealpath_of_some _ h errno hproc (procExePid_of_names hpath)
      hfresh hresolved fun exe hexe => ?_
    obtain ⟨hown, hset⟩ := Process.override_eq_some_iff.mp hexe
    exact hfits exe pid hset hpath hown
  · rcases hclear.procExePid abi with ⟨pid, hpath, -⟩ | hpid
    · exact absurd hpath (hother pid)
    · exact shimRealpath_of_none hproc hpid

theorem Clear.of_realpathMeets (hproc : ∃ rest, path = lit "/proc/" ++ rest)
    (hmeets : RealpathMeets abi process path) : Clear path := by
  by_contra hclear
  have hfresh : pathMax ≤ (List.replicate pathMax (0 : UInt8)).length :=
    List.length_replicate.ge
  have hnull : ∀ buf : Buf, none = some buf → pathMax ≤ buf.length := nofun
  obtain ⟨-, hother⟩ := hmeets blankKernel 0 _ none hfresh hnull
  obtain ⟨hrun, -⟩ := hother fun pid hpath => hclear (.inl ⟨pid, hpath⟩)
  rcases procExePid_of_not_clear abi hproc hclear with
    ⟨e, hpid⟩ | ⟨pid, hpid⟩
  · rw [shimRealpath_of_error hproc hpid] at hrun
    cases hrun
  · by_cases hfits : ∀ exe, process.override pid = some exe → exe.length < pathMax
    · have hsome := shimRealpath_of_some process blankKernel 0 hproc hpid
        hfresh hnull hfits
      obtain ⟨exe, hexe⟩ := exe_blankKernel process pid (by decide : 0 < pathMax)
      rw [hexe] at hsome
      obtain ⟨out, hrun', -⟩ := hsome
      rw [hrun] at hrun'
      cases hrun'
    · push Not at hfits
      obtain ⟨exe, hexe, hlong⟩ := hfits
      rw [shimRealpath_of_long hproc hpid hfresh hnull hexe
        (Nat.not_lt.mpr hlong)] at hrun
      cases hrun

theorem overrideFits_of_realpathMeets
    (hproc : ∃ rest, path = lit "/proc/" ++ rest)
    (hmeets : RealpathMeets abi process path) : OverrideFits process path := by
  intro exe pid hset hpath hself
  by_contra hlong
  have hfresh : pathMax ≤ (List.replicate pathMax (0 : UInt8)).length :=
    List.length_replicate.ge
  have hown : process.override pid = some exe :=
    Process.override_eq_some_iff.mpr ⟨hself, hset⟩
  have hnull : ∀ buf : Buf, none = some buf → pathMax ≤ buf.length := nofun
  obtain ⟨hnames, -⟩ := hmeets blankKernel 0 _ none hfresh hnull
  have hrun := hnames pid hpath
  rw [Process.exe, hown] at hrun
  obtain ⟨out, hrun, -⟩ := hrun
  rw [shimRealpath_of_long hproc (procExePid_of_names hpath) hfresh hnull
    hown hlong] at hrun
  cases hrun

end Realpath

/-- `readlink` does what it owes the caller on exactly the clear paths, and
`realpath` does on those if the override fits where it counts. -/
theorem procExe_recognised_iff (abi : Abi) (process : Process) {path : Buf}
    (hproc : ∃ rest, path = lit "/proc/" ++ rest) :
    (ReadlinkMeets abi process path ↔ Clear path) ∧
      (RealpathMeets abi process path ↔
        Clear path ∧ OverrideFits process path) :=
  ⟨⟨Clear.of_readlinkMeets hproc, Clear.readlinkMeets hproc⟩,
    fun h => ⟨Clear.of_realpathMeets hproc h,
      overrideFits_of_realpathMeets hproc h⟩,
    fun ⟨hclear, hfits⟩ => hclear.realpathMeets hproc hfits⟩

/-- `/proc/self` has no second component. -/
theorem readlink_proc_self_faults :
    (∀ process buf bufsize h errno,
      (shimReadlink .amd64 process (lit "/proc/self") buf bufsize).run h errno =
        .error .fault) ∧
      ¬ReadlinkMeets .amd64 ⟨none, 1⟩ (lit "/proc/self") ∧
      ¬RealpathMeets .amd64 ⟨none, 1⟩ (lit "/proc/self") := by
  have hproc : ∃ rest, lit "/proc/self" = lit "/proc/" ++ rest :=
    ⟨lit "self", by decide⟩
  have hpid : procExePid .amd64 (lit "/proc/self") = .error .fault := by
    rw [show lit "/proc/self" = lit "/proc/" ++ lit "self" by decide]
    exact procExePid_of_one_component (by decide)
  have hnames : ∀ pid, ¬NamesExe (lit "/proc/self") pid := by
    intro pid hpath
    rw [procExePid_of_names hpath] at hpid
    cases hpid
  refine ⟨fun _ _ _ _ _ => shimReadlink_of_error hproc hpid, ?_, ?_⟩
  · intro hmeets
    obtain ⟨-, hother⟩ := hmeets blankKernel 0 [] 0 (Nat.le_refl 0)
    obtain ⟨hrun, -⟩ := hother hnames
    rw [shimReadlink_of_error hproc hpid] at hrun
    cases hrun
  · intro hmeets
    obtain ⟨-, hother⟩ := hmeets blankKernel 0 (.replicate pathMax 0) none
      List.length_replicate.ge nofun
    obtain ⟨hrun, -⟩ := hother hnames
    rw [shimRealpath_of_error hproc hpid] at hrun
    cases hrun

/-- The process's own executable by its name `self`, and, with an override that
is too long, that of another process. -/
theorem proc_self_exe_recognised :
    ReadlinkMeets .amd64 ⟨none, 1⟩ (lit "/proc/self/exe") ∧
      RealpathMeets .amd64 ⟨none, 1⟩ (lit "/proc/self/exe") ∧
      RealpathMeets .amd64 ⟨some (.replicate pathMax slash), 1⟩ (lit "/proc/7/exe") := by
  have hself : Clear (lit "/proc/self/exe") :=
    .inl ⟨-1, lit "self", .inl ⟨rfl, rfl⟩, by decide⟩
  have hother : NamesExe (lit "/proc/7/exe") 7 :=
    ⟨lit "7", .inr ⟨7, by decide, by decide, by decide, rfl⟩, by decide⟩
  obtain ⟨hreadlink, hrealpath⟩ := @procExe_recognised_iff .amd64 ⟨none, 1⟩
    (lit "/proc/self/exe") ⟨lit "self/exe", by decide⟩
  obtain ⟨-, hrealpath'⟩ := @procExe_recognised_iff .amd64
    ⟨some (.replicate pathMax slash), 1⟩ (lit "/proc/7/exe") ⟨lit "7/exe", by decide⟩
  refine ⟨hreadlink.mpr hself, hrealpath.mpr ⟨hself, nofun⟩,
    hrealpath'.mpr ⟨.inl ⟨7, hother⟩, fun exe pid _ hpath hown => ?_⟩⟩
  -- the path names one process
  have hpid : some pid = some 7 := Except.ok.inj
    ((@procExePid_of_names .amd64 _ _ hpath).symm.trans (procExePid_of_names hother))
  cases hpid
  rcases hown with hown | hown <;> cases hown

end Libc6Shim
