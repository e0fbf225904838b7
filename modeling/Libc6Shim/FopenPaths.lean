import Libc6Shim.FileCalls

/-!
# The special paths of `fopen`

`fopen` looks for the name of a thread, `/proc/self/task/<tid>/comm`, by the
slash that ends `<tid>`, and begins one byte behind the prefix. The first byte
of `<tid>` is never looked at. So a path that is the prefix and nothing more is
read behind its NUL, and an empty `<tid>` is taken for a name that begins
with a slash. All other paths are told apart as they should be
(`fopen_decides_iff`).
-/

namespace Libc6Shim

open CSem Buf Outcome Routine

/-- The path of the name of a thread. -/
def IsCommPath (path : Buf) : Prop :=
  ∃ tid, tid ≠ [] ∧ 47 ∉ tid ∧
    path = lit "/proc/self/task/" ++ (tid ++ lit "/comm")

/-- The same with a slash that stands for the thread's number or begins
it. -/
def IsSlashedComm (path : Buf) : Prop :=
  ∃ name, 47 ∉ name ∧
    path = lit "/proc/self/task/" ++ 47 :: (name ++ lit "/comm")

/-- Open what the path is redirected to, or refuse. -/
def openRedirected (linuxEmulPath path mode : Buf) : FileRoutine (Option Ptr) :=
  match redirect linuxEmulPath path with
  | none => do
      set eacces
      return none
  | some p => callFile (.fopen p mode)

/-- `fopen` stays inside the path, and knows the special ones. -/
structure FopenDecides (linuxEmulPath path : Buf) : Prop where
  /-- Nothing is read behind the path's NUL: the only fault is to write the
  parameters to a stream that could not be opened. -/
  within : ∀ h mode e, run h (shimFopen linuxEmulPath path mode) e = .error .fault →
    path = lit "/proc/driver/nvidia/params" ∧
      ∃ err, h (.fmemopen nvidiaParams.length (lit "r+")) = .error err
  comm : IsCommPath path → shimFopen linuxEmulPath path (lit "wb") =
    callFile (.fopen (lit "/dev/null") (lit "wb"))
  others : path ≠ lit "/proc/driver/nvidia/params" → ¬IsCommPath path →
    ∀ mode, shimFopen linuxEmulPath path mode =
      openRedirected linuxEmulPath path mode

/-! ## The search for the slash -/

section

variable {linuxEmulPath path mode r : Buf} {x : UInt8}

/-- What is left from the first slash on. -/
theorem dropWhile_eq_comm_iff :
    r.dropWhile (· ≠ 47) = lit "/comm" ↔
      ∃ name, 47 ∉ name ∧ r = name ++ lit "/comm" := by
  constructor
  · intro h
    refine ⟨r.takeWhile (· ≠ 47), fun hmem => ?_, ?_⟩
    · simpa using List.mem_takeWhile_imp hmem
    · rw [← h, List.takeWhile_append_dropWhile]
  · rintro ⟨name, hname, rfl⟩
    have hpos : ∀ c ∈ name, decide (c ≠ 47) = true := fun c hc =>
      decide_eq_true fun h47 => hname (h47 ▸ hc)
    rw [List.dropWhile_append_of_pos hpos]
    rfl

/-- The byte behind the prefix is skipped. -/
theorem isTaskComm_cons (h0 : 0 ∉ r) :
    ∃ b, isTaskComm (lit "/proc/self/task/" ++ x :: r) = .ok b ∧
      (b = true ↔ ∃ name, 47 ∉ name ∧ r = name ++ lit "/comm") := by
  have htask : startsWith (lit "/proc/self/task/" ++ x :: r)
      (lit "/proc/self/task/") = true := startsWith_iff.mpr ⟨_, rfl⟩
  have hdrop : (lit "/proc/self/task/" ++ x :: r ++ [0]).drop
      ((lit "/proc/self/task/").length + 1) = r ++ [0] := rfl
  have htail : cstrAt (lit "/proc/self/task/" ++ x :: r ++ [0])
      ((lit "/proc/self/task/").length + 1) = .ok r :=
    cstrAt_of_drop hdrop h0
  rw [isTaskComm, if_pos htask, strchrFrom, htail]
  refine ⟨_, rfl, ?_⟩
  rw [← dropWhile_eq_comm_iff, decide_eq_true_iff]
  constructor
  · intro hfound
    split at hfound
    · cases hfound
    · exact Option.some.inj hfound
  · intro hdropped
    rw [hdropped]
    rfl

theorem isTaskComm_bare :
    isTaskComm (lit "/proc/self/task/") = .error .fault := rfl

theorem isTaskComm_other
    (htask : ¬startsWith path (lit "/proc/self/task/") = true) :
    isTaskComm path = .ok false := by
  rw [isTaskComm, if_neg htask]
  rfl

/-! ## Where the path leads -/

theorem task_ne {p : Buf} (hp : ¬lit "/proc/self/task/" <+: p) :
    lit "/proc/self/task/" ++ r ≠ p := fun h => hp ⟨r, h⟩

/-- Nothing under a thread's directory is redirected. -/
theorem redirect_task :
    redirect linuxEmulPath (lit "/proc/self/task/" ++ r) = none := by
  have huvm : lit "/proc/self/task/" ++ r ≠ lit "/dev/nvidia-uvm" :=
    task_ne (by decide)
  have hmaps : lit "/proc/self/task/" ++ r ≠ lit "/proc/self/maps" :=
    task_ne (by decide)
  have hcpu : lit "/proc/self/task/" ++ r ≠ lit "/proc/cpuinfo" :=
    task_ne (by decide)
  have hproc : startsWith (lit "/proc/self/task/" ++ r) (lit "/proc/") = true :=
    startsWith_iff.mpr ⟨lit "self/task/" ++ r, rfl⟩
  rw [redirect, if_neg huvm.symm, if_pos hproc]
  simp only [procfsRedirects, List.lookup, beq_eq_false_iff_ne.mpr hmaps,
    beq_eq_false_iff_ne.mpr hcpu]

theorem shimFopen_of_isTaskComm {b : Bool} (hb : isTaskComm path = .ok b)
    (hne : path ≠ lit "/proc/driver/nvidia/params") :
    shimFopen linuxEmulPath path mode =
      if b then (do
        Outcome.require (mode = lit "wb")
        callFile (.fopen (lit "/dev/null") mode))
      else openRedirected linuxEmulPath path mode := by
  rw [shimFopen, if_neg hne, hb]
  rfl

/-- A path that is not the prefix is looked at inside its NUL. -/
theorem isTaskComm_ok (h0 : 0 ∉ path) (hne : path ≠ lit "/proc/self/task/") :
    ∃ b, isTaskComm path = .ok b ∧
      (b = true ↔ IsCommPath path ∨ IsSlashedComm path) := by
  by_cases htask : startsWith path (lit "/proc/self/task/") = true
  · obtain ⟨r, rfl⟩ := startsWith_iff.mp htask
    cases r with
    | nil => exact absurd (List.append_nil _) hne
    | cons x r =>
        have h0r : 0 ∉ r := fun h =>
          h0 (List.mem_append_right _ (List.mem_cons_of_mem _ h))
        obtain ⟨b, hb, hiff⟩ := isTaskComm_cons (x := x) h0r
        refine ⟨b, hb, hiff.trans ?_⟩
        constructor
        · rintro ⟨name, hname, rfl⟩
          by_cases hx : x = 47
          · exact .inr ⟨name, hname, by rw [hx]⟩
          · refine .inl ⟨x :: name, List.cons_ne_nil _ _, ?_, rfl⟩
            rw [List.mem_cons, not_or]
            exact ⟨Ne.symm hx, hname⟩
        · rintro (⟨tid, hne, htid, heq⟩ | ⟨name, hname, heq⟩)
          · obtain ⟨y, name, rfl⟩ := List.exists_cons_of_ne_nil hne
            have htail := List.append_cancel_left heq
            rw [List.cons_append, List.cons.injEq] at htail
            exact ⟨name, fun h => htid (List.mem_cons_of_mem _ h), htail.2⟩
          · have htail := List.append_cancel_left heq
            rw [List.cons.injEq] at htail
            exact ⟨name, hname, htail.2⟩
  · refine ⟨false, isTaskComm_other htask, iff_of_false nofun ?_⟩
    rintro (⟨tid, -, -, heq⟩ | ⟨name, -, heq⟩) <;>
      exact htask (startsWith_iff.mpr ⟨_, heq⟩)

theorem slashed_not_comm (hslashed : IsSlashedComm path) : ¬IsCommPath path := by
  obtain ⟨name, -, rfl⟩ := hslashed
  rintro ⟨tid, hne, htid, heq⟩
  obtain ⟨y, tid, rfl⟩ := List.exists_cons_of_ne_nil hne
  have htail := List.append_cancel_left heq
  rw [List.cons_append, List.cons.injEq] at htail
  exact htid (htail.1 ▸ List.mem_cons_self)

theorem IsCommPath.ne_params (hcomm : IsCommPath path) :
    path ≠ lit "/proc/driver/nvidia/params" := by
  obtain ⟨tid, -, -, rfl⟩ := hcomm
  exact task_ne (by decide)

/-- A native call comes back. -/
theorem run_callFile (h : (c : FileCall) → Except Errno (FileAnswer c)) (c : FileCall)
    (e : Errno) : ∃ r, run h (callFile c) e = .ok r := by
  rw [callFile, run_native]
  cases h c with
  | ok a => exact ⟨_, rfl⟩
  | error e' => exact ⟨_, rfl⟩

/-- Neither way of opening a file touches memory outside an object. -/
theorem openRedirected_not_fault
    (h : (c : FileCall) → Except Errno (FileAnswer c)) (e : Errno) :
    run h (openRedirected linuxEmulPath path mode) e ≠ .error .fault := by
  rw [openRedirected]
  cases redirect linuxEmulPath path with
  | none => exact nofun
  | some p =>
      obtain ⟨r, hr⟩ := run_callFile h (.fopen p mode) e
      exact fun hfault => nomatch hr.symm.trans hfault

theorem openNull_not_fault
    (h : (c : FileCall) → Except Errno (FileAnswer c)) (e : Errno) :
    run h (do
      Outcome.require (mode = lit "wb")
      callFile (.fopen (lit "/dev/null") mode)) e ≠ .error .fault := by
  rw [run_bind, run_lift]
  by_cases hmode : mode = lit "wb"
  · obtain ⟨r, hr⟩ := run_callFile h (.fopen (lit "/dev/null") mode) e
    rw [require_of hmode]
    exact fun hfault => nomatch hr.symm.trans hfault
  · rw [require_of_not hmode]
    exact nofun

/-- The path of the parameters is compared and no more; they are written to a
stream of their own. -/
theorem params_fault {h : (c : FileCall) → Except Errno (FileAnswer c)} {e : Errno}
    (hrun : run h (shimFopen linuxEmulPath (lit "/proc/driver/nvidia/params") mode) e =
      .error .fault) :
    ∃ err, h (.fmemopen nvidiaParams.length (lit "r+")) = .error err := by
  rw [shimFopen, if_pos rfl, run_bind, run_lift] at hrun
  by_cases hmode : mode = lit "r"
  · cases hmem : h (.fmemopen nvidiaParams.length (lit "r+")) with
    | error err => exact ⟨err, rfl⟩
    | ok mem =>
        have hopen : run h (callFile (.fmemopen nvidiaParams.length (lit "r+"))) e =
            .ok (some mem, e) := by
          rw [callFile, run_native, hmem]
        obtain ⟨r, hwrite⟩ := run_callFile h (.fwrite mem nvidiaParams) e
        obtain ⟨r', hrewind⟩ := run_callFile h (.rewind mem) r.2
        rw [require_of hmode, ok_bind, ok_bind, run_bind, hopen, ok_bind] at hrun
        dsimp only at hrun
        rw [run_bind, hwrite, ok_bind, run_bind, hrewind] at hrun
        cases hrun
  · rw [require_of_not hmode] at hrun
    cases hrun

theorem fopenDecides_of (h0 : 0 ∉ path) (hne : path ≠ lit "/proc/self/task/")
    (hslashed : ¬IsSlashedComm path) : FopenDecides linuxEmulPath path := by
  obtain ⟨b, hb, hiff⟩ := isTaskComm_ok h0 hne
  rw [or_iff_left hslashed] at hiff
  constructor
  · intro h mode e hrun
    by_cases hparams : path = lit "/proc/driver/nvidia/params"
    · exact ⟨hparams, params_fault (hparams ▸ hrun)⟩
    · rw [shimFopen_of_isTaskComm hb hparams] at hrun
      cases b with
      | true => exact absurd hrun (openNull_not_fault h e)
      | false => exact absurd hrun (openRedirected_not_fault h e)
  · intro hcomm
    rw [shimFopen_of_isTaskComm hb hcomm.ne_params, if_pos (hiff.mpr hcomm),
      require_of rfl]
    rfl
  · intro hparams hcomm mode
    rw [shimFopen_of_isTaskComm hb hparams, if_neg (mt hiff.mp hcomm)]

/-- A name that begins with a slash is opened where it should be refused. -/
theorem not_fopenDecides_of_slashed (h0 : 0 ∉ path)
    (hslashed : IsSlashedComm path) : ¬FopenDecides linuxEmulPath path := by
  intro hdecides
  obtain ⟨name, -, hpath⟩ := id hslashed
  have hparams : path ≠ lit "/proc/driver/nvidia/params" :=
    hpath ▸ task_ne (by decide)
  have hne : path ≠ lit "/proc/self/task/" := by
    rw [hpath]
    exact fun h => List.cons_ne_nil _ _ (List.append_right_eq_self.mp h)
  obtain ⟨b, hb, hiff⟩ := isTaskComm_ok h0 hne
  have hrefused := hdecides.others hparams (slashed_not_comm hslashed) (lit "wb")
  rw [shimFopen_of_isTaskComm hb hparams, if_pos (hiff.mpr (.inr hslashed)),
    openRedirected, hpath, redirect_task] at hrefused
  have hcalls := congrArg (fun p => calls (fun _ => .error enosys) p 0) hrefused
  cases hcalls

theorem not_fopenDecides_bare :
    ¬FopenDecides linuxEmulPath (lit "/proc/self/task/") := by
  intro hdecides
  have hrun : run (fun _ => .error enosys)
      (shimFopen linuxEmulPath (lit "/proc/self/task/") (lit "r")) 0 =
      .error .fault := by
    rw [shimFopen, if_neg (by decide), isTaskComm_bare]
    rfl
  exact absurd (hdecides.within _ _ _ hrun).1 (by decide)

end

/-- The special paths are decided as they should be exactly if the path is not
the prefix itself, and what follows the prefix is not a slash and a name. -/
theorem fopen_decides_iff (linuxEmulPath path : Buf) (h0 : 0 ∉ path) :
    FopenDecides linuxEmulPath path ↔
      path ≠ lit "/proc/self/task/" ∧ ¬IsSlashedComm path := by
  constructor
  · intro hdecides
    refine ⟨?_, fun hslashed => not_fopenDecides_of_slashed h0 hslashed hdecides⟩
    rintro rfl
    exact not_fopenDecides_bare hdecides
  · rintro ⟨hne, hslashed⟩
    exact fopenDecides_of h0 hne hslashed

/-- The name of a thread. -/
theorem threadName_decides :
    FopenDecides (lit "/compat/linux") (lit "/proc/self/task/1042/comm") := by
  refine (fopen_decides_iff _ _ (by decide)).mpr ⟨by decide, ?_⟩
  rintro ⟨name, -, heq⟩
  have htail := List.append_cancel_left (show lit "/proc/self/task/" ++
    lit "1042/comm" = lit "/proc/self/task/" ++ 47 :: (name ++ lit "/comm") from heq)
  have hhead : (some 49 : Option UInt8) = some 47 := congrArg List.head? htail
  exact absurd hhead (by decide)

/-- The directory of the threads is read behind its NUL. -/
theorem threadDirectory_not_decides :
    run (fun _ => .error enosys)
        (shimFopen (lit "/compat/linux") (lit "/proc/self/task/") (lit "r")) 0 =
      .error .fault ∧
      ¬FopenDecides (lit "/compat/linux") (lit "/proc/self/task/") :=
  ⟨rfl, not_fopenDecides_bare⟩

end Libc6Shim
