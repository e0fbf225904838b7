import Libc6Shim.Abi
import Libc6Shim.CSemMachine
import Libc6Shim.CSemProg

/-!
# Scheduling settings

How threads and processes are scheduled is kept by the native library: in the
attribute objects of threads and of spawned processes, and for threads and
processes that run. The shim translates what is set and what is read, with the
switches of `src/libthr/pthread.c` and `src/libc/sched.c`.

The two directions are written down separately. They undo each other
(`SchedSetting.back`), so Linux code reads what was last set, through any number of
objects and whatever calls the native library refuses (`settings_traces`). Of
the policies that `src/libc/sched.h` names, two are in neither switch: to set
one of them stops the process.
-/

namespace Libc6Shim

open CSem Outcome

/-! ## Switches -/

/-- A `switch` whose default stops the process. -/
def switch (cases : List (Word × Word)) (v : Word) : Outcome Word :=
  match cases.lookup v with
  | some w => .ok w
  | none => .error .abort

section Switch

variable {cases : List (Word × Word)} {v w : Word}

theorem switch_eq_ok_iff (hnodup : (cases.map Prod.fst).Nodup) :
    switch cases v = .ok w ↔ (v, w) ∈ cases := by
  have hlookup : switch cases v = .ok w ↔ cases.lookup v = some w := by
    unfold switch
    cases cases.lookup v <;> simp
  rw [hlookup, List.lookup_eq_some_iff]
  constructor
  · rintro ⟨front, back, rfl, -⟩
    simp
  · intro hmem
    obtain ⟨front, back, rfl⟩ := List.append_of_mem hmem
    refine ⟨front, back, rfl, fun p hp => ?_⟩
    -- the label is not among those before
    rw [List.map_append, List.nodup_append] at hnodup
    simpa using (hnodup.2.2 _ (List.mem_map_of_mem hp) _ List.mem_cons_self).symm

/-- Where no two labels or results are the same, the switch the other way
round goes back. -/
theorem switch_swap (hfst : (cases.map Prod.fst).Nodup) (hsnd : (cases.map Prod.snd).Nodup)
    (h : switch cases v = .ok w) : switch (cases.map Prod.swap) w = .ok v := by
  have hfst' : ((cases.map Prod.swap).map Prod.fst).Nodup := by
    rwa [show (cases.map Prod.swap).map Prod.fst = cases.map Prod.snd by
      rw [List.map_map]; rfl]
  exact (switch_eq_ok_iff hfst').mpr
    (List.mem_map.mpr ⟨_, (switch_eq_ok_iff hfst).mp h, rfl⟩)

theorem switch_error {e : Stop} (h : switch cases v = .error e) : e = .abort := by
  unfold switch at h
  split at h <;> cases h
  rfl

end Switch

/-! ## The conversions -/

def linuxPthreadInheritSched : Word := 0
def linuxPthreadExplicitSched : Word := 1
def pthreadInheritSched : Word := 4
def pthreadExplicitSched : Word := 0

def linuxPthreadScopeSystem : Word := 0
def linuxPthreadScopeProcess : Word := 1
def pthreadScopeSystem : Word := 2
def pthreadScopeProcess : Word := 0

def linuxSchedNormal : Word := 0
def linuxSchedFifo : Word := 1
def linuxSchedRr : Word := 2
def schedFifo : Word := 1
def schedOther : Word := 2
def schedRr : Word := 3

def linuxToNativeSchedPolicy : Word → Outcome Word :=
  switch [(linuxSchedNormal, schedOther), (linuxSchedFifo, schedFifo),
    (linuxSchedRr, schedRr)]

def nativeToLinuxSchedPolicy : Word → Outcome Word :=
  switch [(schedOther, linuxSchedNormal), (schedFifo, linuxSchedFifo),
    (schedRr, linuxSchedRr)]

/-- The switch of `shim_pthread_attr_setinheritsched_impl`. -/
def linuxToNativeInheritsched : Word → Outcome Word :=
  switch [(linuxPthreadInheritSched, pthreadInheritSched),
    (linuxPthreadExplicitSched, pthreadExplicitSched)]

/-- The switch of `shim_pthread_attr_getinheritsched_impl`. -/
def nativeToLinuxInheritsched : Word → Outcome Word :=
  switch [(pthreadInheritSched, linuxPthreadInheritSched),
    (pthreadExplicitSched, linuxPthreadExplicitSched)]

/-- The switch of `shim_pthread_attr_setscope_impl`. -/
def linuxToNativeScope : Word → Outcome Word :=
  switch [(linuxPthreadScopeSystem, pthreadScopeSystem),
    (linuxPthreadScopeProcess, pthreadScopeProcess)]

/-- The switch of `shim_pthread_attr_getscope_impl`. -/
def nativeToLinuxScope : Word → Outcome Word :=
  switch [(pthreadScopeSystem, linuxPthreadScopeSystem),
    (pthreadScopeProcess, linuxPthreadScopeProcess)]

/-! ## The native library -/

/-- What the native library keeps: of a thread's attributes, of those of a
process to be spawned, of a thread and of a process. -/
inductive SchedSetting where
  | attrInheritsched
  | attrSchedpolicy
  | attrScope
  | spawnSchedpolicy
  | threadSchedpolicy
  | processSchedpolicy
deriving DecidableEq

inductive SchedCall where
  | set (setting : SchedSetting) (obj : Ptr) (value : Word)
  | get (setting : SchedSetting) (obj : Ptr)

@[reducible] def SchedAnswer : SchedCall → Type
  | .set .. => Except Errno Unit
  | .get .. => Except Errno Word

abbrev SchedProg := Prog SchedCall SchedAnswer

/-! ## The shim's functions -/

/-- What is set is translated first. -/
def setTranslated (convert : Word → Outcome Word) (setting : SchedSetting) (obj : Ptr)
    (linuxValue : Word) : SchedProg (Except Errno Unit) := do
  let value ← Prog.ofOutcome (convert linuxValue)
  .call (.set setting obj value) .ret

/-- What is read is translated if there was no error. -/
def getTranslated (convert : Word → Outcome Word) (setting : SchedSetting) (obj : Ptr) :
    SchedProg (Except Errno Word) :=
  .call (.get setting obj) fun r => match r with
    | .ok value => do return .ok (← Prog.ofOutcome (convert value))
    | .error err => return .error err

def shimPthreadAttrGetinheritsched (attr : Ptr) :=
  getTranslated nativeToLinuxInheritsched .attrInheritsched attr

def shimPthreadAttrSetinheritsched (attr : Ptr) (linuxInheritsched : Word) :=
  setTranslated linuxToNativeInheritsched .attrInheritsched attr linuxInheritsched

def shimPthreadAttrGetschedpolicy (attr : Ptr) :=
  getTranslated nativeToLinuxSchedPolicy .attrSchedpolicy attr

def shimPthreadAttrSetschedpolicy (attr : Ptr) (linuxPolicy : Word) :=
  setTranslated linuxToNativeSchedPolicy .attrSchedpolicy attr linuxPolicy

def shimPthreadGetschedparam (thread : Ptr) :=
  getTranslated nativeToLinuxSchedPolicy .threadSchedpolicy thread

def shimPthreadSetschedparam (thread : Ptr) (linuxPolicy : Word) :=
  setTranslated linuxToNativeSchedPolicy .threadSchedpolicy thread linuxPolicy

def shimPthreadAttrGetscope (attr : Ptr) :=
  getTranslated nativeToLinuxScope .attrScope attr

def shimPthreadAttrSetscope (attr : Ptr) (linuxScope : Word) :=
  setTranslated linuxToNativeScope .attrScope attr linuxScope

def shimPosixSpawnattrGetschedpolicy (attr : Ptr) :=
  getTranslated nativeToLinuxSchedPolicy .spawnSchedpolicy attr

def shimPosixSpawnattrSetschedpolicy (attr : Ptr) (linuxPolicy : Word) :=
  setTranslated linuxToNativeSchedPolicy .spawnSchedpolicy attr linuxPolicy

def shimSchedSetscheduler (pid : Ptr) (policy : Word) :=
  setTranslated linuxToNativeSchedPolicy .processSchedpolicy pid policy

/-- Here an error is translated too: it is `-1`. -/
def shimSchedGetscheduler (pid : Ptr) : SchedProg (Except Errno Word) :=
  .call (.get .processSchedpolicy pid) fun r => do
    return .ok (← Prog.ofOutcome (nativeToLinuxSchedPolicy (r.toOption.getD (-1))))

namespace SchedSetting

/-- The setter. -/
def shimSet : SchedSetting → Ptr → Word → SchedProg (Except Errno Unit)
  | .attrInheritsched => shimPthreadAttrSetinheritsched
  | .attrSchedpolicy => shimPthreadAttrSetschedpolicy
  | .attrScope => shimPthreadAttrSetscope
  | .spawnSchedpolicy => shimPosixSpawnattrSetschedpolicy
  | .threadSchedpolicy => shimPthreadSetschedparam
  | .processSchedpolicy => shimSchedSetscheduler

/-- The getter. -/
def shimGet : SchedSetting → Ptr → SchedProg (Except Errno Word)
  | .attrInheritsched => shimPthreadAttrGetinheritsched
  | .attrSchedpolicy => shimPthreadAttrGetschedpolicy
  | .attrScope => shimPthreadAttrGetscope
  | .spawnSchedpolicy => shimPosixSpawnattrGetschedpolicy
  | .threadSchedpolicy => shimPthreadGetschedparam
  | .processSchedpolicy => shimSchedGetscheduler

end SchedSetting

/-! ## Runs -/

/-- What the native library keeps for the objects there are. -/
abbrev Settings := SchedSetting → Ptr → Word

/-- A call of Linux code, and the error if the native library refuses its part
of it. -/
inductive SettingCall where
  | set (setting : SchedSetting) (obj : Ptr) (linuxValue : Word) (refused : Option Errno)
  | get (setting : SchedSetting) (obj : Ptr) (refused : Option Errno)

/-- What is returned, with what was read. -/
abbrev SettingAnswer := Except Errno (Option Word)

namespace Settings

def put (s : Settings) (setting : SchedSetting) (obj : Ptr) (value : Word) : Settings :=
  Function.update s setting (Function.update (s setting) obj value)

/-- The native library. -/
def native (refused : Option Errno) : (c : SchedCall) → Settings → SchedAnswer c × Settings
  | .set setting obj value, s =>
      match refused with
      | some err => (.error err, s)
      | none => (.ok (), s.put setting obj value)
  | .get setting obj, s =>
      match refused with
      | some err => (.error err, s)
      | none => (.ok (s setting obj), s)

/-- A routine of the shim's, with a view of what it returns. -/
def run {α : Type} (refused : Option Errno) (p : SchedProg (Except Errno α))
    (f : α → Option Word) (s : Settings) : Outcome (SettingAnswer × Settings) :=
  match p.exec (native refused) s with
  | (.ok r, s') => .ok (r.map f, s')
  | (.error e, _) => .error e

def exec (c : SettingCall) (s : Settings) : Outcome (SettingAnswer × Settings) :=
  match c with
  | .set setting obj linuxValue refused =>
      run refused (setting.shimSet obj linuxValue) (fun _ => none) s
  | .get setting obj refused => run refused (setting.shimGet obj) some s

end Settings

/-! ## Linux settings -/

/-- The Linux values that the shim takes. Of the scheduling policies it does
not take `LINUX_SCHED_BATCH` (3) and `LINUX_SCHED_IDLE` (5), which Linux code
may set there. -/
def SchedSetting.takenValues : SchedSetting → List Word
  | .attrInheritsched => [0, 1]
  | .attrScope => [0, 1]
  | .attrSchedpolicy | .spawnSchedpolicy | .threadSchedpolicy | .processSchedpolicy =>
      [0, 1, 2]

/-- The settings as Linux code has them, each with a value the shim takes. -/
structure LinuxSettings where
  value : SchedSetting → Ptr → Word
  mem_takenValues : ∀ setting obj, value setting obj ∈ setting.takenValues

namespace LinuxSettings

def put (t : LinuxSettings) (setting : SchedSetting) (obj : Ptr) (value : Word)
    (hvalue : value ∈ setting.takenValues) : LinuxSettings where
  value := Function.update t.value setting (Function.update (t.value setting) obj value)
  mem_takenValues setting' obj' := by
    by_cases hsetting : setting' = setting
    · subst hsetting
      by_cases hobj : obj' = obj
      · simp [hobj, hvalue]
      · simp [hobj, t.mem_takenValues]
    · simp [hsetting, t.mem_takenValues]

/-- A value that the shim does not take stops the process, and so does a
refusal to say how a process is scheduled. -/
def exec (c : SettingCall) (t : LinuxSettings) : Outcome (SettingAnswer × LinuxSettings) :=
  match c with
  | .set setting obj value refused =>
      if hvalue : value ∈ setting.takenValues then
        match refused with
        | some err => .ok (.error err, t)
        | none => .ok (.ok none, t.put setting obj value hvalue)
      else .error .abort
  | .get setting obj refused =>
      match refused with
      | some err =>
          if setting = .processSchedpolicy then .error .abort else .ok (.error err, t)
      | none => .ok (.ok (some (t.value setting obj)), t)

end LinuxSettings

/-! ## The calls -/

namespace SchedSetting

/-- The labels and results of the setter's switch. -/
def cases : SchedSetting → List (Word × Word)
  | .attrInheritsched =>
      [(linuxPthreadInheritSched, pthreadInheritSched),
        (linuxPthreadExplicitSched, pthreadExplicitSched)]
  | .attrScope =>
      [(linuxPthreadScopeSystem, pthreadScopeSystem),
        (linuxPthreadScopeProcess, pthreadScopeProcess)]
  | .attrSchedpolicy | .spawnSchedpolicy | .threadSchedpolicy | .processSchedpolicy =>
      [(linuxSchedNormal, schedOther), (linuxSchedFifo, schedFifo), (linuxSchedRr, schedRr)]

variable {setting : SchedSetting} {v w : Word}

theorem cases_fst (setting : SchedSetting) : setting.cases.map Prod.fst = setting.takenValues := by
  cases setting <;> rfl

theorem nodup_fst (setting : SchedSetting) : (setting.cases.map Prod.fst).Nodup := by
  cases setting <;> decide

theorem nodup_snd (setting : SchedSetting) : (setting.cases.map Prod.snd).Nodup := by
  cases setting <;> decide

theorem shimSet_eq (setting : SchedSetting) :
    setting.shimSet = setTranslated (switch setting.cases) setting := by
  cases setting <;> rfl

/-- The getter's switch is the setter's the other way round. -/
theorem shimGet_eq (hsetting : setting ≠ .processSchedpolicy) :
    setting.shimGet = getTranslated (switch (setting.cases.map Prod.swap)) setting := by
  cases setting with
  | processSchedpolicy => exact absurd rfl hsetting
  | _ => rfl

theorem mem_takenValues_iff :
    v ∈ setting.takenValues ↔ ∃ w, switch setting.cases v = .ok w := by
  simp only [← cases_fst, List.mem_map, switch_eq_ok_iff (nodup_fst setting)]
  constructor
  · rintro ⟨⟨_, w⟩, hmem, rfl⟩
    exact ⟨w, hmem⟩
  · rintro ⟨w, hmem⟩
    exact ⟨(v, w), hmem, rfl⟩

/-- What was set is read. -/
theorem back (h : switch setting.cases v = .ok w) :
    switch (setting.cases.map Prod.swap) w = .ok v :=
  switch_swap (nodup_fst setting) (nodup_snd setting) h

end SchedSetting

/-- The native library keeps the translations. -/
def Translated (s : Settings) (t : LinuxSettings) : Prop :=
  ∀ setting obj, switch setting.cases (t.value setting obj) = .ok (s setting obj)

section Calls

variable {s : Settings} {t : LinuxSettings}

theorem Translated.put (h : Translated s t) {setting : SchedSetting} {value w : Word} (obj : Ptr)
    (hvalue : value ∈ setting.takenValues) (hw : switch setting.cases value = .ok w) :
    Translated (s.put setting obj w) (t.put setting obj value hvalue) := by
  intro setting' obj'
  unfold Settings.put LinuxSettings.put
  by_cases hsetting : setting' = setting
  · subst hsetting
    by_cases hobj : obj' = obj
    · simpa [hobj] using hw
    · simpa [hobj] using h setting' obj'
  · simpa [hsetting] using h setting' obj'

theorem exec_set (h : Translated s t) (setting : SchedSetting) (obj : Ptr) (value : Word)
    (refused : Option Errno) :
    Matches Translated (Settings.exec (.set setting obj value refused) s)
      (LinuxSettings.exec (.set setting obj value refused) t) := by
  unfold Settings.exec LinuxSettings.exec
  simp only [SchedSetting.shimSet_eq, Settings.run, setTranslated]
  by_cases hvalue : value ∈ setting.takenValues
  · obtain ⟨w, hw⟩ := SchedSetting.mem_takenValues_iff.mp hvalue
    rw [dif_pos hvalue, hw]
    cases refused with
    | none => exact ⟨rfl, h.put obj hvalue hw⟩
    | some err => exact ⟨rfl, h⟩
  · rw [dif_neg hvalue]
    cases hw : switch setting.cases value with
    | ok w => exact absurd (SchedSetting.mem_takenValues_iff.mpr ⟨w, hw⟩) hvalue
    | error e => exact switch_error hw

/-- What is read is translated, in the getters of every kind. -/
theorem getTranslated_exec {convert : Word → Outcome Word} {setting : SchedSetting} {obj : Ptr}
    {v : Word} (hv : convert (s setting obj) = .ok v) :
    (getTranslated convert setting obj).exec (Settings.native none) s = (.ok (.ok v), s) := by
  have hcall : (getTranslated convert setting obj).exec (Settings.native none) s =
      Prog.exec (Settings.native none)
        (Prog.ofOutcome (convert (s setting obj)) >>= fun v => .ret (.ok v)) s := rfl
  rw [hcall, hv]
  rfl

theorem getscheduler_exec {pid : Ptr} {v : Word}
    (hv : nativeToLinuxSchedPolicy (s .processSchedpolicy pid) = .ok v) :
    (shimSchedGetscheduler pid).exec (Settings.native none) s = (.ok (.ok v), s) := by
  have hcall : (shimSchedGetscheduler pid).exec (Settings.native none) s =
      Prog.exec (Settings.native none)
        (Prog.ofOutcome (nativeToLinuxSchedPolicy (s .processSchedpolicy pid)) >>=
          fun v => .ret (.ok v)) s := rfl
  rw [hcall, hv]
  rfl

theorem shimGet_exec (h : Translated s t) (setting : SchedSetting) (obj : Ptr) :
    (setting.shimGet obj).exec (Settings.native none) s =
      (.ok (.ok (t.value setting obj)), s) := by
  have hback := SchedSetting.back (h setting obj)
  by_cases hsetting : setting = .processSchedpolicy
  · subst hsetting
    exact getscheduler_exec hback
  · rw [SchedSetting.shimGet_eq hsetting]
    exact getTranslated_exec hback

theorem exec_get (h : Translated s t) (setting : SchedSetting) (obj : Ptr)
    (refused : Option Errno) :
    Matches Translated (Settings.exec (.get setting obj refused) s)
      (LinuxSettings.exec (.get setting obj refused) t) := by
  cases refused with
  | none =>
      have hget : Settings.exec (.get setting obj none) s =
          .ok (.ok (some (t.value setting obj)), s) := by
        change Settings.run none (setting.shimGet obj) some s = _
        rw [Settings.run, shimGet_exec h]
        rfl
      rw [hget]
      exact ⟨rfl, h⟩
  | some err =>
      cases setting with
      | processSchedpolicy => rfl
      | _ => exact ⟨rfl, h⟩

/-- Through any number of threads, processes and attribute objects, whatever
the native library refuses: Linux code reads what was last set, where the
values at first are translations of ones the shim takes. -/
theorem settings_traces (tr : List (SettingCall × Outcome SettingAnswer)) :
    Traces (Begins fun s => ∃ t, Translated s t) (CallStep Settings.exec) some tr ↔
      Traces (Begins fun _ => True) (CallStep LinuxSettings.exec) some tr := by
  refine traces_iff_of_matches (R := Translated) (fun s ⟨t, h⟩ => ⟨t, trivial, h⟩) ?_ ?_
    some tr
  · intro t _
    choose s hs using fun setting obj =>
      SchedSetting.mem_takenValues_iff.mp (t.mem_takenValues setting obj)
    exact ⟨s, ⟨t, hs⟩, hs⟩
  · intro c s t h
    cases c with
    | set setting obj value refused => exact exec_set h setting obj value refused
    | get setting obj refused => exact exec_get h setting obj refused

end Calls

end Libc6Shim
