import Libc6Shim.Glob

/-!
# What `glob` returns, and what `globfree` frees

The first call of a sequence starts the native structure afresh, so what the
stack held there does not matter. A call that appends extends what it is
given, and that is what the stack held (`glob_accumulates_iff`): the fields
of the caller's structure are not carried in. Nor is the cleared vector
carried out of `globfree`, so a second one frees again unless there was no
vector.
-/

namespace Libc6Shim

open CSem Buf Outcome

/-- A call of a sequence, on the one structure. -/
structure GlobCall where
  pattern : Buf
  flags : Word
  answer : GlobAnswer

namespace GlobCall

/-- The flags are known, and `GLOB_ALTDIRFUNC` is not among them. -/
def Known (c : GlobCall) : Prop :=
  c.flags &&& ~~~knownLinuxGlobFlags = 0 ∧ c.flags &&& linuxGlobAltdirfunc = 0

def Starts (c : GlobCall) : Prop := c.Known ∧ c.flags &&& linuxGlobAppend = 0

def Appends (c : GlobCall) : Prop := c.Known ∧ c.flags &&& linuxGlobAppend ≠ 0

/-- The empty slots that are asked for. -/
def offs (c : GlobCall) (pglob : LinuxGlob) : Nat :=
  if c.flags &&& linuxGlobDooffs ≠ 0 then pglob.glOffs else 0

end GlobCall

variable (lib : GlobLib)

/-- Every call returns, and after it the caller's structure lists all that was
found so far; `atEnd` is said of the strings and the structure in the end.
`garbage n` is what call `n` finds on the stack. -/
def Accumulates (garbage : Nat → NativeGlob) (offs : Nat)
    (atEnd : LinuxGlob → GlobHeap → List Ptr → Prop) :
    Nat → List Buf → LinuxGlob → GlobHeap → List GlobCall → Prop
  | _, found, pglob, h, [] =>
      ∃ ps, Lists h pglob.glPathc pglob.glPathv offs ps found ∧ atEnd pglob h ps
  | n, found, pglob, h, c :: cs =>
      ∃ r pglob' h', shimGlob lib (garbage n) c.pattern c.flags null c.answer
          pglob h = .ok (r, pglob', h') ∧
        pglob'.glOffs = offs ∧
        (∃ ps, Lists h' pglob'.glPathc pglob'.glPathv offs ps
          (found ++ c.answer.found)) ∧
        Accumulates garbage offs atEnd (n + 1) (found ++ c.answer.found) pglob' h' cs

/-- `globfree` frees each string, and the vector if there is one. -/
def FreesAll (pglob : LinuxGlob) (h : GlobHeap) (ps : List Ptr) (h' : GlobHeap) :
    Prop :=
  shimGlobfree lib pglob h = .ok h' ∧ ∃ gone, h'.freed = h.freed ++ gone ∧
    gone.map Prod.fst =
      ps ++ if pglob.glPathv = null then [] else [pglob.glPathv]

def FreedOnce (pglob : LinuxGlob) (h : GlobHeap) (ps : List Ptr) : Prop :=
  ∃ h', FreesAll lib pglob h ps h'

/-- And a second `globfree` frees nothing. -/
def FreedOnceOnly (pglob : LinuxGlob) (h : GlobHeap) (ps : List Ptr) : Prop :=
  ∃ h', FreesAll lib pglob h ps h' ∧
    ∃ h'', shimGlobfree lib pglob h' = .ok h'' ∧ h''.freed = h'.freed

/-! ## Flags -/

/-- The pairs of the table of flags as bit numbers. -/
def globFlagBits : List (Nat × Nat) :=
  [(0, 2), (1, 3), (2, 5), (3, 1), (4, 4), (5, 0), (6, 13), (8, 8), (9, 6),
    (10, 7), (11, 9), (12, 11)]

theorem globFlagPairs_eq : globFlagPairs = bitTable 32 globFlagBits := by decide

theorem globFlagBits_lt : ∀ p ∈ globFlagBits, p.1 < 32 ∧ p.2 < 32 := by decide

theorem globAppend_iff (f : Word) :
    setFlags 0 globFlagPairs f &&& globAppend ≠ 0 ↔
      f &&& linuxGlobAppend ≠ 0 := by
  rw [globFlagPairs_eq]
  exact setFlags_bits_and_ne_zero globFlagBits_lt
    (show (5, 0) ∈ globFlagBits by decide) (by decide) f

theorem globDooffs_iff (f : Word) :
    setFlags 0 globFlagPairs f &&& globDooffs ≠ 0 ↔
      f &&& linuxGlobDooffs ≠ 0 := by
  rw [globFlagPairs_eq]
  exact setFlags_bits_and_ne_zero globFlagBits_lt
    (show (3, 1) ∈ globFlagBits by decide) (by decide) f

theorem linuxToNativeGlobFlags_of {f : Word}
    (hf : f &&& ~~~knownLinuxGlobFlags = 0) :
    linuxToNativeGlobFlags f = .ok (setFlags 0 globFlagPairs f) := by
  rw [linuxToNativeGlobFlags, require_of hf]
  rfl

/-- The flags a call leaves are known ones. -/
theorem copyGlob_known {f : Word} (hf : f &&& ~~~knownLinuxGlobFlags = 0)
    (out : NativeGlob) :
    (copyGlob f out).glFlags &&& ~~~knownLinuxGlobFlags = 0 := by
  have hmagchar : linuxGlobMagchar &&& ~~~knownLinuxGlobFlags = 0 := by decide
  rw [and_not_eq_zero_iff] at hf hmagchar ⊢
  intro i hi hset
  rw [copyGlob] at hset
  dsimp only at hset
  split at hset
  · rw [BitVec.getLsbD_or, Bool.or_eq_true] at hset
    exact hset.elim (hf i hi) (hmagchar i hi)
  · rw [BitVec.getLsbD_and, Bool.and_eq_true] at hset
    exact hf i hi hset.1

/-! ## One call -/

section

variable {lib : GlobLib} {garbage : NativeGlob} {c : GlobCall}
  {pglob : LinuxGlob} {h h' : GlobHeap} {g' : NativeGlob}

theorem linuxGlobResult_of_known (answer : GlobAnswer) :
    ∃ r, linuxGlobResult answer.err = .ok r := by
  rcases answer.err_known with herr | herr | herr | herr
  all_goals
    rw [herr]
    exact ⟨_, rfl⟩

/-- The call, as far as the shim decides it. -/
theorem shimGlob_eq (hc : c.Known) :
    shimGlob lib garbage c.pattern c.flags null c.answer pglob h = (do
      let (out, h) ← lib.glob c.pattern (setFlags 0 globFlagPairs c.flags)
        c.answer { garbage with glOffs := pglob.glOffs } h
      let r ← linuxGlobResult c.answer.err
      return (r, copyGlob c.flags out, h)) := by
  rw [shimGlob, require_of hc.2, ok_bind, require_of rfl, ok_bind,
    linuxToNativeGlobFlags_of hc.1, ok_bind]

/-- The first call. -/
theorem shimGlob_of_starts (hlib : lib.Lawful) (hc : c.Starts)
    (garbage : NativeGlob) (pglob : LinuxGlob) (h : GlobHeap) :
    ∃ r pglob' h' ps, shimGlob lib garbage c.pattern c.flags null c.answer
        pglob h = .ok (r, pglob', h') ∧
      pglob'.glFlags &&& ~~~knownLinuxGlobFlags = 0 ∧
      pglob'.glOffs = c.offs pglob ∧
      Lists h' pglob'.glPathc pglob'.glPathv (c.offs pglob) ps c.answer.found := by
  obtain ⟨hknown, hnew⟩ := hc
  have hflags : setFlags 0 globFlagPairs c.flags &&& globAppend = 0 :=
    not_not.mp fun happend => (globAppend_iff c.flags).mp happend hnew
  obtain ⟨out, h', ps, hnative, hoffs, hlists⟩ := hlib.glob_new c.pattern _
    c.answer { garbage with glOffs := pglob.glOffs } h hflags
  obtain ⟨r, hr⟩ := linuxGlobResult_of_known c.answer
  have hoffs' : out.glOffs = c.offs pglob := by
    rw [hoffs, GlobCall.offs]
    exact if_congr (globDooffs_iff c.flags) rfl rfl
  refine ⟨r, copyGlob c.flags out, h', ps, ?_, copyGlob_known hknown.1 out, hoffs',
    hoffs' ▸ hlists⟩
  rw [shimGlob_eq hknown, hnative, ok_bind]
  dsimp only
  rw [hr]
  rfl

/-- A call that appends counts on from what the stack held. -/
theorem glPathc_of_appends (hlib : lib.Lawful) (hc : c.Appends) {r : Int}
    {pglob' : LinuxGlob}
    (hrun : shimGlob lib garbage c.pattern c.flags null c.answer pglob h =
      .ok (r, pglob', h')) :
    pglob'.glPathc = garbage.glPathc + c.answer.found.length := by
  obtain ⟨hknown, happend⟩ := hc
  rw [shimGlob_eq hknown] at hrun
  obtain ⟨⟨out, h₁⟩, hnative, hrun⟩ := bind_eq_ok.mp hrun
  obtain ⟨r', -, hrun⟩ := bind_eq_ok.mp hrun
  cases hrun
  exact hlib.glob_append _ _ _ { garbage with glOffs := pglob.glOffs } _ _ _
    ((globAppend_iff c.flags).mpr happend) hnative

/-! ## `globfree` -/

/-- The structure that `globfree` is called with. -/
def freedGlob (pglob : LinuxGlob) : NativeGlob where
  glPathc := pglob.glPathc
  glPathv := pglob.glPathv
  glMatchc := 0
  glOffs := pglob.glOffs
  glFlags := setFlags 0 globFlagPairs pglob.glFlags

theorem shimGlobfree_eq
    (hknown : pglob.glFlags &&& ~~~knownLinuxGlobFlags = 0) :
    shimGlobfree lib pglob h = (do
      let (_, h) ← lib.globfree (freedGlob pglob) h
      return h) := by
  rw [shimGlobfree, linuxToNativeGlobFlags_of hknown, ok_bind]
  rfl

/-- A structure without a vector has nothing to free. -/
theorem shimGlobfree_null (hlib : lib.Lawful)
    (hknown : pglob.glFlags &&& ~~~knownLinuxGlobFlags = 0)
    (hnull : pglob.glPathv = null) : shimGlobfree lib pglob h = .ok h := by
  rw [shimGlobfree_eq hknown, hlib.globfree_null (freedGlob pglob) h hnull]
  rfl

/-- One with a vector has, as often as `globfree` is called. -/
theorem freed_of_shimGlobfree (hlib : lib.Lawful)
    (hknown : pglob.glFlags &&& ~~~knownLinuxGlobFlags = 0)
    (hne : pglob.glPathv ≠ null) (hrun : shimGlobfree lib pglob h = .ok h') :
    h'.freed ≠ h.freed := by
  rw [shimGlobfree_eq hknown] at hrun
  obtain ⟨⟨g', h₁⟩, hnative, hrun⟩ := bind_eq_ok.mp hrun
  cases hrun
  obtain ⟨gone, hfreed, hmem⟩ :=
    hlib.globfree_frees (freedGlob pglob) h g' h' hne hnative
  intro hsame
  rw [hfreed, List.append_right_eq_self] at hsame
  rw [hsame] at hmem
  cases hmem

theorem Lists.pathv_eq_null_iff {pathc offs : Nat} {pathv : Ptr}
    {ps : List Ptr} {found : List Buf}
    (hl : Lists h pathc pathv offs ps found) : pathv = null ↔ found = [] := by
  have hlen : ps.length = found.length := by
    have hmap := congrArg List.length hl.paths
    rwa [List.length_map, List.length_map] at hmap
  have hpathv := hl.pathv_eq
  by_cases hps : ps = []
  · rw [if_pos hps] at hpathv
    rw [hps] at hlen
    exact iff_of_true hpathv (List.length_eq_zero_iff.mp hlen.symm)
  · rw [if_neg hps] at hpathv
    refine iff_of_false (Heap.ne_null hpathv) ?_
    rintro rfl
    exact hps (List.length_eq_zero_iff.mp hlen)

/-- After the first call, the first `globfree` is right. -/
theorem freesAll_of_lists (hlib : lib.Lawful)
    (hknown : pglob.glFlags &&& ~~~knownLinuxGlobFlags = 0) {ps : List Ptr}
    {found : List Buf}
    (hl : Lists h pglob.glPathc pglob.glPathv pglob.glOffs ps found) :
    ∃ h', FreesAll lib pglob h ps h' := by
  by_cases hnull : pglob.glPathv = null
  · have hps : ps = [] := by
      by_contra hps
      have hpathv := hl.pathv_eq
      rw [if_neg hps] at hpathv
      exact Heap.ne_null hpathv hnull
    refine ⟨h, shimGlobfree_null hlib hknown hnull, [],
      (List.append_nil _).symm, ?_⟩
    rw [hps, if_pos hnull]
    rfl
  · obtain ⟨g', h', gone, hnative, hfreed, hgone⟩ :=
      hlib.globfree_lists (freedGlob pglob) h ps found hnull hl
    refine ⟨h', ?_, gone, hfreed, ?_⟩
    · rw [shimGlobfree_eq hknown, hnative]
      rfl
    · rw [if_neg hnull]
      exact hgone

end

/-! ## Sequences of calls -/

section

variable {lib : GlobLib} {first : GlobCall} {later : List GlobCall}
  {atEnd : LinuxGlob → GlobHeap → List Ptr → Prop}

/-- Whatever is said of the end, a second call is not right for everything
the stack may hold. -/
theorem not_accumulates_of_later (hlib : lib.Lawful) (first : GlobCall)
    (hlater : later ≠ []) (happends : ∀ c ∈ later, c.Appends) (offs : Nat)
    (pglob : LinuxGlob) (h : GlobHeap)
    (atEnd : LinuxGlob → GlobHeap → List Ptr → Prop) :
    ¬∀ garbage, Accumulates lib garbage offs atEnd 0 [] pglob h
      (first :: later) := by
  intro hall
  cases later with
  | nil => exact hlater rfl
  | cons c cs =>
      obtain ⟨-, pglob₁, h₁, -, -, -, hrest⟩ := hall fun _ =>
        ⟨first.answer.found.length + 1, 0, 0, 0, null⟩
      obtain ⟨r, pglob₂, h₂, hrun, -, ⟨ps, hl⟩, -⟩ := hrest
      have hcount := glPathc_of_appends hlib (happends c (List.mem_cons_self ..))
        hrun
      have hlen := congrArg List.length hl.paths
      rw [List.length_map, List.length_map, ← hl.pathc_eq, hcount,
        List.nil_append, List.length_append] at hlen
      dsimp only at hlen
      omega

/-- A first call alone: its strings are all there is. -/
theorem accumulates_one_iff (hlib : lib.Lawful) (hfirst : first.Starts)
    (garbage : Nat → NativeGlob) (pglob : LinuxGlob) (h : GlobHeap) :
    ∃ pglob' h', pglob'.glFlags &&& ~~~knownLinuxGlobFlags = 0 ∧
      (∃ ps, Lists h' pglob'.glPathc pglob'.glPathv pglob'.glOffs ps
        first.answer.found) ∧
      (Accumulates lib garbage (first.offs pglob) atEnd 0 [] pglob h [first] ↔
        ∃ ps, Lists h' pglob'.glPathc pglob'.glPathv pglob'.glOffs ps
          first.answer.found ∧ atEnd pglob' h' ps) := by
  obtain ⟨r, pglob', h', ps, hrun, hknown, hoffs, hl⟩ :=
    shimGlob_of_starts hlib hfirst (garbage 0) pglob h
  rw [← hoffs] at hl ⊢
  refine ⟨pglob', h', hknown, ⟨ps, hl⟩, ?_⟩
  constructor
  · rintro ⟨r', pglob'', h'', hrun', -, -, hend⟩
    rw [hrun] at hrun'
    cases hrun'
    exact hend
  · intro hend
    exact ⟨r, pglob', h', hrun, rfl, ⟨ps, hl⟩, hend⟩

/-- The results of `glob` accumulate, and are freed, only in a sequence of one
call; and once only if that call finds nothing. -/
theorem glob_accumulates_iff (hlib : lib.Lawful) (hfirst : first.Starts)
    (hlater : ∀ c ∈ later, c.Appends) (pglob : LinuxGlob) (h : GlobHeap) :
    ((∀ garbage, Accumulates lib garbage (first.offs pglob) (FreedOnceOnly lib)
        0 [] pglob h (first :: later)) ↔
      later = [] ∧ first.answer.found = []) ∧
    ((∀ garbage, Accumulates lib garbage (first.offs pglob) (FreedOnce lib)
        0 [] pglob h (first :: later)) ↔ later = []) := by
  by_cases hone : later = []
  · subst hone
    refine ⟨?_, iff_of_true (fun garbage => ?_) rfl⟩
    · constructor
      · intro hall
        obtain ⟨pglob', h', hknown, -, hiff⟩ := accumulates_one_iff hlib hfirst
          (fun _ => ⟨0, 0, 0, 0, null⟩) pglob h
        obtain ⟨ps, hl, h₁, -, h₂, hsecond, hsame⟩ := hiff.mp (hall _)
        refine ⟨rfl, hl.pathv_eq_null_iff.mp ?_⟩
        by_contra hne
        exact freed_of_shimGlobfree hlib hknown hne hsecond hsame
      · rintro ⟨-, hfound⟩ garbage
        obtain ⟨pglob', h', hknown, ⟨ps, hl⟩, hiff⟩ := accumulates_one_iff hlib
          hfirst garbage pglob h
        have hnull := hl.pathv_eq_null_iff.mpr hfound
        have hfree : shimGlobfree lib pglob' h' = .ok h' :=
          shimGlobfree_null hlib hknown hnull
        obtain ⟨h₁, hrun, hgone⟩ := freesAll_of_lists hlib hknown hl
        rw [hfree] at hrun
        cases hrun
        exact hiff.mpr ⟨ps, hl, h', ⟨hfree, hgone⟩, h', hfree, rfl⟩
    · obtain ⟨pglob', h', hknown, ⟨ps, hl⟩, hiff⟩ := accumulates_one_iff hlib
        hfirst garbage pglob h
      exact hiff.mpr ⟨ps, hl, freesAll_of_lists hlib hknown hl⟩
  · have hnot := not_accumulates_of_later hlib first hone hlater
      (first.offs pglob) pglob h
    exact ⟨iff_of_false (hnot _) fun h => hone h.1, iff_of_false (hnot _) hone⟩

end

/-! ## FreeBSD's library -/

/-- A new string for each that was found. -/
def mallocPaths : List Buf → GlobHeap → List Ptr × GlobHeap
  | [], h => ([], h)
  | s :: ss, h =>
      let rest := mallocPaths ss (h.grow (.path s))
      (h.next :: rest.1, rest.2)

theorem mallocPaths_spec (ss : List Buf) (h : GlobHeap) :
    (mallocPaths ss h).1.map (mallocPaths ss h).2.obj =
        ss.map (fun s => some (.path s)) ∧
      (mallocPaths ss h).1.Nodup ∧
      (∀ p ∈ (mallocPaths ss h).1, h.next ≤ p) ∧
      ∀ q < h.next, (mallocPaths ss h).2.obj q = h.obj q := by
  induction ss generalizing h with
  | nil =>
      exact ⟨rfl, List.nodup_nil, fun _ hp => (List.not_mem_nil hp).elim,
        fun _ _ => rfl⟩
  | cons s ss ih =>
      obtain ⟨hpaths, hnodup, hnew, hold⟩ := ih (h.grow (.path s))
      have hlt : h.next < (h.grow (.path s)).next := Nat.lt_succ_self _
      refine ⟨?_, ?_, ?_, ?_⟩
      · rw [mallocPaths, List.map_cons, List.map_cons, hpaths, hold _ hlt,
          Heap.obj_grow_next]
      · exact List.nodup_cons.mpr
          ⟨fun hmem => Nat.lt_irrefl _ (hnew _ hmem), hnodup⟩
      · intro p hp
        rcases List.mem_cons.mp hp with rfl | hp
        · exact Nat.le_refl _
        · exact Nat.le_of_succ_le (hnew p hp)
      · intro q hq
        exact (hold q (Nat.lt_trans hq hlt)).trans (if_neg (Nat.ne_of_lt hq))

theorem length_mallocPaths (ss : List Buf) (h : GlobHeap) :
    (mallocPaths ss h).1.length = ss.length := by
  have hlen := congrArg List.length (mallocPaths_spec ss h).1
  rwa [List.length_map, List.length_map] at hlen

/-- The structure with a new vector of the paths `ps`, behind what `slots`
holds. -/
def extended (g : NativeGlob) (slots ps : List Ptr) (h : GlobHeap) :
    NativeGlob × GlobHeap :=
  ({ g with glPathc := g.glPathc + ps.length, glPathv := h.next },
    h.grow (.pathv (slots ++ ps ++ [null])))

/-- A vector that there is not cannot be extended or freed. -/
def freebsdGlob : GlobLib where
  glob _ flags answer g h :=
    let paths := mallocPaths answer.found h
    if flags &&& globAppend = 0 then
      let g := { g with
        glPathc := 0, glPathv := null,
        glOffs := if flags &&& globDooffs ≠ 0 then g.glOffs else 0 }
      if paths.1 = [] then .ok (g, paths.2)
      else .ok (extended g (List.replicate g.glOffs null) paths.1 paths.2)
    else if paths.1 = [] then .ok (g, paths.2)
    else
      match paths.2.obj g.glPathv with
      | some (.pathv slots) =>
          .ok (extended g slots.dropLast paths.1
            (paths.2.drop g.glPathv (.pathv slots)))
      | _ =>
          if g.glPathv = null ∧ g.glPathc = 0 then
            .ok (extended g (List.replicate g.glOffs null) paths.1 paths.2)
          else .error .fault
  globfree g h :=
    if g.glPathv = null then .ok (g, h)
    else
      match h.obj g.glPathv with
      | some (.pathv slots) => do
          let h ← Heap.freeAll ((slots.drop g.glOffs).take g.glPathc) h
          let h ← h.free g.glPathv
          return ({ g with glPathv := null }, h)
      | _ => .error .fault

/-- The strings of a vector. -/
theorem Lists.take_slots {h : GlobHeap} {pathc offs : Nat} {pathv : Ptr}
    {ps : List Ptr} {found : List Buf} (hl : Lists h pathc pathv offs ps found) :
    ((List.replicate offs null ++ ps ++ [null]).drop offs).take pathc = ps := by
  rw [hl.pathc_eq, List.append_assoc,
    List.drop_left' (List.length_replicate ..), List.take_left]

theorem Lists.obj_of_mem {h : GlobHeap} {pathc offs : Nat} {pathv : Ptr}
    {ps : List Ptr} {found : List Buf} (hl : Lists h pathc pathv offs ps found) :
    ∀ p ∈ ps, ∃ s, h.obj p = some (.path s) := by
  intro p hp
  have hmem : h.obj p ∈ found.map fun s => some (GlobObj.path s) :=
    hl.paths ▸ List.mem_map_of_mem hp
  obtain ⟨s, -, hs⟩ := List.mem_map.mp hmem
  exact ⟨s, hs.symm⟩

theorem freebsdGlob_lawful : freebsdGlob.Lawful where
  glob_new pattern flags answer g h hflags := by
    obtain ⟨hpaths, hnodup, -, -⟩ := mallocPaths_spec answer.found h
    by_cases hnone : (mallocPaths answer.found h).1 = []
    · refine ⟨_, _, [], (if_pos hflags).trans (if_pos hnone), rfl, rfl, ?_, ?_,
        List.nodup_nil⟩
      · rw [if_pos rfl]
      · rw [hnone] at hpaths
        exact hpaths
    · refine ⟨_, _, (mallocPaths answer.found h).1,
        (if_pos hflags).trans (if_neg hnone), rfl, Nat.zero_add _, ?_, ?_, hnodup⟩
      · rw [if_neg hnone]
        exact Heap.obj_grow_next
      · rw [← hpaths]
        refine List.map_congr_left fun p hp => ?_
        -- a string stays where it is when the vector is allocated
        have hmem := List.mem_map_of_mem
          (f := (mallocPaths answer.found h).2.obj) hp
        rw [hpaths] at hmem
        obtain ⟨s, -, hs⟩ := List.mem_map.mp hmem
        rw [← hs]
        exact Heap.obj_grow_of hs.symm
  glob_append pattern flags answer g h g' h' hflags hrun := by
    have hlen := length_mallocPaths answer.found h
    have hrun := (if_neg hflags).symm.trans hrun
    split at hrun
    · rename_i hnone
      cases hrun
      rw [hnone, List.length_nil] at hlen
      rw [← hlen, Nat.add_zero]
    · split at hrun
      · cases hrun
        exact congrArg (g.glPathc + ·) hlen
      · split at hrun
        · cases hrun
          exact congrArg (g.glPathc + ·) hlen
        · cases hrun
  globfree_null g h hnull := if_pos hnull
  globfree_lists g h ps found hne hl := by
    have hps : ps ≠ [] := by
      rintro rfl
      exact hne (hl.pathv_eq_null_iff.mpr (List.map_eq_nil_iff.mp hl.paths.symm))
    have hpathv := hl.pathv_eq
    rw [if_neg hps] at hpathv
    obtain ⟨h₁, gone, hrun, hfreed, hgone, hsame⟩ := Heap.freeAll_of
      (fun p hp => (hl.obj_of_mem p hp).imp' GlobObj.path fun _ hs => hs) hl.nodup
    -- the vector is not one of the strings
    have hnot : g.glPathv ∉ ps := fun hmem => by
      obtain ⟨s, hs⟩ := hl.obj_of_mem _ hmem
      rw [hpathv] at hs
      cases hs
    have hfree := Heap.free_of ((hsame _ hnot).trans hpathv)
    refine ⟨{ g with glPathv := null }, h₁.drop g.glPathv (.pathv
      (List.replicate g.glOffs null ++ ps ++ [null])), gone ++ [(g.glPathv,
      .pathv (List.replicate g.glOffs null ++ ps ++ [null]))], ?_, ?_, ?_⟩
    · refine (if_neg hne).trans ?_
      rw [hpathv]
      dsimp only
      rw [hl.take_slots, hrun, ok_bind, hfree]
      rfl
    · exact (congrArg (· ++ _) hfreed).trans (List.append_assoc ..)
    · rw [List.map_append, hgone]
      rfl
  globfree_frees g h g' h' hne hrun := by
    have hrun := (if_neg hne).symm.trans hrun
    split at hrun
    · obtain ⟨h₁, hall, hrun⟩ := bind_eq_ok.mp hrun
      obtain ⟨h₂, hfree, hrun⟩ := bind_eq_ok.mp hrun
      cases hrun
      obtain ⟨gone, hfreed⟩ := Heap.freed_of_freeAll hall
      obtain ⟨gone', hfreed', hmem⟩ := Heap.freed_of_free hfree
      refine ⟨gone ++ gone', by rw [hfreed', hfreed, List.append_assoc], ?_⟩
      rw [List.map_append]
      exact List.mem_append_right _ (hmem hne)
    · cases hrun

/-- A first call that finds one path. -/
def firstA : GlobCall := ⟨lit "a*", 0, ⟨[lit "a"], 0, .inl rfl⟩⟩

/-- And one that appends another. -/
def secondB : GlobCall :=
  ⟨lit "b*", linuxGlobAppend, ⟨[lit "b"], 0, .inl rfl⟩⟩

theorem firstA_starts : firstA.Starts := ⟨⟨by decide, by decide⟩, by decide⟩

theorem secondB_appends : secondB.Appends := ⟨⟨by decide, by decide⟩, by decide⟩

/-- On a stack of zeroes the second path is all that the caller is told of. -/
theorem glob_secondB_forgets :
    firstA.Starts ∧ secondB.Appends ∧
      ¬Accumulates freebsdGlob (fun _ => ⟨0, 0, 0, 0, null⟩)
        (firstA.offs ⟨0, null, 0, 0⟩) (FreedOnceOnly freebsdGlob) 0 []
        ⟨0, null, 0, 0⟩ Heap.empty [firstA, secondB] := by
  refine ⟨firstA_starts, secondB_appends, ?_⟩
  rintro ⟨-, pglob₁, h₁, -, -, -, r, pglob₂, h₂, hrun, -, ⟨ps, hl⟩, -⟩
  have hcount : pglob₂.glPathc = 0 + 1 :=
    glPathc_of_appends freebsdGlob_lawful secondB_appends hrun
  have hlen : ps.length = 2 := by
    have hmap := congrArg List.length hl.paths
    rwa [List.length_map, List.length_map] at hmap
  rw [hl.pathc_eq, hlen] at hcount
  cases hcount

/-- A call that finds nothing. -/
def findsNothing : GlobCall := ⟨lit "a*", 0, ⟨[], globNomatch, by decide⟩⟩

/-- A call that finds two paths. -/
def findsTwo : GlobCall := ⟨lit "a*", 0, ⟨[lit "a1", lit "a2"], 0, by decide⟩⟩

/-- Whatever the stack held: after the one there is nothing to free, and the
paths of the other are freed once, but if it is done again not only once. -/
theorem glob_oneCall :
    Accumulates freebsdGlob (fun _ => ⟨7, 7, 7, 7, 7⟩) 0
        (FreedOnceOnly freebsdGlob) 0 [] ⟨7, 7, 7, 7⟩ Heap.empty [findsNothing] ∧
      Accumulates freebsdGlob (fun _ => ⟨7, 7, 7, 7, 7⟩) 0
        (FreedOnce freebsdGlob) 0 [] ⟨7, 7, 7, 7⟩ Heap.empty [findsTwo] ∧
      ¬∀ garbage, Accumulates freebsdGlob garbage 0
        (FreedOnceOnly freebsdGlob) 0 [] ⟨7, 7, 7, 7⟩ Heap.empty [findsTwo] := by
  have hnothing := @glob_accumulates_iff freebsdGlob findsNothing [] freebsdGlob_lawful
    ⟨⟨by decide, by decide⟩, by decide⟩ (List.forall_mem_nil _) ⟨7, 7, 7, 7⟩ Heap.empty
  have htwo := @glob_accumulates_iff freebsdGlob findsTwo [] freebsdGlob_lawful
    ⟨⟨by decide, by decide⟩, by decide⟩ (List.forall_mem_nil _) ⟨7, 7, 7, 7⟩ Heap.empty
  refine ⟨hnothing.1.mpr ⟨rfl, rfl⟩ _, htwo.2.mpr rfl _, fun hall => ?_⟩
  have hfound : [lit "a1", lit "a2"] = [] := (htwo.1.mp hall).2
  cases hfound

end Libc6Shim
