import Libc6Shim.Scandir

/-!
# What `scandir` returns

For every listing, `scandir` returns the entries that `select` accepts, each
once, in the order of the listing or in that of `compar`; `scandir64` returns
entries of the same names (`scandir_selects`).

`Filled` is the invariant of the loop: the first slots of the array point to the
entries that were accepted so far, and the length of the array is a power of two
not below their number. It is doubled when it is full, which for 2^30 entries
does not overflow an `int`; nor does the size in bytes overflow a `size_t`, as the
entries have to have been allocated themselves.
-/

namespace Libc6Shim

open CSem Buf Outcome

variable {l : DirentLayout}

/-! ## What is to be returned -/

/-- The entries, the way they are copied. -/
def converted (junk : ScanJunk l) : Nat → List NativeDirent → List (LinuxDirent l)
  | _, [] => []
  | i, e :: es => copyDirentry (junk.entry i) e :: converted junk (i + 1) es

def accepted (select : Option (LinuxDirent l → Bool)) (xs : List (LinuxDirent l)) :
    List (LinuxDirent l) :=
  xs.filter (selected select)

def rejected (select : Option (LinuxDirent l → Bool)) (xs : List (LinuxDirent l)) :
    List (LinuxDirent l) :=
  xs.filter fun x => !selected select x

/-- The first slots of the array at `arr` point to `ys`, each an object of its
own. -/
def PointsTo (h : ScanHeap l) (arr : Ptr) (ys : List (LinuxDirent l)) : Prop :=
  ∃ slots, h.obj arr = some (.slots slots) ∧ (slots.take ys.length).Nodup ∧
    (slots.take ys.length).map h.obj = ys.map fun x => some (.entry x)

/-- In the order of the listing, or in that of the comparison. -/
def Arranged (compar : Option (LinuxDirent l → LinuxDirent l → Int))
    (ys xs : List (LinuxDirent l)) : Prop :=
  match compar with
  | none => ys = xs
  | some f => ys.Perm xs ∧ (IsTotalPreorder f → ys.Pairwise fun a b => f a b ≤ 0)

def ScanObj.ownEntry : ScanObj l → Option (LinuxDirent l)
  | .entry e => some e
  | .slots _ => none

/-- From `h₀` to `h` the entries `gone` were freed, and nothing that was there
before has changed. -/
structure Frees (h₀ h : ScanHeap l) (gone : List (LinuxDirent l)) : Prop where
  next_le : h₀.next ≤ h.next
  obj_eq : ∀ r < h₀.next, h.obj r = h₀.obj r
  freed : ∃ fs, h.freed = h₀.freed ++ fs ∧ fs.filterMap (·.2.ownEntry) = gone

section

variable {h₀ h : ScanHeap l} {gone : List (LinuxDirent l)} {p : Ptr} {a : ScanObj l}

theorem Frees.refl (h : ScanHeap l) : Frees h h [] where
  next_le := le_rfl
  obj_eq _ _ := rfl
  freed := ⟨[], (List.append_nil _).symm, rfl⟩

theorem Frees.grow (hf : Frees h₀ h gone) (a : ScanObj l) :
    Frees h₀ (h.grow a) gone where
  next_le := Nat.le_succ_of_le hf.next_le
  obj_eq r hr :=
    (if_neg (Nat.ne_of_lt (hr.trans_le hf.next_le))).trans (hf.obj_eq r hr)
  freed := hf.freed

theorem Frees.put (hf : Frees h₀ h gone) (hp : h₀.next ≤ p) (a : ScanObj l) :
    Frees h₀ (h.put p a) gone where
  next_le := hf.next_le
  obj_eq r hr :=
    (Heap.obj_put_of_ne (Nat.ne_of_lt (hr.trans_le hp))).trans (hf.obj_eq r hr)
  freed := hf.freed

theorem Frees.drop (hf : Frees h₀ h gone) (hp : h₀.next ≤ p) (a : ScanObj l) :
    Frees h₀ (h.drop p a) (gone ++ a.ownEntry.toList) where
  next_le := hf.next_le
  obj_eq r hr :=
    (Heap.obj_drop_of_ne (Nat.ne_of_lt (hr.trans_le hp))).trans (hf.obj_eq r hr)
  freed := by
    obtain ⟨fs, hfs, hgone⟩ := hf.freed
    refine ⟨fs ++ [(p, a)], ?_, ?_⟩
    · show h.freed ++ [(p, a)] = _
      rw [hfs, List.append_assoc]
    · rw [List.filterMap_append, hgone]
      cases a <;> rfl

end

/-! ## The array -/

/-- The array of `s` holds `kept`. -/
structure Filled (h : ScanHeap l) (s : ScanOut) (kept : List (Ptr × LinuxDirent l)) :
    Prop where
  slots : ∃ ps, h.obj s.arr = some (.slots ps) ∧ ps.length = s.len ∧
    ps.take s.nitems = kept.map Prod.fst
  count : s.nitems = kept.length
  room : s.nitems ≤ s.len
  len : ∃ k, s.len = 2 ^ (k + 5)
  entries : ∀ q ∈ kept, h.obj q.1 = some (.entry q.2)
  nodup : (kept.map Prod.fst).Nodup

theorem loadSlots_of {h : ScanHeap l} {p : Ptr} {ps : List Ptr}
    (hp : h.obj p = some (.slots ps)) : loadSlots h p = .ok ps := by
  rw [loadSlots, Heap.load_of hp]
  rfl

theorem loadDirent_of {h : ScanHeap l} {p : Ptr} {x : LinuxDirent l}
    (hp : h.obj p = some (.entry x)) : loadDirent h p = .ok x := by
  rw [loadDirent, Heap.load_of hp]
  rfl

/-- The fields of `n` entries lie apart from one another in the address space, as
they do where the entries were allocated. -/
def EntriesFit (abi : Abi) (l : DirentLayout) (n : Nat) : Prop :=
  n * (l.inoBits / 8 + l.offBits / 8 + 2 + 1 + 256) ≤ abi.sizeMod

instance (abi : Abi) (l : DirentLayout) (n : Nat) : Decidable (EntriesFit abi l n) :=
  inferInstanceAs (Decidable (_ ≤ _))

/-- The number of the entries that are accepted has a bound. -/
structure Bounded (abi : Abi) (l : DirentLayout) (n : Nat) : Prop where
  many : n ≤ 2 ^ 30
  fit : EntriesFit abi l n

/-- On amd64 there is memory enough. -/
theorem bounded_amd64 {n : Nat} (hn : n ≤ 2 ^ 30) :
    Bounded .amd64 (linuxDirent .amd64) n ∧ Bounded .amd64 (linuxDirent64 .amd64) n := by
  have hfit : n * (64 / 8 + 64 / 8 + 2 + 1 + 256) ≤ 2 ^ 64 := by omega
  exact ⟨⟨hn, hfit⟩, ⟨hn, hfit⟩⟩

section

variable {abi : Abi} {h h₀ : ScanHeap l} {s : ScanOut}
  {kept : List (Ptr × LinuxDirent l)} {gone : List (LinuxDirent l)} {n : Nat}
  {p : Ptr} {x : LinuxDirent l}

theorem slotsIn_of {len : Nat} (hlen : abi.wordBytes * len < abi.sizeMod) :
    slotsIn abi len = len := by
  have hpos : 0 < abi.wordBytes := by cases abi <;> decide
  rw [slotsIn, Nat.mod_eq_of_lt hlen, Nat.mul_div_cancel_left _ hpos]

/-- An array that is full, but is to hold more, can be doubled. -/
theorem Bounded.double {len k : Nat} (hb : Bounded abi l n) (hlen : len = 2 ^ (k + 5))
    (hlt : len < n) : len * 2 < 2 ^ 31 ∧ abi.wordBytes * (len * 2) < abi.sizeMod := by
  have hpow : k + 5 < 30 := by
    have hlt' : 2 ^ (k + 5) < 2 ^ 30 := hlen ▸ hlt.trans_le hb.many
    exact (Nat.pow_lt_pow_iff_right (by decide)).mp hlt'
  have hle : len ≤ 2 ^ 29 :=
    hlen ▸ Nat.pow_le_pow_right (by decide) (Nat.le_of_lt_succ hpow)
  have hfit := hb.fit
  rw [EntriesFit] at hfit
  have hsize : n * 8 ≤ n * (l.inoBits / 8 + l.offBits / 8 + 2 + 1 + 256) :=
    Nat.mul_le_mul_left n (by omega)
  rcases abi.wordBytes_cases with ⟨hword, hmod⟩ | ⟨hword, hmod⟩
  · rw [hword, hmod]
    omega
  · rw [hword, hmod]
    omega

/-- What was there is all that counts. -/
theorem Filled.stays (hf : Filled h s kept) {h' : ScanHeap l}
    (hstay : ∀ q a, h.obj q = some a → h'.obj q = some a) : Filled h' s kept where
  slots := by
    obtain ⟨ps, hps, hlen, htake⟩ := hf.slots
    exact ⟨ps, hstay _ _ hps, hlen, htake⟩
  count := hf.count
  room := hf.room
  len := hf.len
  entries q hq := hstay _ _ (hf.entries q hq)
  nodup := hf.nodup

theorem Filled.grow (hf : Filled h s kept) (a : ScanObj l) :
    Filled (h.grow a) s kept :=
  hf.stays fun _ _ hq => Heap.obj_grow_of hq

/-- An object that is not part of it is freed. -/
theorem Filled.drop (hf : Filled h s kept) (hp : h.next ≤ p) (a b : ScanObj l) :
    Filled ((h.grow a).drop p b) s kept := by
  refine hf.stays fun q c hq => ?_
  rw [Heap.obj_drop_of_ne (Nat.ne_of_lt ((Heap.lt_next hq).trans_le hp))]
  exact Heap.obj_grow_of hq

/-- The slots are written anew. -/
theorem Filled.write (hf : Filled h s kept) {ps : List Ptr} {m : Nat}
    {kept' : List (Ptr × LinuxDirent l)} (hlen : ps.length = s.len)
    (htake : ps.take m = kept'.map Prod.fst) (hcount : m = kept'.length)
    (hroom : m ≤ s.len) (hentries : ∀ q ∈ kept', h.obj q.1 = some (.entry q.2))
    (hnodup : (kept'.map Prod.fst).Nodup) :
    Filled (h.put s.arr (.slots ps)) ⟨s.arr, s.len, m⟩ kept' where
  slots := by
    obtain ⟨old, hold, -, -⟩ := hf.slots
    exact ⟨ps, Heap.obj_put_self hold, hlen, htake⟩
  count := hcount
  room := hroom
  len := hf.len
  entries q hq := by
    obtain ⟨old, hold, -, -⟩ := hf.slots
    have hne : q.1 ≠ s.arr := by
      intro heq
      have hobj := hentries q hq
      rw [heq, hold] at hobj
      cases hobj
    exact (Heap.obj_put_of_ne hne).trans (hentries q hq)
  nodup := hnodup

/-- What `realloc` makes of an array. -/
def resized (abi : Abi) (junk : ScanJunk l) (ps : List Ptr) (len : Nat) : List Ptr :=
  ps.take (slotsIn abi len) ++
    ((List.range (slotsIn abi len)).drop ps.length).map junk.slot

theorem reallocSlots_of (junk : ScanJunk l) {arr : Ptr} {ps : List Ptr} (len : Nat)
    (hps : h.obj arr = some (.slots ps)) :
    reallocSlots abi junk arr len h = .ok (h.next,
      (h.drop arr (.slots ps)).grow (.slots (resized abi junk ps len))) := by
  rw [reallocSlots, loadSlots_of hps, ok_bind]
  show h.free arr >>= _ = _
  rw [Heap.free_of hps]
  rfl

theorem length_resized (junk : ScanJunk l) {ps : List Ptr} {len : Nat}
    (hslots : slotsIn abi len = len) (hle : ps.length ≤ len) :
    (resized abi junk ps len).length = len := by
  rw [resized, hslots, List.length_append, List.length_take, List.length_map,
    List.length_drop, List.length_range]
  omega

theorem take_resized (junk : ScanJunk l) {ps : List Ptr} {len m : Nat}
    (hslots : slotsIn abi len = len) (hle : ps.length ≤ len) (hm : m ≤ ps.length) :
    (resized abi junk ps len).take m = ps.take m := by
  rw [resized, hslots, List.take_of_length_le hle, List.take_append_of_le_length hm]

/-- There is room for one more, in an array that may have moved; what entries
there are stay. -/
theorem makeRoom_spec (junk : ScanJunk l) (hb : Bounded abi l n)
    (hf : Filled h s kept) (hlt : kept.length < n) (hfrees : Frees h₀ h gone)
    (harr : h₀.next ≤ s.arr) :
    ∃ s' h', makeRoom abi junk s h = .ok (s', h') ∧ Filled h' s' kept ∧
      s'.nitems < s'.len ∧ Frees h₀ h' gone ∧ h₀.next ≤ s'.arr ∧
      ∀ q x, h.obj q = some (.entry x) → h'.obj q = some (.entry x) := by
  by_cases hfull : s.nitems ≥ s.len
  · obtain ⟨ps, hps, hlen, htake⟩ := hf.slots
    obtain ⟨k, hk⟩ := hf.len
    have hn : s.nitems = s.len := Nat.le_antisymm hf.room hfull
    obtain ⟨hint, hbytes⟩ := hb.double hk (by rw [← hn, hf.count]; exact hlt)
    have hslots := slotsIn_of hbytes
    have hle : ps.length ≤ s.len * 2 := by omega
    have hstay : ∀ q x, h.obj q = some (.entry x) →
        (h.drop s.arr (.slots ps)).obj q = some (.entry x) := by
      intro q x hq
      rw [Heap.obj_drop_of_ne (by rintro rfl; rw [hps] at hq; cases hq)]
      exact hq
    refine ⟨⟨h.next, s.len * 2, s.nitems⟩, (h.drop s.arr (.slots ps)).grow
      (.slots (resized abi junk ps (s.len * 2))), ?_, ?_, ?_, ?_, hfrees.next_le, ?_⟩
    · rw [makeRoom, if_pos hfull, checkInt, if_pos hint, ok_bind,
        reallocSlots_of junk _ hps]
      rfl
    · exact {
        slots := ⟨_, Heap.obj_grow_next, length_resized junk hslots hle,
          (take_resized junk hslots hle (hf.room.trans hlen.ge)).trans htake⟩
        count := hf.count
        room := show s.nitems ≤ s.len * 2 by omega
        len := ⟨k + 1, show s.len * 2 = _ by rw [hk]; ring⟩
        entries := fun q hq => Heap.obj_grow_of (hstay q.1 q.2 (hf.entries q hq))
        nodup := hf.nodup }
    · show s.nitems < s.len * 2
      have hpos : 0 < 2 ^ (k + 5) := Nat.two_pow_pos _
      omega
    · have hdrop := hfrees.drop harr (.slots ps)
      rw [show (ScanObj.slots ps : ScanObj l).ownEntry.toList = [] from rfl,
        List.append_nil] at hdrop
      exact hdrop.grow _
    · exact fun q x hq => Heap.obj_grow_of (hstay q x hq)
  · refine ⟨s, h, if_neg hfull, hf, Nat.lt_of_not_le hfull, hfrees, harr,
      fun _ _ hq => hq⟩

/-- A slot is filled. -/
theorem storeSlot_spec (hf : Filled h s kept) (hlt : s.nitems < s.len)
    (hp : h.obj p = some (.entry x)) (hnew : p ∉ kept.map Prod.fst) :
    ∃ ps, storeSlot s p h = .ok (h.put s.arr (.slots ps)) ∧
      Filled (h.put s.arr (.slots ps)) ⟨s.arr, s.len, s.nitems + 1⟩
        (kept ++ [(p, x)]) := by
  obtain ⟨ps, hps, hlen, htake⟩ := hf.slots
  have hlt' : s.nitems < ps.length := hlen.symm ▸ hlt
  refine ⟨ps.set s.nitems p, ?_, hf.write ?_ ?_ ?_ hlt ?_ ?_⟩
  · rw [storeSlot, loadSlots_of hps, ok_bind, if_pos hlt', Heap.store_of hps]
  · rw [List.length_set, hlen]
  · rw [List.map_append, ← htake, List.take_add_one, List.getElem?_set_self hlt',
      List.take_set_of_le (Nat.le_refl _)]
    rfl
  · rw [List.length_append, hf.count, List.length_singleton]
  · intro q hq
    rcases List.mem_append.mp hq with hq | hq
    · exact hf.entries q hq
    · rw [List.mem_singleton.mp hq]
      exact hp
  · rw [List.map_append, List.nodup_append]
    refine ⟨hf.nodup, List.nodup_singleton _, ?_⟩
    intro q hq r hr heq
    rw [List.map_singleton, List.mem_singleton] at hr
    rw [heq, hr] at hq
    exact hnew hq

end

/-! ## One entry -/

/-- After some of the entries: `kept` were accepted, and `gone` were not. -/
structure Scanned (h₀ h : ScanHeap l) (s : ScanOut) (kept : List (Ptr × LinuxDirent l))
    (gone : List (LinuxDirent l)) : Prop where
  filled : Filled h s kept
  frees : Frees h₀ h gone
  arr_new : h₀.next ≤ s.arr

section

variable {abi : Abi} {junk : ScanJunk l} {select : Option (LinuxDirent l → Bool)}
  {h h₀ : ScanHeap l} {s : ScanOut} {kept : List (Ptr × LinuxDirent l)}
  {gone : List (LinuxDirent l)} {n i : Nat} {e : NativeDirent}

theorem scanEntry_accepts (hb : Bounded abi l n) (hs : Scanned h₀ h s kept gone)
    (hlt : kept.length < n)
    (hsel : selected select (copyDirentry (junk.entry i) e) = true) :
    ∃ s' h', scanEntry abi junk select i e s h = .ok (s', h') ∧
      Scanned h₀ h' s' (kept ++ [(h.next, copyDirentry (junk.entry i) e)]) gone := by
  obtain ⟨hf, hfrees, harr⟩ := hs
  let x := copyDirentry (junk.entry i) e
  obtain ⟨s₁, h₁, hroom, hf₁, hlt₁, hfrees₁, harr₁, hstay⟩ := makeRoom_spec junk hb
    (hf.grow (.entry x)) hlt (hfrees.grow _) harr
  have hp := hstay h.next x Heap.obj_grow_next
  have hnew : h.next ∉ kept.map Prod.fst := by
    intro hmem
    obtain ⟨q, hq, heq⟩ := List.mem_map.mp hmem
    exact absurd (Heap.lt_next (hf.entries q hq)) (by rw [heq]; exact Nat.lt_irrefl _)
  obtain ⟨ps, hstore, hf₂⟩ := storeSlot_spec hf₁ hlt₁ hp hnew
  have hint : s₁.nitems + 1 < 2 ^ 31 := by
    have hmany := hb.many
    rw [hf₁.count]
    omega
  refine ⟨_, _, ?_, hf₂, hfrees₁.put harr₁ _, harr₁⟩
  rw [scanEntry, Heap.malloc]
  show loadDirent (h.grow (.entry x)) h.next >>= _ = _
  rw [loadDirent_of Heap.obj_grow_next, ok_bind, if_pos hsel, hroom, ok_bind]
  show storeSlot s₁ h.next h₁ >>= _ = _
  rw [hstore, ok_bind, checkInt, if_pos hint]
  rfl

theorem scanEntry_rejects (abi : Abi) (hs : Scanned h₀ h s kept gone)
    (hsel : selected select (copyDirentry (junk.entry i) e) = false) :
    ∃ s' h', scanEntry abi junk select i e s h = .ok (s', h') ∧
      Scanned h₀ h' s' kept (gone ++ [copyDirentry (junk.entry i) e]) := by
  obtain ⟨hf, hfrees, harr⟩ := hs
  let x := copyDirentry (junk.entry i) e
  refine ⟨s, (h.grow (.entry x)).drop h.next (.entry x), ?_, hf.drop le_rfl _ _,
    (hfrees.grow _).drop hfrees.next_le (.entry x), harr⟩
  have hnot : ¬selected select (copyDirentry (junk.entry i) e) = true := by
    rw [hsel]
    exact Bool.false_ne_true
  rw [scanEntry, Heap.malloc]
  show loadDirent (h.grow (.entry x)) h.next >>= _ = _
  rw [loadDirent_of Heap.obj_grow_next, ok_bind, if_neg hnot,
    Heap.free_of Heap.obj_grow_next]
  rfl

end

/-! ## The loop -/

theorem exec_callScan {σ : Type} {lib : (c : DirCall) → σ → DirAnswer c × σ}
    {c : DirCall} {r : DirAnswer c} {t t' : σ} (hcall : lib c t = (r, t'))
    (h : ScanHeap l) :
    Stateful.exec lib (callScan c) h t = (.ok (r, h), t') := by
  rw [callScan, Stateful.exec_call, hcall]

theorem exec_onScanHeap {σ α : Type} {lib : (c : DirCall) → σ → DirAnswer c × σ}
    {f : ScanHeap l → Outcome (α × ScanHeap l)} {h : ScanHeap l}
    {r : Outcome (α × ScanHeap l)} (hf : f h = r) (t : σ) :
    Stateful.exec lib (onScanHeap f) h t = (r, t) := by
  rw [onScanHeap, Stateful.exec_onState, hf]

/-- What is left of the stream `dir` are the entries `es`. -/
inductive Streams {σ : Type} (lib : (c : DirCall) → σ → DirAnswer c × σ) (dir : Ptr) :
    σ → List NativeDirent → σ → Prop where
  | nil {t t' : σ} : lib (.readdir dir) t = (none, t') → Streams lib dir t [] t'
  | cons {t t₁ t' : σ} {e : NativeDirent} {es : List NativeDirent} :
      lib (.readdir dir) t = (some e, t₁) → Streams lib dir t₁ es t' →
      Streams lib dir t (e :: es) t'

section

variable {σ : Type} {lib : (c : DirCall) → σ → DirAnswer c × σ} {abi : Abi}
  {junk : ScanJunk l} {select : Option (LinuxDirent l → Bool)} {dir : Ptr}
  {budget i : Nat} {s s' : ScanOut} {h h' : ScanHeap l} {t t' : σ} {e : NativeDirent}

theorem scanLoop_end (hread : lib (.readdir dir) t = (none, t')) :
    Stateful.exec lib (scanLoop abi junk select dir (budget + 1) i s) h t =
      (.ok (s, h), t') := by
  rw [scanLoop, Stateful.exec_bind_of (exec_callScan hread h)]
  rfl

theorem scanLoop_step (hread : lib (.readdir dir) t = (some e, t'))
    (hentry : scanEntry abi junk select i e s h = .ok (s', h')) :
    Stateful.exec lib (scanLoop abi junk select dir (budget + 1) i s) h t =
      Stateful.exec lib (scanLoop abi junk select dir budget (i + 1) s') h' t' := by
  have hstep : Stateful.exec lib (onScanHeap (scanEntry abi junk select i e s)) h t' =
      (.ok (s', h'), t') := exec_onScanHeap hentry t'
  rw [scanLoop, Stateful.exec_bind_of (exec_callScan hread h)]
  exact Stateful.exec_bind_of hstep _

end

theorem scanLoop_spec {σ : Type} {lib : (c : DirCall) → σ → DirAnswer c × σ}
    {abi : Abi} {junk : ScanJunk l} {select : Option (LinuxDirent l → Bool)}
    {dir : Ptr} {n : Nat} (hb : Bounded abi l n) {h₀ h : ScanHeap l} {s : ScanOut}
    {kept : List (Ptr × LinuxDirent l)} {gone : List (LinuxDirent l)} {i budget : Nat}
    {es : List NativeDirent} {t t' : σ} (hes : Streams lib dir t es t')
    (hs : Scanned h₀ h s kept gone) (hbudget : es.length < budget)
    (hn : kept.length + (accepted select (converted junk i es)).length ≤ n) :
    ∃ s' h' kept', Stateful.exec lib (scanLoop abi junk select dir budget i s) h t =
        (.ok (s', h'), t') ∧
      kept'.map Prod.snd = accepted select (converted junk i es) ∧
      Scanned h₀ h' s' (kept ++ kept')
        (gone ++ rejected select (converted junk i es)) := by
  induction hes generalizing h s kept gone i budget with
  | nil hread =>
      obtain ⟨b, rfl⟩ := Nat.exists_eq_add_of_lt hbudget
      refine ⟨s, h, [], scanLoop_end hread, rfl, ?_⟩
      rw [List.append_nil, show rejected select (converted junk i []) = [] from rfl,
        List.append_nil]
      exact hs
  | @cons t t₁ t' e es hread hrest ih =>
      obtain ⟨b, rfl⟩ := Nat.exists_eq_add_of_lt hbudget
      have hb' : es.length < (e :: es).length + b := by rw [List.length_cons]; omega
      cases hsel : selected select (copyDirentry (junk.entry i) e) with
      | true =>
          have hacc : accepted select (converted junk i (e :: es)) =
              copyDirentry (junk.entry i) e ::
                accepted select (converted junk (i + 1) es) :=
            List.filter_cons_of_pos hsel
          have hrej : rejected select (converted junk i (e :: es)) =
              rejected select (converted junk (i + 1) es) :=
            List.filter_cons_of_neg (by simp [hsel])
          rw [hacc, List.length_cons] at hn
          obtain ⟨s₁, h₁, hentry, hs₁⟩ := scanEntry_accepts hb hs (by omega) hsel
          have hn' : (kept ++ [(h.next, copyDirentry (junk.entry i) e)]).length +
              (accepted select (converted junk (i + 1) es)).length ≤ n := by
            rw [List.length_append, List.length_singleton]
            omega
          obtain ⟨s', h', kept', hrun, hkept, hs'⟩ := ih hs₁ hb' hn'
          refine ⟨s', h', (h.next, copyDirentry (junk.entry i) e) :: kept',
            (scanLoop_step hread hentry).trans hrun, ?_, ?_⟩
          · rw [hacc, List.map_cons, hkept]
          · rw [hrej, List.append_cons]
            exact hs'
      | false =>
          have hacc : accepted select (converted junk i (e :: es)) =
              accepted select (converted junk (i + 1) es) :=
            List.filter_cons_of_neg (by simp [hsel])
          have hrej : rejected select (converted junk i (e :: es)) =
              copyDirentry (junk.entry i) e ::
                rejected select (converted junk (i + 1) es) :=
            List.filter_cons_of_pos (by simp [hsel])
          rw [hacc] at hn
          obtain ⟨s₁, h₁, hentry, hs₁⟩ := scanEntry_rejects abi hs hsel
          obtain ⟨s', h', kept', hrun, hkept, hs'⟩ := ih hs₁ hb' hn
          refine ⟨s', h', kept', (scanLoop_step hread hentry).trans hrun, ?_, ?_⟩
          · rw [hacc, hkept]
          · rw [hrej, List.append_cons]
            exact hs'

/-! ## Sorting -/

section

variable {h h₀ : ScanHeap l} {s : ScanOut} {kept : List (Ptr × LinuxDirent l)}
  {gone : List (LinuxDirent l)}

theorem loadDirents_of (hentries : ∀ q ∈ kept, h.obj q.1 = some (.entry q.2)) :
    ((kept.map Prod.fst).mapM fun p => do return (p, ← loadDirent h p)) =
      .ok kept := by
  induction kept with
  | nil => rfl
  | cons q kept ih =>
      rw [List.forall_mem_cons] at hentries
      rw [List.map_cons, List.mapM_cons, loadDirent_of hentries.1, ok_bind, pure_bind,
        ih hentries.2]
      rfl

theorem sortSlots_spec {q : Qsort} (hq : q.Documented)
    (f : LinuxDirent l → LinuxDirent l → Int) (hs : Scanned h₀ h s kept gone) :
    ∃ kept' h', sortSlots q f s h = .ok h' ∧ Scanned h₀ h' s kept' gone ∧
      Arranged (some f) (kept'.map Prod.snd) (kept.map Prod.snd) := by
  obtain ⟨hf, hfrees, harr⟩ := hs
  obtain ⟨ps, hps, hlen, htake⟩ := hf.slots
  let sorted := q.sort (fun a b : Ptr × LinuxDirent l => f a.2 b.2) kept
  have hperm : sorted.Perm kept := hq.perm _ kept
  have hcount : s.nitems = sorted.length := hf.count.trans hperm.length_eq.symm
  have hmap : (sorted.map Prod.fst).length = s.nitems := by
    rw [List.length_map, hcount]
  refine ⟨sorted, h.put s.arr (.slots (sorted.map Prod.fst ++ ps.drop s.nitems)),
    ?_, ⟨hf.write ?_ ?_ hcount hf.room ?_ ?_, hfrees.put harr _, harr⟩, ?_, ?_⟩
  · rw [sortSlots, loadSlots_of hps, ok_bind, htake, loadDirents_of hf.entries, ok_bind]
    exact Heap.store_of hps
  · have hroom := hf.room
    rw [List.length_append, hmap, List.length_drop]
    omega
  · rw [List.take_append_of_le_length hmap.ge, List.take_of_length_le hmap.le]
  · exact fun r hr => hf.entries r (hperm.subset hr)
  · exact (hperm.map Prod.fst).nodup_iff.mpr hf.nodup
  · exact hperm.map Prod.snd
  · intro hpre
    rw [List.pairwise_map]
    exact hq.sorted _ kept
      ⟨fun a b => hpre.sign a.2 b.2, fun a b c => hpre.trans a.2 b.2 c.2⟩

theorem sortIf_spec {q : Qsort} (hq : q.Documented)
    (compar : Option (LinuxDirent l → LinuxDirent l → Int))
    (hs : Scanned h₀ h s kept gone) :
    ∃ kept' h', sortIf q compar s h = .ok ((), h') ∧ Scanned h₀ h' s kept' gone ∧
      Arranged compar (kept'.map Prod.snd) (kept.map Prod.snd) := by
  cases compar with
  | none => exact ⟨kept, h, rfl, hs, rfl⟩
  | some f =>
      by_cases hpos : 0 < s.nitems
      · obtain ⟨kept', h', hrun, hs', harr⟩ := sortSlots_spec hq f hs
        refine ⟨kept', h', ?_, hs', harr⟩
        rw [sortIf]
        show (if 0 < s.nitems then _ else _) = _
        rw [if_pos hpos, hrun]
        rfl
      · refine ⟨kept, h, if_neg hpos, hs, List.Perm.refl _, fun _ => ?_⟩
        have hnil : kept = [] := by
          rw [← List.length_eq_zero_iff, ← hs.filled.count]
          omega
        rw [hnil]
        exact List.Pairwise.nil

theorem Filled.pointsTo (hf : Filled h s kept) :
    PointsTo h s.arr (kept.map Prod.snd) := by
  obtain ⟨ps, hps, hlen, htake⟩ := hf.slots
  rw [hf.count] at htake
  refine ⟨ps, hps, ?_, ?_⟩
  · rw [List.length_map, htake]
    exact hf.nodup
  · rw [List.length_map, htake, List.map_map, List.map_map]
    exact List.map_congr_left fun q hq => hf.entries q hq

end

/-! ## The call -/

/-- The directory `dirname` can be opened, has the entries `es`, and is closed. -/
inductive Listing {σ : Type} (lib : (c : DirCall) → σ → DirAnswer c × σ)
    (dirname : Buf) (es : List NativeDirent) : σ → σ → Prop where
  | intro {t t₁ t₂ t' : σ} {dir : Ptr} {err : Word} :
      lib (.opendir dirname) t = (dir, t₁) → dir ≠ null →
      Streams lib dir t₁ es t₂ → lib (.closedir dir) t₂ = (err, t') →
      Listing lib dirname es t t'

/-- What is wanted of a form of the call: whatever is passed, it returns the
number of the entries that are accepted, and an array of them. -/
def ListsAccepted {σ : Type} (lib : (c : DirCall) → σ → DirAnswer c × σ) (abi : Abi)
    (dirname : Buf) (es : List NativeDirent)
    (scan : ScanJunk l → Nat → Buf → Option (LinuxDirent l → Bool) →
      Option (LinuxDirent l → LinuxDirent l → Int) →
      ScanProg l (Int × Option Ptr)) : Prop :=
  ∀ (junk : ScanJunk l) budget select compar h t t',
    Listing lib dirname es t t' → es.length < budget →
    Bounded abi l (accepted select (converted junk 0 es)).length →
    ∃ ys arr h', Stateful.exec lib (scan junk budget dirname select compar) h t =
        (.ok ((((accepted select (converted junk 0 es)).length : Int), some arr), h'),
          t') ∧
      PointsTo h' arr ys ∧
      Arranged compar ys (accepted select (converted junk 0 es)) ∧
      Frees h h' (rejected select (converted junk 0 es))

/-- The array is empty at first. -/
theorem scanned_mallocSlots (abi : Abi) (junk : ScanJunk l) (h : ScanHeap l) :
    Scanned h (mallocSlots abi junk 32 h).2 ⟨h.next, 32, 0⟩ [] [] where
  filled := {
    slots := by
      refine ⟨_, Heap.obj_grow_next, ?_, rfl⟩
      rw [List.length_map, List.length_range]
      exact slotsIn_of (by cases abi <;> decide)
    count := rfl
    room := Nat.zero_le _
    len := ⟨0, rfl⟩
    entries := nofun
    nodup := List.nodup_nil }
  frees := (Frees.refl h).grow _
  arr_new := le_rfl

theorem scandirAs_lists {σ : Type} (lib : (c : DirCall) → σ → DirAnswer c × σ)
    (abi : Abi) {q : Qsort} (hq : q.Documented) (dirname : Buf)
    (es : List NativeDirent) :
    ListsAccepted (l := l) lib abi dirname es (scandirAs abi q) := by
  intro junk budget select compar h t t' hlist hbudget hb
  obtain ⟨hopen, hdir, hes, hclose⟩ := hlist
  obtain ⟨s, h₁, kept, hloop, hkept, hs⟩ := scanLoop_spec hb hes
    (scanned_mallocSlots abi junk h) hbudget (by rw [List.length_nil, Nat.zero_add])
  rw [List.nil_append, List.nil_append] at hs
  obtain ⟨kept', h', hsort, hs', harr⟩ := sortIf_spec hq compar hs
  rw [hkept] at harr
  refine ⟨kept'.map Prod.snd, s.arr, h', ?_, hs'.filled.pointsTo, harr, hs'.frees⟩
  have hcount : s.nitems = (accepted select (converted junk 0 es)).length := by
    rw [hs.filled.count, ← hkept, List.length_map]
  rw [scandirAs, Stateful.exec_bind_of (exec_callScan hopen h), if_neg hdir,
    Stateful.exec_bind_of (exec_onScanHeap rfl _)]
  refine (Stateful.exec_bind_of hloop _).trans ?_
  rw [Stateful.exec_bind_of (exec_callScan hclose h₁),
    Stateful.exec_bind_of (exec_onScanHeap hsort _), ← hcount]
  rfl

/-! ## Both forms -/

/-- The name of an entry. -/
def nameOf (x : LinuxDirent l) : Outcome Buf := x.dName.1.cstrAt 0

/-- `x` is the entry `e`, in a layout of Linux. -/
structure IsCopyOf (x : LinuxDirent l) (e : NativeDirent) : Prop where
  ino : x.dIno = e.dIno.setWidth _
  off : x.dOff = e.dOff.setWidth _
  reclen : x.dReclen = e.dReclen
  type : x.dType = e.dType
  name : nameOf x = .ok e.dName

/-- A name that fits in `d_name`. -/
def IsName (b : Buf) : Prop := b.length ≤ 255 ∧ 0 ∉ b

instance : DecidablePred IsName := fun _ => inferInstanceAs (Decidable (_ ∧ _))

theorem isCopyOf_copyDirentry (junk : LinuxDirent l) {e : NativeDirent}
    (hname : IsName e.dName) : IsCopyOf (copyDirentry junk e) e where
  ino := rfl
  off := rfl
  reclen := rfl
  type := rfl
  name := by
    obtain ⟨hlen, hnul⟩ := hname
    show ((junk.dName.1.patch 0 (e.dName.take 255 ++ [0])).cstrAt 0) = _
    rw [List.take_of_length_le hlen, patch, List.take_zero, List.nil_append,
      List.append_assoc]
    exact cstrAt_of_drop List.drop_zero hnul

/-- Every entry is copied. -/
theorem converted_copies (junk : ScanJunk l) {es : List NativeDirent} (i : Nat)
    (hes : ∀ e ∈ es, IsName e.dName) :
    List.Forall₂ IsCopyOf (converted junk i es) es := by
  induction es generalizing i with
  | nil => exact .nil
  | cons e es ih =>
      rw [List.forall_mem_cons] at hes
      exact .cons (isCopyOf_copyDirentry _ hes.1) (ih (i + 1) hes.2)

/-- The two predicates say the same of the two forms of an entry. -/
def Correspond {l' : DirentLayout} (select : Option (LinuxDirent l → Bool))
    (select' : Option (LinuxDirent l' → Bool)) (es : List NativeDirent) : Prop :=
  ∀ e ∈ es, ∀ x x', IsCopyOf x e → IsCopyOf x' e →
    selected select x = selected select' x'

theorem names_eq {l' : DirentLayout} {select : Option (LinuxDirent l → Bool)}
    {select' : Option (LinuxDirent l' → Bool)} (junk : ScanJunk l)
    (junk' : ScanJunk l') {es : List NativeDirent} (i : Nat)
    (hes : ∀ e ∈ es, IsName e.dName) (hselect : Correspond select select' es) :
    (accepted select (converted junk i es)).map nameOf =
      (accepted select' (converted junk' i es)).map nameOf := by
  induction es generalizing i with
  | nil => rfl
  | cons e es ih =>
      rw [List.forall_mem_cons] at hes
      have hrest := ih (i + 1) hes.2 fun e he => hselect e (List.mem_cons_of_mem _ he)
      have hx := isCopyOf_copyDirentry (junk.entry i) hes.1
      have hx' := isCopyOf_copyDirentry (junk'.entry i) hes.1
      have hsel := hselect e (List.mem_cons_self ..) _ _ hx hx'
      rw [converted, converted, accepted, accepted, List.filter_cons, List.filter_cons,
        hsel]
      split
      · rw [List.map_cons, List.map_cons, hx.name, hx'.name]
        exact congrArg _ hrest
      · exact hrest

/-- Both forms of the call return what is accepted, whatever the directory, the
predicate and the comparison; and where their predicates say the same, it is the
same names. -/
theorem scandir_selects {σ : Type} (lib : (c : DirCall) → σ → DirAnswer c × σ)
    (abi : Abi) {q : Qsort} (hq : q.Documented) (dirname : Buf)
    (es : List NativeDirent) (hes : ∀ e ∈ es, IsName e.dName) :
    ListsAccepted lib abi dirname es (shimScandir abi q) ∧
      ListsAccepted lib abi dirname es (shimScandir64 abi q) ∧
      (∀ junk : ScanJunk (linuxDirent abi),
        List.Forall₂ IsCopyOf (converted junk 0 es) es) ∧
      (∀ junk : ScanJunk (linuxDirent64 abi),
        List.Forall₂ IsCopyOf (converted junk 0 es) es) ∧
      ∀ (junk : ScanJunk (linuxDirent abi)) (junk64 : ScanJunk (linuxDirent64 abi))
        select select64, Correspond select select64 es →
        (accepted select (converted junk 0 es)).map nameOf =
          (accepted select64 (converted junk64 0 es)).map nameOf :=
  ⟨scandirAs_lists lib abi hq dirname es, scandirAs_lists lib abi hq dirname es,
    fun junk => converted_copies junk 0 hes, fun junk => converted_copies junk 0 hes,
    fun junk junk64 _ _ hselect => names_eq junk junk64 0 hes hselect⟩

/-! ### A directory with two entries -/

def mergeQsort : Qsort where
  sort cmp xs := xs.mergeSort fun a b => decide (cmp a b ≤ 0)

theorem mergeQsort_documented : mergeQsort.Documented where
  perm _ xs := List.mergeSort_perm xs _
  sorted cmp xs hcmp := by
    have htrans : ∀ a b c, decide (cmp a b ≤ 0) = true → decide (cmp b c ≤ 0) = true →
        decide (cmp a c ≤ 0) = true := by
      intro a b c hab hbc
      rw [decide_eq_true_iff] at hab hbc ⊢
      exact hcmp.trans a b c hab hbc
    have htotal : ∀ a b, (decide (cmp a b ≤ 0) || decide (cmp b a ≤ 0)) = true := by
      intro a b
      have hsign := hcmp.sign a b
      rw [Bool.or_eq_true, decide_eq_true_iff, decide_eq_true_iff]
      omega
    exact (List.pairwise_mergeSort htrans htotal xs).imp
      fun hab => decide_eq_true_iff.mp hab

/-- A directory and a file. -/
def twoEntries : List NativeDirent :=
  [⟨2, 1, 280, 4, lit "."⟩, ⟨7, 2, 280, 8, lit "a"⟩]

/-- The stream is at its `n`-th entry. -/
def twoEntriesDir : (c : DirCall) → Nat → DirAnswer c × Nat
  | .opendir _, n | .fdopendir _, n => ((1 : Ptr), n)
  | .readdir _, n => (twoEntries[n]?, n + 1)
  | .rewinddir _, _ => ((), 0)
  | .seekdir .., n => ((), n)
  | .telldir _, n => ((n : Int), n)
  | .closedir _, n => ((0 : Word), n)

theorem listing_twoEntries :
    Listing twoEntriesDir (lit "/tmp") twoEntries 0 3 :=
  .intro rfl (by decide) (.cons rfl (.cons rfl (.nil rfl))) rfl

/-- `scandir` with `d_type == DT_REG`. -/
theorem twoEntries_selected : ∃ ys arr h',
    Stateful.exec twoEntriesDir (shimScandir .i386 mergeQsort
      ⟨fun _ => ⟨0, 0, 0, 0, zeroName⟩, fun _ => null⟩ 3 (lit "/tmp")
      (some fun x => x.dType = 8) none) Heap.empty 0 = (.ok ((1, some arr), h'), 3) ∧
    PointsTo h' arr ys ∧ ys.map nameOf = [.ok (lit "a")] := by
  have hnames : ∀ e ∈ twoEntries, IsName e.dName := by decide
  obtain ⟨ys, arr, h', hrun, hpoints, hys, -⟩ :=
    (scandir_selects twoEntriesDir .i386 mergeQsort_documented (lit "/tmp") twoEntries
      hnames).1 ⟨fun _ => ⟨0, 0, 0, 0, zeroName⟩, fun _ => null⟩ 3
      (some fun x => x.dType = 8) none Heap.empty 0 3 listing_twoEntries (by decide)
      ⟨by decide, by decide⟩
  refine ⟨ys, arr, h', hrun, hpoints, ?_⟩
  rw [show ys = [copyDirentry _ ⟨7, 2, 280, 8, lit "a"⟩] from hys, List.map_singleton,
    (isCopyOf_copyDirentry _ (hnames _ (List.mem_cons_of_mem _
      (List.mem_singleton_self _)))).name]

end Libc6Shim
