import Libc6Shim.CSemSystem
import Libc6Shim.Dirent

/-!
# What a directory stream keeps

A stream owns a record for each entry it has handed out, and the entry with
it (`IsStream`). The calls that read put one pair more in front; the others
leave the pairs alone. `closedir` goes through the list, takes each record
out at its head and frees the pair, so nothing is freed twice and nothing is
left (`releaseEntries_spec`, `Closed`).

An entry is the program's to read. It is written again only if the program
hands it back, as the buffer of a `readdir_r` (`dirStream_keeps`).
-/

namespace Libc6Shim

open CSem Buf Outcome

variable {abi : Abi} {σ : Type}

/-! ## Streams -/

/-- An entry that was handed out, and the record that holds it. -/
structure Owned where
  entry : Ptr
  record : Ptr

def Owned.ptrs (o : Owned) : List Ptr := [o.entry, o.record]

def DirObj.IsEntry : DirObj abi → Prop
  | .entry _ | .entry64 _ => True
  | _ => False

/-- The one entry a record holds. -/
def ShimDirEntry.Holds (r : ShimDirEntry) (p : Ptr) : Prop :=
  r.linuxEntry = p ∧ r.linuxEntry64 = null ∨
    r.linuxEntry = null ∧ r.linuxEntry64 = p

structure Owned.Held (h : DirHeap abi) (o : Owned) : Prop where
  record : ∃ r, h.obj o.record = some (.record r) ∧ r.Holds o.entry
  entry : ∃ obj, h.obj o.entry = some obj ∧ obj.IsEntry

/-- The directory at `p` is `d`, and owns the pairs `os`, in the order of its
list. -/
structure IsStream (h : DirHeap abi) (p : Ptr) (d : ShimDirectory)
    (os : List Owned) : Prop where
  directory : h.obj p = some (.directory d)
  list : IsSlist recordEntry h d.head (os.map Owned.record)
  held : ∀ o ∈ os, o.Held h
  nodup : (os.flatMap Owned.ptrs).Nodup

theorem Owned.Held.congr {h h' : DirHeap abi} {o : Owned} (ho : o.Held h)
    (hsame : ∀ q ∈ o.ptrs, h'.obj q = h.obj q) : o.Held h' := by
  have hentry := hsame o.entry (List.mem_cons_self ..)
  have hrecord := hsame o.record (List.mem_cons_of_mem _ (List.mem_cons_self ..))
  obtain ⟨r, hr, hholds⟩ := ho.record
  obtain ⟨obj, hobj, his⟩ := ho.entry
  exact ⟨⟨r, hrecord.trans hr, hholds⟩, obj, hentry.trans hobj, his⟩

/-- What a pair consists of is allocated, and no directory. -/
theorem Owned.Held.obj_of_mem {h : DirHeap abi} {o : Owned} (ho : o.Held h)
    {q : Ptr} (hq : q ∈ o.ptrs) :
    ∃ obj, h.obj q = some obj ∧ ∀ d, obj ≠ .directory d := by
  obtain ⟨r, hr, -⟩ := ho.record
  obtain ⟨obj, hobj, his⟩ := ho.entry
  rcases List.mem_cons.mp hq with rfl | hq
  · refine ⟨obj, hobj, ?_⟩
    rintro d rfl
    exact his
  · rw [List.mem_singleton.mp hq]
    exact ⟨.record r, hr, fun d h => by cases h⟩

section

variable {h h' : DirHeap abi} {p : Ptr} {d : ShimDirectory} {os : List Owned}

theorem IsStream.obj_of_mem (hs : IsStream h p d os) {q : Ptr}
    (hq : q ∈ os.flatMap Owned.ptrs) :
    ∃ obj, h.obj q = some obj ∧ ∀ d, obj ≠ .directory d := by
  obtain ⟨o, ho, hq⟩ := List.mem_flatMap.mp hq
  exact (hs.held o ho).obj_of_mem hq

theorem IsStream.notMem (hs : IsStream h p d os) :
    p ∉ os.flatMap Owned.ptrs := by
  intro hp
  obtain ⟨obj, hobj, hne⟩ := hs.obj_of_mem hp
  rw [hs.directory] at hobj
  exact hne d (Option.some.inj hobj).symm

theorem mem_ptrs_of_record {o : Owned} (ho : o ∈ os) :
    o.record ∈ os.flatMap Owned.ptrs :=
  List.mem_flatMap.mpr ⟨o, ho, List.mem_cons_of_mem _ (List.mem_cons_self ..)⟩

/-- A stream stays one where its objects stay as they are. -/
theorem IsStream.congr (hs : IsStream h p d os) {d' : ShimDirectory}
    (hdir : h'.obj p = some (.directory d')) (hhead : d'.head = d.head)
    (hsame : ∀ q ∈ os.flatMap Owned.ptrs, h'.obj q = h.obj q) :
    IsStream h' p d' os where
  directory := hdir
  list := by
    rw [hhead]
    refine hs.list.congr fun q hq => ?_
    obtain ⟨o, ho, rfl⟩ := List.mem_map.mp hq
    exact hsame _ (mem_ptrs_of_record ho)
  held o ho := (hs.held o ho).congr fun q hq =>
    hsame q (List.mem_flatMap.mpr ⟨o, ho, hq⟩)
  nodup := hs.nodup

/-! ## The operations on the list -/

theorem loadDirectory_of (hp : h.obj p = some (.directory d)) :
    loadDirectory h p = .ok d := by
  rw [loadDirectory, Heap.load_of hp]
  rfl

theorem loadRecord_of {r : ShimDirEntry} (hp : h.obj p = some (.record r)) :
    loadRecord h p = .ok r := by
  rw [loadRecord, Heap.load_of hp]
  rfl

theorem lockDirectory_of (hp : h.obj p = some (.directory d))
    (hl : d.locked = false) :
    lockDirectory h p =
      .ok (h.put p (.directory { d with locked := true })) := by
  rw [lockDirectory, loadDirectory_of hp, ok_bind, hl, if_neg (by decide),
    Heap.store_of hp]

theorem unlockDirectory_of (hp : h.obj p = some (.directory d)) :
    unlockDirectory h p =
      .ok (h.put p (.directory { d with locked := false })) := by
  rw [unlockDirectory, loadDirectory_of hp, ok_bind, Heap.store_of hp]

/-- The objects of the pairs are neither the directory nor new. -/
theorem IsStream.ne_of_mem (hs : IsStream h p d os) {q : Ptr}
    (hq : q ∈ os.flatMap Owned.ptrs) : q ≠ p ∧ q ≠ h.next := by
  obtain ⟨obj, hobj, -⟩ := hs.obj_of_mem hq
  exact ⟨ne_of_mem_of_not_mem hq hs.notMem, Nat.ne_of_lt (Heap.lt_next hobj)⟩

/-- A record is made, and the directory is locked. -/
def lockedWith (h : DirHeap abi) (p : Ptr) (d : ShimDirectory) (r : ShimDirEntry) :
    DirHeap abi :=
  (h.grow (.record r)).put p (.directory { d with locked := true })

/-- The record is put in front of the list. -/
def linkedWith (h : DirHeap abi) (p : Ptr) (d : ShimDirectory) (r : ShimDirEntry) :
    DirHeap abi :=
  (lockedWith h p d r).put h.next (.record { r with entries := d.head })

/-- The directory has the new head, and is unlocked. -/
def pushRecord (h : DirHeap abi) (p : Ptr) (d : ShimDirectory) (r : ShimDirEntry) :
    DirHeap abi :=
  ((linkedWith h p d r).put p (.directory ⟨d.dir, h.next, true⟩)).put p
    (.directory ⟨d.dir, h.next, false⟩)

section Push

variable {r : ShimDirEntry}

theorem lockedWith_obj_of_ne {q : Ptr} (hp : q ≠ p) (hq : q ≠ h.next) :
    (lockedWith h p d r).obj q = h.obj q :=
  (Heap.obj_put_of_ne hp).trans (if_neg hq)

theorem pushRecord_obj_of_ne {q : Ptr} (hp : q ≠ p) (hq : q ≠ h.next) :
    (pushRecord h p d r).obj q = h.obj q := by
  rw [pushRecord, Heap.obj_put_of_ne hp, Heap.obj_put_of_ne hp, linkedWith,
    Heap.obj_put_of_ne hq]
  exact lockedWith_obj_of_ne hp hq

theorem IsStream.lockedWith_directory (hs : IsStream h p d os) :
    (lockedWith h p d r).obj p = some (.directory { d with locked := true }) := by
  have hp : p ≠ h.next := Nat.ne_of_lt (Heap.lt_next hs.directory)
  have hgrown : (h.grow (.record r)).obj p = some (.directory d) :=
    (if_neg hp).trans hs.directory
  exact Heap.obj_put_self hgrown

theorem IsStream.lockedWith_record (hs : IsStream h p d os) :
    (lockedWith h p d r).obj h.next = some (.record r) := by
  have hp : p ≠ h.next := Nat.ne_of_lt (Heap.lt_next hs.directory)
  exact (Heap.obj_put_of_ne hp.symm).trans Heap.obj_grow_next

theorem IsStream.linkedWith_directory (hs : IsStream h p d os) :
    (linkedWith h p d r).obj p = some (.directory { d with locked := true }) := by
  have hp : p ≠ h.next := Nat.ne_of_lt (Heap.lt_next hs.directory)
  exact (Heap.obj_put_of_ne hp).trans hs.lockedWith_directory

/-- `SLIST_INSERT_HEAD` of the new record. -/
theorem IsStream.insertHead (hs : IsStream h p d os) (r : ShimDirEntry) :
    Slist.insertHead recordEntry (lockedWith h p d r) d.head h.next =
        .ok (h.next, linkedWith h p d r) ∧
      IsSlist recordEntry (linkedWith h p d r) h.next
        (h.next :: os.map Owned.record) := by
  have hlist : IsSlist recordEntry (lockedWith h p d r) d.head
      (os.map Owned.record) := by
    refine hs.list.congr fun q hq => ?_
    obtain ⟨o, ho, rfl⟩ := List.mem_map.mp hq
    obtain ⟨hne, hfresh⟩ := hs.ne_of_mem (mem_ptrs_of_record ho)
    exact lockedWith_obj_of_ne hne hfresh
  have hnot : h.next ∉ os.map Owned.record := by
    intro hmem
    obtain ⟨o, ho, heq⟩ := List.mem_map.mp hmem
    exact (hs.ne_of_mem (mem_ptrs_of_record ho)).2 heq
  exact hlist.insertHead hs.lockedWith_record rfl hnot

theorem insertRecord_eq (junk : Junk abi) (hs : IsStream h p d os)
    (hl : d.locked = false) (fields : Ptr → ShimDirEntry) :
    insertRecord junk p fields h =
      .ok (pushRecord h p d (fields (junk.link h.next))) := by
  have hp : p ≠ h.next := Nat.ne_of_lt (Heap.lt_next hs.directory)
  have hgrown : (h.grow (.record (fields (junk.link h.next)))).obj p =
      some (.directory d) := (if_neg hp).trans hs.directory
  have hlinked := hs.linkedWith_directory (r := fields (junk.link h.next))
  rw [insertRecord, Heap.malloc]
  dsimp only
  rw [lockDirectory_of hgrown hl, ok_bind, ← lockedWith,
    loadDirectory_of hs.lockedWith_directory, ok_bind]
  dsimp only
  rw [(hs.insertHead _).1, ok_bind]
  dsimp only
  rw [Heap.store_of hlinked, ok_bind, unlockDirectory_of (Heap.obj_put_self hlinked),
    pushRecord]

theorem IsStream.pushRecord_list (hs : IsStream h p d os) :
    IsSlist recordEntry (pushRecord h p d r) h.next
      (h.next :: os.map Owned.record) := by
  refine (hs.insertHead r).2.congr fun q hq => ?_
  have hqp : q ≠ p := by
    rcases List.mem_cons.mp hq with rfl | hq
    · exact Nat.ne_of_gt (Heap.lt_next hs.directory)
    · obtain ⟨o, ho, rfl⟩ := List.mem_map.mp hq
      exact (hs.ne_of_mem (mem_ptrs_of_record ho)).1
  exact (Heap.obj_put_of_ne hqp).trans (Heap.obj_put_of_ne hqp)

theorem IsStream.pushRecord_directory (hs : IsStream h p d os) :
    (pushRecord h p d r).obj p = some (.directory ⟨d.dir, h.next, false⟩) :=
  Heap.obj_put_self (Heap.obj_put_self hs.linkedWith_directory)

theorem IsStream.pushRecord_record (hs : IsStream h p d os) :
    (pushRecord h p d r).obj h.next = some (.record { r with entries := d.head }) := by
  have hp : h.next ≠ p := Nat.ne_of_gt (Heap.lt_next hs.directory)
  rw [pushRecord, Heap.obj_put_of_ne hp, Heap.obj_put_of_ne hp]
  exact Heap.obj_put_self hs.lockedWith_record

end Push

/-- A record for the entry `e`, which no pair of the stream has, makes a pair
in front. -/
theorem insertRecord_spec (junk : Junk abi) (hs : IsStream h p d os)
    (hl : d.locked = false) {e : Ptr} {obj : DirObj abi}
    (he : h.obj e = some obj) (his : obj.IsEntry)
    (hnew : e ∉ os.flatMap Owned.ptrs) {fields : Ptr → ShimDirEntry}
    (hfields : ∀ q, (fields q).Holds e) :
    ∃ h', insertRecord junk p fields h = .ok h' ∧
      IsStream h' p ⟨d.dir, h.next, false⟩ (⟨e, h.next⟩ :: os) ∧
      ∀ q, q ≠ p → q ≠ h.next → h'.obj q = h.obj q := by
  have hepos : e ≠ h.next := Nat.ne_of_lt (Heap.lt_next he)
  have hep : e ≠ p := by
    rintro rfl
    rw [hs.directory] at he
    cases he
    exact his
  refine ⟨_, insertRecord_eq junk hs hl fields,
    ⟨hs.pushRecord_directory, hs.pushRecord_list, ?_, ?_⟩,
    fun q => pushRecord_obj_of_ne⟩
  · intro o ho
    rcases List.mem_cons.mp ho with rfl | ho
    · exact ⟨⟨_, hs.pushRecord_record, hfields _⟩, obj,
        (pushRecord_obj_of_ne hep hepos).trans he, his⟩
    · refine (hs.held o ho).congr fun q hq => ?_
      obtain ⟨hqp, hqn⟩ := hs.ne_of_mem (List.mem_flatMap.mpr ⟨o, ho, hq⟩)
      exact pushRecord_obj_of_ne hqp hqn
  · rw [List.flatMap_cons, Owned.ptrs, List.cons_append, List.singleton_append,
      List.nodup_cons, List.nodup_cons, List.mem_cons, not_or]
    exact ⟨⟨hepos, hnew⟩, fun hmem => (hs.ne_of_mem hmem).2 rfl, hs.nodup⟩

/-- The list goes on at `q`, and the pair of the record is freed. -/
def popRecord (h : DirHeap abi) (p : Ptr) (d : ShimDirectory) (q : Ptr) (o : Owned)
    (obj : DirObj abi) (r : ShimDirEntry) : DirHeap abi :=
  ((h.put p (.directory { d with head := q })).drop o.entry obj).drop o.record (.record r)

section Pop

variable {q : Ptr} {o : Owned} {obj : DirObj abi} {r : ShimDirEntry}

/-- The two objects of the first pair and the directory are three. -/
theorem IsStream.head_ne (hs : IsStream h p d (o :: os)) :
    o.entry ≠ o.record ∧ o.entry ≠ p ∧ o.record ≠ p := by
  have hnodup := hs.nodup
  rw [List.flatMap_cons, List.nodup_append, Owned.ptrs, List.nodup_cons,
    List.mem_singleton] at hnodup
  have hnotp := hs.notMem
  rw [List.flatMap_cons, List.mem_append, not_or, Owned.ptrs, List.mem_cons, not_or,
    List.mem_singleton] at hnotp
  exact ⟨hnodup.1.1, Ne.symm hnotp.1.1, Ne.symm hnotp.1.2⟩

theorem popRecord_obj_of_ne {x : Ptr} (hp : x ≠ p) (hx : x ∉ o.ptrs) :
    (popRecord h p d q o obj r).obj x = h.obj x := by
  rw [Owned.ptrs, List.mem_cons, List.mem_singleton, not_or] at hx
  rw [popRecord, Heap.obj_drop_of_ne hx.2, Heap.obj_drop_of_ne hx.1,
    Heap.obj_put_of_ne hp]

theorem popRecord_obj_of_mem (hne : o.entry ≠ o.record) {x : Ptr} (hx : x ∈ o.ptrs) :
    (popRecord h p d q o obj r).obj x = none := by
  rcases List.mem_cons.mp hx with rfl | hx
  · exact (Heap.obj_drop_of_ne hne).trans Heap.obj_drop_self
  · rw [List.mem_singleton.mp hx]
    exact Heap.obj_drop_self

/-- The record holds one of the two entries, so one of the two is freed. -/
theorem releaseEntry_eq (hs : IsStream h p d (o :: os)) {budget : Nat}
    (hremove : Slist.remove recordEntry budget h d.head o.record = .ok (q, h))
    (hr : h.obj o.record = some (.record r)) (hholds : r.Holds o.entry)
    (hobj : h.obj o.entry = some obj) :
    releaseEntry budget p o.record h = .ok (popRecord h p d q o obj r) := by
  obtain ⟨her, hep, hrp⟩ := hs.head_ne
  have hr₁ : (h.put p (.directory { d with head := q })).obj o.record =
      some (.record r) := (Heap.obj_put_of_ne hrp).trans hr
  have he₁ : (h.put p (.directory { d with head := q })).obj o.entry = some obj :=
    (Heap.obj_put_of_ne hep).trans hobj
  have hr₂ : ((h.put p (.directory { d with head := q })).drop o.entry obj).obj
      o.record = some (.record r) := (Heap.obj_drop_of_ne her.symm).trans hr₁
  have hne := Heap.ne_null hobj
  rw [releaseEntry, loadDirectory_of hs.directory, ok_bind, hremove, ok_bind]
  dsimp only
  rw [Heap.store_of hs.directory, ok_bind, loadRecord_of hr₁, ok_bind, popRecord]
  rcases hholds with ⟨h32, h64⟩ | ⟨h32, h64⟩
  · rw [h32, if_pos hne, Heap.free_of he₁, ok_bind, loadRecord_of hr₂, ok_bind,
      h64, if_neg (not_not_intro rfl), ok_bind, Heap.free_of hr₂]
  · rw [h32, if_neg (not_not_intro rfl), ok_bind, loadRecord_of hr₁, ok_bind,
      h64, if_pos hne, Heap.free_of he₁, ok_bind, Heap.free_of hr₂]

/-- Without its first pair it is a stream still. -/
theorem IsStream.popped (hs : IsStream h p d (o :: os))
    (hlist : IsSlist recordEntry h q (os.map Owned.record)) :
    IsStream (popRecord h p d q o obj r) p { d with head := q } os := by
  obtain ⟨-, hep, hrp⟩ := hs.head_ne
  have hnodup := hs.nodup
  rw [List.flatMap_cons, List.nodup_append] at hnodup
  obtain ⟨-, hrest, hdisjoint⟩ := hnodup
  have hkept : ∀ x ∈ os.flatMap Owned.ptrs,
      (popRecord h p d q o obj r).obj x = h.obj x := by
    intro x hx
    have hmem : x ∈ (o :: os).flatMap Owned.ptrs :=
      List.mem_flatMap.mpr ((List.mem_flatMap.mp hx).imp fun o' ho' =>
        ⟨List.mem_cons_of_mem _ ho'.1, ho'.2⟩)
    exact popRecord_obj_of_ne (hs.ne_of_mem hmem).1 fun hxo => hdisjoint x hxo x hx rfl
  refine ⟨?_, hlist.congr fun x hx => ?_, fun o' ho' => ?_, hrest⟩
  · rw [popRecord, Heap.obj_drop_of_ne hrp.symm, Heap.obj_drop_of_ne hep.symm]
    exact Heap.obj_put_self hs.directory
  · obtain ⟨o', ho', rfl⟩ := List.mem_map.mp hx
    exact hkept _ (mem_ptrs_of_record ho')
  · exact (hs.held o' (List.mem_cons_of_mem _ ho')).congr fun x hx =>
      hkept x (List.mem_flatMap.mpr ⟨o', ho', hx⟩)

end Pop

/-- The first pair is taken out and freed. -/
theorem releaseEntry_spec {o : Owned} (hs : IsStream h p d (o :: os))
    (budget : Nat) :
    ∃ h' q, releaseEntry budget p o.record h = .ok h' ∧
      IsStream h' p { d with head := q } os ∧
      (∃ pair, h'.freed = h.freed ++ pair ∧ pair.map Prod.fst = o.ptrs) ∧
      (∀ x ∈ o.ptrs, h'.obj x = none) ∧
      ∀ x, x ≠ p → x ∉ o.ptrs → h'.obj x = h.obj x := by
  have ho := hs.held o (List.mem_cons_self ..)
  obtain ⟨r, hr, hholds⟩ := ho.record
  obtain ⟨obj, hobj, -⟩ := ho.entry
  have hlist := hs.list
  rw [List.map_cons] at hlist
  obtain ⟨q, hremove, hlist⟩ := hlist.remove_head budget
  exact ⟨_, q, releaseEntry_eq hs hremove hr hholds hobj, hs.popped hlist,
    ⟨[(o.entry, obj), (o.record, .record r)], List.append_assoc .., rfl⟩,
    fun _ => popRecord_obj_of_mem hs.head_ne.1, fun _ => popRecord_obj_of_ne⟩

/-- Of the pairs `os` of the stream in `h`, those up to `rest` were freed, and
nothing else was touched. -/
def FreedUpTo (h : DirHeap abi) (p : Ptr) (d : ShimDirectory) (os rest : List Owned)
    (h' : DirHeap abi) : Prop :=
  ∃ gone q, os = gone ++ rest ∧ IsStream h' p { d with head := q } rest ∧
    (∃ pairs, h'.freed = h.freed ++ pairs ∧
      pairs.map Prod.fst = gone.flatMap Owned.ptrs) ∧
    (∀ x ∈ gone.flatMap Owned.ptrs, h'.obj x = none) ∧
    ∀ x, x ≠ p → x ∉ gone.flatMap Owned.ptrs → h'.obj x = h.obj x

/-- One turn of the loop frees one pair more. -/
theorem FreedUpTo.step (hs : IsStream h p d os) {o : Owned} {rest : List Owned}
    (hfreed : FreedUpTo h p d os (o :: rest) h') (budget : Nat) :
    ∃ h'', releaseEntry budget p o.record h' = .ok h'' ∧
      FreedUpTo h p d os rest h'' := by
  obtain ⟨gone, q, hos, hs', ⟨pairs, hpast, hpairs⟩, hnone, hsame⟩ := hfreed
  obtain ⟨h'', q', hrun, hs'', ⟨pair, hpast', hpair⟩, hnone', hsame'⟩ :=
    releaseEntry_spec hs' budget
  have hp : p ∉ gone.flatMap Owned.ptrs := fun hp =>
    hs.notMem (by rw [hos, List.flatMap_append]; exact List.mem_append_left _ hp)
  refine ⟨h'', hrun, gone ++ [o], q', by rw [hos, List.append_assoc]; rfl, hs'',
    ⟨pairs ++ pair, by rw [hpast', hpast, List.append_assoc], ?_⟩, ?_, ?_⟩
  · rw [List.map_append, hpairs, hpair, List.flatMap_append, List.flatMap_singleton]
  · intro x hx
    rw [List.flatMap_append, List.flatMap_singleton, List.mem_append] at hx
    by_cases hxo : x ∈ o.ptrs
    · exact hnone' x hxo
    · have hxg := hx.resolve_right hxo
      rw [hsame' x (ne_of_mem_of_not_mem hxg hp) hxo]
      exact hnone x hxg
  · intro x hxp hx
    rw [List.flatMap_append, List.flatMap_singleton, List.mem_append, not_or] at hx
    rw [hsame' x hxp hx.2]
    exact hsame x hxp hx.1

/-- All the pairs are, and the list is empty then. -/
theorem releaseEntries_spec (hs : IsStream h p d os) {budget : Nat}
    (hbudget : os.length < budget) :
    ∃ h', releaseEntries budget p h = .ok h' ∧
      h'.obj p = some (.directory { d with head := null }) ∧
      (∃ pairs, h'.freed = h.freed ++ pairs ∧
        pairs.map Prod.fst = os.flatMap Owned.ptrs) ∧
      (∀ x ∈ os.flatMap Owned.ptrs, h'.obj x = none) ∧
      ∀ x, x ≠ p → x ∉ os.flatMap Owned.ptrs → h'.obj x = h.obj x := by
  have hlist : ∀ rest h', FreedUpTo h p d os rest h' →
      ∃ head, IsSlist recordEntry h' head (rest.map Owned.record) := by
    rintro rest h' ⟨gone, q, -, hs', -⟩
    exact ⟨_, hs'.list⟩
  have hstart : FreedUpTo h p d os os h := ⟨[], d.head, rfl, hs,
    ⟨[], (List.append_nil _).symm, rfl⟩, fun x hx => (List.not_mem_nil hx).elim,
    fun x _ _ => rfl⟩
  obtain ⟨h', hrun, gone, q, hos, hs', hfreed, hnone, hsame⟩ :=
    foreachSafe_rule (FreedUpTo h p d os) hlist
      (fun _ _ _ hfreed => hfreed.step hs budget) hstart hs.list hbudget
  rw [List.append_nil] at hos
  subst hos
  refine ⟨h', ?_, ?_, hfreed, hnone, hsame⟩
  · rw [releaseEntries, loadDirectory_of hs.directory]
    exact hrun
  · have hq : q = null := hs'.list.head_eq
    rw [hs'.directory, hq]

/-- The stream is closed: first each pair was freed, once, then the
directory, whose list was empty by then, and nothing else was. -/
structure Closed (h h' : DirHeap abi) (p : Ptr) (d : ShimDirectory)
    (os : List Owned) : Prop where
  freed : ∃ pairs, h'.freed =
      h.freed ++ pairs ++ [(p, .directory { d with head := null })] ∧
    pairs.map Prod.fst = os.flatMap Owned.ptrs
  once : (os.flatMap Owned.ptrs ++ [p]).Nodup
  gone : ∀ q ∈ os.flatMap Owned.ptrs ++ [p], h'.obj q = none
  rest : ∀ q, q ∉ os.flatMap Owned.ptrs ++ [p] → h'.obj q = h.obj q

theorem destroyShimDir_spec (hs : IsStream h p d os) (hl : d.locked = false)
    {budget : Nat} (hbudget : os.length < budget) :
    ∃ h', destroyShimDir budget p h = .ok h' ∧ Closed h h' p d os := by
  obtain ⟨dir, head, locked⟩ := d
  cases hl
  let h₁ := h.put p (.directory ⟨dir, head, true⟩)
  have hp₁ : h₁.obj p = some (.directory ⟨dir, head, true⟩) :=
    Heap.obj_put_self hs.directory
  have hlocked : ∀ x, x ≠ p → h₁.obj x = h.obj x := fun x hx =>
    Heap.obj_put_of_ne hx
  have hs₁ : IsStream h₁ p ⟨dir, head, true⟩ os :=
    hs.congr hp₁ rfl fun x hx => hlocked x (ne_of_mem_of_not_mem hx hs.notMem)
  obtain ⟨h₂, hrelease, hp₂, ⟨pairs, hfreed, hpairs⟩, hnone, hsame⟩ :=
    releaseEntries_spec hs₁ hbudget
  let h₃ := h₂.put p (.directory ⟨dir, null, false⟩)
  have hp₃ : h₃.obj p = some (.directory ⟨dir, null, false⟩) :=
    Heap.obj_put_self hp₂
  refine ⟨h₃.drop p (.directory ⟨dir, null, false⟩), ?_, ⟨pairs, ?_, hpairs⟩,
    ?_, ?_, ?_⟩
  · rw [destroyShimDir, lockDirectory_of hs.directory rfl, ok_bind, hrelease,
      ok_bind, unlockDirectory_of hp₂, ok_bind, loadDirectory_of hp₃, ok_bind,
      require_of rfl, ok_bind, Heap.free_of hp₃]
  · exact congrArg (· ++ _) hfreed
  · rw [List.nodup_append]
    refine ⟨hs.nodup, List.nodup_singleton p, fun x hx y hy => ?_⟩
    rw [List.mem_singleton.mp hy]
    exact ne_of_mem_of_not_mem hx hs.notMem
  · intro x hx
    by_cases hxp : x = p
    · rw [hxp]
      exact Heap.obj_drop_self
    · rw [Heap.obj_drop_of_ne hxp, Heap.obj_put_of_ne hxp]
      rcases List.mem_append.mp hx with hx | hx
      · exact hnone x hx
      · exact absurd (List.mem_singleton.mp hx) hxp
  · intro x hx
    rw [List.mem_append, List.mem_singleton, not_or] at hx
    rw [Heap.obj_drop_of_ne hx.2, Heap.obj_put_of_ne hx.2, hsame x hx.2 hx.1]
    exact hlocked x hx.2

/-- A new entry was made, and a record for it in front of the others. -/
structure Inserted (h h' : DirHeap abi) (p : Ptr) (d : ShimDirectory)
    (os : List Owned) : Prop where
  entry : ∃ obj, h'.obj h.next = some obj ∧ obj.IsEntry
  stream : IsStream h' p ⟨d.dir, h.next + 1, false⟩
    (⟨h.next, h.next + 1⟩ :: os)
  rest : ∀ q, q ≠ p → q < h.next → h'.obj q = h.obj q

theorem insertNew_spec (junk : Junk abi) (hs : IsStream h p d os)
    (hl : d.locked = false) {obj : DirObj abi} (his : obj.IsEntry)
    {fields : Ptr → ShimDirEntry} (hfields : ∀ q, (fields q).Holds h.next) :
    ∃ h', insertRecord junk p fields (h.grow obj) = .ok h' ∧
      h'.obj h.next = some obj ∧ Inserted h h' p d os := by
  have hobj : (h.grow obj).obj h.next = some obj := Heap.obj_grow_next
  have hgrown : ∀ q, q < h.next → (h.grow obj).obj q = h.obj q := fun q hq =>
    if_neg (Nat.ne_of_lt hq)
  have hp := Heap.lt_next hs.directory
  have hold : ∀ q ∈ os.flatMap Owned.ptrs, q < h.next := by
    intro q hq
    obtain ⟨obj', hobj', -⟩ := hs.obj_of_mem hq
    exact Heap.lt_next hobj'
  have hs' : IsStream (h.grow obj) p d os :=
    hs.congr ((hgrown p hp).trans hs.directory) rfl fun q hq =>
      hgrown q (hold q hq)
  obtain ⟨h', hrun, hstream, hsame⟩ := insertRecord_spec junk hs' hl hobj his
    (fun hmem => Nat.lt_irrefl _ (hold _ hmem)) hfields
  have hne : h.next ≠ h.next + 1 := Nat.ne_of_lt (Nat.lt_succ_self _)
  have hkept : h'.obj h.next = some obj :=
    (hsame _ (Nat.ne_of_gt hp) hne).trans hobj
  refine ⟨h', hrun, hkept, ⟨obj, hkept, his⟩, hstream, fun q hq hlt => ?_⟩
  exact (hsame q hq (Nat.ne_of_lt (Nat.lt_succ_of_lt hlt))).trans (hgrown q hlt)

theorem insertEntry_spec (junk : Junk abi) (hs : IsStream h p d os)
    (hl : d.locked = false) (e : NativeDirent) :
    ∃ h', insertEntry junk p e h = .ok (h.next, h') ∧
      h'.obj h.next = some (.entry (copyDirentry (junk.entry h.next) e)) ∧
      Inserted h h' p d os := by
  have his : (DirObj.entry (copyDirentry (junk.entry h.next) e)).IsEntry :=
    trivial
  have hfields : ∀ q, (⟨q, h.next, null⟩ : ShimDirEntry).Holds h.next :=
    fun _ => .inl ⟨rfl, rfl⟩
  obtain ⟨h', hrun, hinserted⟩ := insertNew_spec junk hs hl his hfields
  refine ⟨h', ?_, hinserted⟩
  rw [insertEntry, Heap.malloc]
  dsimp only
  rw [hrun]
  rfl

theorem insertEntry64_spec (junk : Junk abi) (hs : IsStream h p d os)
    (hl : d.locked = false) (e : NativeDirent) :
    ∃ h', insertEntry64 junk p e h = .ok (h.next, h') ∧
      h'.obj h.next = some (.entry64 (copyDirentry (junk.entry64 h.next) e)) ∧
      Inserted h h' p d os := by
  have his : (DirObj.entry64 (copyDirentry (junk.entry64 h.next) e)).IsEntry :=
    trivial
  have hfields : ∀ q, (⟨q, null, h.next⟩ : ShimDirEntry).Holds h.next :=
    fun _ => .inr ⟨rfl, rfl⟩
  obtain ⟨h', hrun, hinserted⟩ := insertNew_spec junk hs hl his hfields
  refine ⟨h', ?_, hinserted⟩
  rw [insertEntry64, Heap.malloc]
  dsimp only
  rw [hrun]
  rfl

/-- An entry is filled again: the stream is the one it was. -/
theorem IsStream.put_entry (hs : IsStream h p d os) {q : Ptr}
    {a b : DirObj abi} (ha : h.obj q = some a) (hisa : a.IsEntry)
    (hisb : b.IsEntry) : IsStream (h.put q b) p d os where
  directory := by
    have hne : p ≠ q := by
      rintro rfl
      rw [hs.directory] at ha
      cases ha
      exact hisa
    exact (Heap.obj_put_of_ne hne).trans hs.directory
  list := by
    refine hs.list.congr fun x hx => ?_
    obtain ⟨o, ho, rfl⟩ := List.mem_map.mp hx
    obtain ⟨r, hr, -⟩ := (hs.held o ho).record
    refine Heap.obj_put_of_ne ?_
    rintro rfl
    rw [hr] at ha
    cases ha
    exact hisa
  held o ho := by
    obtain ⟨⟨r, hr, hholds⟩, obj, hobj, his⟩ := hs.held o ho
    have hne : o.record ≠ q := by
      rintro rfl
      rw [hr] at ha
      cases ha
      exact hisa
    refine ⟨⟨r, (Heap.obj_put_of_ne hne).trans hr, hholds⟩, ?_⟩
    by_cases hq : o.entry = q
    · rw [hq]
      exact ⟨b, Heap.obj_put_self ha, hisb⟩
    · exact ⟨obj, (Heap.obj_put_of_ne hq).trans hobj, his⟩
  nodup := hs.nodup

end

/-! ## Runs -/

/-- How the stream was obtained. -/
inductive DirOpening where
  | opendir (filename : Buf)
  | fdopendir (fd : Word)

def DirOpening.routine : DirOpening → DirProg abi Ptr
  | opendir filename => shimOpendir filename
  | fdopendir fd => shimFdopendir fd

/-- A call on the stream, before it is closed. -/
inductive DirOp where
  | readdir
  | readdir64
  | readdirR (linuxEntry : Ptr)
  | readdir64R (linuxEntry : Ptr)
  | rewinddir
  | seekdir (loc : Int)
  | telldir
deriving DecidableEq

namespace DirOp

/-- The routine; its result is the entry it answers with, if any. -/
def routine (junk : Junk abi) (p : Ptr) : DirOp → DirProg abi Ptr
  | readdir => shimReaddir junk p
  | readdir64 => shimReaddir64 junk p
  | readdirR linuxEntry => shimReaddirR p linuxEntry
  | readdir64R linuxEntry => shimReaddir64R p linuxEntry
  | rewinddir => do
      shimRewinddir p
      return null
  | seekdir loc => do
      shimSeekdir p loc
      return null
  | telldir => do
      let _ ← shimTelldir p
      return null

/-- The entry the program gives to be filled. -/
def buffer : DirOp → Option Ptr
  | readdirR linuxEntry | readdir64R linuxEntry => some linuxEntry
  | _ => none

/-- It is one. -/
def Fits (h : DirHeap abi) : DirOp → Prop
  | readdirR linuxEntry => ∃ e, h.obj linuxEntry = some (.entry e)
  | readdir64R linuxEntry => ∃ e, h.obj linuxEntry = some (.entry64 e)
  | _ => True

/-- The call hands out an entry of the stream's own. -/
def hands : DirOp → Bool
  | readdir | readdir64 => true
  | _ => false

/-- What the call hands out, with what is there then, if anything. -/
def handed (op : DirOp) (r : Ptr) (h : DirHeap abi) : List (Ptr × Option (DirObj abi)) :=
  if op.hands ∧ r ≠ null then [(r, h.obj r)] else []

end DirOp

/-- The process: its objects, the native library, and what `readdir` and
`readdir64` have returned. -/
structure DirSys (abi : Abi) (σ : Type) where
  heap : DirHeap abi
  native : σ
  given : List (Ptr × Option (DirObj abi))

section Runs

variable (lib : (c : DirCall) → σ → DirAnswer c × σ) (junk : Junk abi)
  (p : Ptr)

/-- The stream has just been opened, at `p`. -/
def Opened (how : DirOpening) (h₀ : DirHeap abi) (t₀ : σ) (s : DirSys abi σ) :
    Prop :=
  Stateful.exec lib how.routine h₀ t₀ = (.ok (p, s.heap), s.native) ∧
    p ≠ null ∧ s.given = []

/-- A call that returns. -/
def DirStep (s : DirSys abi σ) (op : DirOp) (s' : DirSys abi σ) : Prop :=
  ∃ r, Stateful.exec lib (op.routine junk p) s.heap s.native =
      (.ok (r, s'.heap), s'.native) ∧
    s'.given = op.handed r s'.heap ++ s.given

variable {lib junk p} {s s' : DirSys abi σ} {d : ShimDirectory} {os : List Owned}
  {h : DirHeap abi} {t : σ}

theorem exec_nativeDir (hd : h.obj p = some (.directory d)) :
    Stateful.exec lib (nativeDir p) h t = (.ok (d.dir, h), t) := by
  rw [nativeDir, onDirHeap, Stateful.exec_onState, loadDirectory_of hd]
  rfl

theorem exec_readNext (hd : h.obj p = some (.directory d))
    (take : NativeDirent → DirHeap abi → Outcome (Ptr × DirHeap abi)) :
    Stateful.exec lib (readNext p take) h t =
      match lib (.readdir d.dir) t with
      | (some e, t') => (take e h, t')
      | (none, t') => (.ok (null, h), t') := by
  rw [readNext, Stateful.exec_bind_of (exec_nativeDir hd), callDir,
    Stateful.exec_bind_of (Stateful.exec_call _)]
  rcases lib (.readdir d.dir) t with ⟨_ | e, t'⟩
  · rfl
  · exact Stateful.exec_onState _

/-- What a call does: it makes an entry and hands it out, or nothing, or it
fills the entry it is given. -/
inductive DirEffect (p : Ptr) (d : ShimDirectory) (os : List Owned)
    (op : DirOp) (s s' : DirSys abi σ) : Prop where
  | hands (obj : DirObj abi) : Inserted s.heap s'.heap p d os →
      s'.heap.obj s.heap.next = some obj → obj.IsEntry →
      s'.given = (s.heap.next, some obj) :: s.given → DirEffect p d os op s s'
  | nothing : s'.heap = s.heap → s'.given = s.given → DirEffect p d os op s s'
  | fills (q : Ptr) (a b : DirObj abi) : op.buffer = some q →
      s.heap.obj q = some a → a.IsEntry → b.IsEntry →
      s'.heap = s.heap.put q b → s'.given = s.given → DirEffect p d os op s s'

/-- A call that reads and keeps. -/
theorem DirStep.effect_of_insert {op : DirOp}
    {take : NativeDirent → DirHeap abi → Outcome (Ptr × DirHeap abi)}
    (hop : op.routine junk p = readNext p take) (hhands : op.hands = true)
    (hs : IsStream s.heap p d os)
    (htake : ∀ e, ∃ h', take e s.heap = .ok (s.heap.next, h') ∧
      Inserted s.heap h' p d os)
    (hstep : DirStep lib junk p s op s') : DirEffect p d os op s s' := by
  obtain ⟨r, hexec, hgiven⟩ := hstep
  rw [hop, exec_readNext hs.directory] at hexec
  rw [DirOp.handed] at hgiven
  rcases hlib : lib (.readdir d.dir) s.native with ⟨_ | e, t'⟩
  · rw [hlib] at hexec
    obtain ⟨hr, -⟩ := Prod.mk.inj hexec
    obtain ⟨rfl, hheap⟩ := Prod.mk.inj (Except.ok.inj hr)
    rw [if_neg fun h => h.2 rfl, List.nil_append] at hgiven
    exact .nothing hheap.symm hgiven
  · obtain ⟨h', hrun, hinserted⟩ := htake e
    rw [hlib] at hexec
    dsimp only at hexec
    rw [hrun] at hexec
    obtain ⟨hr, -⟩ := Prod.mk.inj hexec
    obtain ⟨rfl, rfl⟩ := Prod.mk.inj (Except.ok.inj hr)
    obtain ⟨obj, hobj, his⟩ := hinserted.entry
    rw [if_pos ⟨hhands, Heap.ne_null hobj⟩, hobj] at hgiven
    exact .hands obj hinserted hobj his hgiven

/-- A call that reads and fills. -/
theorem DirStep.effect_of_fill {op : DirOp} {q : Ptr}
    {take : NativeDirent → DirHeap abi → Outcome (Ptr × DirHeap abi)}
    (hop : op.routine junk p = readNext p take) (hhands : op.hands = false)
    (hbuffer : op.buffer = some q) (hs : IsStream s.heap p d os)
    (htake : ∀ e r h', take e s.heap = .ok (r, h') → ∃ a b,
      s.heap.obj q = some a ∧ a.IsEntry ∧ b.IsEntry ∧ h' = s.heap.put q b)
    (hstep : DirStep lib junk p s op s') : DirEffect p d os op s s' := by
  obtain ⟨r, hexec, hgiven⟩ := hstep
  rw [hop, exec_readNext hs.directory] at hexec
  rw [DirOp.handed, if_neg (by rw [hhands]; simp), List.nil_append] at hgiven
  rcases hlib : lib (.readdir d.dir) s.native with ⟨_ | e, t'⟩
  · rw [hlib] at hexec
    obtain ⟨hr, -⟩ := Prod.mk.inj hexec
    exact .nothing (Prod.mk.inj (Except.ok.inj hr)).2.symm hgiven
  · rw [hlib] at hexec
    obtain ⟨hr, -⟩ := Prod.mk.inj hexec
    obtain ⟨a, b, ha, hisa, hisb, hheap⟩ := htake e r _ hr
    exact .fills q a b hbuffer ha hisa hisb hheap hgiven

/-- An entry that was filled was one before, of the same layout. -/
theorem fillEntry_inv {q r : Ptr} {e : NativeDirent} {h' : DirHeap abi}
    (hrun : fillEntry q e h = .ok (r, h')) : ∃ dst,
      h.obj q = some (.entry dst) ∧ r = q ∧
        h' = h.put q (.entry (copyDirentry dst e)) := by
  obtain ⟨a, hload, hrun⟩ := bind_eq_ok.mp hrun
  have hq := Heap.obj_of_load hload
  cases a with
  | entry dst =>
      dsimp only at hrun
      rw [Heap.store_of hq] at hrun
      cases hrun
      exact ⟨dst, hq, rfl, rfl⟩
  | directory d => cases hrun
  | record r => cases hrun
  | entry64 e => cases hrun

theorem fillEntry64_inv {q r : Ptr} {e : NativeDirent} {h' : DirHeap abi}
    (hrun : fillEntry64 q e h = .ok (r, h')) : ∃ dst,
      h.obj q = some (.entry64 dst) ∧ r = q ∧
        h' = h.put q (.entry64 (copyDirentry dst e)) := by
  obtain ⟨a, hload, hrun⟩ := bind_eq_ok.mp hrun
  have hq := Heap.obj_of_load hload
  cases a with
  | entry64 dst =>
      dsimp only at hrun
      rw [Heap.store_of hq] at hrun
      cases hrun
      exact ⟨dst, hq, rfl, rfl⟩
  | directory d => cases hrun
  | record r => cases hrun
  | entry e => cases hrun

/-- A routine that only turns to the native stream. -/
theorem exec_ask {β : Type} {f : Ptr → DirProg abi β} {b : β} {t' : σ}
    (hd : h.obj p = some (.directory d))
    (hask : Stateful.exec lib (f d.dir) h t = (.ok (b, h), t')) :
    Stateful.exec lib ((nativeDir p >>= f) >>= fun _ => pure null) h t =
      (.ok (null, h), t') := by
  have hnative : Stateful.exec lib (nativeDir p >>= f) h t = (.ok (b, h), t') :=
    (Stateful.exec_bind_of (exec_nativeDir hd) f).trans hask
  rw [Stateful.exec_bind_of hnative]
  rfl

theorem DirStep.effect_of_ask {op : DirOp} {β : Type} {f : Ptr → DirProg abi β}
    (hop : op.routine junk p = (nativeDir p >>= f) >>= fun _ => pure null)
    (hhands : op.hands = false) (hs : IsStream s.heap p d os) {b : β} {t' : σ}
    (hask : Stateful.exec lib (f d.dir) s.heap s.native = (.ok (b, s.heap), t'))
    (hstep : DirStep lib junk p s op s') : DirEffect p d os op s s' := by
  obtain ⟨r, hexec, hgiven⟩ := hstep
  rw [hop, exec_ask hs.directory hask] at hexec
  rw [DirOp.handed, if_neg (by rw [hhands]; simp), List.nil_append] at hgiven
  obtain ⟨hr, -⟩ := Prod.mk.inj hexec
  exact .nothing (Prod.mk.inj (Except.ok.inj hr)).2.symm hgiven

/-- The inversion of a step. -/
theorem DirStep.effect {op : DirOp} (hs : IsStream s.heap p d os)
    (hl : d.locked = false) (hstep : DirStep lib junk p s op s') :
    DirEffect p d os op s s' := by
  cases op with
  | readdir =>
      refine hstep.effect_of_insert rfl rfl hs fun e => ?_
      obtain ⟨h', hrun, -, hinserted⟩ := insertEntry_spec junk hs hl e
      exact ⟨h', hrun, hinserted⟩
  | readdir64 =>
      refine hstep.effect_of_insert rfl rfl hs fun e => ?_
      obtain ⟨h', hrun, -, hinserted⟩ := insertEntry64_spec junk hs hl e
      exact ⟨h', hrun, hinserted⟩
  | readdirR q =>
      refine hstep.effect_of_fill rfl rfl rfl hs fun e r h' hrun => ?_
      obtain ⟨dst, hq, -, hput⟩ := fillEntry_inv hrun
      exact ⟨_, .entry (copyDirentry dst e), hq, trivial, trivial, hput⟩
  | readdir64R q =>
      refine hstep.effect_of_fill rfl rfl rfl hs fun e r h' hrun => ?_
      obtain ⟨dst, hq, -, hput⟩ := fillEntry64_inv hrun
      exact ⟨_, .entry64 (copyDirentry dst e), hq, trivial, trivial, hput⟩
  | rewinddir => exact hstep.effect_of_ask rfl rfl hs (Stateful.exec_call _)
  | seekdir loc => exact hstep.effect_of_ask rfl rfl hs (Stateful.exec_call _)
  | telldir => exact hstep.effect_of_ask rfl rfl hs (Stateful.exec_call _)

theorem DirStep.of_exec {op : DirOp} {r : Ptr} {h' : DirHeap abi} {t' : σ}
    (hexec : Stateful.exec lib (op.routine junk p) s.heap s.native =
      (.ok (r, h'), t')) : ∃ s', DirStep lib junk p s op s' :=
  ⟨⟨h', t', op.handed r h' ++ s.given⟩, r, hexec, rfl⟩

theorem DirStep.exists_of_read {op : DirOp}
    {take : NativeDirent → DirHeap abi → Outcome (Ptr × DirHeap abi)}
    (hop : op.routine junk p = readNext p take) (hs : IsStream s.heap p d os)
    (htake : ∀ e, ∃ r h', take e s.heap = .ok (r, h')) :
    ∃ s', DirStep lib junk p s op s' := by
  have hexec : Stateful.exec lib (op.routine junk p) s.heap s.native = _ :=
    hop ▸ exec_readNext hs.directory take
  rcases hlib : lib (.readdir d.dir) s.native with ⟨_ | e, t'⟩
  · rw [hlib] at hexec
    exact of_exec hexec
  · obtain ⟨r, h', hrun⟩ := htake e
    rw [hlib] at hexec
    dsimp only at hexec
    rw [hrun] at hexec
    exact of_exec hexec

/-- Every call returns, given an entry where it asks for one. -/
theorem DirStep.exists_of_fits {op : DirOp} (hs : IsStream s.heap p d os)
    (hl : d.locked = false) (hfits : op.Fits s.heap) :
    ∃ s', DirStep lib junk p s op s' := by
  cases op with
  | readdir =>
      refine exists_of_read rfl hs fun e => ?_
      obtain ⟨h', hrun, -⟩ := insertEntry_spec junk hs hl e
      exact ⟨_, h', hrun⟩
  | readdir64 =>
      refine exists_of_read rfl hs fun e => ?_
      obtain ⟨h', hrun, -⟩ := insertEntry64_spec junk hs hl e
      exact ⟨_, h', hrun⟩
  | readdirR q =>
      obtain ⟨dst, hq⟩ := hfits
      refine exists_of_read rfl hs fun e =>
        ⟨q, s.heap.put q (.entry (copyDirentry dst e)), ?_⟩
      rw [fillEntry, Heap.load_of hq, ok_bind]
      dsimp only
      rw [Heap.store_of hq]
      rfl
  | readdir64R q =>
      obtain ⟨dst, hq⟩ := hfits
      refine exists_of_read rfl hs fun e =>
        ⟨q, s.heap.put q (.entry64 (copyDirentry dst e)), ?_⟩
      rw [fillEntry64, Heap.load_of hq, ok_bind]
      dsimp only
      rw [Heap.store_of hq]
      rfl
  | rewinddir => exact of_exec (exec_ask hs.directory (Stateful.exec_call _))
  | seekdir loc => exact of_exec (exec_ask hs.directory (Stateful.exec_call _))
  | telldir => exact of_exec (exec_ask hs.directory (Stateful.exec_call _))

/-! ## The invariant -/

structure DirInv (p : Ptr) (past : List DirOp) (s : DirSys abi σ) : Prop where
  stream : ∃ d os, d.locked = false ∧ IsStream s.heap p d os ∧
    os.map Owned.entry = s.given.map Prod.fst
  entries : ∀ x ∈ s.given, ∃ obj, x.2 = some obj ∧ obj.IsEntry
  kept : ∀ x ∈ s.given, x.1 ∉ past.filterMap DirOp.buffer → s.heap.obj x.1 = x.2

theorem isStream_createShimDir (dir : Ptr) (h : DirHeap abi) :
    IsStream (h.grow (.directory ⟨dir, null, false⟩)) h.next
      ⟨dir, null, false⟩ [] where
  directory := Heap.obj_grow_next
  list := .nil
  held _ ho := (List.not_mem_nil ho).elim
  nodup := List.nodup_nil

/-- A stream that was obtained was created. -/
theorem exec_opening {how : DirOpening} {h₀ h' : DirHeap abi} {t₀ t' : σ}
    (hp : p ≠ null)
    (hexec : Stateful.exec lib how.routine h₀ t₀ = (.ok (p, h'), t')) :
    ∃ dir t', Stateful.exec lib how.routine h₀ t₀ =
      (.ok (createShimDir dir h₀), t') := by
  have hcreate : ∀ (dir : Ptr) (t : σ), Stateful.exec lib
      (onDirHeap fun h => .ok (createShimDir dir h)) h₀ t =
        (.ok (createShimDir dir h₀), t) := fun dir t =>
    Stateful.exec_onState _
  have htested : ∀ (dir : Ptr) (t : σ), Stateful.exec lib
      (if dir ≠ null then onDirHeap fun h => .ok (createShimDir dir h)
      else return null) h₀ t = (.ok (p, h'), t') →
      Stateful.exec lib (if dir ≠ null then
        onDirHeap fun h => .ok (createShimDir dir h) else return null) h₀ t =
          (.ok (createShimDir dir h₀), t) := by
    intro dir t h
    by_cases hdir : dir ≠ null
    · rw [if_pos hdir]
      exact hcreate dir t
    · rw [if_neg hdir] at h
      exact absurd (Prod.mk.inj (Except.ok.inj (Prod.mk.inj h).1)).1.symm hp
  cases how with
  | fdopendir fd =>
      have hcall : Stateful.exec lib (DirOpening.fdopendir fd).routine h₀ t₀ = _ :=
        Stateful.exec_bind_of (Stateful.exec_call (DirCall.fdopendir fd)) _
      rw [hcall] at hexec ⊢
      exact ⟨_, _, htested _ _ hexec⟩
  | opendir filename =>
      have hroutine : (DirOpening.opendir filename).routine =
        (shimOpendir filename : DirProg abi Ptr) := rfl
      rw [hroutine, shimOpendir] at hexec ⊢
      by_cases hname : filename = lit "/sys/devices/"
      · rw [if_pos hname] at hexec ⊢
        rw [callDir, Stateful.exec_bind_of (Stateful.exec_call _)]
        exact ⟨_, _, hcreate _ _⟩
      · rw [if_neg hname] at hexec ⊢
        rw [callDir, Stateful.exec_bind_of (Stateful.exec_call _)] at hexec ⊢
        exact ⟨_, _, htested _ _ hexec⟩

theorem Opened.dirInv {how : DirOpening} {h₀ : DirHeap abi} {t₀ : σ}
    (hopened : Opened lib p how h₀ t₀ s) : DirInv p [] s := by
  obtain ⟨hexec, hp, hgiven⟩ := hopened
  obtain ⟨dir, t', hcreated⟩ := exec_opening hp hexec
  rw [hcreated] at hexec
  obtain ⟨hr, -⟩ := Prod.mk.inj hexec
  obtain ⟨rfl, hheap⟩ := Prod.mk.inj (Except.ok.inj hr)
  refine ⟨⟨⟨dir, null, false⟩, [], rfl, ?_, ?_⟩, ?_, ?_⟩
  · rw [← hheap]
    exact isStream_createShimDir dir h₀
  · rw [hgiven]
    rfl
  · rw [hgiven]
    exact List.forall_mem_nil _
  · rw [hgiven]
    exact List.forall_mem_nil _

theorem DirInv.step {past : List DirOp} {op : DirOp} (hinv : DirInv p past s)
    (hstep : DirStep lib junk p s op s') : DirInv p (past ++ [op]) s' := by
  obtain ⟨d, os, hl, hs, hgiven⟩ := hinv.stream
  have hpast : ∀ q, q ∉ (past ++ [op]).filterMap DirOp.buffer →
      q ∉ past.filterMap DirOp.buffer ∧ op.buffer ≠ some q := by
    intro q hq
    rw [List.filterMap_append, List.mem_append, not_or] at hq
    refine ⟨hq.1, fun hop => hq.2 ?_⟩
    exact List.mem_filterMap.mpr ⟨op, List.mem_singleton_self op, hop⟩
  have hmem : ∀ x ∈ s.given, x.1 ∈ os.flatMap Owned.ptrs := by
    intro x hx
    have hentry : x.1 ∈ os.map Owned.entry :=
      hgiven ▸ List.mem_map_of_mem hx
    obtain ⟨o, ho, heq⟩ := List.mem_map.mp hentry
    exact List.mem_flatMap.mpr ⟨o, ho, heq ▸ List.mem_cons_self ..⟩
  cases hstep.effect hs hl with
  | hands obj hinserted hobj his hgiven' =>
      refine ⟨⟨_, _, rfl, hinserted.stream, ?_⟩, ?_, ?_⟩
      · rw [hgiven', List.map_cons, List.map_cons, hgiven]
      · rw [hgiven']
        exact List.forall_mem_cons.mpr ⟨⟨obj, rfl, his⟩, hinv.entries⟩
      · intro x hx hnot
        rw [hgiven'] at hx
        rcases List.mem_cons.mp hx with rfl | hx
        · exact hobj
        · obtain ⟨a, ha, -⟩ := hs.obj_of_mem (hmem x hx)
          have hne := ne_of_mem_of_not_mem (hmem x hx) hs.notMem
          rw [hinserted.rest _ hne (Heap.lt_next ha)]
          exact hinv.kept x hx (hpast _ hnot).1
  | nothing hheap hgiven' =>
      refine ⟨⟨d, os, hl, hheap ▸ hs, hgiven'.symm ▸ hgiven⟩,
        hgiven'.symm ▸ hinv.entries, fun x hx hnot => ?_⟩
      rw [hheap]
      exact hinv.kept x (hgiven' ▸ hx) (hpast _ hnot).1
  | fills q a b hbuffer ha hisa hisb hheap hgiven' =>
      refine ⟨⟨d, os, hl, ?_, hgiven'.symm ▸ hgiven⟩, hgiven'.symm ▸ hinv.entries,
        fun x hx hnot => ?_⟩
      · rw [hheap]
        exact hs.put_entry ha hisa hisb
      · have hne : x.1 ≠ q := fun h => (hpast _ hnot).2 (h ▸ hbuffer)
        rw [hheap, Heap.obj_put_of_ne hne]
        exact hinv.kept x (hgiven' ▸ hx) (hpast _ hnot).1

/-- Closing a stream frees what it owns. -/
theorem exec_shimClosedir (hs : IsStream h p d os) (hl : d.locked = false)
    {budget : Nat} (hbudget : os.length < budget) (t : σ) :
    ∃ err h' t', Stateful.exec lib (shimClosedir budget p) h t =
        (.ok (err, h'), t') ∧ Closed h h' p d os := by
  obtain ⟨h', hrun, hclosed⟩ := destroyShimDir_spec hs hl hbudget
  refine ⟨(lib (.closedir d.dir) t).1, h', (lib (.closedir d.dir) t).2, ?_,
    hclosed⟩
  have hdestroy : Stateful.exec lib (onDirHeap fun h => do
      return ((), ← destroyShimDir budget p h)) h (lib (.closedir d.dir) t).2 =
      (.ok ((), h'), (lib (.closedir d.dir) t).2) := by
    rw [onDirHeap, Stateful.exec_onState, hrun]
    rfl
  rw [shimClosedir, Stateful.exec_bind_of (exec_nativeDir hs.directory)]
  rw [callDir, Stateful.exec_bind_of (Stateful.exec_call _),
    Stateful.exec_bind_of hdestroy]
  rfl

end Runs

section Kept

variable {lib : (c : DirCall) → σ → DirAnswer c × σ} {junk : Junk abi} {p : Ptr}

/-- A stream keeps what it hands out, which are entries. After any calls on it
each is as it was when it was returned, unless the program has had it filled
since; the list holds a record for each of them; and closing the stream frees
these pairs, each once, and nothing else but the directory, last. -/
theorem dirStream_keeps {how : DirOpening} {h₀ : DirHeap abi} {t₀ : σ}
    {ops : List DirOp} {s : DirSys abi σ}
    (hrun : Runs (Opened lib p how h₀ t₀) (DirStep lib junk p) ops s) :
    (∀ op, op.Fits s.heap → ∃ s', DirStep lib junk p s op s') ∧
      (∀ x ∈ s.given, (∃ obj, x.2 = some obj ∧ obj.IsEntry) ∧
        (x.1 ∉ ops.filterMap DirOp.buffer → s.heap.obj x.1 = x.2)) ∧
      ∃ d os, IsStream s.heap p d os ∧
        os.map Owned.entry = s.given.map Prod.fst ∧
        ∀ budget, os.length < budget → ∃ err h' t',
          Stateful.exec lib (shimClosedir budget p) s.heap s.native =
            (.ok (err, h'), t') ∧ Closed s.heap h' p d os := by
  have hinv : DirInv p ops s :=
    hrun.invariant (fun _ => Opened.dirInv) fun _ _ _ _ _ hinv hstep =>
      hinv.step hstep
  obtain ⟨d, os, hl, hs, hgiven⟩ := hinv.stream
  exact ⟨fun op hfits => DirStep.exists_of_fits hs hl hfits,
    fun x hx => ⟨hinv.entries x hx, hinv.kept x hx⟩, d, os, hs, hgiven,
    fun budget hbudget => exec_shimClosedir hs hl hbudget s.native⟩

end Kept

/-! ## One library -/

/-- The entry with number `n`. -/
def numbered (n : Nat) : NativeDirent := ⟨BitVec.ofNat 64 n, 0, 0, 8, [46]⟩

/-- A library whose streams never end, and number their entries. -/
def countingDir : (c : DirCall) → Nat → DirAnswer c × Nat
  | .opendir _, n | .fdopendir _, n => ((1 : Ptr), n)
  | .readdir _, n => (some (numbered n), n + 1)
  | .rewinddir _, _ => ((), 0)
  | .seekdir .., n => ((), n)
  | .telldir _, n => ((n : Int), n)
  | .closedir _, n => ((0 : Word), n)

/-- Memory full of zeros. -/
def zeroJunk : Junk .amd64 where
  entry _ := ⟨0, 0, 0, 0, ⟨.replicate 256 0, List.length_replicate⟩⟩
  entry64 _ := ⟨0, 0, 0, 0, ⟨.replicate 256 0, List.length_replicate⟩⟩
  link _ := null

/-- A new stream, at 1. -/
def newStream : DirSys .amd64 Nat :=
  ⟨Heap.empty.grow (.directory ⟨1, null, false⟩), 0, []⟩

/-- The entry that `readdir` makes of the first one. -/
def firstEntry : DirObj .amd64 :=
  .entry (copyDirentry (zeroJunk.entry 2) (numbered 0))

/-- The stream after a `readdir`: an entry at 2, its record at 3. -/
def readOnce : DirSys .amd64 Nat where
  heap := pushRecord (newStream.heap.grow firstEntry) 1 ⟨1, null, false⟩ ⟨null, 2, null⟩
  native := 1
  given := [(2, some firstEntry)]

theorem opened_newStream :
    Opened countingDir 1 (.fdopendir 3) Heap.empty 0 newStream :=
  ⟨rfl, by decide, rfl⟩

theorem step_readOnce :
    DirStep countingDir zeroJunk 1 newStream .readdir readOnce :=
  ⟨2, rfl, rfl⟩

/-- The stream after the entry at 2 was given to a `readdir_r`. -/
def filledAgain : DirSys .amd64 Nat where
  heap := readOnce.heap.put 2 (.entry (copyDirentry
    (copyDirentry (zeroJunk.entry 2) (numbered 0)) (numbered 1)))
  native := 2
  given := [(2, some firstEntry)]

theorem step_filledAgain :
    DirStep countingDir zeroJunk 1 readOnce (.readdirR 2) filledAgain :=
  ⟨2, rfl, rfl⟩

/-- An entry that the program gives to `readdir_r` does not stay as it was. -/
theorem entry_filledAgain :
    ∃ s, Runs (Opened countingDir 1 (.fdopendir 3) Heap.empty 0)
        (DirStep countingDir zeroJunk 1) [.readdir, .readdirR 2] s ∧
      ∃ x ∈ s.given, s.heap.obj x.1 ≠ x.2 := by
  have hstart : Runs (Opened countingDir 1 (.fdopendir 3) Heap.empty 0)
      (DirStep countingDir zeroJunk 1) [] newStream := .nil opened_newStream
  refine ⟨filledAgain, (hstart.snoc step_readOnce).snoc step_filledAgain,
    (2, some firstEntry), List.mem_singleton_self _, ?_⟩
  intro hsame
  have hobj : filledAgain.heap.obj 2 = some (.entry (copyDirentry
      (copyDirentry (zeroJunk.entry 2) (numbered 0)) (numbered 1))) := rfl
  have hentry := DirObj.entry.inj (Option.some.inj (hobj.symm.trans hsame))
  have hino : (numbered 1).dIno ≠ (numbered 0).dIno := by decide
  exact hino (congrArg LinuxDirent.dIno hentry)

/-- The entry that `readdir64` makes of the second one. -/
def secondEntry : DirObj .amd64 :=
  .entry64 (copyDirentry (zeroJunk.entry64 4) (numbered 1))

/-- The stream after a `readdir64` too: another entry at 4, its record at 5. -/
def readBoth : DirSys .amd64 Nat where
  heap := pushRecord (readOnce.heap.grow secondEntry) 1 ⟨1, 3, false⟩ ⟨null, null, 4⟩
  native := 2
  given := [(4, some secondEntry), (2, some firstEntry)]

/-- The stream rewound, and its first entry at 2 again. -/
def readAgain : DirSys .amd64 Nat where
  heap := readBoth.heap.put 2 (.entry (copyDirentry
    (copyDirentry (zeroJunk.entry 2) (numbered 0)) (numbered 0)))
  native := 1
  given := readBoth.given

/-- An entry of each kind, calls in between, and one that fills the first of
them again: the second is there until the stream is closed, and then neither
is. -/
theorem readBoth_keeps :
    Runs (Opened countingDir 1 (.fdopendir 3) Heap.empty 0)
        (DirStep countingDir zeroJunk 1)
        [.readdir, .telldir, .readdir64, .rewinddir, .readdirR 2] readAgain ∧
      readAgain.heap.obj 4 = some secondEntry ∧
      ∃ err h' t', Stateful.exec countingDir (shimClosedir 3 1) readAgain.heap
        readAgain.native = (.ok (err, h'), t') ∧ h'.obj 2 = none ∧ h'.obj 4 = none := by
  have hstart : Runs (Opened countingDir 1 (.fdopendir 3) Heap.empty 0)
      (DirStep countingDir zeroJunk 1) [] newStream := .nil opened_newStream
  have htold : DirStep countingDir zeroJunk 1 readOnce .telldir readOnce :=
    ⟨null, rfl, rfl⟩
  have hread : DirStep countingDir zeroJunk 1 readOnce .readdir64 readBoth :=
    ⟨4, rfl, rfl⟩
  have hback : DirStep countingDir zeroJunk 1 readBoth .rewinddir
      { readBoth with native := 0 } := ⟨null, rfl, rfl⟩
  have hfilled : DirStep countingDir zeroJunk 1 { readBoth with native := 0 }
      (.readdirR 2) readAgain := ⟨2, rfl, rfl⟩
  have hrun := ((((hstart.snoc step_readOnce).snoc htold).snoc hread).snoc hback).snoc
    hfilled
  obtain ⟨-, hkept, d, os, -, howned, hclose⟩ := dirStream_keeps hrun
  have hlen : os.length = 2 := by
    rw [← List.length_map Owned.entry, howned]
    rfl
  obtain ⟨err, h', t', hexec, hclosed⟩ := hclose 3 (by rw [hlen]; decide)
  have hgone : ∀ q ∈ [4, 2], h'.obj q = none := by
    intro q hq
    have hmem : q ∈ os.map Owned.entry := howned ▸ hq
    obtain ⟨o, ho, rfl⟩ := List.mem_map.mp hmem
    exact hclosed.gone _ (List.mem_append_left _
      (List.mem_flatMap.mpr ⟨o, ho, List.mem_cons_self ..⟩))
  exact ⟨hrun, (hkept (4, some secondEntry) List.mem_cons_self).2 (by decide), err, h',
    t', hexec, hgone 2 (by simp), hgone 4 (by simp)⟩

end Libc6Shim
