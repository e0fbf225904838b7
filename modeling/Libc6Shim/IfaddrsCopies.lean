import Libc6Shim.Ifaddrs

/-!
# A list of interfaces, copied

`getifaddrs` copies the whole list, and `freeifaddrs` frees every object of the
copy once, for every list but the empty one: the first record is copied before
there is a look at whether it is there (`getifaddrs_copies_iff`).
-/

namespace Libc6Shim

open CSem Buf Outcome

/-! ## Flags -/

/-- The table as bit numbers. -/
def ifFlagBits : List (Nat × Nat) :=
  [(0, 0), (1, 1), (2, 2), (3, 3), (4, 4), (6, 6), (7, 7), (8, 8), (9, 9), (15, 12)]

def IfFlag.bits : IfFlag → Nat × Nat
  | up => (0, 0)
  | broadcast => (1, 1)
  | debug => (2, 2)
  | loopback => (3, 3)
  | pointopoint => (4, 4)
  | running => (6, 6)
  | noarp => (7, 7)
  | promisc => (8, 8)
  | allmulti => (9, 9)
  | multicast => (15, 12)

theorem ifFlagPairs_eq : ifFlagPairs = bitTable 32 ifFlagBits := by decide

theorem ifFlagBits_lt : ∀ p ∈ ifFlagBits, p.1 < 32 ∧ p.2 < 32 := by decide

theorem ifFlagBits_injective : ∀ p ∈ ifFlagBits, ∀ q ∈ ifFlagBits,
    q.2 = p.2 → q = p := by decide

theorem IfFlag.bits_mem (f : IfFlag) : f.bits ∈ ifFlagBits := by
  cases f <;> decide

theorem IfFlag.native_eq (f : IfFlag) : f.native = BitVec.twoPow 32 f.bits.1 := by
  cases f <;> decide

theorem IfFlag.linux_eq (f : IfFlag) : f.linux = BitVec.twoPow 32 f.bits.2 := by
  cases f <;> decide

/-- A flag is set if it was. -/
theorem nativeToLinuxIfFlags_and (flags : Word) (f : IfFlag) :
    nativeToLinuxIfFlags flags &&& f.linux ≠ 0 ↔ flags &&& f.native ≠ 0 := by
  rw [nativeToLinuxIfFlags, ifFlagPairs_eq, f.native_eq, f.linux_eq]
  exact setFlags_bits_and_ne_zero ifFlagBits_lt f.bits_mem
    (ifFlagBits_injective f.bits f.bits_mem) flags

/-- And nothing else is. -/
theorem nativeToLinuxIfFlags_known (flags : Word) :
    nativeToLinuxIfFlags flags &&& ~~~knownLinuxIfFlags = 0 := by
  have hknown : ∀ p ∈ ifFlagBits, knownLinuxIfFlags.getLsbD p.2 = true := by decide
  rw [and_not_eq_zero_iff]
  intro i hi hset
  rw [nativeToLinuxIfFlags, ifFlagPairs_eq,
    getLsbD_setFlags_bits (fun p hp => (ifFlagBits_lt p hp).1) flags hi] at hset
  obtain ⟨p, hp, -, rfl⟩ := hset
  exact hknown p hp

/-! ## Addresses -/

theorem nativeToLinuxSockaddrDl_eq {dest src : Buf}
    (hd : dest.length = sizeofLinuxSockaddrLl) (hs : 4 ≤ src.length) :
    nativeToLinuxSockaddrDl dest src =
      .ok (leBytes 2 linuxAfPacket.toNat ++ leBytes 2 0 ++
        leBytes 4 (natAt src 2 2) ++ .replicate 12 0) := by
  have hlen : dest.length = 20 := hd
  have hstore : dest.store 0 (leBytes 2 linuxAfPacket.toNat) =
      .ok (patch dest 0 (leBytes 2 linuxAfPacket.toNat)) :=
    store_of (by rw [length_leBytes]; omega)
  rw [nativeToLinuxSockaddrDl, hstore, ok_bind,
    store_next (by simp) (by simp; omega), ok_bind, loadNat_of (by omega), ok_bind,
    store_next (by simp) (by simp; omega), ok_bind,
    store_next (by simp) (by simp; omega), ok_bind,
    store_next (by simp) (by simp; omega), ok_bind,
    store_next (by simp) (by simp; omega), ok_bind,
    store_next (by simp) (by simp; omega), patch_whole (by simp; omega)]
  simp only [List.append_assoc]
  rfl

section

variable (junk : Malloced LinuxIfaddrs) {h : IfaddrsHeap} {p : Ptr}

theorem copyIfaAddr_makes {x : IfAddr} (hp : BytesAt h IfAddr.IsNative p x) :
    ∃ b, x.IsLinux b ∧ copyIfaAddr junk p h = .ok (h.next, h.grow (.bytes b)) := by
  obtain ⟨b, hb, hx⟩ := hp
  cases x with
  | link index =>
      obtain ⟨hfamily, hlen, hindex⟩ := hx
      refine ⟨_, rfl, ?_⟩
      rw [copyIfaAddr, loadBytes_of hb, ok_bind, hfamily, ok_bind, if_pos rfl]
      refine mallocAddr_of hb fun dest hd => ?_
      rw [nativeToLinuxSockaddrDl_eq hd hlen, hindex]
  | inet x =>
      obtain ⟨hfamily, hx⟩ := hx
      obtain ⟨d, hd, hrun⟩ := mallocAddr_makes junk ⟨b, hb, hx⟩
      refine ⟨d, hd, ?_⟩
      rw [copyIfaAddr, loadBytes_of hb, ok_bind, hfamily, ok_bind]
      cases x with
      | inet port addr =>
          have hne : pfInet ≠ afLink := by decide
          rw [InetAddr.family, if_neg hne, if_pos rfl]
          exact hrun
      | inet6 port flowinfo addr scopeId =>
          have hne : pfInet6 ≠ afLink := by decide
          have hne' : pfInet6 ≠ pfInet := by decide
          rw [InetAddr.family, if_neg hne, if_neg hne', if_pos rfl]
          exact hrun

theorem copyIfaNetmask_makes {x : InetAddr} (hp : BytesAt h IsNativeNetmask p x) :
    ∃ b, x.IsLinux b ∧
      copyIfaNetmask junk p h = .ok (h.next, h.grow (.bytes b)) := by
  obtain ⟨b, hb, hfamily, hx⟩ := hp
  obtain ⟨d, hd, hrun⟩ := mallocAddr_makes junk ⟨b, hb, hx⟩
  refine ⟨d, hd, ?_⟩
  rw [copyIfaNetmask, loadBytes_of hb, ok_bind, hfamily, ok_bind]
  cases x with
  | inet port addr =>
      rw [InetAddr.family, if_pos rfl]
      exact hrun
  | inet6 port flowinfo addr scopeId =>
      have hne : pfInet6 ≠ pfInet := by decide
      rw [InetAddr.family, if_neg hne, if_pos rfl]
      exact hrun

end

/-! ## One record -/

/-- A record is copied as it is. -/
theorem copiesIfaddrs (junk : Malloced LinuxIfaddrs) :
    CopiesElement ifaddrsEntry linuxIfaddrsEntry (copyIfaddrs junk) := by
  intro h src a x hsrc htells
  cases a with
  | linux ifa => exact htells.elim
  | bytes b => exact htells.elim
  | native ifa =>
      have hifa : IfRecord.IsNative h ifa x := htells
      -- the record itself comes first, and is written last
      let h₀ : IfaddrsHeap := h.grow (.linux (junk.info h.next))
      have hs₀ : h.Since h₀ := (Heap.Since.refl h).grow _
      have hlt : h.next < h₀.next := Nat.lt_succ_self _
      obtain ⟨s, hs, hname⟩ := strdup_makes
        (orNull_since (o := some x.name) hifa.name hs₀)
      have hname' := PartMade.of_grow (h := h₀) hs
      have hs₁ := hs₀.trans hname'.pieces.since
      obtain ⟨addr, h₂, ps, haddr, haddr'⟩ := orNull_made (R := IfAddr.IsLinux)
        (fun x hx => copyIfaAddr_makes junk hx) (orNull_since hifa.addr hs₁)
      have hs₂ := hs₁.trans haddr'.pieces.since
      obtain ⟨mask, h₃, qs, hmask, hmask'⟩ := orNull_made (R := InetAddr.IsLinux)
        (fun x hx => copyIfaNetmask_makes junk hx)
        (orNull_since hifa.netmask hs₂)
      have hpieces := (hname'.pieces.append haddr'.pieces).append hmask'.pieces
      have hobj := hpieces.since.obj_of (Heap.obj_grow_next (h := h))
      let l : LinuxIfaddrs := { junk.info h.next with
        ifaName := h₀.next
        ifaFlags := nativeToLinuxIfFlags ifa.ifaFlags
        ifaAddr := addr
        ifaNetmask := mask
        ifaDstaddr := null
        ifaData := null }
      have hmade : Made linuxIfaddrsEntry h _ h.next (.linux l) x :=
        hpieces.made (q := l.ifaNext) ?_ rfl ?_
      · refine ⟨h.next, .linux l, _, ?_, hmade⟩
        rw [copyIfaddrs, Heap.malloc]
        show loadNative h₀ src >>= _ = _
        rw [loadNative_of (hs₀.obj_of hsrc), ok_bind, hname, ok_bind]
        show orNull (copyIfaAddr junk) ifa.ifaAddr _ >>= _ = _
        rw [haddr, ok_bind]
        show orNull (copyIfaNetmask junk) ifa.ifaNetmask h₂ >>= _ = _
        rw [hmask, ok_bind]
        show loadLinux h₃ h.next >>= _ = _
        rw [loadLinux_of hobj, ok_bind, Heap.store_of hobj]
        rfl
      · show ([h₀.next] ++ [addr] ++ [mask] ++ [null]).filter (· ≠ null) = _
        rw [List.map_append, List.map_append, ← hname'.parts, ← haddr'.parts,
          ← hmask'.parts, List.filter_append, List.filter_append,
          List.filter_append]
        exact List.append_nil _
      · have hsince := haddr'.pieces.since.trans hmask'.pieces.since
        have hlt₁ := hlt.trans_le hname'.pieces.since.next_le
        exact {
          name := hname'.stays hsince hlt _
          flags := fun f => (nativeToLinuxIfFlags_and ..).trans (hifa.flags f)
          known := nativeToLinuxIfFlags_known _
          addr := haddr'.stays hmask'.pieces.since hlt₁ _
          netmask := hmask'.stays (.refl _)
            (hlt₁.trans_le haddr'.pieces.since.next_le) _ }

/-- Of no record there is no copy. -/
theorem copyIfaddrs_null (junk : Malloced LinuxIfaddrs) (h : IfaddrsHeap) :
    copyIfaddrs junk null h = .error .fault := by
  rw [copyIfaddrs, Heap.malloc]
  show loadNative _ null >>= _ = _
  rw [loadNative_null, error_bind]

/-- What a record owns is freed before it. -/
theorem releaseIfaddrs_eq {h : IfaddrsHeap} {p q : Ptr} {a : IfaddrsObj}
    (hp : h.obj p = some a) (hnext : linuxIfaddrsEntry.next a = some q)
    (hnot : p ∉ linuxIfaddrsEntry.parts a) :
    releaseIfaddrs p h = Heap.freeAll (linuxIfaddrsEntry.parts a ++ [p]) h := by
  cases a with
  | native ifa => cases hnext
  | bytes b => cases hnext
  | linux ifa =>
      have hne : ∀ r ∈ [ifa.ifaName, ifa.ifaAddr, ifa.ifaNetmask], p ≠ r := by
        rintro r hr rfl
        refine hnot (List.mem_filter.mpr ⟨?_, decide_eq_true (Heap.ne_null hp)⟩)
        exact List.mem_append_left [ifa.ifaDstaddr] hr
      have hparts : linuxIfaddrsEntry.parts (.linux ifa) = [ifa.ifaName,
        ifa.ifaAddr, ifa.ifaNetmask, ifa.ifaDstaddr].filter (· ≠ null) := rfl
      rw [hparts, Heap.freeAll_concat, Heap.freeAll_filter, releaseIfaddrs,
        loadLinux_of hp]
      simp only [Heap.freeAll, Heap.freeIf_eq, bind_assoc, ok_bind]
      refine free_then_load hp (hne _ (by simp)) fun h₁ hp₁ => ?_
      refine free_then_load hp₁ (hne _ (by simp)) fun h₂ hp₂ => ?_
      exact free_then_load hp₂ (hne _ (by simp)) fun _ _ => rfl

/-! ## The list -/

/-- What is wanted where the native side has interfaces that say `xs`: a list
that says the same, which can be freed. -/
def CopiesInterfaces (lib : IfaddrsLib) (junk : Malloced LinuxIfaddrs)
    (h : IfaddrsHeap) (xs : List IfRecord) : Prop :=
  ∀ budget, xs.length < budget → ∃ p new h₂,
    shimGetifaddrs lib junk budget h = .ok (0, some p, h₂) ∧
    Holds linuxIfaddrsEntry h₂ p xs new ∧
    ∀ budget', xs.length < budget' → ∃ h₃ gone,
      shimFreeifaddrs budget' p h₂ = .ok h₃ ∧
      h₃.freed = h₂.freed ++ gone ∧ gone.map Prod.fst = new ∧
      ∀ r, r ∉ new → h₃.obj r = h₂.obj r

section

variable {lib : IfaddrsLib} (junk : Malloced LinuxIfaddrs) {h h₁ : IfaddrsHeap}
  {head : Ptr} {own : List Ptr}

theorem shimGetifaddrs_copies (hlib : lib.Documented)
    (hcall : lib.getifaddrs h = (0, head, h₁)) {x : IfRecord} {xs : List IfRecord}
    (hl : HasList ifaddrsEntry h₁ head (x :: xs) own) {budget : Nat}
    (hbudget : xs.length < budget) :
    ∃ p new h₂, shimGetifaddrs lib junk budget h = .ok (0, some p, h₂) ∧
      Holds linuxIfaddrsEntry h₂ p (x :: xs) new := by
  obtain ⟨p, new, h', h₂, hcopy, hfree, hholds⟩ :=
    copyList_takes (copiesIfaddrs junk) hl (hlib _ _ _ _ _ hcall hl) hbudget
  refine ⟨p, new, h₂, ?_, hholds⟩
  rw [shimGetifaddrs, hcall]
  show copyList _ _ _ budget head h₁ >>= _ = _
  rw [hcopy, ok_bind]
  show lib.freeifaddrs head h' >>= _ = _
  rw [hfree]
  rfl

/-- Where there is no first record, it is read all the same. -/
theorem shimGetifaddrs_null (hcall : lib.getifaddrs h = (0, null, h₁))
    (budget : Nat) : shimGetifaddrs lib junk budget h = .error .fault := by
  rw [shimGetifaddrs, hcall]
  show copyList _ _ _ budget null h₁ >>= _ = _
  rw [copyList_null (copyIfaddrs_null junk h₁), error_bind]

end

theorem copiesInterfaces_of_ne_nil {lib : IfaddrsLib} (hlib : lib.Documented)
    (junk : Malloced LinuxIfaddrs) {h h₁ : IfaddrsHeap} {head : Ptr}
    (hcall : lib.getifaddrs h = (0, head, h₁)) {xs : List IfRecord}
    {own : List Ptr} (hl : HasList ifaddrsEntry h₁ head xs own) (hne : xs ≠ []) :
    CopiesInterfaces lib junk h xs := by
  obtain ⟨x, xs, rfl⟩ := List.exists_cons_of_ne_nil hne
  intro budget hbudget
  obtain ⟨p, new, h₂, hrun, hholds⟩ := shimGetifaddrs_copies junk hlib
    hcall hl ((Nat.lt_succ_self _).trans hbudget)
  refine ⟨p, new, h₂, hrun, hholds, fun budget' hbudget' => ?_⟩
  exact freeing_rule (fun _ _ _ _ hp hnext hnot => releaseIfaddrs_eq hp hnext hnot)
    hholds hbudget'

theorem not_copiesInterfaces_nil {lib : IfaddrsLib} (junk : Malloced LinuxIfaddrs)
    {h h₁ : IfaddrsHeap} {head : Ptr} (hcall : lib.getifaddrs h = (0, head, h₁))
    {own : List Ptr} (hl : HasList ifaddrsEntry h₁ head [] own) :
    ¬CopiesInterfaces lib junk h [] := by
  intro hcopies
  cases hl.list
  obtain ⟨p, new, h₂, hrun, -⟩ := hcopies 1 Nat.one_pos
  rw [shimGetifaddrs_null junk hcall] at hrun
  cases hrun

/-- All the lists but the empty one are copied. -/
theorem getifaddrs_copies_iff {lib : IfaddrsLib} (hlib : lib.Documented)
    (junk : Malloced LinuxIfaddrs) {h h₁ : IfaddrsHeap} {head : Ptr}
    (hcall : lib.getifaddrs h = (0, head, h₁)) {xs : List IfRecord}
    {own : List Ptr} (hl : HasList ifaddrsEntry h₁ head xs own) :
    CopiesInterfaces lib junk h xs ↔ xs ≠ [] := by
  refine ⟨?_, copiesInterfaces_of_ne_nil hlib junk hcall hl⟩
  rintro hcopies rfl
  exact not_copiesInterfaces_nil junk hcall hl hcopies

/-! ### No interface, and one -/

def zeroedIfaddrs : Malloced LinuxIfaddrs :=
  .zeroed ⟨null, null, 0, null, null, null, null⟩

def noInterfaces : IfaddrsLib where
  getifaddrs h := (0, null, h)
  freeifaddrs := freeList ifaddrsEntry

theorem noInterfaces_not_copied :
    ¬CopiesInterfaces noInterfaces zeroedIfaddrs Heap.empty [] :=
  not_copiesInterfaces_nil zeroedIfaddrs rfl
    (show HasList ifaddrsEntry _ null [] [] from ⟨.nil, nofun⟩)

/-- The loopback interface: up, running, with a netmask. -/
def lo0 : IfRecord where
  name := lit "lo0"
  flags f := match f with
    | .up | .loopback | .running | .multicast => true
    | _ => false
  addr := some (.inet (.inet [0, 0] [127, 0, 0, 1]))
  netmask := some (.inet [0, 0] [255, 0, 0, 0])

def loopbackInterface : IfaddrsLib where
  getifaddrs h := (0, h.next + 3,
    (((h.grow (.bytes (lit "lo0" ++ [0]))).grow
      (.bytes ([16, 2, 0, 0, 127, 0, 0, 1] ++ .replicate 8 0))).grow
      (.bytes ([16, 2, 0, 0, 255, 0, 0, 0] ++ .replicate 8 0))).grow
      (.native ⟨null, h.next, 0x8049, h.next + 1, h.next + 2, null, null⟩))
  freeifaddrs := freeList ifaddrsEntry

theorem holds_loopbackInterface (h : IfaddrsHeap) :
    Holds ifaddrsEntry (loopbackInterface.getifaddrs h).2.2 (h.next + 3) [lo0]
      [h.next, h.next + 1, h.next + 2, h.next + 3] := by
  have hnull : h.next ≠ null := Nat.ne_of_gt h.next_pos
  have hne : ∀ n, h.next + n ≠ null := fun n =>
    Nat.ne_of_gt (Nat.add_pos_left h.next_pos n)
  have hifa : (loopbackInterface.getifaddrs h).2.2.obj (h.next + 3) = some (.native
      ⟨null, h.next, 0x8049, h.next + 1, h.next + 2, null, null⟩) :=
    Heap.obj_grow_next
  have hmask : (loopbackInterface.getifaddrs h).2.2.obj (h.next + 2) = some (.bytes
      ([16, 2, 0, 0, 255, 0, 0, 0] ++ .replicate 8 0)) :=
    Heap.obj_grow_of Heap.obj_grow_next
  have haddr : (loopbackInterface.getifaddrs h).2.2.obj (h.next + 1) = some (.bytes
      ([16, 2, 0, 0, 127, 0, 0, 1] ++ .replicate 8 0)) :=
    Heap.obj_grow_of (Heap.obj_grow_of Heap.obj_grow_next)
  have hname : (loopbackInterface.getifaddrs h).2.2.obj h.next =
      some (.bytes (lit "lo0" ++ [0])) :=
    Heap.obj_grow_of (Heap.obj_grow_of (Heap.obj_grow_of Heap.obj_grow_next))
  have hflags : ∀ f : IfFlag, (0x8049 : Word) &&& f.native ≠ 0 ↔ lo0.flags f = true :=
    fun f => by cases f <;> decide
  refine ⟨⟨?_, ?_⟩, ?_⟩
  · have htells : IfRecord.IsNative (loopbackInterface.getifaddrs h).2.2
        ⟨null, h.next, 0x8049, h.next + 1, h.next + 2, null, null⟩ lo0 :=
      ⟨⟨_, hname, rfl⟩, hflags, ⟨_, haddr, rfl, by decide, rfl, rfl⟩, _,
        hmask, rfl, by decide, rfl, rfl⟩
    have hlist : OwnedList ifaddrsEntry (loopbackInterface.getifaddrs h).2.2
        (h.next + 3) [lo0] _ := .cons hifa rfl htells .nil
    simpa [ifaddrsEntry, List.filter, hne, hnull] using hlist
  · intro r hr
    simp only [List.mem_cons, List.not_mem_nil, or_false] at hr
    rcases hr with rfl | rfl | rfl | rfl
    · exact ⟨_, hname⟩
    · exact ⟨_, haddr⟩
    · exact ⟨_, hmask⟩
    · exact ⟨_, hifa⟩
  · simp

theorem loopbackInterface_documented : loopbackInterface.Documented := by
  intro h head h₁ xs own hcall hl
  cases hcall
  have hholds := holds_loopbackInterface h
  rw [hl.list.own_unique hholds.list]
  exact freeList_takes hholds

theorem loopbackInterface_copied :
    CopiesInterfaces loopbackInterface zeroedIfaddrs Heap.empty [lo0] :=
  (getifaddrs_copies_iff loopbackInterface_documented zeroedIfaddrs rfl
    (holds_loopbackInterface Heap.empty).toHasList).mpr (List.cons_ne_nil _ _)

end Libc6Shim
