import Libc6Shim.Addrinfo

/-!
# The answer of the resolver

What `getaddrinfo` gives back says what the native resolver answered, record by
record and in its order, and `freeaddrinfo` frees every object of it once. A
lookup that fails stores nothing (`getaddrinfo_preserves`).

That a record is copied as it is (`copiesAddrinfo`), and freed with all it owns
(`releaseAddrinfo_eq`), is all there is to show here: the loops are those of
`copyList` and `foreachSafe`.
-/

namespace Libc6Shim

open CSem Buf Outcome

/-! ## One record -/

theorem nativeToLinuxSockType_kind (k : SockKind) :
    nativeToLinuxSockType k.native = .ok k.linux := by
  cases k <;> rfl

theorem copyAiAddr_makes (junk : Malloced LinuxAddrinfo) {h : AddrinfoHeap}
    {info : NativeAddrinfo} {x : InetAddr} (hfamily : info.aiFamily = x.family)
    (haddr : BytesAt h InetAddr.IsNative info.aiAddr x) :
    ∃ b, x.IsLinux b ∧ copyAiAddr junk info h =
      .ok (x.linuxFamily, x.size, h.next, h.grow (.bytes b)) := by
  obtain ⟨b, hb, hrun⟩ := mallocAddr_makes junk haddr
  refine ⟨b, hb, ?_⟩
  cases x with
  | inet port addr =>
      have hmalloc : mallocAddr junk sizeofSockaddrIn nativeToLinuxSockaddrIn
        info.aiAddr h = .ok (h.next, h.grow (.bytes b)) := hrun
      rw [copyAiAddr, hfamily, InetAddr.family, if_pos rfl, hmalloc]
      rfl
  | inet6 port flowinfo addr scopeId =>
      have hmalloc : mallocAddr junk sizeofSockaddrIn6 nativeToLinuxSockaddrIn6
        info.aiAddr h = .ok (h.next, h.grow (.bytes b)) := hrun
      have hne : pfInet6 ≠ pfInet := by decide
      rw [copyAiAddr, hfamily, InetAddr.family, if_neg hne, if_pos rfl, hmalloc]
      rfl

/-- A record is copied as it is. -/
theorem copiesAddrinfo (junk : Malloced LinuxAddrinfo) :
    CopiesElement addrinfoEntry linuxAddrinfoEntry (copyAddrinfo junk) := by
  intro h src a x hsrc htells
  cases a with
  | linux info => exact htells.elim
  | bytes b => exact htells.elim
  | native info =>
      have hinfo : AddrRecord.IsNative h info x := htells
      -- the record itself comes first, and is written last
      let h₀ : AddrinfoHeap := h.grow (.linux (junk.info h.next))
      have hs₀ : h.Since h₀ := (Heap.Since.refl h).grow _
      have hlt : h.next < h₀.next := Nat.lt_succ_self _
      obtain ⟨c, h₁, ps, hname, hname'⟩ := orNull_made (R := IsString)
        (fun s hs => strdup_makes hs) (orNull_since hinfo.canonname hs₀)
      have haddr₁ := orNull_since (o := some x.addr) hinfo.addr
        (hs₀.trans hname'.pieces.since)
      obtain ⟨b, hb, haddr⟩ := copyAiAddr_makes junk hinfo.family haddr₁
      have haddr' := PartMade.of_grow (h := h₁) hb
      have hpieces := hname'.pieces.append haddr'.pieces
      have hobj := hpieces.since.obj_of (Heap.obj_grow_next (h := h))
      let l : LinuxAddrinfo := { junk.info h.next with
        aiFlags := 0
        aiFamily := x.addr.linuxFamily
        aiSocktype := x.socktype.linux
        aiProtocol := info.aiProtocol
        aiAddrlen := x.addr.size
        aiAddr := h₁.next
        aiCanonname := c }
      have hmade : Made linuxAddrinfoEntry h _ h.next (.linux l) x :=
        hpieces.made (q := l.aiNext) ?_ rfl ?_
      · refine ⟨h.next, .linux l, _, ?_, hmade⟩
        rw [copyAddrinfo, Heap.malloc]
        show loadNative h₀ src >>= _ = _
        rw [loadNative_of (hs₀.obj_of hsrc), ok_bind, hinfo.socktype,
          nativeToLinuxSockType_kind, ok_bind, hname, ok_bind]
        show copyAiAddr junk info h₁ >>= _ = _
        rw [haddr, ok_bind]
        show loadLinux (h₁.grow (.bytes b)) h.next >>= _ = _
        rw [loadLinux_of hobj, ok_bind, Heap.store_of hobj]
        rfl
      · show [c, h₁.next].filter (· ≠ null) = _
        rw [List.map_append, ← hname'.parts, ← haddr'.parts, ← List.filter_append]
        rfl
      · exact ⟨rfl, rfl, hinfo.protocol, hname'.stays haddr'.pieces.since hlt _,
          haddr'.stays (.refl _) (hlt.trans_le hname'.pieces.since.next_le) _, rfl⟩

/-- What a record owns is freed before it. -/
theorem releaseAddrinfo_eq {h : AddrinfoHeap} {p q : Ptr} {a : AddrinfoObj}
    (hp : h.obj p = some a) (hnext : linuxAddrinfoEntry.next a = some q)
    (hnot : p ∉ linuxAddrinfoEntry.parts a) :
    releaseAddrinfo p h = Heap.freeAll (linuxAddrinfoEntry.parts a ++ [p]) h := by
  cases a with
  | native info => cases hnext
  | bytes b => cases hnext
  | linux info =>
      have hne : p ≠ info.aiCanonname := by
        rintro rfl
        exact hnot (by simp [linuxAddrinfoEntry, Heap.ne_null hp])
      have hparts : linuxAddrinfoEntry.parts (.linux info) =
        [info.aiCanonname, info.aiAddr].filter (· ≠ null) := rfl
      rw [hparts, Heap.freeAll_concat, Heap.freeAll_filter, releaseAddrinfo,
        loadLinux_of hp]
      simp only [Heap.freeAll, Heap.freeIf_eq, bind_assoc, ok_bind]
      exact free_then_load hp hne fun _ _ => rfl

/-! ## The list -/

section

variable {lib : Resolver} {junk : Malloced LinuxAddrinfo}
  {hints : Option LinuxAddrinfo} {native : NativeAddrinfo}
  {hostname servname : Option Buf} {h h₁ : AddrinfoHeap} {err : Int} {head : Ptr}

theorem shimGetaddrinfo_copies (hlib : lib.Documented)
    (hhints : nativeHints hints = .ok native)
    (hcall : lib.getaddrinfo hostname servname native h = (0, head, h₁))
    {x : AddrRecord} {xs : List AddrRecord} {own : List Ptr}
    (hl : HasList addrinfoEntry h₁ head (x :: xs) own) {budget : Nat}
    (hbudget : xs.length < budget) :
    ∃ p new h₂, shimGetaddrinfo lib junk budget hostname servname hints h =
        .ok (0, some p, h₂) ∧ Holds linuxAddrinfoEntry h₂ p (x :: xs) new := by
  obtain ⟨p, new, h', h₂, hcopy, hfree, hholds⟩ :=
    copyList_takes (copiesAddrinfo junk) hl (hlib _ _ _ _ _ _ _ _ hcall hl) hbudget
  refine ⟨p, new, h₂, ?_, hholds⟩
  rw [shimGetaddrinfo, hhints, ok_bind, hcall]
  show copyList _ _ _ budget head h₁ >>= _ = _
  rw [hcopy, ok_bind]
  show lib.freeaddrinfo head h' >>= _ = _
  rw [hfree]
  rfl

theorem shimGetaddrinfo_fails (hhints : nativeHints hints = .ok native)
    (hcall : lib.getaddrinfo hostname servname native h = (err, head, h₁))
    (herr : err ≠ 0) (budget : Nat) :
    shimGetaddrinfo lib junk budget hostname servname hints h =
      .ok (err, none, h₁) := by
  rw [shimGetaddrinfo, hhints, ok_bind, hcall]
  exact if_neg herr

end

theorem shimFreeaddrinfo_frees {h : AddrinfoHeap} {p : Ptr} {xs : List AddrRecord}
    {own : List Ptr} (hl : Holds linuxAddrinfoEntry h p xs own) {budget : Nat}
    (hbudget : xs.length < budget) :
    ∃ h' gone, shimFreeaddrinfo budget p h = .ok h' ∧
      h'.freed = h.freed ++ gone ∧ gone.map Prod.fst = own ∧
      ∀ r, r ∉ own → h'.obj r = h.obj r :=
  freeing_rule (fun _ _ _ _ hp hnext hnot => releaseAddrinfo_eq hp hnext hnot) hl
    hbudget

/-- Whatever the resolver answers: a list is copied record by record, a failure
stores nothing; and any list of this kind is freed, object by object. -/
theorem getaddrinfo_preserves {lib : Resolver} (hlib : lib.Documented)
    (junk : Malloced LinuxAddrinfo) {hints : Option LinuxAddrinfo}
    {native : NativeAddrinfo} (hhints : nativeHints hints = .ok native)
    (hostname servname : Option Buf) (h : AddrinfoHeap) {err : Int} {head : Ptr}
    {h₁ : AddrinfoHeap}
    (hcall : lib.getaddrinfo hostname servname native h = (err, head, h₁)) :
    (err = 0 → ∀ x xs own, HasList addrinfoEntry h₁ head (x :: xs) own →
      ∀ budget, xs.length < budget → ∃ p new h₂,
        shimGetaddrinfo lib junk budget hostname servname hints h =
          .ok (0, some p, h₂) ∧
        Holds linuxAddrinfoEntry h₂ p (x :: xs) new) ∧
    (err ≠ 0 → ∀ budget,
      shimGetaddrinfo lib junk budget hostname servname hints h =
        .ok (err, none, h₁)) ∧
    ∀ h p xs own, Holds linuxAddrinfoEntry h p xs own →
      ∀ budget, xs.length < budget → ∃ h' gone,
        shimFreeaddrinfo budget p h = .ok h' ∧
        h'.freed = h.freed ++ gone ∧ gone.map Prod.fst = own ∧ own.Nodup ∧
        ∀ r, r ∉ own → h'.obj r = h.obj r := by
  refine ⟨?_, fun herr budget => shimGetaddrinfo_fails hhints hcall herr budget, ?_⟩
  · rintro rfl x xs own hl budget hbudget
    exact shimGetaddrinfo_copies hlib hhints hcall hl hbudget
  · intro h p xs own hl budget hbudget
    obtain ⟨h', gone, hrun, hfreed, hgone, hsame⟩ :=
      shimFreeaddrinfo_frees hl hbudget
    exact ⟨h', gone, hrun, hfreed, hgone, hl.nodup, hsame⟩

/-! ### Two records for one name -/

def loopback4 : AddrRecord :=
  ⟨.inet [0, 80] [127, 0, 0, 1], .stream, 6, some (lit "localhost")⟩

def loopback6 : AddrRecord :=
  ⟨.inet6 [0, 80] (.replicate 4 0) (.replicate 15 0 ++ [1]) (.replicate 4 0),
    .dgram, 17, none⟩

/-- The answer, after the two addresses and the name; the second record comes
first. -/
def loopbackAnswer (h : AddrinfoHeap) : AddrinfoHeap :=
  ((((h.grow (.bytes (lit "localhost" ++ [0]))).grow
    (.bytes ([16, 2, 0, 80, 127, 0, 0, 1] ++ .replicate 8 0))).grow
    (.bytes ([28, 28, 0, 80] ++ .replicate 19 0 ++ [1] ++ .replicate 4 0))).grow
    (.native ⟨0, pfInet6, sockDgram, 17, 28, null, h.next + 2, null⟩)).grow
    (.native ⟨0, pfInet, sockStream, 6, 16, h.next, h.next + 1, h.next + 3⟩)

/-- A resolver that always has this answer. -/
def loopbackResolver : Resolver where
  getaddrinfo _ _ _ h := (0, h.next + 4, loopbackAnswer h)
  freeaddrinfo := freeList addrinfoEntry

def zeroedInfos : Malloced LinuxAddrinfo :=
  .zeroed ⟨0, 0, 0, 0, 0, null, null, null⟩

theorem holds_loopbackAnswer (h : AddrinfoHeap) :
    Holds addrinfoEntry (loopbackAnswer h) (h.next + 4) [loopback4, loopback6]
      [h.next, h.next + 1, h.next + 4, h.next + 2, h.next + 3] := by
  have hnull : h.next ≠ null := Nat.ne_of_gt h.next_pos
  have hne : ∀ n, h.next + n ≠ null := fun n =>
    Nat.ne_of_gt (Nat.add_pos_left h.next_pos n)
  have hinfo : (loopbackAnswer h).obj (h.next + 4) = some (.native
      ⟨0, pfInet, sockStream, 6, 16, h.next, h.next + 1, h.next + 3⟩) :=
    Heap.obj_grow_next
  have hinfo6 : (loopbackAnswer h).obj (h.next + 3) = some (.native
      ⟨0, pfInet6, sockDgram, 17, 28, null, h.next + 2, null⟩) :=
    Heap.obj_grow_of Heap.obj_grow_next
  have haddr6 : (loopbackAnswer h).obj (h.next + 2) = some (.bytes
      ([28, 28, 0, 80] ++ .replicate 19 0 ++ [1] ++ .replicate 4 0)) :=
    Heap.obj_grow_of (Heap.obj_grow_of Heap.obj_grow_next)
  have haddr : (loopbackAnswer h).obj (h.next + 1) = some (.bytes
      ([16, 2, 0, 80, 127, 0, 0, 1] ++ .replicate 8 0)) :=
    Heap.obj_grow_of (Heap.obj_grow_of (Heap.obj_grow_of Heap.obj_grow_next))
  have hname : (loopbackAnswer h).obj h.next =
      some (.bytes (lit "localhost" ++ [0])) :=
    Heap.obj_grow_of (Heap.obj_grow_of (Heap.obj_grow_of
      (Heap.obj_grow_of Heap.obj_grow_next)))
  refine ⟨⟨?_, ?_⟩, ?_⟩
  · have htells : AddrRecord.IsNative (loopbackAnswer h)
        ⟨0, pfInet, sockStream, 6, 16, h.next, h.next + 1, h.next + 3⟩ loopback4 :=
      ⟨rfl, rfl, rfl, ⟨_, hname, rfl⟩, _, haddr, by decide, rfl, rfl⟩
    have htells6 : AddrRecord.IsNative (loopbackAnswer h)
        ⟨0, pfInet6, sockDgram, 17, 28, null, h.next + 2, null⟩ loopback6 :=
      ⟨rfl, rfl, rfl, rfl, _, haddr6, by decide, rfl, rfl, rfl, rfl⟩
    have hlist : OwnedList addrinfoEntry (loopbackAnswer h) (h.next + 4)
        [loopback4, loopback6] _ := .cons hinfo rfl htells (.cons hinfo6 rfl htells6 .nil)
    simpa [addrinfoEntry, List.filter, hne, hnull] using hlist
  · intro r hr
    simp only [List.mem_cons, List.not_mem_nil, or_false] at hr
    rcases hr with rfl | rfl | rfl | rfl | rfl
    · exact ⟨_, hname⟩
    · exact ⟨_, haddr⟩
    · exact ⟨_, hinfo⟩
    · exact ⟨_, haddr6⟩
    · exact ⟨_, hinfo6⟩
  · simp

theorem loopbackResolver_documented : loopbackResolver.Documented := by
  intro hostname servname hints h head h₁ xs own hcall hl
  cases hcall
  have hholds := holds_loopbackAnswer h
  rw [hl.list.own_unique hholds.list]
  exact freeList_takes hholds

theorem loopback_preserved : ∃ p new h₂,
    shimGetaddrinfo loopbackResolver zeroedInfos 2 (some (lit "localhost")) none none
      Heap.empty = .ok (0, some p, h₂) ∧
    Holds linuxAddrinfoEntry h₂ p [loopback4, loopback6] new :=
  (getaddrinfo_preserves loopbackResolver_documented zeroedInfos
    (show nativeHints none = _ from rfl) (some (lit "localhost")) none Heap.empty
    rfl).1 rfl loopback4 [loopback6] _ (holds_loopbackAnswer Heap.empty).toHasList 2
    (by decide)

end Libc6Shim
