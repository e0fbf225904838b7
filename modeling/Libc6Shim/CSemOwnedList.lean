import Libc6Shim.CSemHeap

/-!
# Lists that own

An element of such a list points to further objects, which are its own: they
are made with it, and freed before it (`OwnerEntry`). `OwnedList` says what the
elements of a list say and which objects the list owns, in the order in which
they are to be freed.

Two loops work on a whole list. `copyList` makes a new list with an element for
each element of another; it writes a link only when it has the next element,
so that the last element's link is not yet written while the loop runs.
Freeing a list goes element by element (`freeing_rule`).
-/

namespace CSem

open Outcome

variable {α β : Type}

/-! ## A heap and a later one -/

namespace Heap

/-- `h'` comes after `h`: there are new objects, and the old ones are as they
were. -/
structure Since (h h' : Heap α) : Prop where
  next_le : h.next ≤ h'.next
  obj_eq : ∀ p, p < h.next → h'.obj p = h.obj p
  freed_eq : h'.freed = h.freed

variable {h h₁ h₂ : Heap α} {p : Ptr} {a : α}

theorem Since.refl (h : Heap α) : Since h h := ⟨le_rfl, fun _ _ => rfl, rfl⟩

theorem Since.trans (h₁₂ : Since h h₁) (h₂₃ : Since h₁ h₂) : Since h h₂ where
  next_le := h₁₂.next_le.trans h₂₃.next_le
  obj_eq p hp := (h₂₃.obj_eq p (hp.trans_le h₁₂.next_le)).trans (h₁₂.obj_eq p hp)
  freed_eq := h₂₃.freed_eq.trans h₁₂.freed_eq

theorem Since.grow (hs : Since h h₁) (a : α) : Since h (h₁.grow a) where
  next_le := Nat.le_succ_of_le hs.next_le
  obj_eq p hp :=
    (if_neg (Nat.ne_of_lt (hp.trans_le hs.next_le))).trans (hs.obj_eq p hp)
  freed_eq := hs.freed_eq

theorem Since.put (hs : Since h h₁) (hp : h.next ≤ p) (a : α) :
    Since h (h₁.put p a) where
  next_le := hs.next_le
  obj_eq q hq := (obj_put_of_ne (Nat.ne_of_lt (hq.trans_le hp))).trans
    (hs.obj_eq q hq)
  freed_eq := hs.freed_eq

/-- A new object, written to later. -/
theorem put_grow {b : α} : (h.grow a).put h.next b = h.grow b := by
  have hobj : ((h.grow a).put h.next b).obj = (h.grow b).obj := by
    funext q
    by_cases hq : q = h.next
    · rw [hq, obj_put_self obj_grow_next, obj_grow_next]
    · rw [obj_put_of_ne hq]
      exact (if_neg hq).trans (if_neg hq).symm
  exact (mk.injEq ..).mpr ⟨hobj, rfl, rfl⟩

theorem free_null : h.free null = .ok h := if_pos rfl

/-- `if (p != NULL) free(p)` -/
def freeIf (h : Heap α) (p : Ptr) : Outcome (Heap α) :=
  if p ≠ null then h.free p else .ok h

/-- The test makes no difference. -/
theorem freeIf_eq : h.freeIf p = h.free p := by
  rw [freeIf]
  split
  · rfl
  · rename_i hp
    rw [Decidable.not_not.mp hp, free_null]

theorem obj_of_free {q : Ptr} (hfree : h.free q = .ok h₁) (hne : p ≠ q) :
    h₁.obj p = h.obj p := by
  rw [free] at hfree
  split at hfree
  · cases hfree
    rfl
  · obtain ⟨a, -, hdrop⟩ := bind_eq_ok.mp hfree
    cases hdrop
    exact obj_drop_of_ne hne

/-- The last one is freed in the heap that is left of the others. -/
theorem freeAll_concat (ps : List Ptr) (p : Ptr) (h : Heap α) :
    freeAll (ps ++ [p]) h = freeAll ps h >>= fun h => h.free p := by
  induction ps generalizing h with
  | nil =>
      show h.free p >>= freeAll [] = h.free p
      cases h.free p <;> rfl
  | cons q ps ih =>
      rw [List.cons_append, freeAll, freeAll]
      cases h.free q with
      | error e => rfl
      | ok h => exact ih h

theorem freeAll_filter (ps : List Ptr) (h : Heap α) :
    freeAll (ps.filter (· ≠ null)) h = freeAll ps h := by
  induction ps generalizing h with
  | nil => rfl
  | cons p ps ih =>
      by_cases hp : p = null
      · rw [List.filter_cons_of_neg (by simp [hp]), ih, freeAll, hp, free_null,
          ok_bind]
      · rw [List.filter_cons_of_pos (by simp [hp]), freeAll, freeAll]
        cases h.free p with
        | error e => rfl
        | ok h => exact ih h

theorem Since.obj_of (hs : Since h h₁) (hp : h.obj p = some a) :
    h₁.obj p = some a :=
  (hs.obj_eq p (lt_next hp)).trans hp

end Heap

/-! ## Elements that own -/

/-- An element that owns objects, and what it says with them. -/
structure OwnerEntry (α β : Type) extends SlistEntry α where
  /-- What the element owns, in the order in which it is freed. -/
  parts : α → List Ptr
  Tells : Heap α → α → β → Prop
  parts_link : ∀ q a, parts (link q a) = parts a
  tells_link : ∀ {h a x} q, Tells h a x → Tells h (link q a) x
  tells_congr : ∀ {h h' a x}, Tells h a x →
    (∀ q ∈ parts a, h'.obj q = h.obj q) → Tells h' a x

/-- The list from `p` on has an element for each of `xs`, and owns `own`. -/
inductive OwnedList (E : OwnerEntry α β) (h : Heap α) :
    Ptr → List β → List Ptr → Prop where
  | nil : OwnedList E h null [] []
  | cons {p q : Ptr} {a : α} {x : β} {xs : List β} {own : List Ptr} :
      h.obj p = some a → E.next a = some q → E.Tells h a x →
      OwnedList E h q xs own → OwnedList E h p (x :: xs) (E.parts a ++ p :: own)

/-- And what it owns is there. Several elements may point to one object. -/
structure HasList (E : OwnerEntry α β) (h : Heap α) (p : Ptr) (xs : List β)
    (own : List Ptr) : Prop where
  list : OwnedList E h p xs own
  live : ∀ r ∈ own, ∃ a, h.obj r = some a

/-- And no object is owned twice. -/
structure Holds (E : OwnerEntry α β) (h : Heap α) (p : Ptr) (xs : List β)
    (own : List Ptr) : Prop extends HasList E h p xs own where
  nodup : own.Nodup

section

variable {E : OwnerEntry α β} {h h' : Heap α} {p : Ptr} {x : β} {xs : List β}
  {own : List Ptr}

/-- A list is the same where what it owns is. -/
theorem OwnedList.congr (hl : OwnedList E h p xs own)
    (hsame : ∀ r ∈ own, h'.obj r = h.obj r) : OwnedList E h' p xs own := by
  induction hl with
  | nil => exact .nil
  | cons hp hnext htells hl ih =>
      have hparts := fun r hr => hsame r (List.mem_append_left _ hr)
      have hrest := fun r hr => hsame r (List.mem_append_right _ hr)
      rw [List.forall_mem_cons] at hrest
      exact .cons (hrest.1.trans hp) hnext (E.tells_congr htells hparts)
        (ih hrest.2)

/-- What a list owns is read off the heap. -/
theorem OwnedList.own_unique (hl : OwnedList E h p xs own) {xs' : List β}
    {own' : List Ptr} (hl' : OwnedList E h p xs' own') : own = own' := by
  induction hl generalizing xs' own' with
  | nil =>
      cases hl' with
      | nil => rfl
      | cons hp => exact absurd rfl (Heap.ne_null hp)
  | cons hp hnext _ _ ih =>
      cases hl' with
      | nil => exact absurd rfl (Heap.ne_null hp)
      | cons hp' hnext' _ hl' =>
          cases hp.symm.trans hp'
          cases hnext.symm.trans hnext'
          rw [ih hl']

theorem HasList.congr (hl : HasList E h p xs own)
    (hsame : ∀ r ∈ own, h'.obj r = h.obj r) : HasList E h' p xs own where
  list := hl.list.congr hsame
  live r hr := by
    obtain ⟨a, ha⟩ := hl.live r hr
    exact ⟨a, (hsame r hr).trans ha⟩

theorem Holds.congr (hl : Holds E h p xs own)
    (hsame : ∀ r ∈ own, h'.obj r = h.obj r) : Holds E h' p xs own :=
  ⟨hl.toHasList.congr hsame, hl.nodup⟩

/-- Another element in front. -/
theorem Holds.cons {q : Ptr} {a : α} (hp : h.obj p = some a)
    (hq : E.next a = some q) (htells : E.Tells h a x)
    (hnodup : (E.parts a ++ [p]).Nodup)
    (hlive : ∀ r ∈ E.parts a ++ [p], ∃ c, h.obj r = some c)
    (hapart : ∀ r ∈ E.parts a ++ [p], r ∉ own) (hl : Holds E h q xs own) :
    Holds E h p (x :: xs) (E.parts a ++ p :: own) where
  list := .cons hp hq htells hl.list
  live r hr := by
    rw [List.append_cons, List.mem_append] at hr
    exact hr.elim (hlive r) (hl.live r)
  nodup := by
    rw [List.append_cons, List.nodup_append]
    exact ⟨hnodup, hl.nodup, fun r hr s hs hrs => hapart r hr (hrs ▸ hs)⟩

theorem HasList.lt_next (hl : HasList E h p xs own) : ∀ r ∈ own, r < h.next := by
  intro r hr
  obtain ⟨a, ha⟩ := hl.live r hr
  exact Heap.lt_next ha

end

/-! ## Copying a list -/

section Copying

variable (F G : SlistEntry α) (copy : Ptr → Heap α → Outcome (Ptr × Heap α))
  (budget : Nat)

/-- A round of the loop: the element at `src` is copied behind `last`. -/
def copyNext : Ptr × Ptr × Heap α →
    Outcome ((Ptr × Ptr × Heap α) ⊕ (Ptr × Heap α))
  | (src, last, h) => do
      if src = null then return .inr (last, h)
      else
        let (p, h) ← copy src h
        let h ← Slist.setNext F h last p
        return .inl (← Slist.next G h src, p, h)

/-- What is left of a list, from `src` on, is copied behind `last`. -/
def copyRest (src last : Ptr) (h : Heap α) : Outcome (Heap α) := do
  let (last, h) ← rounds (copyNext F G copy) budget (src, last, h)
  Slist.setNext F h last null

/-- A list is copied, of which there is a first element. -/
def copyList (head : Ptr) (h : Heap α) : Outcome (Ptr × Heap α) := do
  let (first, h) ← copy head h
  let src ← Slist.next G h head
  let h ← copyRest F G copy budget src first h
  return (first, h)

end Copying

/-- Between `h` and `h'` the element at `p` was made, with all it owns. -/
structure Made (E : OwnerEntry α β) (h h' : Heap α) (p : Ptr) (b : α) (x : β) :
    Prop where
  since : h.Since h'
  obj : h'.obj p = some b
  link : ∃ q, E.next b = some q
  tells : E.Tells h' b x
  nodup : (E.parts b ++ [p]).Nodup
  new : ∀ r ∈ E.parts b ++ [p], h.next ≤ r ∧ ∃ c, h'.obj r = some c

/-- The objects `ps` were made between `h` and `h'`. -/
structure Pieces (h h' : Heap α) (ps : List (Ptr × α)) : Prop where
  since : h.Since h'
  new : ∀ p a, (p, a) ∈ ps → h.next ≤ p ∧ h'.obj p = some a
  nodup : (ps.map Prod.fst).Nodup

theorem Pieces.nil (h : Heap α) : Pieces h h [] where
  since := .refl h
  new := nofun
  nodup := List.nodup_nil

theorem Pieces.grow (h : Heap α) (a : α) : Pieces h (h.grow a) [(h.next, a)] where
  since := (Heap.Since.refl h).grow a
  new p b hmem := by
    obtain ⟨rfl, rfl⟩ := Prod.mk.inj (List.mem_singleton.mp hmem)
    exact ⟨le_rfl, Heap.obj_grow_next⟩
  nodup := List.nodup_singleton _

theorem Pieces.append {h h₁ h₂ : Heap α} {ps qs : List (Ptr × α)}
    (hp : Pieces h h₁ ps) (hq : Pieces h₁ h₂ qs) : Pieces h h₂ (ps ++ qs) where
  since := hp.since.trans hq.since
  new p a hmem := by
    rcases List.mem_append.mp hmem with hmem | hmem
    · exact ⟨(hp.new p a hmem).1, hq.since.obj_of (hp.new p a hmem).2⟩
    · exact ⟨hp.since.next_le.trans (hq.new p a hmem).1, (hq.new p a hmem).2⟩
  nodup := by
    rw [List.map_append, List.nodup_append]
    refine ⟨hp.nodup, hq.nodup, ?_⟩
    intro p hmem q hmem'
    obtain ⟨⟨p, a⟩, hpa, rfl⟩ := List.mem_map.mp hmem
    obtain ⟨⟨q, b⟩, hqb, rfl⟩ := List.mem_map.mp hmem'
    exact Nat.ne_of_lt ((Heap.lt_next (hp.new p a hpa).2).trans_le
      (hq.new q b hqb).1)

/-- An element is made of the pieces that were made after it. -/
theorem Pieces.made {E : OwnerEntry α β} {h h₁ : Heap α} {j b : α}
    {ps : List (Ptr × α)} {q : Ptr} {x : β} (hp : Pieces (h.grow j) h₁ ps)
    (hparts : E.parts b = ps.map Prod.fst) (hq : E.next b = some q)
    (htells : E.Tells (h₁.put h.next b) b x) :
    Made E h (h₁.put h.next b) h.next b x where
  since := (((Heap.Since.refl h).grow j).trans hp.since).put le_rfl b
  obj := Heap.obj_put_self (hp.since.obj_of Heap.obj_grow_next)
  link := ⟨q, hq⟩
  tells := htells
  nodup := by
    rw [hparts, List.nodup_append]
    refine ⟨hp.nodup, List.nodup_singleton _, ?_⟩
    intro r hr s hs
    obtain ⟨⟨r, a⟩, hra, rfl⟩ := List.mem_map.mp hr
    rw [List.mem_singleton.mp hs]
    exact Nat.ne_of_gt (hp.new r a hra).1
  new r hr := by
    rw [hparts, List.mem_append, List.mem_singleton] at hr
    rcases hr with hr | rfl
    · obtain ⟨⟨r, a⟩, hra, rfl⟩ := List.mem_map.mp hr
      obtain ⟨hle, hobj⟩ := hp.new r a hra
      exact ⟨Nat.le_of_succ_le hle, a,
        (Heap.obj_put_of_ne (Nat.ne_of_gt hle)).trans hobj⟩
    · exact ⟨le_rfl, b, Heap.obj_put_self (hp.since.obj_of Heap.obj_grow_next)⟩

/-- An element of the one kind is made into one of the other that says the
same. -/
def CopiesElement (G E : OwnerEntry α β)
    (copy : Ptr → Heap α → Outcome (Ptr × Heap α)) : Prop :=
  ∀ h src a x, h.obj src = some a → G.Tells h a x →
    ∃ p b h', copy src h = .ok (p, h') ∧ Made E h h' p b x

theorem Made.le_self {E : OwnerEntry α β} {h h' : Heap α} {p : Ptr} {b : α}
    {x : β} (hm : Made E h h' p b x) : h.next ≤ p :=
  (hm.new p (List.mem_append_right _ (List.mem_singleton_self p))).1

/-- An element that was made, and then linked to a list of later ones, is the
first of a list. -/
theorem Made.holds {E : OwnerEntry α β} {h h₁ h' : Heap α} {p q : Ptr} {b : α}
    {x : β} {xs : List β} {own : List Ptr} (hm : Made E h h₁ p b x)
    (hp : h'.obj p = some (E.link q b))
    (hsame : ∀ r, h.next ≤ r → r < h₁.next → r ≠ p → h'.obj r = h₁.obj r)
    (hl : Holds E h' q xs own) (hlater : ∀ r ∈ own, h₁.next ≤ r) :
    Holds E h' p (x :: xs) (E.parts b ++ p :: own) ∧
      ∀ r ∈ E.parts b ++ p :: own, h.next ≤ r := by
  obtain ⟨j, hj⟩ := hm.link
  have hlt : ∀ r ∈ E.parts b ++ [p], r < h₁.next := by
    intro r hr
    obtain ⟨d, hd⟩ := (hm.new r hr).2
    exact Heap.lt_next hd
  have hpart : ∀ r ∈ E.parts b, h'.obj r = h₁.obj r := by
    intro r hr
    have hr' := List.mem_append_left [p] hr
    refine hsame r (hm.new r hr').1 (hlt r hr') ?_
    rintro rfl
    exact List.disjoint_of_nodup_append hm.nodup hr (List.mem_singleton_self _)
  constructor
  · have hparts := E.parts_link q b
    rw [← hparts]
    refine Holds.cons hp (E.next_link q b j hj)
      (E.tells_congr (E.tells_link q hm.tells) ?_) ?_ ?_ ?_ hl
    · rw [hparts]
      exact hpart
    · rw [hparts]
      exact hm.nodup
    · intro r hr
      rw [hparts, List.mem_append, List.mem_singleton] at hr
      rcases hr with hr | rfl
      · obtain ⟨d, hd⟩ := (hm.new r (List.mem_append_left _ hr)).2
        exact ⟨d, (hpart r hr).trans hd⟩
      · exact ⟨_, hp⟩
    · intro r hr hrown
      rw [hparts] at hr
      exact Nat.not_lt.mpr (hlater r hrown) (hlt r hr)
  · intro r hr
    rw [List.append_cons, List.mem_append] at hr
    rcases hr with hr | hr
    · exact (hm.new r hr).1
    · exact hm.since.next_le.trans (hlater r hr)

section

variable {G E : OwnerEntry α β} {copy : Ptr → Heap α → Outcome (Ptr × Heap α)}
  {budget : Nat} {h₀ h : Heap α} {src last head : Ptr} {xs : List β}
  {own : List Ptr} {a : α}

theorem copyRest_null {F : SlistEntry α} (hlast : h.obj last = some a) :
    copyRest F G.toSlistEntry copy (budget + 1) null last h =
      .ok (h.put last (F.link null a)) := by
  have hleaves : copyNext F G.toSlistEntry copy (null, last, h) =
      .ok (.inr (last, h)) := by
    rw [copyNext, if_pos rfl]
    rfl
  rw [copyRest, rounds_of_leaves hleaves, ok_bind]
  exact Slist.setNext_of hlast null

theorem copyRest_step {F : SlistEntry α} {p q : Ptr} {h₁ h₂ : Heap α}
    (hsrc : src ≠ null) (hcopy : copy src h = .ok (p, h₁))
    (hset : Slist.setNext F h₁ last p = .ok h₂)
    (hnext : Slist.next G.toSlistEntry h₂ src = .ok q) :
    copyRest F G.toSlistEntry copy (budget + 1) src last h =
      copyRest F G.toSlistEntry copy budget q p h₂ := by
  have hgo : GoesTo (copyNext F G.toSlistEntry copy) (src, last, h) (q, p, h₂) := by
    rw [GoesTo, copyNext, if_neg hsrc, hcopy, ok_bind]
    show Slist.setNext F h₁ last p >>= _ = _
    rw [hset, ok_bind, hnext]
    rfl
  rw [copyRest, rounds_of_goesTo hgo]
  rfl

/-- From `last` on, the link of which is not written yet, there is in the end
a list that says what is left of the other. -/
theorem copyRest_spec (hcopy : CopiesElement G E copy)
    (hl : OwnedList G h₀ src xs own) (hown : ∀ r ∈ own, r < h₀.next)
    (hs : h₀.Since h) (hle : h₀.next ≤ last) (hlast : h.obj last = some a)
    {j : Ptr} (hj : E.next a = some j) (hbudget : xs.length < budget) :
    ∃ q new h', copyRest E.toSlistEntry G.toSlistEntry copy budget src last h =
        .ok h' ∧
      h'.obj last = some (E.link q a) ∧ Holds E h' q xs new ∧
      (∀ r ∈ new, h.next ≤ r) ∧ h.next ≤ h'.next ∧ h'.freed = h.freed ∧
      ∀ r < h.next, r ≠ last → h'.obj r = h.obj r := by
  induction hl generalizing h last a j budget with
  | nil =>
      obtain ⟨n, rfl⟩ := Nat.exists_eq_add_of_lt hbudget
      exact ⟨null, [], _, copyRest_null hlast, Heap.obj_put_self hlast,
        ⟨⟨.nil, nofun⟩, List.nodup_nil⟩, nofun, le_rfl, rfl,
        fun r _ hne => Heap.obj_put_of_ne hne⟩
  | @cons src next b x xs own hsrc hnext htells hl ih =>
      obtain ⟨n, rfl⟩ := Nat.exists_eq_add_of_lt hbudget
      have hparts : ∀ r ∈ G.parts b, h.obj r = h₀.obj r := fun r hr =>
        hs.obj_eq r (hown r (List.mem_append_left _ hr))
      have hsrc' : h.obj src = some b := hs.obj_of hsrc
      obtain ⟨p, c, h₁, hrun, hm⟩ :=
        hcopy h src b x hsrc' (G.tells_congr htells hparts)
      obtain ⟨k, hk⟩ := hm.link
      -- the element is new, so that it is not `last`
      have hlt : last < p := (Heap.lt_next hlast).trans_le hm.le_self
      have hlast₁ : h₁.obj last = some a := hm.since.obj_of hlast
      have hs₂ : h₀.Since (h₁.put last (E.link p a)) :=
        (hs.trans hm.since).put hle _
      have hp₂ : (h₁.put last (E.link p a)).obj p = some c :=
        (Heap.obj_put_of_ne (Nat.ne_of_gt hlt)).trans hm.obj
      obtain ⟨q, new, h', hrest, hp', hlist, hlater, hnext', hfreed, hsame⟩ :=
        ih (fun r hr => hown r (List.mem_append_right _ (List.mem_cons_of_mem _ hr)))
        hs₂ (hs.next_le.trans hm.le_self) hp₂ hk
        (show xs.length < (x :: xs).length + n by rw [List.length_cons]; omega)
      have hrun' := (copyRest_step (Heap.ne_null hsrc') hrun
        (Slist.setNext_of hlast₁ p)
        (Slist.next_of (hs₂.obj_of hsrc) hnext)).trans hrest
      -- what came with it stays as it was
      have hold : ∀ r < h₁.next, r ≠ last → r ≠ p → h'.obj r = h₁.obj r :=
        fun r hr hne hnp => (hsame r hr hnp).trans (Heap.obj_put_of_ne hne)
      obtain ⟨hholds, hnew⟩ := hm.holds hp'
        (fun r hge hr hnp => hold r hr
          (Nat.ne_of_gt ((Heap.lt_next hlast).trans_le hge)) hnp) hlist hlater
      refine ⟨p, E.parts c ++ p :: new, h', hrun', ?_, hholds, hnew,
        hm.since.next_le.trans hnext', hfreed.trans hm.since.freed_eq, ?_⟩
      · have hlt₁ : last < h₁.next := Heap.lt_next hlast₁
        rw [hsame last hlt₁ (Nat.ne_of_lt hlt)]
        exact Heap.obj_put_self hlast₁
      · intro r hr hne
        rw [hold r (hr.trans_le hm.since.next_le) hne
          (Nat.ne_of_lt (hr.trans_le hm.le_self))]
        exact hm.since.obj_eq r hr

/-- A list that is not empty is copied as it is, into new objects. -/
theorem copyList_spec (hcopy : CopiesElement G E copy) {x : β}
    (hl : HasList G h head (x :: xs) own) (hbudget : xs.length < budget) :
    ∃ p new h', copyList E.toSlistEntry G.toSlistEntry copy budget head h =
        .ok (p, h') ∧
      h.Since h' ∧ Holds E h' p (x :: xs) new ∧ ∀ r ∈ new, h.next ≤ r := by
  have hown := hl.lt_next
  cases hl.list with
  | @cons _ src a _ _ own hhead hnext htells hrest =>
      obtain ⟨p, b, h₁, hrun, hm⟩ := hcopy h head a x hhead htells
      obtain ⟨j, hj⟩ := hm.link
      obtain ⟨q, new, h', hrun', hp', hlist, hlater, hnext', hfreed, hsame⟩ :=
        copyRest_spec hcopy hrest
        (fun r hr => hown r (List.mem_append_right _ (List.mem_cons_of_mem _ hr)))
        hm.since hm.le_self hm.obj hj hbudget
      obtain ⟨hholds, hnew⟩ := hm.holds hp' (fun r _ => hsame r) hlist hlater
      refine ⟨p, E.parts b ++ p :: new, h', ?_, ⟨?_, ?_, ?_⟩, hholds, hnew⟩
      · rw [copyList, hrun, ok_bind]
        show Slist.next G.toSlistEntry h₁ head >>= _ = _
        rw [Slist.next_of (hm.since.obj_of hhead) hnext, ok_bind, hrun']
        rfl
      · exact hm.since.next_le.trans hnext'
      · intro r hr
        rw [hsame r (hr.trans_le hm.since.next_le)
          (Nat.ne_of_lt (hr.trans_le hm.le_self))]
        exact hm.since.obj_eq r hr
      · exact hfreed.trans hm.since.freed_eq

/-- Of the empty list there is no first element to copy. -/
theorem copyList_null {F : SlistEntry α} {e : Stop} (hcopy : copy null h = .error e) :
    copyList F G.toSlistEntry copy budget null h = .error e := by
  rw [copyList, hcopy, error_bind]

end

/-! ## Freeing a list -/

/-- The loop rule for a body that frees an element and what it owns: in the
end all that the list owns is freed, in its order. -/
theorem freeing_rule {E : OwnerEntry α β} {body : Ptr → Heap α → Outcome (Heap α)}
    (hbody : ∀ h p a q, h.obj p = some a → E.next a = some q →
      p ∉ E.parts a → body p h = Heap.freeAll (E.parts a ++ [p]) h)
    {budget : Nat} {h : Heap α} {p : Ptr} {xs : List β} {own : List Ptr}
    (hl : Holds E h p xs own) (hbudget : xs.length < budget) :
    ∃ h' gone, Slist.foreachSafe E.toSlistEntry body budget p h = .ok h' ∧
      h'.freed = h.freed ++ gone ∧ gone.map Prod.fst = own ∧
      ∀ r, r ∉ own → h'.obj r = h.obj r := by
  induction xs generalizing h p own budget with
  | nil =>
      obtain ⟨n, rfl⟩ := Nat.exists_eq_add_of_lt hbudget
      cases hl.list
      exact ⟨h, [], Slist.foreachSafe_null, (List.append_nil _).symm, rfl,
        fun _ _ => rfl⟩
  | cons x xs ih =>
      obtain ⟨n, rfl⟩ := Nat.exists_eq_add_of_lt hbudget
      obtain ⟨⟨hlist, hlive⟩, hnodup⟩ := hl
      cases hlist with
      | @cons _ q a _ _ own hp hnext _ hrest =>
          rw [List.append_cons] at hlive hnodup ⊢
          obtain ⟨hmine, hothers, hapart⟩ := List.nodup_append'.mp hnodup
          obtain ⟨h₁, gone, hfree, hfreed, hgone, hsame⟩ := Heap.freeAll_of
            (fun r hr => hlive r (List.mem_append_left _ hr)) hmine
          have hrest₁ : Holds E h₁ q xs own := Holds.congr
            ⟨⟨hrest, fun r hr => hlive r (List.mem_append_right _ hr)⟩, hothers⟩
            fun r hr => hsame r fun hr' => hapart hr' hr
          obtain ⟨h', gone', hloop, hfreed', hgone', hsame'⟩ :=
            ih hrest₁ (show xs.length < (x :: xs).length + n by
              rw [List.length_cons]
              omega)
          have hnot : p ∉ E.parts a := fun hmem =>
            List.disjoint_of_nodup_append hmine hmem (List.mem_singleton_self p)
          have hround : body p h = .ok h₁ := (hbody h p a q hp hnext hnot).trans hfree
          refine ⟨h', gone ++ gone', ?_, ?_, ?_, ?_⟩
          · exact (Slist.foreachSafe_step (Heap.ne_null hp) (Slist.next_of hp hnext)
              hround).trans hloop
          · rw [hfreed', hfreed, List.append_assoc]
          · rw [List.map_append, hgone, hgone']
          · intro r hr
            rw [List.mem_append, not_or] at hr
            exact (hsame' r hr.2).trans (hsame r hr.1)

/-- An element is freed, and before it what it owns. -/
def freeElement (E : OwnerEntry α β) (p : Ptr) (h : Heap α) : Outcome (Heap α) := do
  let a ← h.load p
  Heap.freeAll (E.parts a ++ [p]) h

/-- The plain way to free a list. -/
def freeList (E : OwnerEntry α β) (p : Ptr) (h : Heap α) : Outcome (Heap α) :=
  Slist.foreachSafe E.toSlistEntry (freeElement E) h.next p h

section

variable {E : OwnerEntry α β} {h : Heap α} {p : Ptr} {xs : List β} {own : List Ptr}

theorem OwnedList.length_le (hl : OwnedList E h p xs own) :
    xs.length ≤ own.length := by
  induction hl with
  | nil => exact le_rfl
  | cons _ _ _ _ ih =>
      rw [List.length_cons, List.length_append, List.length_cons]
      omega

/-- There are no more objects than identities that were given. -/
theorem Holds.length_lt (hl : Holds E h p xs own) : xs.length < h.next := by
  have hnodup : (null :: own).Nodup := by
    refine List.nodup_cons.mpr ⟨fun hmem => ?_, hl.nodup⟩
    obtain ⟨a, ha⟩ := hl.live null hmem
    exact Heap.ne_null ha rfl
  have hsub : null :: own ⊆ List.range h.next := by
    intro r hr
    rw [List.mem_range]
    rcases List.mem_cons.mp hr with rfl | hr
    · exact h.next_pos
    · exact hl.lt_next r hr
  have hlen := (hnodup.subperm hsub).length_le
  rw [List.length_cons, List.length_range] at hlen
  exact (Nat.lt_succ_of_le hl.list.length_le).trans_le hlen

end

/-- Whatever was made since, `free` takes the list at `p` that owns `own`, and
leaves alone what is not part of it. -/
def TakesBack (free : Ptr → Heap α → Outcome (Heap α)) (h : Heap α) (p : Ptr)
    (own : List Ptr) : Prop :=
  ∀ h', h.Since h' →
    ∃ h₂, free p h' = .ok h₂ ∧ ∀ r, r ∉ own → h₂.obj r = h'.obj r

theorem freeList_takes {E : OwnerEntry α β} {h : Heap α} {p : Ptr} {xs : List β}
    {own : List Ptr} (hl : Holds E h p xs own) : TakesBack (freeList E) h p own := by
  intro h' hs
  have hbody : ∀ h p a q, h.obj p = some a → E.next a = some q → p ∉ E.parts a →
      freeElement E p h = Heap.freeAll (E.parts a ++ [p]) h := by
    intro h p a q hp _ _
    rw [freeElement, Heap.load_of hp, ok_bind]
  have hl' : Holds E h' p xs own := hl.congr fun r hr => hs.obj_eq r (hl.lt_next r hr)
  obtain ⟨h₂, -, hrun, -, -, hsame⟩ := freeing_rule hbody hl' hl'.length_lt
  exact ⟨h₂, hrun, hsame⟩

/-- A list is copied, and given back: the copy is still there. -/
theorem copyList_takes {G E : OwnerEntry α β}
    {copy : Ptr → Heap α → Outcome (Ptr × Heap α)} (hcopy : CopiesElement G E copy)
    {free : Ptr → Heap α → Outcome (Heap α)} {h : Heap α} {head : Ptr} {x : β}
    {xs : List β} {own : List Ptr} (hl : HasList G h head (x :: xs) own)
    (hfree : TakesBack free h head own) {budget : Nat} (hbudget : xs.length < budget) :
    ∃ p new h₁ h₂, copyList E.toSlistEntry G.toSlistEntry copy budget head h =
        .ok (p, h₁) ∧
      free head h₁ = .ok h₂ ∧ Holds E h₂ p (x :: xs) new := by
  obtain ⟨p, new, h₁, hrun, hs, hholds, hnew⟩ := copyList_spec hcopy hl hbudget
  obtain ⟨h₂, htake, hsame⟩ := hfree h₁ hs
  refine ⟨p, new, h₁, h₂, hrun, htake, hholds.congr fun r hr => hsame r ?_⟩
  exact fun hmem => Nat.not_lt.mpr (hnew r hr) (hl.lt_next r hmem)

end CSem
