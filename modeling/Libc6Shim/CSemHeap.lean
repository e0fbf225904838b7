import Mathlib
import Libc6Shim.CSemBuffer

/-!
# Objects that come and go

A heap names each object by an identity that no other object ever gets: what
is freed stays gone, so a use after it is a fault, and so is freeing it
twice. The heap keeps a record of what was freed, in order, each object as it
was then.

On top of it are the singly linked lists of `<sys/queue.h>`. An object that
can be an element keeps its link in a field (`SlistEntry`); the head is a
variable of the list's owner, and the operations are the macros, on the head
and the heap. `IsSlist` says which elements a list has. `SLIST_FOREACH_SAFE`
remembers the next element before it runs its body, so the body may take the
element out and free it: `foreachSafe_rule` is the induction for such loops.
-/

namespace CSem

open Outcome

variable {α : Type}

structure Heap (α : Type) where
  obj : Ptr → Option α
  /-- The identity of the next object. -/
  next : Ptr
  freed : List (Ptr × α)
  next_pos : null < next
  obj_null : obj null = none
  obj_next : ∀ p, next ≤ p → obj p = none

namespace Heap

/-- Nothing yet. -/
def empty : Heap α where
  obj _ := none
  next := 1
  freed := []
  next_pos := Nat.one_pos
  obj_null := rfl
  obj_next _ _ := rfl

/-- The heap with another object in the place of the one at `p`. -/
def put (h : Heap α) (p : Ptr) (a : α) : Heap α where
  obj q := if q = p then (h.obj q).map fun _ => a else h.obj q
  next := h.next
  freed := h.freed
  next_pos := h.next_pos
  obj_null := by rw [h.obj_null, Option.map_none, ite_self]
  obj_next q hq := by rw [h.obj_next q hq, Option.map_none, ite_self]

/-- The heap without the object at `p`, which was `a`. -/
def drop (h : Heap α) (p : Ptr) (a : α) : Heap α where
  obj q := if q = p then none else h.obj q
  next := h.next
  freed := h.freed ++ [(p, a)]
  next_pos := h.next_pos
  obj_null := by rw [h.obj_null, ite_self]
  obj_next q hq := by rw [h.obj_next q hq, ite_self]

/-- The heap with a new object. -/
def grow (h : Heap α) (a : α) : Heap α where
  obj q := if q = h.next then some a else h.obj q
  next := h.next + 1
  freed := h.freed
  next_pos := Nat.lt_succ_of_lt h.next_pos
  obj_null := by rw [if_neg (Nat.ne_of_lt h.next_pos), h.obj_null]
  obj_next q hq := by
    rw [if_neg (Nat.ne_of_gt hq), h.obj_next q (Nat.le_of_succ_le hq)]

def malloc (h : Heap α) (a : α) : Ptr × Heap α := (h.next, h.grow a)

def load (h : Heap α) (p : Ptr) : Outcome α :=
  match h.obj p with
  | some a => .ok a
  | none => .error .fault

def store (h : Heap α) (p : Ptr) (a : α) : Outcome (Heap α) := do
  let _ ← h.load p
  return h.put p a

def free (h : Heap α) (p : Ptr) : Outcome (Heap α) := do
  if p = null then return h
  else return h.drop p (← h.load p)

variable {h : Heap α} {p q : Ptr} {a b : α}

theorem ne_null (hp : h.obj p = some a) : p ≠ null := by
  rintro rfl
  rw [h.obj_null] at hp
  cases hp

theorem lt_next (hp : h.obj p = some a) : p < h.next := by
  by_contra hge
  rw [h.obj_next p (Nat.le_of_not_lt hge)] at hp
  cases hp

theorem obj_put_self (hp : h.obj p = some a) : (h.put p b).obj p = some b := by
  simp only [put, if_pos, hp, Option.map_some]

theorem obj_put_of_ne (hq : q ≠ p) : (h.put p b).obj q = h.obj q := if_neg hq

theorem obj_drop_self : (h.drop p a).obj p = none := if_pos rfl

theorem obj_drop_of_ne (hq : q ≠ p) : (h.drop p a).obj q = h.obj q := if_neg hq

theorem obj_grow_next : (h.grow a).obj h.next = some a := if_pos rfl

/-- What is there stays when something is allocated. -/
theorem obj_grow_of (hq : h.obj q = some b) : (h.grow a).obj q = some b :=
  (if_neg (Nat.ne_of_lt (lt_next hq))).trans hq

theorem load_of (hp : h.obj p = some a) : h.load p = .ok a := by
  rw [load, hp]

theorem obj_of_load (hload : h.load p = .ok a) : h.obj p = some a := by
  rw [load] at hload
  split at hload
  · rename_i hp
    cases hload
    exact hp
  · cases hload

theorem store_of (hp : h.obj p = some a) : h.store p b = .ok (h.put p b) := by
  rw [store, load_of hp]
  rfl

theorem free_of (hp : h.obj p = some a) : h.free p = .ok (h.drop p a) := by
  rw [free, if_neg (ne_null hp), load_of hp]
  rfl

/-- What `free` does to the record of what was freed. -/
theorem freed_of_free {h' : Heap α} (hfree : h.free p = .ok h') :
    ∃ gone, h'.freed = h.freed ++ gone ∧ (p ≠ null → p ∈ gone.map Prod.fst) := by
  rw [free] at hfree
  split at hfree
  · rename_i hnull
    cases hfree
    exact ⟨[], (List.append_nil _).symm, fun hne => absurd hnull hne⟩
  · obtain ⟨a, -, hdrop⟩ := bind_eq_ok.mp hfree
    cases hdrop
    exact ⟨[(p, a)], rfl, fun _ => List.mem_singleton_self _⟩

/-- Free the objects one after the other. -/
def freeAll : List Ptr → Heap α → Outcome (Heap α)
  | [], h => .ok h
  | p :: ps, h => do freeAll ps (← h.free p)

theorem freeAll_of {ps : List Ptr} (hps : ∀ p ∈ ps, ∃ a, h.obj p = some a)
    (hnodup : ps.Nodup) : ∃ h' gone, freeAll ps h = .ok h' ∧
      h'.freed = h.freed ++ gone ∧ gone.map Prod.fst = ps ∧
      ∀ q, q ∉ ps → h'.obj q = h.obj q := by
  induction ps generalizing h with
  | nil =>
      exact ⟨h, [], rfl, (List.append_nil _).symm, rfl, fun _ _ => rfl⟩
  | cons p ps ih =>
      obtain ⟨hnot, hnodup⟩ := List.nodup_cons.mp hnodup
      obtain ⟨a, ha⟩ := hps p (List.mem_cons_self ..)
      obtain ⟨h', gone, hrun, hfreed, hgone, hsame⟩ := ih (h := h.drop p a)
        (fun q hq => by
          obtain ⟨b, hb⟩ := hps q (List.mem_cons_of_mem _ hq)
          exact ⟨b, (obj_drop_of_ne (ne_of_mem_of_not_mem hq hnot)).trans hb⟩)
        hnodup
      refine ⟨h', (p, a) :: gone, ?_, ?_, congrArg (p :: ·) hgone, fun q hq => ?_⟩
      · rw [freeAll, free_of ha, ok_bind, hrun]
      · exact hfreed.trans (List.append_assoc ..)
      · rw [List.mem_cons, not_or] at hq
        exact (hsame q hq.2).trans (obj_drop_of_ne hq.1)

theorem freed_of_freeAll {ps : List Ptr} {h' : Heap α}
    (hrun : freeAll ps h = .ok h') : ∃ gone, h'.freed = h.freed ++ gone := by
  induction ps generalizing h with
  | nil =>
      cases hrun
      exact ⟨[], (List.append_nil _).symm⟩
  | cons p ps ih =>
      obtain ⟨h₁, hfree, hrun⟩ := bind_eq_ok.mp hrun
      obtain ⟨gone, hfreed, -⟩ := freed_of_free hfree
      obtain ⟨gone', hfreed'⟩ := ih hrun
      exact ⟨gone ++ gone', by rw [hfreed', hfreed, List.append_assoc]⟩

end Heap

/-! ## Singly linked lists -/

/-- The field of an element that holds its link. -/
structure SlistEntry (α : Type) where
  next : α → Option Ptr
  link : Ptr → α → α
  next_link : ∀ q a p, next a = some p → next (link q a) = some q

namespace Slist

variable (F : SlistEntry α)

/-- `SLIST_NEXT`. -/
def next (h : Heap α) (elm : Ptr) : Outcome Ptr := do
  match F.next (← h.load elm) with
  | some p => .ok p
  | none => .error .fault

/-- Set the link of an element. -/
def setNext (h : Heap α) (elm p : Ptr) : Outcome (Heap α) := do
  h.store elm (F.link p (← h.load elm))

/-- `SLIST_INSERT_HEAD`, which gives the new head. -/
def insertHead (h : Heap α) (head elm : Ptr) : Outcome (Ptr × Heap α) := do
  let h ← setNext F h elm head
  return (elm, h)

/-- `SLIST_REMOVE`, which gives the new head. An element that is not the first
is looked for from the head on. -/
def remove (budget : Nat) (h : Heap α) (head elm : Ptr) :
    Outcome (Ptr × Heap α) := do
  if head = elm then return (← next F h head, h)
  else
    let curelm ← rounds (fun curelm => do
      let p ← next F h curelm
      return if p = elm then .inr curelm else .inl p) budget head
    let h ← setNext F h curelm (← next F h (← next F h curelm))
    return (head, h)

/-- `SLIST_FOREACH_SAFE`. -/
def foreachSafe (body : Ptr → Heap α → Outcome (Heap α)) (budget : Nat)
    (first : Ptr) (h : Heap α) : Outcome (Heap α) :=
  rounds (fun s : Ptr × Heap α => do
    if s.1 = null then return .inr s.2
    else
      let temp ← next F s.2 s.1
      let h ← body s.1 s.2
      return .inl (temp, h)) budget (first, h)

end Slist

/-- The list from `p` on has the elements `ps`. -/
inductive IsSlist (F : SlistEntry α) (h : Heap α) : Ptr → List Ptr → Prop where
  | nil : IsSlist F h null []
  | cons {p q : Ptr} {ps : List Ptr} {a : α} : h.obj p = some a →
      F.next a = some q → IsSlist F h q ps → IsSlist F h p (p :: ps)

section

variable {F : SlistEntry α} {h h' : Heap α} {head p q : Ptr} {ps : List Ptr}
  {a : α}

theorem Slist.next_of (hp : h.obj p = some a) (hq : F.next a = some q) :
    Slist.next F h p = .ok q := by
  rw [Slist.next, Heap.load_of hp, ok_bind, hq]

theorem Slist.setNext_of (hp : h.obj p = some a) (q : Ptr) :
    Slist.setNext F h p q = .ok (h.put p (F.link q a)) := by
  rw [Slist.setNext, Heap.load_of hp, ok_bind, Heap.store_of hp]

theorem IsSlist.next_of_cons (hl : IsSlist F h head (p :: ps)) :
    ∃ q, head = p ∧ p ≠ null ∧ Slist.next F h p = .ok q ∧ IsSlist F h q ps := by
  cases hl with
  | cons hp hnext hl =>
      exact ⟨_, rfl, Heap.ne_null hp, Slist.next_of hp hnext, hl⟩

/-- The elements say where the list begins. -/
theorem IsSlist.head_eq (hl : IsSlist F h head ps) : head = ps.headD null := by
  cases hl <;> rfl

/-- A list is the same where its elements are. -/
theorem IsSlist.congr (hl : IsSlist F h head ps)
    (hsame : ∀ q ∈ ps, h'.obj q = h.obj q) : IsSlist F h' head ps := by
  induction hl with
  | nil => exact .nil
  | cons hp hnext hl ih =>
      rw [List.forall_mem_cons] at hsame
      exact .cons (hsame.1.trans hp) hnext (ih hsame.2)

/-- A new element is put in front of the list. -/
theorem IsSlist.insertHead (hl : IsSlist F h head ps) (hp : h.obj p = some a)
    (hnext : F.next a = some q) (hnot : p ∉ ps) :
    Slist.insertHead F h head p = .ok (p, h.put p (F.link head a)) ∧
      IsSlist F (h.put p (F.link head a)) p (p :: ps) := by
  constructor
  · rw [Slist.insertHead, Slist.setNext_of hp]
    rfl
  · refine .cons (Heap.obj_put_self hp) (F.next_link head a q hnext) ?_
    exact hl.congr fun r hr => Heap.obj_put_of_ne (ne_of_mem_of_not_mem hr hnot)

/-- The first element is removed without a search. -/
theorem IsSlist.remove_head (hl : IsSlist F h head (p :: ps)) (budget : Nat) :
    ∃ q, Slist.remove F budget h head p = .ok (q, h) ∧ IsSlist F h q ps := by
  obtain ⟨q, rfl, -, hnext, htail⟩ := hl.next_of_cons
  exact ⟨q, by rw [Slist.remove, if_pos rfl, hnext]; rfl, htail⟩

variable {body : Ptr → Heap α → Outcome (Heap α)} {budget : Nat}

theorem Slist.foreachSafe_null :
    Slist.foreachSafe F body (budget + 1) null h = .ok h :=
  rounds_of_leaves (if_pos rfl)

/-- A round of the loop, which goes on with what the element pointed to before
it. -/
theorem Slist.foreachSafe_step (hp : p ≠ null) (hnext : Slist.next F h p = .ok q)
    (hbody : body p h = .ok h') :
    Slist.foreachSafe F body (budget + 1) p h =
      Slist.foreachSafe F body budget q h' := by
  refine rounds_of_goesTo ?_
  show (if p = null then _ else _) = _
  rw [if_neg hp, hnext, ok_bind, hbody]
  rfl

/-- The loop rule: a body that takes what is to come from one state of the
invariant to the next is run for each of the elements. -/
theorem foreachSafe_rule {β : Type} {elm : β → Ptr} (I : List β → Heap α → Prop)
    (hlist : ∀ xs h, I xs h → ∃ head, IsSlist F h head (xs.map elm))
    (hbody : ∀ x xs h, I (x :: xs) h →
      ∃ h', body (elm x) h = .ok h' ∧ I xs h') {xs : List β}
    (hI : I xs h) (hl : IsSlist F h head (xs.map elm))
    (hbudget : xs.length < budget) :
    ∃ h', Slist.foreachSafe F body budget head h = .ok h' ∧ I [] h' := by
  induction xs generalizing h head budget with
  | nil =>
      obtain ⟨n, rfl⟩ := Nat.exists_eq_add_of_lt hbudget
      obtain rfl : head = null := hl.head_eq
      exact ⟨h, Slist.foreachSafe_null, hI⟩
  | cons x xs ih =>
      obtain ⟨n, rfl⟩ := Nat.exists_eq_add_of_lt hbudget
      obtain ⟨q, rfl, hne, hnext, htail⟩ := hl.next_of_cons
      obtain ⟨h', hrun, hI'⟩ := hbody x xs h hI
      obtain ⟨q', hl'⟩ := hlist xs h' hI'
      -- the element remembered is where the list that is left begins
      have hq : q = q' := htail.head_eq.trans hl'.head_eq.symm
      obtain ⟨h'', hloop, hI''⟩ := ih hI' (hq ▸ hl')
        (show xs.length < (x :: xs).length + n by rw [List.length_cons]; omega)
      exact ⟨h'', (Slist.foreachSafe_step hne hnext hrun).trans hloop, hI''⟩

end

end CSem
