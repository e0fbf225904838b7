import Libc6Shim.CSemHeap
import Libc6Shim.CSemProg
import Libc6Shim.CSemTraces

/-!
# Callbacks behind a trampoline

A library is given callbacks, each with an argument, and calls each at most
once, when it likes. Whoever needs something done around the call of a
callback hands down a trampoline of their own instead: a cell is allocated
for the callback and its argument, the trampoline is registered with the
cell as its argument, and when it is called it fetches the two, calls the
callback and frees the cell.

Here any number of registrations and of calls are under way at a time, each
a routine that takes its steps in any order with those of the others. What
the library itself does is a parameter, a `Policy`: what it may do after
what it did so far. It has no use for the functions and arguments it is
given, other than to call them: a `Policy` does not get to see them. And
`malloc` always succeeds. `Places` says where each routine is, and `Owned`
who has which cell.
-/

namespace CSem

namespace Trampoline

open Outcome

/-! ## The routines -/

section Routines

variable (F X V : Type)

/-- What is kept of a callback until it is called, as far as it is set. -/
structure Cell where
  cb : Option F
  arg : Option Ptr

/-- What can be registered: the trampoline, or a callback itself. -/
inductive Code where
  | trampoline
  | callback (f : F)

/-- A step of a routine. -/
inductive Call where
  | malloc
  | setCb (p : Ptr) (f : F)
  | setArg (p a : Ptr)
  | getCb (p : Ptr)
  | getArg (p : Ptr)
  | free (p : Ptr)
  /-- The library is handed a function and its argument, and whatever else it
  wants to know. -/
  | register (fn : Code F) (arg : Ptr) (x : X)
  /-- A callback is called, and it returns. -/
  | enter (f : F) (a : Ptr)
  | leave

variable {F X V}

@[reducible] def Answer (V : Type) : Call F X → Type
  | .malloc => Ptr
  | .setCb .. | .setArg .. | .free _ => Outcome Unit
  | .getCb _ => Outcome F
  | .getArg _ => Outcome Ptr
  | .register .. => Errno
  | .enter .. => Unit
  | .leave => V

abbrev Routine (F X V α : Type) := Prog (Call F X) (Answer V) α

def call (c : Call F X) : Routine F X V (Answer V c) := .call c .ret

def malloc : Routine F X V Ptr := call .malloc

-- the steps that may touch what is not there

def setCb (p : Ptr) (f : F) : Routine F X V Unit :=
  .call (.setCb p f) Prog.ofOutcome

def setArg (p a : Ptr) : Routine F X V Unit :=
  .call (.setArg p a) Prog.ofOutcome

def getCb (p : Ptr) : Routine F X V F := .call (.getCb p) Prog.ofOutcome

def getArg (p : Ptr) : Routine F X V Ptr := .call (.getArg p) Prog.ofOutcome

def free (p : Ptr) : Routine F X V Unit := .call (.free p) Prog.ofOutcome

/-- Call a callback. -/
def invoke (f : F) (a : Ptr) : Routine F X V V := do
  call (.enter f a)
  call .leave

/-- Register a callback by way of a cell. -/
def register (f : F) (a : Ptr) (x : X) : Routine F X V Errno := do
  let p ← malloc
  setCb p f
  setArg p a
  call (.register .trampoline p x)

/-- The trampoline. -/
def trampoline (p : Ptr) : Routine F X V V := do
  let f ← getCb p
  let a ← getArg p
  let v ← invoke f a
  free p
  return v

/-- Register a callback as it is. -/
def registerAsIs (f : F) (a : Ptr) (x : X) : Routine F X V Errno :=
  call (.register (.callback f) a x)

/-- What runs when something registered is called, with `tramp` for the
trampoline. -/
def Code.run (tramp : Ptr → Routine F X V V) : Code F → Ptr → Routine F X V V
  | .trampoline, p => tramp p
  | .callback f, a => invoke f a

end Routines

/-! ## The system -/

/-- What the library does. The registrations it accepts are numbered in the
order it accepts them in. -/
inductive Doing (X V : Type) where
  | registered (x : X) (err : Errno)
  | begun (r : Nat)
  | ended (r : Nat) (v : V)

/-- What the library may do after what it did. -/
abbrev Policy (X V : Type) := List (Doing X V) → Doing X V → Prop

/-- What is left of the call of something registered. -/
inductive Running (F X V : Type) where
  | notYet
  | still (p : Routine F X V V)
  | ended

structure State (F X V : Type) where
  heap : Heap (Cell F)
  /-- What is registered. -/
  table : List (Code F × Ptr)
  did : List (Doing X V)
  /-- What is left of each registration that was begun. -/
  asking : Nat → Option (Routine F X V Errno)
  running : Nat → Running F X V

inductive Event (F X V : Type) where
  /-- A registration is asked for. -/
  | ask (i : Nat) (f : F) (a : Ptr) (x : X)
  | askStep (i : Nat) (c : Call F X) (r : Answer V c)
  /-- The library calls what is registered under a number. -/
  | begin (r : Nat)
  | runStep (r : Nat) (c : Call F X) (ans : Answer V c)
  | finish (r : Nat) (v : V)

/-- What the program and the library see. -/
inductive Seen (F X V : Type) where
  | asked (i : Nat) (f : F) (a : Ptr) (x : X)
  | registered (i : Nat) (x : X) (err : Errno)
  | begun (r : Nat)
  | entered (r : Nat) (f : F) (a : Ptr)
  | left (r : Nat) (v : V)
  | ended (r : Nat) (v : V)

variable {F X V : Type}

/-- What is seen of an event. -/
def view : Event F X V → Option (Seen F X V)
  | .ask i f a x => some (.asked i f a x)
  | .askStep i (.register _ _ x) err => some (.registered i x err)
  | .askStep .. => none
  | .begin r => some (.begun r)
  | .runStep r (.enter f a) _ => some (.entered r f a)
  | .runStep r .leave v => some (.left r v)
  | .runStep .. => none
  | .finish r v => some (.ended r v)

/-- What a step does to the cells, with its answer. -/
def Cells (h : Heap (Cell F)) : (c : Call F X) → Answer V c → Heap (Cell F) → Prop
  | .malloc, p, h' => (p, h') = h.malloc ⟨none, none⟩
  | .setCb p f, r, h' => match h.obj p with
      | some cell => r = .ok () ∧ h' = h.put p { cell with cb := some f }
      | none => r = .error .fault ∧ h' = h
  | .setArg p a, r, h' => match h.obj p with
      | some cell => r = .ok () ∧ h' = h.put p { cell with arg := some a }
      | none => r = .error .fault ∧ h' = h
  | .getCb p, r, h' => h' = h ∧ r = match (h.obj p).bind Cell.cb with
      | some f => .ok f
      | none => .error .fault
  | .getArg p, r, h' => h' = h ∧ r = match (h.obj p).bind Cell.arg with
      | some a => .ok a
      | none => .error .fault
  | .free p, r, h' => match h.free p with
      | .ok h₁ => r = .ok () ∧ h' = h₁
      | .error e => r = .error e ∧ h' = h
  | .register .., _, h' => h' = h
  | .enter .., _, h' => h' = h
  | .leave, _, h' => h' = h

/-- What a registration does in the library. -/
def Registers (P : Policy X V) (s : State F X V) :
    (c : Call F X) → Answer V c → State F X V → Prop
  | .register fn a x, err, s' => P s.did (.registered x err) ∧
      s' = { s with
        table := if err = 0 then s.table ++ [(fn, a)] else s.table
        did := s.did ++ [.registered x err] }
  | _, _, s' => s' = s

/-- A step of the system in which registrations go by the routine `reg`, and
the trampoline is `tramp`. -/
def Step (reg : F → Ptr → X → Routine F X V Errno)
    (tramp : Ptr → Routine F X V V) (P : Policy X V)
    (s : State F X V) : Event F X V → State F X V → Prop
  | .ask i f a x, s' => s.asking i = none ∧
      s' = { s with asking := Function.update s.asking i (some (reg f a x)) }
  | .askStep i c r, s' => ∃ k h s₁, s.asking i = some (.call c k) ∧
      Cells s.heap c r h ∧ Registers P s c r s₁ ∧
      s' = { s₁ with
        heap := h
        asking := Function.update s.asking i (some (k r)) }
  | .begin r, s' => ∃ fn a, s.table[r]? = some (fn, a) ∧
      s.running r = .notYet ∧ P s.did (.begun r) ∧
      s' = { s with
        did := s.did ++ [.begun r]
        running := Function.update s.running r (.still (fn.run tramp a)) }
  | .runStep r c ans, s' => ∃ k h, s.running r = .still (.call c k) ∧
      Cells s.heap c ans h ∧
      s' = { s with
        heap := h
        running := Function.update s.running r (.still (k ans)) }
  | .finish r v, s' => s.running r = .still (.ret v) ∧ P s.did (.ended r v) ∧
      s' = { s with
        did := s.did ++ [.ended r v]
        running := Function.update s.running r .ended }

def fresh : State F X V where
  heap := .empty
  table := []
  did := []
  asking _ := none
  running _ := .notYet

/-! ## Where a routine is -/

/-- The places in a registration, with its cell once it has one. -/
inductive AskPoint (F X : Type) where
  | out
  | start (f : F) (a : Ptr) (x : X)
  | blank (p : Ptr) (f : F) (a : Ptr) (x : X)
  | half (p : Ptr) (f : F) (a : Ptr) (x : X)
  | full (p : Ptr) (f : F) (a : Ptr) (x : X)
  | done (err : Errno)

namespace AskPoint

/-- What is left of the routine that goes by a cell. -/
def rest : AskPoint F X → Option (Routine F X V Errno)
  | .out => none
  | .start f a x => some (register f a x)
  | .blank p f a x => some do
      setCb p f
      setArg p a
      call (.register .trampoline p x)
  | .half p _ a x => some do
      setArg p a
      call (.register .trampoline p x)
  | .full p _ _ x => some (call (.register .trampoline p x))
  | .done err => some (.ret err)

/-- What is left of the one that does not. -/
def restAsIs : AskPoint F X → Option (Routine F X V Errno)
  | .out => none
  | .start f a x | .blank _ f a x | .half _ f a x | .full _ f a x =>
      some (registerAsIs f a x)
  | .done err => some (.ret err)

/-- The cell, and what is in it. -/
def cell : AskPoint F X → Option (Ptr × Cell F)
  | .blank p _ _ _ => some (p, ⟨none, none⟩)
  | .half p f _ _ => some (p, ⟨some f, none⟩)
  | .full p f a _ => some (p, ⟨some f, some a⟩)
  | .out | .start .. | .done _ => none

end AskPoint

/-- A registration that was accepted by way of a cell. -/
structure Entry (F : Type) where
  cell : Ptr
  cb : F
  arg : Ptr

/-- The places in a call of the trampoline. -/
inductive RunPoint (V : Type) where
  | notYet
  | start
  | gotCb
  | gotArg
  | inside
  | back (v : V)
  | freed (v : V)
  | ended

namespace RunPoint

/-- What is left of the trampoline, called for an entry. -/
def rest (e : Entry F) : RunPoint V → Running F X V
  | .notYet => .notYet
  | .start => .still (trampoline e.cell)
  | .gotCb => .still do
      let a ← getArg e.cell
      let v ← invoke e.cb a
      free e.cell
      return v
  | .gotArg => .still do
      let v ← invoke e.cb e.arg
      free e.cell
      return v
  | .inside => .still do
      let v ← call .leave
      free e.cell
      return v
  | .back v => .still do
      free e.cell
      return v
  | .freed v => .still (.ret v)
  | .ended => .ended

/-- What is left of the callback, called as it is. -/
def restAsIs (e : Entry F) : RunPoint V → Running F X V
  | .notYet => .notYet
  | .start | .gotCb | .gotArg => .still (invoke e.cb e.arg)
  | .inside => .still (call .leave)
  | .back v | .freed v => .still (.ret v)
  | .ended => .ended

/-- The cell has been freed. -/
def CameBack : RunPoint V → Prop
  | .freed _ | .ended => True
  | _ => False

end RunPoint

/-- A way to register: what the library is handed, and what is left of the
routines at each place. -/
structure Form (F X V : Type) where
  handed : Entry F → Code F × Ptr
  ask : AskPoint F X → Option (Routine F X V Errno)
  run : Entry F → RunPoint V → Running F X V

/-- By way of a cell. -/
def byCell : Form F X V where
  handed e := (.trampoline, e.cell)
  ask := AskPoint.rest
  run := RunPoint.rest

/-- As it is. -/
def asIs : Form F X V where
  handed e := (.callback e.cb, e.arg)
  ask := AskPoint.restAsIs
  run := RunPoint.restAsIs

/-- Where everything is: each registration, the entries, and their calls. -/
structure Places (F X V : Type) where
  ask : Nat → AskPoint F X
  entries : List (Entry F)
  run : Nat → RunPoint V

namespace Places

def setAsk (g : Places F X V) (i : Nat) (pt : AskPoint F X) : Places F X V :=
  { g with ask := Function.update g.ask i pt }

def setRun (g : Places F X V) (r : Nat) (pt : RunPoint V) : Places F X V :=
  { g with run := Function.update g.run r pt }

/-- The library's answer to a registration. -/
def answer (g : Places F X V) (i : Nat) (err : Errno) (e : Entry F) :
    Places F X V where
  ask := Function.update g.ask i (.done err)
  entries := if err = 0 then g.entries ++ [e] else g.entries
  run := g.run

/-- What a state looks like if everything is where `g` says. -/
structure Fits (form : Form F X V) (g : Places F X V) (s : State F X V) :
    Prop where
  table : s.table = g.entries.map form.handed
  asking : ∀ i, s.asking i = form.ask (g.ask i)
  running : ∀ r e, g.entries[r]? = some e → s.running r = form.run e (g.run r)
  idle : ∀ r, g.entries[r]? = none → g.run r = .notYet ∧ s.running r = .notYet

end Places

/-- Every cell has one owner, a registration that has it in hand or an entry,
and holds what its owner put there, until the call of an entry that came
back has freed it. -/
structure Owned (cells : Nat → Option (Ptr × Cell F)) (entries : List (Entry F))
    (back : Nat → Prop) (h : Heap (Cell F)) : Prop where
  asks : ∀ i p cell, cells i = some (p, cell) → h.obj p = some cell
  below : ∀ e ∈ entries, e.cell < h.next
  held : ∀ r e, entries[r]? = some e → ¬back r →
    h.obj e.cell = some ⟨some e.cb, some e.arg⟩
  asks_ne : ∀ i j p c c', cells i = some (p, c) → cells j = some (p, c') → i = j
  apart : ∀ i p c, cells i = some (p, c) → ∀ e ∈ entries, e.cell ≠ p
  entries_ne : ∀ (q r : Nat) (e e' : Entry F), entries[q]? = some e →
    entries[r]? = some e' → e.cell = e'.cell → q = r
  gone : ∀ p, null < p → p < h.next → (h.obj p = none ↔
    ∃ r e, entries[r]? = some e ∧ back r ∧ e.cell = p)

namespace Owned

variable {cells : Nat → Option (Ptr × Cell F)} {entries : List (Entry F)}
  {back : Nat → Prop} {h : Heap (Cell F)} {i r : Nat} {p : Ptr} {c c' : Cell F}
  {e : Entry F}

theorem empty : Owned (fun _ => none) [] (fun _ => False)
    (Heap.empty : Heap (Cell F)) where
  asks _ _ _ h := nomatch h
  below _ h := nomatch h
  held _ _ h := nomatch h
  asks_ne _ _ _ _ _ h := nomatch h
  apart _ _ _ h := nomatch h
  entries_ne _ _ _ _ h := nomatch h
  gone _ hpos hlt := absurd hlt (Nat.not_lt.mpr hpos)

/-- A registration gets a cell. -/
theorem malloc (hown : Owned cells entries back h) (hi : cells i = none)
    (c : Cell F) :
    Owned (Function.update cells i (some (h.next, c))) entries back
      (h.grow c) where
  asks j p cell hj := by
    by_cases hji : j = i
    · subst hji
      rw [Function.update_self] at hj
      cases hj
      exact Heap.obj_grow_next
    · rw [Function.update_of_ne hji] at hj
      exact Heap.obj_grow_of (hown.asks j p cell hj)
  below e he := Nat.lt_succ_of_lt (hown.below e he)
  held r e he hback := Heap.obj_grow_of (hown.held r e he hback)
  asks_ne j k p d d' hj hk := by
    -- the new cell is nobody else's
    have hnew : ∀ j d, cells j ≠ some (h.next, d) := fun j d hj =>
      Nat.lt_irrefl _ (Heap.lt_next (hown.asks j _ _ hj))
    by_cases hji : j = i <;> by_cases hki : k = i
    · rw [hji, hki]
    · subst hji
      rw [Function.update_self] at hj
      rw [Function.update_of_ne hki] at hk
      cases hj
      exact absurd hk (hnew k d')
    · subst hki
      rw [Function.update_self] at hk
      rw [Function.update_of_ne hji] at hj
      cases hk
      exact absurd hj (hnew j d)
    · rw [Function.update_of_ne hji] at hj
      rw [Function.update_of_ne hki] at hk
      exact hown.asks_ne j k p d d' hj hk
  apart j p d hj e he := by
    by_cases hji : j = i
    · subst hji
      rw [Function.update_self] at hj
      cases hj
      exact Nat.ne_of_lt (hown.below e he)
    · rw [Function.update_of_ne hji] at hj
      exact hown.apart j p d hj e he
  entries_ne := hown.entries_ne
  gone p hpos hlt := by
    by_cases hp : p = h.next
    · subst hp
      rw [Heap.obj_grow_next]
      refine iff_of_false nofun ?_
      rintro ⟨r, e, he, -, hcell⟩
      exact Nat.ne_of_lt (hown.below e (List.mem_of_getElem? he)) hcell
    · have hlt' : p < h.next :=
        Nat.lt_of_le_of_ne (Nat.le_of_lt_succ hlt) hp
      rw [show (h.grow c).obj p = h.obj p from if_neg hp]
      exact hown.gone p hpos hlt'

/-- A registration writes into its cell. -/
theorem put (hown : Owned cells entries back h) (hi : cells i = some (p, c))
    (c' : Cell F) :
    Owned (Function.update cells i (some (p, c'))) entries back
      (h.put p c') where
  asks j q cell hj := by
    by_cases hji : j = i
    · subst hji
      rw [Function.update_self] at hj
      cases hj
      exact Heap.obj_put_self (hown.asks _ _ _ hi)
    · rw [Function.update_of_ne hji] at hj
      have hq : q ≠ p := by
        rintro rfl
        exact hji (hown.asks_ne j i q cell c hj hi)
      rw [Heap.obj_put_of_ne hq]
      exact hown.asks j q cell hj
  below := hown.below
  held r e he hback := by
    rw [Heap.obj_put_of_ne (hown.apart i p c hi e (List.mem_of_getElem? he))]
    exact hown.held r e he hback
  asks_ne j k q d d' hj hk := by
    have hold : ∀ j d, Function.update cells i (some (p, c')) j = some (q, d) →
        ∃ d, cells j = some (q, d) := by
      intro j d hj
      by_cases hji : j = i
      · subst hji
        rw [Function.update_self] at hj
        cases hj
        exact ⟨c, hi⟩
      · rw [Function.update_of_ne hji] at hj
        exact ⟨d, hj⟩
    obtain ⟨d₁, hj⟩ := hold j d hj
    obtain ⟨d₂, hk⟩ := hold k d' hk
    exact hown.asks_ne j k q d₁ d₂ hj hk
  apart j q d hj e he := by
    by_cases hji : j = i
    · subst hji
      rw [Function.update_self] at hj
      cases hj
      exact hown.apart _ _ _ hi e he
    · rw [Function.update_of_ne hji] at hj
      exact hown.apart j q d hj e he
  entries_ne := hown.entries_ne
  gone q hpos hlt := by
    by_cases hq : q = p
    · subst hq
      have hlive := hown.asks i q c hi
      rw [Heap.obj_put_self hlive]
      refine iff_of_false nofun ?_
      rintro ⟨r, e, he, -, hcell⟩
      exact hown.apart i q c hi e (List.mem_of_getElem? he) hcell
    · rw [Heap.obj_put_of_ne hq]
      exact hown.gone q hpos hlt

/-- A registration is over, and leaves its cell behind. -/
theorem forget (hown : Owned cells entries back h) (i : Nat) :
    Owned (Function.update cells i none) entries back h := by
  have hold : ∀ j p c, Function.update cells i none j = some (p, c) →
      cells j = some (p, c) := by
    intro j p c hj
    by_cases hji : j = i
    · subst hji
      rw [Function.update_self] at hj
      cases hj
    · rwa [Function.update_of_ne hji] at hj
  exact {
    asks := fun j p c hj => hown.asks j p c (hold j p c hj)
    below := hown.below
    held := hown.held
    asks_ne := fun j k p d d' hj hk =>
      hown.asks_ne j k p d d' (hold j p d hj) (hold k p d' hk)
    apart := fun j p d hj => hown.apart j p d (hold j p d hj)
    entries_ne := hown.entries_ne
    gone := hown.gone }

/-- An entry takes over the cell of a registration. -/
theorem accept (hown : Owned cells entries back h)
    (hi : cells i = some (e.cell, ⟨some e.cb, some e.arg⟩))
    (hback : ∀ r, entries.length ≤ r → ¬back r) :
    Owned (Function.update cells i none) (entries ++ [e]) back h where
  asks := (hown.forget i).asks
  below e' he' := by
    rcases List.mem_append.mp he' with he' | he'
    · exact hown.below e' he'
    · rw [List.mem_singleton.mp he']
      exact Heap.lt_next (hown.asks i _ _ hi)
  held r e' he' hr := by
    rcases Nat.lt_or_ge r entries.length with hlt | hge
    · rw [List.getElem?_append_left hlt] at he'
      exact hown.held r e' he' hr
    · rw [List.getElem?_append_right hge] at he'
      rw [List.mem_singleton.mp (List.mem_of_getElem? he')]
      exact hown.asks i _ _ hi
  asks_ne := (hown.forget i).asks_ne
  apart j p c hj e' he' := by
    rcases List.mem_append.mp he' with he' | he'
    · exact (hown.forget i).apart j p c hj e' he'
    · rw [List.mem_singleton.mp he']
      rintro rfl
      by_cases hji : j = i
      · subst hji
        rw [Function.update_self] at hj
        cases hj
      · rw [Function.update_of_ne hji] at hj
        exact hji (hown.asks_ne j i _ _ _ hj hi)
  entries_ne q r e₁ e₂ hq hr heq := by
    have hnew : ∀ (q : Nat) (e₁ : Entry F), (entries ++ [e])[q]? = some e₁ → e₁.cell = e.cell →
        q = entries.length := by
      intro q e₁ hq hcell
      obtain ⟨hlt, -⟩ := List.getElem?_eq_some_iff.mp hq
      rw [List.length_append, List.length_singleton] at hlt
      refine Nat.le_antisymm (Nat.le_of_lt_succ hlt) (Nat.not_lt.mp fun hold => ?_)
      rw [List.getElem?_append_left hold] at hq
      exact hown.apart i _ _ hi e₁ (List.mem_of_getElem? hq) hcell
    by_cases hcell : e₁.cell = e.cell
    · rw [hnew q e₁ hq hcell, hnew r e₂ hr (heq ▸ hcell)]
    · have hold : ∀ (q : Nat) (e₁ : Entry F), (entries ++ [e])[q]? = some e₁ →
          e₁.cell ≠ e.cell → entries[q]? = some e₁ := by
        intro q e₁ hq hcell
        rcases Nat.lt_or_ge q entries.length with hlt | hge
        · rwa [List.getElem?_append_left hlt] at hq
        · rw [List.getElem?_append_right hge] at hq
          rw [List.mem_singleton.mp (List.mem_of_getElem? hq)] at hcell
          exact absurd rfl hcell
      exact hown.entries_ne q r e₁ e₂ (hold q e₁ hq hcell)
        (hold r e₂ hr (heq ▸ hcell)) heq
  gone p hpos hlt := by
    rw [hown.gone p hpos hlt]
    refine exists_congr fun r => exists_congr fun e' => ?_
    refine and_congr_left fun ⟨hr, _⟩ => ?_
    have hlt : r < entries.length := Nat.not_le.mp fun hge => hback r hge hr
    rw [List.getElem?_append_left hlt]

/-- The cell of an entry is freed. -/
theorem free (hown : Owned cells entries back h) (he : entries[r]? = some e)
    {back' : Nat → Prop} (hback : ∀ q, back' q ↔ q = r ∨ back q) (c : Cell F) :
    Owned cells entries back' (h.drop e.cell c) where
  asks j p d hj := by
    have hp := hown.apart j p d hj e (List.mem_of_getElem? he)
    rw [Heap.obj_drop_of_ne hp.symm]
    exact hown.asks j p d hj
  below := hown.below
  held q e' he' hq := by
    rw [hback, not_or] at hq
    have hne : e'.cell ≠ e.cell := fun heq => hq.1
      (hown.entries_ne q r e' e he' he heq)
    rw [Heap.obj_drop_of_ne hne]
    exact hown.held q e' he' hq.2
  asks_ne := hown.asks_ne
  apart := hown.apart
  entries_ne := hown.entries_ne
  gone p hpos hlt := by
    by_cases hp : p = e.cell
    · subst hp
      rw [Heap.obj_drop_self]
      exact iff_of_true rfl ⟨r, e, he, (hback r).mpr (.inl rfl), rfl⟩
    · rw [Heap.obj_drop_of_ne hp, hown.gone p hpos hlt]
      refine exists_congr fun q => exists_congr fun e' => ?_
      refine and_congr_right fun he' => and_congr_left fun hcell => ?_
      rw [hback]
      refine (or_iff_right ?_).symm
      rintro rfl
      exact hp (hcell ▸ congrArg Entry.cell (Option.some.inj (he'.symm.trans he)))

end Owned

end Trampoline

end CSem
