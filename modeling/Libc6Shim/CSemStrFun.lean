import Libc6Shim.CSemProg
import Libc6Shim.CSemString

/-!
# The functions of `<string.h>`

Calls of a C library's string functions, each on a destination and a source.
The two are objects of their own, from the pointer on; only `memmove` may be
given places in one and the same object, in either order.

What a function does is one store into the destination, so it is described by
what it stores (`effect`), or that it runs out of an object before it can.
`examined` is how much of the source it looks at, which is all of a string
with its NUL unless the function takes a bound.
-/

namespace CSem

open Outcome Buf

/-- The two objects. -/
inductive Side where
  | dst
  | src
deriving Repr, DecidableEq

structure Objs where
  dst : Buf
  src : Buf
deriving Repr, DecidableEq

def Objs.get (o : Objs) : Side → Buf
  | .dst => o.dst
  | .src => o.src

inductive StrCall where
  | strlen (s : Side)
  | memcpy (len : Nat)
  /-- From the offset in the object `s` to the place in the destination. -/
  | memmove (place : Nat) (s : Side) (off len : Nat)
  | memset (c : BitVec 32) (len : Nat)
  | strcpy
  | stpcpy
  | strncpy (n : Nat)
  | strcat
  | strncat (n : Nat)
deriving Repr, DecidableEq

/-- Where in its object the destination is. -/
def StrCall.place : StrCall → Nat
  | .memmove place .. => place
  | _ => 0

/-- Bytes that are stored `start` bytes behind the destination, and what is
returned: a length, or an offset from the destination too. -/
structure StrEffect where
  start : Nat
  bytes : Buf
  ret : Nat
deriving Repr, DecidableEq

namespace StrFun

/-- The part of a string before its NUL, of which at most `n` bytes are looked
at. -/
def strnAt (b : Buf) (n : Nat) : Outcome Buf :=
  let s := (b.take n).takeWhile (· ≠ 0)
  if s.length = n ∨ s.length < b.length then .ok s else .error .fault

/-- What the function stores and returns. -/
def effect (o : Objs) : StrCall → Outcome StrEffect
  | .strlen s => do
      let t ← cstrAt (o.get s) 0
      return ⟨0, [], t.length⟩
  | .memcpy len => do
      let xs ← o.src.load 0 len
      return ⟨0, xs, 0⟩
  | .memmove _ s off len => do
      let xs ← (o.get s).load off len
      return ⟨0, xs, 0⟩
  | .memset c len => return ⟨0, List.replicate len (UInt8.ofBitVec (c.setWidth 8)), 0⟩
  | .strcpy => do
      let t ← cstrAt o.src 0
      return ⟨0, t ++ [0], 0⟩
  | .stpcpy => do
      let t ← cstrAt o.src 0
      return ⟨0, t ++ [0], t.length⟩
  | .strncpy n => do
      let t ← strnAt o.src n
      return ⟨0, t ++ List.replicate (n - t.length) 0, 0⟩
  | .strcat => do
      let s ← cstrAt o.dst 0
      let t ← cstrAt o.src 0
      return ⟨s.length, t ++ [0], 0⟩
  | .strncat n => do
      let s ← cstrAt o.dst 0
      let t ← strnAt o.src n
      return ⟨s.length, t ++ [0], 0⟩

/-- The call: its result, with the destination it leaves. -/
def perform (c : StrCall) (o : Objs) : Outcome Nat × Objs :=
  match (do
    let e ← effect o c
    let dst ← o.dst.store (c.place + e.start) e.bytes
    return (e.ret, dst)) with
  | .ok (ret, dst) => (.ok ret, { o with dst })
  | .error e => (.error e, o)

/-- How long the string in the source is. -/
def srcLen (o : Objs) : Nat := (o.src.takeWhile (· ≠ 0)).length

/-- How many bytes of the source the call looks at. -/
def examined (o : Objs) : StrCall → Nat
  | .strlen .dst | .memset .. => 0
  | .strlen .src | .strcpy | .stpcpy | .strcat => srcLen o + 1
  | .memcpy len | .memmove _ _ _ len => len
  | .strncpy n | .strncat n => min n (srcLen o + 1)

end StrFun

/-! ## Routines on strings -/

/-- A routine that calls string functions. -/
abbrev StrRoutine := Prog StrCall fun _ => Outcome Nat

namespace StrFun

variable {α : Type} {o : Objs} {c : StrCall}

/-- Make the call; a fault in it is the routine's. -/
def callStr (c : StrCall) : StrRoutine Nat := .call c Prog.ofOutcome

/-- What the routine comes to on the two objects, and what it leaves. -/
def exec (p : StrRoutine α) (o : Objs) : Outcome α × Objs :=
  Prog.exec perform p o

/-- The calls it makes there, as long as it does not change them. -/
def calls (p : StrRoutine α) (o : Objs) : List StrCall :=
  Prog.calls (fun c => (perform c o).1) p

theorem exec_callStr : exec (callStr c) o = perform c o := by
  rw [exec, callStr, Prog.exec]
  rcases perform c o with ⟨x, o'⟩
  cases x <;> rfl

theorem calls_callStr : calls (callStr c) o = [c] := by
  rw [calls, callStr, Prog.calls, Prog.calls_ofOutcome]

theorem load_not_abort (b : Buf) (off n : Nat) :
    (b.load off n).stopped ≠ some .abort := by
  rw [Buf.load]
  split <;> simp [stopped]

theorem cstrAt_not_abort (b : Buf) (off : Nat) :
    (cstrAt b off).stopped ≠ some .abort := by
  rw [cstrAt]
  split <;> simp [stopped]

theorem strnAt_not_abort (b : Buf) (n : Nat) :
    (strnAt b n).stopped ≠ some .abort := by
  rw [strnAt]
  split <;> simp [stopped]

theorem store_not_abort (b : Buf) (off : Nat) (xs : Buf) :
    (b.store off xs).stopped ≠ some .abort := by
  rw [Buf.store]
  split
  · simp [stopped]
  · split <;> simp [stopped]

theorem effect_not_abort : (effect o c).stopped ≠ some .abort := by
  cases c with
  | strlen s => exact stopped_bind_ne (cstrAt_not_abort _ _) fun _ => nofun
  | memcpy len => exact stopped_bind_ne (load_not_abort _ _ _) fun _ => nofun
  | memmove place s off len =>
      exact stopped_bind_ne (load_not_abort _ _ _) fun _ => nofun
  | memset c len => exact nofun
  | strcpy => exact stopped_bind_ne (cstrAt_not_abort _ _) fun _ => nofun
  | stpcpy => exact stopped_bind_ne (cstrAt_not_abort _ _) fun _ => nofun
  | strncpy n => exact stopped_bind_ne (strnAt_not_abort _ _) fun _ => nofun
  | strcat =>
      exact stopped_bind_ne (cstrAt_not_abort _ _) fun _ =>
        stopped_bind_ne (cstrAt_not_abort _ _) fun _ => nofun
  | strncat n =>
      exact stopped_bind_ne (cstrAt_not_abort _ _) fun _ =>
        stopped_bind_ne (strnAt_not_abort _ _) fun _ => nofun

/-- A string function that fails has run out of an object. -/
theorem perform_not_abort : (perform c o).1 ≠ .error .abort := by
  have hstopped : (do
      let e ← effect o c
      let dst ← o.dst.store (c.place + e.start) e.bytes
      return (e.ret, dst)).stopped ≠ some .abort :=
    stopped_bind_ne effect_not_abort fun _ =>
      stopped_bind_ne (store_not_abort _ _ _) fun _ => nofun
  rw [perform]
  split
  · exact nofun
  · rename_i e he
    rw [he] at hstopped
    exact fun h => hstopped (congrArg some (Except.error.inj h))

/-! ### Lengths -/

theorem length_load {b xs : Buf} {off n : Nat} (h : b.load off n = .ok xs) :
    xs.length = n := by
  rw [Buf.load] at h
  split at h
  · rename_i hfits
    cases h
    rcases hfits with rfl | hfits
    · rw [slice_zero, List.length_nil]
    · exact length_slice hfits
  · cases h

/-- A NUL is found where the string before it ends. -/
theorem zero_mem_take_iff {b : Buf} {n : Nat} :
    0 ∈ b.take n ↔ (b.takeWhile (· ≠ 0)).length < n ∧
      (b.takeWhile (· ≠ 0)).length < b.length := by
  induction b generalizing n with
  | nil => simp
  | cons x b ih =>
      cases n with
      | zero => simp
      | succ n =>
          by_cases hx : x = 0
          · simp [hx]
          · rw [List.take_succ_cons, List.mem_cons, or_iff_right (Ne.symm hx), ih,
              List.takeWhile_cons_of_pos (by simpa using hx)]
            simp

theorem length_takeWhile_take (b : Buf) (n : Nat) :
    ((b.take n).takeWhile (· ≠ 0)).length =
      min n (b.takeWhile (· ≠ 0)).length := by
  rw [← List.take_takeWhile, List.length_take]

/-- Of a source that ends behind its bound, the bound is what is copied. -/
theorem length_strnAt {b t : Buf} {n : Nat} (h : strnAt b n = .ok t) :
    t.length = min n (b.takeWhile (· ≠ 0)).length ∧
      (n ≤ (b.takeWhile (· ≠ 0)).length ∨ 0 ∈ b.take n) := by
  rw [strnAt, length_takeWhile_take] at h
  split at h
  · rename_i hfound
    cases h
    refine ⟨length_takeWhile_take b n, ?_⟩
    rw [zero_mem_take_iff]
    omega
  · cases h

/-! ### Routines that measure a string first -/

section Strlen

variable {s : Side} {t : Buf} (ht : cstrAt (o.get s) 0 = .ok t)
  (k : Nat → StrRoutine α)

include ht

theorem perform_strlen : perform (.strlen s) o = (.ok t.length, o) := by
  have heffect : effect o (.strlen s) = .ok ⟨0, [], t.length⟩ := by
    rw [effect, ht]
    rfl
  rw [perform, heffect]
  rfl

/-- The length of a string is known, and nothing changed. -/
theorem exec_strlen_bind :
    exec (callStr (.strlen s) >>= k) o = exec (k t.length) o := by
  show Prog.exec perform (Prog.call (StrCall.strlen s) _) o = _
  rw [Prog.exec, perform_strlen ht]
  rfl

theorem calls_strlen_bind :
    calls (callStr (.strlen s) >>= k) o =
      StrCall.strlen s :: calls (k t.length) o := by
  show Prog.calls _ (Prog.call (StrCall.strlen s) _) = _
  rw [Prog.calls, perform_strlen ht]
  rfl

end Strlen

section Unterminated

variable {s : Side} (hfault : cstrAt (o.get s) 0 = .error .fault)
  (k : Nat → StrRoutine α)

include hfault

theorem perform_strlen_fault : perform (.strlen s) o = (.error .fault, o) := by
  have heffect : effect o (.strlen s) = .error .fault := by
    rw [effect, hfault]
    rfl
  rw [perform, heffect]
  rfl

theorem exec_strlen_fault :
    exec (callStr (.strlen s) >>= k) o = (.error .fault, o) := by
  show Prog.exec perform (Prog.call (StrCall.strlen s) _) o = _
  rw [Prog.exec, perform_strlen_fault hfault]
  rfl

end Unterminated

/-- The first call made is in the list of calls. -/
theorem strlen_mem_calls (s : Side) (k : Nat → StrRoutine α) :
    StrCall.strlen s ∈ calls (callStr (.strlen s) >>= k) o := .head _

section Guard

variable {p : Prop} [Decidable p]

theorem exec_guard : exec (do
      Prog.ofOutcome (require p)
      callStr c) o =
    if p then perform c o else (.error .abort, o) := by
  by_cases hp : p
  · rw [if_pos hp, ← exec_callStr, require_of hp]
    rfl
  · rw [if_neg hp, require_of_not hp]
    rfl

theorem calls_guard : calls (do
      Prog.ofOutcome (require p)
      callStr c) o =
    if p then [c] else [] := by
  by_cases hp : p
  · rw [if_pos hp, ← calls_callStr (o := o), require_of hp]
    rfl
  · rw [if_neg hp, require_of_not hp]
    rfl

end Guard

end StrFun

end CSem
