import Libc6Shim.Syscall

/-!
# Private futex waits

`FUTEX_WAIT_PRIVATE` is asked for with the address of a 32-bit word, and
handed to `_umtx_op` as `UMTX_OP_WAIT`, which compares a `long`. On amd64
that is the word and the four bytes behind it (`longAt_eq`), so a wait whose
word has the value it should sleeps only if those bytes are zero
(`futexWait_word_iff`).

What a wait decides is how far the call gets under a host that may keep it
waiting (`Prog.advance`). The memory of the host is flat: the bytes behind a
word belong to whatever comes next.
-/

namespace Libc6Shim

open CSem Buf

/-! ## The host -/

/-- The bytes of a process, by address. -/
abbrev FlatMem := Nat → UInt8

namespace FlatMem

/-- The `n` bytes at an address. -/
def bytesAt (m : FlatMem) (addr n : Nat) : Buf :=
  (List.range n).map fun i => m (addr + i)

/-- The `uint32_t` at an address. -/
def wordAt (m : FlatMem) (addr : Nat) : Nat := leNat (m.bytesAt addr 4)

/-- The `long` at an address, on amd64. -/
def longAt (m : FlatMem) (addr : Nat) : Nat := leNat (m.bytesAt addr 8)

theorem longAt_eq (m : FlatMem) (addr : Nat) :
    m.longAt addr = m.wordAt addr + 2 ^ 32 * m.wordAt (addr + 4) := by
  have hsplit : m.bytesAt addr 8 = m.bytesAt addr 4 ++ m.bytesAt (addr + 4) 4 :=
    rfl
  have hlen : (m.bytesAt addr 4).length = 4 := rfl
  rw [longAt, hsplit, leNat_append, hlen]
  rfl

theorem wordAt_lt (m : FlatMem) (addr : Nat) : m.wordAt addr < 2 ^ 32 := by
  have hlen : (m.bytesAt addr 4).length = 4 := rfl
  have hlt := leNat_lt (m.bytesAt addr 4)
  rw [hlen] at hlt
  exact hlt

/-- The long is a 32-bit value exactly if the word is and nothing follows. -/
theorem longAt_eq_iff (m : FlatMem) (addr : Nat) (val : Word) :
    m.longAt addr = val.toNat ↔
      m.wordAt addr = val.toNat ∧ m.wordAt (addr + 4) = 0 := by
  have hval := val.isLt
  have hword := m.wordAt_lt addr
  rw [longAt_eq]
  omega

end FlatMem

/-- How a host answers the calls made to it: it may keep one waiting. -/
abbrev Host := (c : SysCall) → FlatMem → Option (Except Errno (SysAnswer c)) × FlatMem

/-- `UMTX_OP_WAIT` compares a `long`, sleeps if it is the value given, and
returns at once if not. -/
structure Host.ComparesLong (host : Host) : Prop where
  sleeps : ∀ m obj val uaddr uaddr2, m.longAt obj = val →
    host (.umtxOp obj umtxOpWait val uaddr uaddr2) m = (none, m)
  returns : ∀ m obj val uaddr uaddr2, m.longAt obj ≠ val →
    host (.umtxOp obj umtxOpWait val uaddr uaddr2) m = (some (.ok ()), m)

/-! ## The wait -/

/-- What `syscall(FUTEX, ...)` comes to on amd64 in the memory `m`, with `e`
in `errno` before. `objects` is for the calls that follow a pointer. -/
def futexCall (host : Host) (linuxEmulPath : Buf) (robustList : Ptr)
    (objects : Mem) (args : VaList .amd64) (e : Errno) (m : FlatMem) :
    Outcome (Option ((Long .amd64 × Mem) × Errno)) :=
  (Prog.advance host (shimSyscall .amd64 linuxEmulPath robustList objects
    (linuxFutex .amd64) args e) m).1

/-- It goes to sleep. -/
def Sleeps {α : Type} (x : Outcome (Option α)) : Prop := x = .ok none

/-- A wait looks only at the futex word: it decides the same in both
memories, and sleeps exactly if the word is the one expected. -/
def LooksAtWord {α : Type} (uaddr : Nat) (val : Word)
    (wait : FlatMem → Outcome (Option α)) (m m' : FlatMem) : Prop :=
  wait m = wait m' ∧ (Sleeps (wait m) ↔ m.wordAt uaddr = val.toNat) ∧
    (Sleeps (wait m') ↔ m'.wordAt uaddr = val.toNat)

section

variable {host : Host} {linuxEmulPath : Buf} {robustList : Ptr} {objects : Mem}
  {args : VaList .amd64} {e : Errno} {m m' : FlatMem}

theorem futexCall_wait (hhost : host.ComparesLong)
    (hop : args.int 1 = futexWaitPrivate) (m : FlatMem) :
    futexCall host linuxEmulPath robustList objects args e m =
      if m.longAt (args.size 0) = (args.int 2).toNat then .ok none
      else .ok (some ((0, objects), e)) := by
  have hcall : shimSyscall .amd64 linuxEmulPath robustList objects
      (linuxFutex .amd64) args = (do
        let err ← syscallFutex .amd64 (args.size 0) (args.int 1) (args.int 2)
          (args.size 3)
        return ((errResult err).signExtend _, objects)) := rfl
  rw [futexCall, hcall, syscallFutex, if_pos hop]
  by_cases hval : m.longAt (args.size 0) = (args.int 2).toNat
  · rw [if_pos hval]
    exact congrArg Prod.fst (Prog.advance_call_of_none
      (hhost.sleeps _ _ _ _ _ hval))
  · rw [if_neg hval]
    exact congrArg Prod.fst (Prog.advance_call_of_some
      (hhost.returns _ _ _ _ _ hval))

theorem sleeps_futexCall_iff (hhost : host.ComparesLong)
    (hop : args.int 1 = futexWaitPrivate) (m : FlatMem) :
    Sleeps (futexCall host linuxEmulPath robustList objects args e m) ↔
      m.longAt (args.size 0) = (args.int 2).toNat := by
  rw [futexCall_wait hhost hop, Sleeps]
  by_cases hval : m.longAt (args.size 0) = (args.int 2).toNat
  · exact iff_of_true (if_pos hval) hval
  · rw [if_neg hval]
    exact iff_of_false (by simp) hval

/-- A wait looks only at its word exactly if, when that is the one expected,
the next word is zero. -/
theorem futexWait_word_iff (hhost : host.ComparesLong)
    (hop : args.int 1 = futexWaitPrivate)
    (hagree : m.bytesAt (args.size 0) 4 = m'.bytesAt (args.size 0) 4) :
    LooksAtWord (args.size 0) (args.int 2)
        (futexCall host linuxEmulPath robustList objects args e) m m' ↔
      (m.wordAt (args.size 0) = (args.int 2).toNat →
        m.wordAt (args.size 0 + 4) = 0 ∧ m'.wordAt (args.size 0 + 4) = 0) := by
  have hword : m.wordAt (args.size 0) = m'.wordAt (args.size 0) :=
    congrArg leNat hagree
  have hlong := FlatMem.longAt_eq_iff m (args.size 0) (args.int 2)
  have hlong' := FlatMem.longAt_eq_iff m' (args.size 0) (args.int 2)
  rw [← hword] at hlong'
  rw [LooksAtWord, sleeps_futexCall_iff hhost hop, sleeps_futexCall_iff hhost hop,
    futexCall_wait hhost hop, futexCall_wait hhost hop, ← hword]
  by_cases hval : m.wordAt (args.size 0) = (args.int 2).toNat
  · rw [and_iff_right hval] at hlong hlong'
    constructor
    · rintro ⟨-, h, h'⟩ -
      exact ⟨hlong.mp (h.mpr hval), hlong'.mp (h'.mpr hval)⟩
    · intro hnext
      obtain ⟨h, h'⟩ := hnext hval
      rw [if_pos (hlong.mpr h), if_pos (hlong'.mpr h')]
      exact ⟨rfl, iff_of_true (hlong.mpr h) hval,
        iff_of_true (hlong'.mpr h') hval⟩
  · have hne := fun h => hval (hlong.mp h).1
    have hne' := fun h => hval (hlong'.mp h).1
    rw [if_neg hne, if_neg hne']
    exact iff_of_true ⟨rfl, iff_of_false hne hval, iff_of_false hne' hval⟩
      fun h => absurd h hval

end

/-! ## One host -/

/-- A host that only compares. -/
def comparingHost : Host
  | .umtxOp obj op val _ _, m =>
      if op = umtxOpWait ∧ m.longAt obj = val then (none, m)
      else (some (.ok ()), m)
  | _, m => (some (.error enosys), m)

theorem comparingHost_comparesLong : comparingHost.ComparesLong where
  sleeps m obj val uaddr uaddr2 hval := by
    rw [comparingHost, if_pos ⟨rfl, hval⟩]
  returns m obj val uaddr uaddr2 hval := by
    rw [comparingHost, if_neg fun h => hval h.2]

/-- The arguments of a wait at `uaddr` while its word is `val`. -/
def waitArgs (uaddr val : Nat) : VaList .amd64
  | 0 => BitVec.ofNat 64 uaddr
  | 1 => 0x80
  | 2 => BitVec.ofNat 64 val
  | _ => 0

/-- A one at each of the addresses, and zeros. -/
def onesAt (addrs : List Nat) : FlatMem := fun a => if a ∈ addrs then 1 else 0

/-- Two words that are one: a wait at the first does not sleep. -/
theorem futexWait_neighbour_awake :
    (onesAt [0]).bytesAt 0 4 = (onesAt [0, 4]).bytesAt 0 4 ∧
      ¬LooksAtWord 0 1 (futexCall comparingHost [] 1 (.only null [])
        (waitArgs 0 1) 0) (onesAt [0]) (onesAt [0, 4]) := by
  refine ⟨by decide, ?_⟩
  rintro ⟨-, -, hiff⟩
  have hword : (onesAt [0, 4]).wordAt 0 = (1 : Word).toNat := by decide
  have hlong : (onesAt [0, 4]).longAt 0 ≠ (1 : Word).toNat := by decide
  have hop : (waitArgs 0 1).int 1 = futexWaitPrivate := by decide
  exact hlong ((sleeps_futexCall_iff comparingHost_comparesLong hop _).mp
    (hiff.mpr hword))

/-- Zeros behind the word: a wait sleeps, whatever follows them. -/
theorem futexWait_zeros_sleep :
    LooksAtWord 0 1 (futexCall comparingHost [] 1 (.only null [])
      (waitArgs 0 1) 0) (onesAt [0]) (onesAt [0, 8]) := by
  have hop : (waitArgs 0 1).int 1 = futexWaitPrivate := by decide
  have hagree : (onesAt [0]).bytesAt 0 4 = (onesAt [0, 8]).bytesAt 0 4 := by
    decide
  have hnext : (onesAt [0]).wordAt 4 = 0 ∧ (onesAt [0, 8]).wordAt 4 = 0 := by
    decide
  exact (futexWait_word_iff comparingHost_comparesLong hop hagree).mpr
    fun _ => hnext

end Libc6Shim
