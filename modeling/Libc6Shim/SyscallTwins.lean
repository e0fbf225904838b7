import Libc6Shim.Syscall

/-!
# Direct calls and their libc twins

Five of the calls that `syscall` takes are in the libc interface as well.
`DirectCall` is one of the five with the arguments of its prototype, and
`twin` calls the shim's own function with them; `syscall` finds the same
arguments in the slots behind the number (`PassedAs`), whatever the upper
halves of the narrow ones hold.

Both sides make the same native call and go on from the same answer. They
differ in the type of one intermediate result: the count of a `write` goes
through an `int` (`signExtend_ofNat_eq_iff`).
-/

namespace CSem

/-- A number that goes through a narrower signed word comes out as it was
exactly if it fits. -/
theorem signExtend_ofNat_eq_iff {v w n : Nat} (hv : 0 < v) (hvw : v ≤ w)
    (hn : n < 2 ^ (w - 1)) :
    (BitVec.ofNat v n).signExtend w = BitVec.ofNat w n ↔ n < 2 ^ (v - 1) := by
  have hint : ∀ {u : Nat}, 0 < u → n < 2 ^ (u - 1) →
      (BitVec.ofNat u n).toInt = n := by
    intro u hu hlt
    have hpow := Nat.two_pow_pred_mul_two hu
    rw [BitVec.toInt_eq_toNat_cond, BitVec.toNat_ofNat,
      Nat.mod_eq_of_lt (by omega), if_pos (by omega)]
  rw [← BitVec.toInt_inj, BitVec.toInt_signExtend_of_le hvw,
    hint (by omega) hn]
  constructor
  · intro heq
    have hlt := BitVec.toInt_lt (x := BitVec.ofNat v n)
    rw [heq] at hlt
    exact_mod_cast hlt
  · exact hint hv

end CSem

namespace Libc6Shim

open CSem Buf Routine

/-- A call that `syscall` and the libc interface have in common, with the
arguments of its prototype. -/
inductive DirectCall (abi : Abi) where
  | write (fd : Word) (buf : Ptr) (nbytes : Nat)
  | open (path : Ptr) (flags mode : Word)
  | mmap (addr : Ptr) (len : Nat) (prot flags fd : Word) (offset : Long abi)
  | pipe2 (fildes : Ptr) (flags : Word)
  | clockGettime (clockId : Word) (tp : Ptr)

namespace DirectCall

variable {abi : Abi}

/-- Its number, if the ABI has one. -/
def number : DirectCall abi → Option (Long abi)
  | write .. => some (linuxWrite abi)
  | .open .. => some (linuxOpen abi)
  | mmap .. => linuxMmap abi
  | pipe2 .. => some (linuxPipe2 abi)
  | clockGettime .. => some (linuxClockGettime abi)

/-- The arguments are in their slots. -/
def PassedAs (args : VaList abi) : DirectCall abi → Prop
  | write fd buf nbytes =>
      args.int 0 = fd ∧ args.size 1 = buf ∧ args.size 2 = nbytes
  | .open path flags mode =>
      args.size 0 = path ∧ args.int 1 = flags ∧ args.int 2 = mode
  | mmap addr len prot flags fd offset =>
      args.size 0 = addr ∧ args.size 1 = len ∧ args.int 2 = prot ∧
        args.int 3 = flags ∧ args.int 4 = fd ∧ args 5 = offset
  | pipe2 fildes flags => args.size 0 = fildes ∧ args.int 1 = flags
  | clockGettime clockId tp => args.int 0 = clockId ∧ args.size 1 = tp

/-- The libc function, with its result as a `long` and the memory it
leaves. -/
def twin (linuxEmulPath : Buf) (mem : Mem) :
    DirectCall abi → SysRoutine (Long abi × Mem)
  | write fd buf nbytes => do
      let n ← onSock (shimWrite fd buf nbytes)
      return (longResult abi n, mem)
  | .open path flags mode => do
      let path ← cstrAt (mem.obj path) 0
      let fd ← onFile (shimOpen linuxEmulPath path flags mode)
      return ((intResult fd).signExtend _, mem)
  | mmap addr len prot flags fd offset => do
      let p ← shimMmap abi addr len prot flags fd offset
      return (longResult abi p, mem)
  | pipe2 fildes flags => do
      let fds ← onFcntl (shimPipe2 flags)
      let (err, mem) ← storePipe mem fildes fds
      return (err.signExtend _, mem)
  | clockGettime clockId tp => do
      let err ← shimClockGettime clockId tp
      return ((errResult err).signExtend _, mem)

/-- The native `write` transfers no more than an `int` holds. -/
def FitsInt (h : (c : SysCall) → Except Errno (SysAnswer c)) :
    DirectCall abi → Prop
  | write fd buf nbytes =>
      ∀ n, h (.sock (.write fd buf nbytes)) = .ok n → n < 2 ^ 31
  | _ => True

variable {linuxEmulPath : Buf} {robustList : Ptr} {mem : Mem}
  {h : (c : SysCall) → Except Errno (SysAnswer c)} {e : Errno}
  {args : VaList abi}

/-! ## What `syscall` does under the five numbers -/

theorem shimSyscall_write :
    shimSyscall abi linuxEmulPath robustList mem (linuxWrite abi) args = (do
      let n ← callSys (.sock (.write (args.int 0) (args.size 1) (args.size 2)))
      return ((narrowResult n).signExtend _, mem)) := if_pos rfl

theorem eq_write_of_number {x : DirectCall abi}
    (hx : x.number = some (linuxWrite abi)) :
    ∃ fd buf nbytes, x = .write fd buf nbytes := by
  cases x with
  | write fd buf nbytes => exact ⟨fd, buf, nbytes, rfl⟩
  | «open» path flags mode =>
      have hne : linuxOpen abi ≠ linuxWrite abi := by cases abi <;> decide
      exact absurd (Option.some.inj hx) hne
  | mmap addr len prot flags fd offset =>
      have hne : linuxMmap abi ≠ some (linuxWrite abi) := by
        cases abi <;> decide
      exact absurd hx hne
  | pipe2 fildes flags =>
      have hne : linuxPipe2 abi ≠ linuxWrite abi := by cases abi <;> decide
      exact absurd (Option.some.inj hx) hne
  | clockGettime clockId tp =>
      have hne : linuxClockGettime abi ≠ linuxWrite abi := by
        cases abi <;> decide
      exact absurd (Option.some.inj hx) hne

/-- All but `write` are their twins. -/
theorem shimSyscall_eq_twin {x : DirectCall abi} {number : Long abi}
    (hnumber : x.number = some number) (hargs : x.PassedAs args)
    (hwrite : number ≠ linuxWrite abi) :
    shimSyscall abi linuxEmulPath robustList mem number args =
      x.twin linuxEmulPath mem := by
  cases x with
  | write fd buf nbytes => exact absurd (Option.some.inj hnumber).symm hwrite
  | «open» path flags mode =>
      obtain ⟨rfl, rfl, rfl⟩ := hargs
      obtain rfl := Option.some.inj hnumber
      cases abi <;> rfl
  | mmap addr len prot flags fd offset =>
      obtain ⟨rfl, rfl, rfl, rfl, rfl, rfl⟩ := hargs
      cases abi with
      | i386 => cases hnumber
      | amd64 =>
          obtain rfl := Option.some.inj hnumber
          rfl
  | pipe2 fildes flags =>
      obtain ⟨rfl, rfl⟩ := hargs
      obtain rfl := Option.some.inj hnumber
      cases abi <;> rfl
  | clockGettime clockId tp =>
      obtain ⟨rfl, rfl⟩ := hargs
      obtain rfl := Option.some.inj hnumber
      cases abi <;> rfl

/-- The count of a `write` comes out as it was exactly if it fits. -/
theorem narrowResult_eq_iff {n : Nat} (hn : n < 2 ^ (8 * abi.wordBytes - 1)) :
    (narrowResult (some n)).signExtend _ = longResult abi (some n) ↔
      n < 2 ^ 31 := by
  refine signExtend_ofNat_eq_iff (by decide) ?_ hn
  cases abi <;> decide

theorem write_alike_iff {x : DirectCall abi} {fd : Word} {buf : Ptr}
    {nbytes : Nat} (hx : x = .write fd buf nbytes) (hargs : x.PassedAs args)
    (hsize : ∀ n, h (.sock (.write fd buf nbytes)) = .ok n →
      n < 2 ^ (8 * abi.wordBytes - 1)) :
    Alike id h e
        (shimSyscall abi linuxEmulPath robustList mem (linuxWrite abi) args)
        (x.twin linuxEmulPath mem) ↔
      x.FitsInt h := by
  subst hx
  obtain ⟨rfl, rfl, rfl⟩ := hargs
  rw [shimSyscall_write, twin, shimWrite, onSock_callNative, Alike, calls_bind,
    calls_bind, run_bind, run_bind, callSys, calls_native, run_native]
  cases hc : h (.sock (.write (args.int 0) (args.size 1) (args.size 2))) with
  | error e' =>
      refine iff_of_true ⟨rfl, ?_⟩ fun n hn => by rw [hc] at hn; cases hn
      have hneg : (narrowResult none).signExtend _ = longResult abi none := by
        cases abi <;> decide
      exact congrArg (fun r => Except.ok ((r, mem), e')) hneg
  | ok n =>
      have hfits : FitsInt h
          (.write (args.int 0) (args.size 1) (args.size 2) : DirectCall abi) ↔
            n < 2 ^ 31 :=
        ⟨fun hall => hall n hc, fun hlt m hm => by
          cases hc.symm.trans hm
          exact hlt⟩
      rw [hfits, ← narrowResult_eq_iff (hsize n hc)]
      constructor
      · rintro ⟨-, hrun⟩
        exact congrArg (fun r => r.1.1) (Except.ok.inj hrun)
      · intro hsame
        exact ⟨rfl, congrArg (fun r => Except.ok ((r, mem), e)) hsame⟩

end DirectCall

open DirectCall in
/-- A direct call does what its libc twin does exactly if it is not a `write`
that transfers more than an `int` holds. -/
theorem syscall_twin_iff {abi : Abi} {linuxEmulPath : Buf} {robustList : Ptr}
    {mem : Mem} {h : (c : SysCall) → Except Errno (SysAnswer c)} {e : Errno}
    {args : VaList abi} {x : DirectCall abi} {number : Long abi}
    (hnumber : x.number = some number) (hargs : x.PassedAs args)
    (hsize : ∀ fd buf nbytes n, h (.sock (.write fd buf nbytes)) = .ok n →
      n < 2 ^ (8 * abi.wordBytes - 1)) :
    Alike id h e
        (shimSyscall abi linuxEmulPath robustList mem number args)
        (x.twin linuxEmulPath mem) ↔
      x.FitsInt h := by
  by_cases hwrite : number = linuxWrite abi
  · subst hwrite
    obtain ⟨fd, buf, nbytes, hx⟩ := eq_write_of_number hnumber
    exact write_alike_iff hx hargs (hsize fd buf nbytes)
  · rw [shimSyscall_eq_twin hnumber hargs hwrite]
    refine iff_of_true ⟨rfl, rfl⟩ ?_
    cases x with
    | write fd buf nbytes => exact absurd (Option.some.inj hnumber).symm hwrite
    | «open» path flags mode => trivial
    | mmap addr len prot flags fd offset => trivial
    | pipe2 fildes flags => trivial
    | clockGettime clockId tp => trivial

/-- A library that writes whatever it is given, as far as it can report. -/
def writesAll : (c : SysCall) → Except Errno (SysAnswer c)
  | .sock (.write _ _ nbytes) => .ok (min nbytes (2 ^ 63 - 1))
  | _ => .error enosys

/-- Three arguments in their slots. -/
def threeArgs (a b c : Nat) : VaList .amd64
  | 0 => BitVec.ofNat 64 a
  | 1 => BitVec.ofNat 64 b
  | 2 => BitVec.ofNat 64 c
  | _ => 0

/-- Two gigabytes are written, and a negative count comes back. -/
theorem syscall_write_negative :
    DirectCall.PassedAs (threeArgs 3 4096 (2 ^ 31))
        (.write 3 4096 (2 ^ 31)) ∧
      ¬Alike id writesAll 0
        (shimSyscall .amd64 [] 1 (.only null []) (linuxWrite .amd64)
          (threeArgs 3 4096 (2 ^ 31)))
        (DirectCall.twin [] (.only null []) (.write 3 4096 (2 ^ 31))) := by
  refine ⟨⟨by decide, by decide, by decide⟩, ?_⟩
  rintro ⟨-, hrun⟩
  have hresult := congrArg (fun r => r.toOption.map fun r => r.1.1) hrun
  have hsyscall : (run writesAll (shimSyscall .amd64 [] 1 (.only null [])
      (linuxWrite .amd64) (threeArgs 3 4096 (2 ^ 31))) 0).toOption.map
        (fun r => r.1.1) = some (BitVec.ofInt 64 (-(2 ^ 31))) := rfl
  have htwin : (run writesAll (DirectCall.twin [] (.only null [])
      (.write 3 4096 (2 ^ 31)) : SysRoutine (Long .amd64 × Mem)) 0).toOption.map
        (fun r => r.1.1) = some (BitVec.ofNat 64 (2 ^ 31)) := rfl
  have hne : BitVec.ofInt 64 (-(2 ^ 31)) ≠ BitVec.ofNat 64 (2 ^ 31) := by decide
  rw [hsyscall, htwin] at hresult
  exact hne (Option.some.inj hresult)

/-- Five bytes are written. -/
theorem syscall_write_alike :
    Alike id writesAll 0
      (shimSyscall .amd64 [] 1 (.only null []) (linuxWrite .amd64)
        (threeArgs 3 4096 5))
      (DirectCall.twin [] (.only null []) (.write 3 4096 5)) := by
  have hargs : DirectCall.PassedAs (threeArgs 3 4096 5) (.write 3 4096 5) :=
    ⟨by decide, by decide, by decide⟩
  have hmax : 2 ^ 63 - 1 < 2 ^ (8 * Abi.amd64.wordBytes - 1) := by decide
  have hcount : min 5 (2 ^ 63 - 1) < 2 ^ 31 := by decide
  refine (syscall_twin_iff rfl hargs ?_).mpr ?_
  · rintro fd buf nbytes n ⟨⟩
    exact (Nat.min_le_right _ _).trans_lt hmax
  · rintro n ⟨⟩
    exact hcount

end Libc6Shim
