import Libc6Shim.ControlBounds
import Libc6Shim.SockCalls

/-!
# What a received address depends on

`recvfrom`, `recvmsg` and `getsockname` let the kernel store an address in a
`sockaddr_storage` on the shim's stack and convert it from there. The
length the kernel returns is never consulted: the converter goes by the
family, and reads as much as that family's structure has. Where the kernel
stored less, it reads what the stack held before.

`AddrDetermined` is when it does not: the caller's length is too short for
any address, or the family is among the stored bytes and so is everything
its converter reads - for a name, up to its NUL. `sameAddr_iff` shows that
this is exact, on stacks of nothing but zeros, ones and twos: zeros and twos
tell the families apart, zeros and ones the bytes, and ones are a name that
runs past the storage.

Runs are compared by all that comes of them (`StackFree`): what is returned,
or that the process aborts. A run that leaves its buffers has no result to
compare - what it reads there may be anything, and the real call goes on
with it - so no stack may lead to one. In `recvmsg` the control data follow
the address, and may end the call themselves; what is asked of the address
then depends on how they do (`RecvmsgDetermined`).
-/

namespace Libc6Shim

open CSem Buf Outcome

/-- The kernel has stored `stored` in the storage on the stack. -/
def Stack.storage (stack : Stack) (stored : Buf) : Buf :=
  (stack.bytes sizeofSockaddrStorage).patch 0 stored

/-- The family among the stored bytes. -/
def storedFamily (stored : Buf) : Word := BitVec.ofNat 32 (natAt stored 1 1)

/-- What the caller gets is settled by the stored bytes. -/
def AddrDetermined (linuxLen : Nat) (stored : Buf) : Prop :=
  linuxLen < sizeofSockaddrIn ∨
    2 ≤ stored.length ∧
      (storedFamily stored = pfInet → sizeofSockaddrIn ≤ stored.length) ∧
      (storedFamily stored = pfInet6 →
        linuxLen < sizeofSockaddrIn6 ∨ sizeofSockaddrIn6 ≤ stored.length) ∧
      (storedFamily stored = pfUnix →
        linuxLen < sizeofLinuxSockaddrUn ∨ 0 ∈ stored.drop 2)

/-- No stack leads the conversion out of the storage: only a name is read
that far, and its NUL was stored. -/
def AddrBounded (linuxLen : Nat) (stored : Buf) : Prop :=
  linuxLen < sizeofLinuxSockaddrUn ∨
    2 ≤ stored.length ∧ (storedFamily stored = pfUnix → 0 ∈ stored.drop 2)

/-- The least room the family's structure asks of the caller. -/
def familyRoom (family : Word) : Option Nat :=
  if family = pfUnix then some sizeofLinuxSockaddrUn
  else if family = pfInet then some sizeofSockaddrIn
  else if family = pfInet6 then some sizeofSockaddrIn6
  else none

/-- The conversion aborts on every stack: the caller's length is too short
for any address or for one of the stored family, the family is unknown, or
the stored name is too long. -/
def AddrRejected (linuxLen : Nat) (stored : Buf) : Prop :=
  linuxLen < sizeofSockaddrIn ∨
    2 ≤ stored.length ∧
      ((∀ size, familyRoom (storedFamily stored) = some size →
          linuxLen < size) ∨
        storedFamily stored = pfUnix ∧ 0 ∈ stored.drop 2 ∧
          linuxSunPathSize ≤ ((stored.drop 2).takeWhile (· ≠ 0)).length)

instance {linuxLen : Nat} {stored : Buf} :
    Decidable (AddrDetermined linuxLen stored) := by
  unfold AddrDetermined
  infer_instance

/-- The same comes of every stack, and of none an access outside the
objects. -/
def StackFree {α : Type} (run : Stack → Outcome α) : Prop :=
  (∀ stack stack', run stack = run stack') ∧ ∀ stack, StaysInBounds (run stack)

/-- The converter's run on a stack the kernel has stored `stored` in. -/
def addrOn (linuxAddr : Buf) (linuxLen : Nat) (stored : Buf) (stack : Stack) :
    Outcome (Buf × Nat) :=
  nativeToLinuxSockaddr linuxAddr linuxLen (stack.storage stored)

/-- The caller gets the same whatever the stack held. -/
def SameAddr (linuxAddr : Buf) (linuxLen : Nat) (stored : Buf) : Prop :=
  StackFree (addrOn linuxAddr linuxLen stored)

/-! ## Runs that go on with what they made of the stack -/

section StackFree

variable {α β : Type} {made : Stack → Outcome α} {k : α → Outcome β}

/-- What follows tells every result from every other. -/
theorem stackFree_bind_of_returns (r : β → α)
    (hk : ∀ a, ∃ b, k a = .ok b ∧ r b = a) :
    StackFree (fun stack => made stack >>= k) ↔ StackFree made := by
  have hsafe : ∀ x : Outcome α, StaysInBounds (x >>= k) ↔ StaysInBounds x := by
    intro x
    cases x with
    | error e => simp [StaysInBounds]
    | ok a =>
        obtain ⟨b, hb, -⟩ := hk a
        rw [ok_bind, hb]
        exact iff_of_true (staysInBounds_ok b) (staysInBounds_ok a)
  have hback : ∀ x : Outcome α, ((x >>= k) >>= fun b => .ok (r b)) = x := by
    intro x
    cases x with
    | error e => rfl
    | ok a =>
        obtain ⟨b, hb, hr⟩ := hk a
        rw [ok_bind, hb, ok_bind, hr]
  have hinj : ∀ x y : Outcome α, (x >>= k) = (y >>= k) → x = y := by
    intro x y h
    rw [← hback x, ← hback y, h]
  constructor
  · rintro ⟨hsame, hbounds⟩
    exact ⟨fun stack stack' => hinj _ _ (hsame stack stack'),
      fun stack => (hsafe _).mp (hbounds stack)⟩
  · rintro ⟨hsame, hbounds⟩
    exact ⟨fun stack stack' => congrArg (· >>= k) (hsame stack stack'),
      fun stack => (hsafe _).mpr (hbounds stack)⟩

/-- What follows aborts whatever the result. -/
theorem stackFree_bind_of_aborts (hk : ∀ a, k a = .error .abort) :
    StackFree (fun stack => made stack >>= k) ↔
      ∀ stack, StaysInBounds (made stack) := by
  have hsafe : ∀ x : Outcome α, StaysInBounds x →
      (x >>= k) = .error .abort := by
    intro x hx
    cases x with
    | ok a => exact hk a
    | error e =>
        cases e with
        | abort => rfl
        | fault => exact absurd rfl hx.1
        | spin => exact absurd rfl hx.2
  constructor
  · rintro ⟨-, hbounds⟩ stack
    have hbound : StaysInBounds (made stack >>= k) := hbounds stack
    cases hmade : made stack with
    | ok a => exact staysInBounds_ok a
    | error e =>
        rw [hmade] at hbound
        exact ⟨fun h => hbound.1 (congrArg _ (Except.error.inj h)),
          fun h => hbound.2 (congrArg _ (Except.error.inj h))⟩
  · intro hbounds
    refine ⟨fun stack stack' => ?_, fun stack => ?_⟩
    · dsimp only
      rw [hsafe _ (hbounds stack), hsafe _ (hbounds stack')]
    · dsimp only
      rw [hsafe _ (hbounds stack)]
      exact staysInBounds_abort

/-- What follows leaves its buffers whatever the result, so there must be
none. -/
theorem stackFree_bind_of_leaves (hk : ∀ a, ¬StaysInBounds (k a)) :
    StackFree (fun stack => made stack >>= k) ↔
      ∀ stack, made stack = .error .abort := by
  constructor
  · rintro ⟨-, hbounds⟩ stack
    have hbound : StaysInBounds (made stack >>= k) := hbounds stack
    cases hmade : made stack with
    | ok a =>
        rw [hmade, ok_bind] at hbound
        exact absurd hbound (hk a)
    | error e =>
        rw [hmade] at hbound
        cases e with
        | abort => rfl
        | fault => exact absurd rfl hbound.1
        | spin => exact absurd rfl hbound.2
  · intro habort
    have hrun : ∀ stack, (made stack >>= k) = .error .abort := by
      intro stack
      rw [habort stack]
      rfl
    refine ⟨fun stack stack' => (hrun stack).trans (hrun stack').symm,
      fun stack => ?_⟩
    dsimp only
    rw [hrun stack]
    exact staysInBounds_abort

end StackFree

/-! ## The storage -/

section Storage

variable {stack : Stack} {stored : Buf} {o n : Nat}

theorem length_storage (hk : stored.length ≤ sizeofSockaddrStorage) :
    (stack.storage stored).length = sizeofSockaddrStorage := by
  rw [Stack.storage, length_patch (by rw [stack.length_bytes]; omega),
    stack.length_bytes]

theorem storage_eq_append : stack.storage stored =
    stored ++ (stack.bytes sizeofSockaddrStorage).drop stored.length := by
  rw [Stack.storage, patch, List.take_zero, List.nil_append, Nat.zero_add]

/-- Reads inside the stored bytes do not see the stack. -/
theorem slice_storage_inside (h : o + n ≤ stored.length) :
    slice (stack.storage stored) o n = slice stored o n := by
  rw [storage_eq_append, slice, slice, List.drop_append_of_le_length (by omega),
    List.take_append_of_le_length (by rw [List.length_drop]; omega)]

/-- Reads behind them see nothing else. -/
theorem slice_storage_outside {x : UInt8} (h : stored.length ≤ o)
    (hn : o + n ≤ sizeofSockaddrStorage) :
    slice ((Stack.filled x).storage stored) o n = .replicate n x := by
  rw [storage_eq_append, slice, List.drop_append, List.drop_eq_nil_of_le h,
    List.nil_append, Stack.filled]
  simp only [List.drop_replicate, List.take_replicate]
  congr 1
  omega

theorem saFamily_storage (hk : stored.length ≤ sizeofSockaddrStorage) :
    saFamily (stack.storage stored) =
      .ok (BitVec.ofNat 32 (natAt (stack.storage stored) 1 1)) := by
  have hlen : (stack.storage stored).length = sizeofSockaddrStorage :=
    length_storage hk
  have hsize : sizeofSockaddrStorage = 128 := rfl
  rw [saFamily, loadNat_of (by omega)]
  rfl

/-- A family that was stored is the one converted by. -/
theorem saFamily_stored (hk : stored.length ≤ sizeofSockaddrStorage)
    (h : 2 ≤ stored.length) :
    saFamily (stack.storage stored) = .ok (storedFamily stored) := by
  rw [saFamily_storage hk, storedFamily, natAt, slice_storage_inside (by omega)]
  rfl

theorem saFamily_of_stored {family : Word}
    (hk : stored.length ≤ sizeofSockaddrStorage) (h : 2 ≤ stored.length)
    (hfam : storedFamily stored = family) :
    saFamily (stack.storage stored) = .ok family :=
  (saFamily_stored hk h).trans (congrArg _ hfam)

/-- One that was not is whatever the stack held. -/
theorem saFamily_filled {x : UInt8} (h : stored.length < 2) :
    saFamily ((Stack.filled x).storage stored) = .ok (BitVec.ofNat 32 x.toNat) := by
  have hsize : sizeofSockaddrStorage = 128 := rfl
  rw [saFamily_storage (by omega), natAt,
    slice_storage_outside (by omega) (by omega)]
  simp [leNat]

theorem load_storage (hk : stored.length ≤ sizeofSockaddrStorage)
    (h : o + n ≤ stored.length) :
    (stack.storage stored).load o n = .ok (slice stored o n) := by
  rw [load_of (.inr (by rw [length_storage hk]; omega)),
    slice_storage_inside h]

/-- The name that starts at byte 2, where its NUL was stored. -/
theorem cstrAt_storage_of_nul (h : 0 ∈ stored.drop 2) :
    (stack.storage stored).cstrAt 2 =
      .ok ((stored.drop 2).takeWhile (· ≠ 0)) := by
  have hlen := List.length_pos_of_mem h
  rw [List.length_drop] at hlen
  have hdrop : (stack.storage stored).drop 2 = stored.drop 2 ++
      (stack.bytes sizeofSockaddrStorage).drop stored.length := by
    rw [storage_eq_append, List.drop_append_of_le_length (by omega)]
  have hmem : 0 ∈ (stack.storage stored).drop 2 := by
    rw [hdrop]
    exact List.mem_append_left _ h
  rw [cstrAt_of_mem hmem, hdrop, takeWhile_append_of_mem h]

end Storage

/-! ## The converters -/

section Converters

variable {linuxAddr src src' : Buf} {linuxLen : Nat}

/-! ### Field by field -/

section Fields

variable {dest fam : Buf} {o n m k : Nat}

/-- The next field is stored: what is there so far grows by it. -/
theorem store_field (hfam : fam.length = 2) (ho : o = 2 + k)
    (hd : o + n ≤ dest.length) (hs : o + n ≤ src.length) :
    (patch dest 0 (fam ++ slice src 2 k)).store o (slice src o n) =
      .ok (patch dest 0 (fam ++ slice src 2 (k + n))) := by
  have hk : (slice src 2 k).length = k := length_slice (by omega)
  have hn := length_slice hs
  have hfront : (fam ++ slice src 2 k).length = o := by
    rw [List.length_append, hk]
    omega
  rw [store_next hfront (by omega), List.append_assoc, slice_add, ho]

theorem copy_next {α : Type} (hfam : fam.length = 2) (ho : o = 2 + k)
    (hd : o + n ≤ dest.length) (hs : o + n ≤ src.length) (f : Buf → Outcome α) :
    (do let x ← src.load o n
        let dest ← (patch dest 0 (fam ++ slice src 2 k)).store o x
        f dest) = f (patch dest 0 (fam ++ slice src 2 (k + n))) := by
  rw [load_of (.inr hs), ok_bind, store_field hfam ho hd hs, ok_bind]

/-- The first store. -/
theorem store_family (src : Buf) (hfam : fam.length = 2) (hd : 2 ≤ dest.length) :
    dest.store 0 fam = .ok (patch dest 0 (fam ++ slice src 2 0)) := by
  rw [store_of (by omega)]
  simp [slice]

/-- And the last. -/
theorem copy_last (hfam : fam.length = 2) (ho : o = 2 + k)
    (hd : o + n ≤ dest.length) (hs : o + n ≤ src.length) :
    (do let x ← src.load o n
        (patch dest 0 (fam ++ slice src 2 k)).store o x) =
      .ok (patch dest 0 (fam ++ slice src 2 (k + n))) := by
  rw [load_of (.inr hs), ok_bind, store_field hfam ho hd hs]

/-- Behind the family all is as it was. -/
theorem slice_converted (hfam : fam.length = 2) (ho : 2 ≤ o) (hm : o + m ≤ 2 + n) :
    slice (fam ++ slice src 2 n) o m = slice src o m := by
  have hdrop : (fam ++ slice src 2 n).drop o = (slice src 2 n).drop (o - 2) := by
    rw [List.drop_append, List.drop_eq_nil_of_le (by omega), List.nil_append, hfam]
  rw [slice, hdrop]
  show slice (slice src 2 n) (o - 2) m = slice src o m
  rw [slice_slice (by omega), show 2 + (o - 2) = o by omega]

theorem slice_behind_header (hfam : fam.length = 2)
    (hs : 2 + n ≤ src.length) (ho : 2 ≤ o) (hm : o + m ≤ 2 + n) :
    slice (patch dest 0 (fam ++ slice src 2 n)) o m = slice src o m := by
  have hlen : (fam ++ slice src 2 n).length = 2 + n := by
    rw [List.length_append, hfam, length_slice hs]
  rw [slice_patch_start (by omega), slice_converted hfam ho hm]

theorem nativeToLinuxSockaddrIn_patch (hd : sizeofSockaddrIn ≤ dest.length)
    (hs : sizeofSockaddrIn ≤ src.length) :
    nativeToLinuxSockaddrIn dest src =
      .ok (patch dest 0 (leBytes 2 linuxPfInet.toNat ++ slice src 2 14)) := by
  have hsize : sizeofSockaddrIn = 16 := rfl
  rw [nativeToLinuxSockaddrIn, store_family src (length_leBytes ..) (by omega),
    ok_bind,
    copy_next (length_leBytes ..) (by omega) (by omega) (by omega),
    copy_next (length_leBytes ..) (by omega) (by omega) (by omega)]
  exact copy_last (length_leBytes ..) (by omega) (by omega) (by omega)

theorem nativeToLinuxSockaddrIn6_patch (hd : sizeofSockaddrIn6 ≤ dest.length)
    (hs : sizeofSockaddrIn6 ≤ src.length) :
    nativeToLinuxSockaddrIn6 dest src =
      .ok (patch dest 0 (leBytes 2 linuxPfInet6.toNat ++ slice src 2 26)) := by
  have hsize : sizeofSockaddrIn6 = 28 := rfl
  rw [nativeToLinuxSockaddrIn6, store_family src (length_leBytes ..) (by omega),
    ok_bind,
    copy_next (length_leBytes ..) (by omega) (by omega) (by omega),
    copy_next (length_leBytes ..) (by omega) (by omega) (by omega),
    copy_next (length_leBytes ..) (by omega) (by omega) (by omega)]
  exact copy_last (length_leBytes ..) (by omega) (by omega) (by omega)

theorem nativeToLinuxSockaddrUn_patch {path : Buf}
    (hd : sizeofLinuxSockaddrUn ≤ dest.length) (hpath : src.cstrAt 2 = .ok path)
    (hlt : path.length < linuxSunPathSize) :
    nativeToLinuxSockaddrUn dest src =
      .ok (patch dest 0 (leBytes 2 linuxPfUnix.toNat ++ (path ++ [0]))) := by
  have hsize : sizeofLinuxSockaddrUn = 2 + linuxSunPathSize := rfl
  have hfam := length_leBytes 2 linuxPfUnix.toNat
  have hstore : dest.store 0 (leBytes 2 linuxPfUnix.toNat) =
      .ok (patch dest 0 (leBytes 2 linuxPfUnix.toNat)) :=
    store_of (by omega)
  have hnext := @store_next dest 2 (leBytes 2 linuxPfUnix.toNat) (path ++ [0])
    hfam (by rw [List.length_append, List.length_singleton]; omega)
  rw [nativeToLinuxSockaddrUn, hstore, ok_bind, hpath, ok_bind, storeStr,
    if_neg (by decide), List.take_of_length_le (by omega), hnext, ok_bind,
    require_of hlt]
  rfl

end Fields

theorem nativeToLinuxSockaddrIn_returns
    (hd : sizeofSockaddrIn ≤ linuxAddr.length)
    (hs : sizeofSockaddrIn ≤ src.length) :
    ∃ d, nativeToLinuxSockaddrIn linuxAddr src = .ok d ∧
      slice d 8 8 = slice src 8 8 := by
  have hsize : sizeofSockaddrIn = 16 := rfl
  refine ⟨_, nativeToLinuxSockaddrIn_patch hd hs, ?_⟩
  exact slice_behind_header (length_leBytes ..) (by omega) (by omega) (by omega)

theorem nativeToLinuxSockaddrIn6_returns
    (hd : sizeofSockaddrIn6 ≤ linuxAddr.length)
    (hs : sizeofSockaddrIn6 ≤ src.length) :
    ∃ d, nativeToLinuxSockaddrIn6 linuxAddr src = .ok d ∧
      slice d 24 4 = slice src 24 4 := by
  have hsize : sizeofSockaddrIn6 = 28 := rfl
  refine ⟨_, nativeToLinuxSockaddrIn6_patch hd hs, ?_⟩
  exact slice_behind_header (length_leBytes ..) (by omega) (by omega) (by omega)

/-- A name that is too long is cut and then turned down. -/
theorem nativeToLinuxSockaddrUn_of_long {path : Buf}
    (hd : sizeofLinuxSockaddrUn ≤ linuxAddr.length)
    (hpath : src.cstrAt 2 = .ok path) (hlong : linuxSunPathSize ≤ path.length) :
    nativeToLinuxSockaddrUn linuxAddr src = .error .abort := by
  have hsize : sizeofLinuxSockaddrUn = 2 + linuxSunPathSize := rfl
  have hpathSize : linuxSunPathSize = 108 := rfl
  have hfam := length_leBytes 2 linuxPfUnix.toNat
  have hstore : linuxAddr.store 0 (leBytes 2 linuxPfUnix.toNat) =
      .ok (patch linuxAddr 0 (leBytes 2 linuxPfUnix.toNat)) :=
    store_of (by omega)
  have hcut : (path.take (linuxSunPathSize - 1) ++ [0]).length =
      linuxSunPathSize := by
    rw [List.length_append, List.length_take, List.length_singleton]
    omega
  have hnext := @store_next linuxAddr 2 (leBytes 2 linuxPfUnix.toNat)
    (path.take (linuxSunPathSize - 1) ++ [0]) hfam (by omega)
  rw [nativeToLinuxSockaddrUn, hstore, ok_bind, hpath, ok_bind, storeStr,
    if_neg (by decide), hnext, ok_bind,
    require_of_not (Nat.not_lt.mpr hlong), error_bind]

/-- One that does not end runs past its buffer. -/
theorem nativeToLinuxSockaddrUn_of_fault
    (hd : sizeofLinuxSockaddrUn ≤ linuxAddr.length)
    (hpath : src.cstrAt 2 = .error .fault) :
    nativeToLinuxSockaddrUn linuxAddr src = .error .fault := by
  have hsize : sizeofLinuxSockaddrUn = 2 + linuxSunPathSize := rfl
  have hfam := length_leBytes 2 linuxPfUnix.toNat
  have hstore : linuxAddr.store 0 (leBytes 2 linuxPfUnix.toNat) =
      .ok (patch linuxAddr 0 (leBytes 2 linuxPfUnix.toNat)) :=
    store_of (by omega)
  rw [nativeToLinuxSockaddrUn, hstore, ok_bind, hpath, error_bind]

/-! ## By family -/

theorem nativeToLinuxSockaddr_inet (h : saFamily src = .ok pfInet)
    (hl : sizeofSockaddrIn ≤ linuxLen) :
    nativeToLinuxSockaddr linuxAddr linuxLen src =
      nativeToLinuxSockaddrIn linuxAddr src >>= fun d =>
        .ok (d, sizeofSockaddrIn) := by
  rw [nativeToLinuxSockaddr, h, ok_bind, if_neg (by decide), if_pos rfl,
    require_of hl]
  rfl

theorem nativeToLinuxSockaddr_inet6 (h : saFamily src = .ok pfInet6)
    (hl : sizeofSockaddrIn6 ≤ linuxLen) :
    nativeToLinuxSockaddr linuxAddr linuxLen src =
      nativeToLinuxSockaddrIn6 linuxAddr src >>= fun d =>
        .ok (d, sizeofSockaddrIn6) := by
  rw [nativeToLinuxSockaddr, h, ok_bind, if_neg (by decide),
    if_neg (by decide), if_pos rfl, require_of hl]
  rfl

theorem nativeToLinuxSockaddr_unix (h : saFamily src = .ok pfUnix)
    (hl : sizeofLinuxSockaddrUn ≤ linuxLen) :
    nativeToLinuxSockaddr linuxAddr linuxLen src =
      nativeToLinuxSockaddrUn linuxAddr src >>= fun d =>
        .ok (d, sizeofLinuxSockaddrUn) := by
  rw [nativeToLinuxSockaddr, h, ok_bind, if_pos rfl, require_of hl]
  rfl

/-- An unknown family, or a structure without room, aborts. -/
theorem nativeToLinuxSockaddr_of_no_room {family : Word}
    (h : saFamily src = .ok family)
    (hl : ∀ size, familyRoom family = some size → linuxLen < size) :
    nativeToLinuxSockaddr linuxAddr linuxLen src = .error .abort := by
  rw [nativeToLinuxSockaddr, h, ok_bind]
  unfold familyRoom at hl
  split
  · rename_i hfam
    rw [if_pos hfam] at hl
    rw [require_of_not (Nat.not_le.mpr (hl _ rfl)), error_bind]
  · rename_i hunix
    rw [if_neg hunix] at hl
    split
    · rename_i hfam
      rw [if_pos hfam] at hl
      rw [require_of_not (Nat.not_le.mpr (hl _ rfl)), error_bind]
    · rename_i hinet
      rw [if_neg hinet] at hl
      split
      · rename_i hfam
        rw [if_pos hfam] at hl
        rw [require_of_not (Nat.not_le.mpr (hl _ rfl)), error_bind]
      · rfl

theorem sizeofSockaddrIn_le_familyRoom {family : Word} {size : Nat}
    (h : familyRoom family = some size) : sizeofSockaddrIn ≤ size := by
  unfold familyRoom at h
  repeat' split at h
  all_goals cases h
  all_goals decide

end Converters

/-! ## When the stack shows -/

section SameAddr

variable {linuxAddr stored : Buf} {linuxLen : Nat} {stack : Stack}

/-- Two stacks of which not the same comes. -/
theorem not_sameAddr {x y : UInt8}
    (h : addrOn linuxAddr linuxLen stored (.filled x) ≠
      addrOn linuxAddr linuxLen stored (.filled y)) :
    ¬SameAddr linuxAddr linuxLen stored := fun hsame => h (hsame.1 _ _)

/-- No family was stored: with twos on the stack it reads as `PF_INET`. -/
theorem addrOn_twos (hroom : linuxLen ≤ linuxAddr.length)
    (hl : sizeofSockaddrIn ≤ linuxLen) (hk : stored.length < 2) :
    ∃ out, addrOn linuxAddr linuxLen stored (.filled 2) = .ok out := by
  have hsize : sizeofSockaddrStorage = 128 := rfl
  have hin : sizeofSockaddrIn = 16 := rfl
  have hinet : saFamily ((Stack.filled 2).storage stored) = .ok pfInet :=
    saFamily_filled hk
  obtain ⟨d, hd, -⟩ := nativeToLinuxSockaddrIn_returns
    (show sizeofSockaddrIn ≤ linuxAddr.length by omega)
    (show sizeofSockaddrIn ≤ ((Stack.filled 2).storage stored).length by
      rw [length_storage (by omega)]; omega)
  exact ⟨(d, sizeofSockaddrIn), by
    rw [addrOn, nativeToLinuxSockaddr_inet hinet hl, hd, ok_bind]⟩

/-- With zeros it reads as none. -/
theorem not_sameAddr_of_no_family (hroom : linuxLen ≤ linuxAddr.length)
    (hl : sizeofSockaddrIn ≤ linuxLen) (hk : stored.length < 2) :
    ¬SameAddr linuxAddr linuxLen stored := by
  have hzero : saFamily ((Stack.filled 0).storage stored) = .ok 0 :=
    saFamily_filled hk
  obtain ⟨out, hout⟩ := addrOn_twos hroom hl hk
  refine not_sameAddr (x := 2) (y := 0) ?_
  rw [hout, addrOn,
    nativeToLinuxSockaddr_of_no_room hzero (fun size h => by cases h)]
  exact nofun

/-- Byte `i` of a structure was not stored but is copied. -/
theorem replicate_ne {d : Buf} {o n i : Nat} (hi : o ≤ i ∧ i < o + n)
    (hk : stored.length ≤ i) (hn : o + n ≤ sizeofSockaddrStorage)
    (h0 : slice d o n = slice ((Stack.filled 0).storage stored) o n)
    (h1 : slice d o n = slice ((Stack.filled 1).storage stored) o n) : False := by
  have hbyte : ∀ x : UInt8, slice ((Stack.filled x).storage stored) i 1 =
      .replicate 1 x := fun x => slice_storage_outside hk (by omega)
  have hsub : ∀ b : Buf, slice (slice b o n) (i - o) 1 = slice b i 1 := by
    intro b
    rw [slice_slice (by omega), Nat.add_sub_cancel' hi.1]
  have h := congrArg (fun b => slice b (i - o) 1) (h0.symm.trans h1)
  rw [hsub, hsub, hbyte, hbyte] at h
  exact absurd h (by decide)

/-- A `PF_INET` is converted, its last bytes included. -/
theorem addrOn_inet (stack : Stack) (hroom : linuxLen ≤ linuxAddr.length)
    (hfits : stored.length ≤ sizeofSockaddrStorage)
    (hl : sizeofSockaddrIn ≤ linuxLen)
    (hfamily : saFamily (stack.storage stored) = .ok pfInet) :
    ∃ d, addrOn linuxAddr linuxLen stored stack = .ok (d, sizeofSockaddrIn) ∧
      slice d 8 8 = slice (stack.storage stored) 8 8 := by
  have hsize : sizeofSockaddrStorage = 128 := rfl
  have hin : sizeofSockaddrIn = 16 := rfl
  obtain ⟨d, hd, hlast⟩ := nativeToLinuxSockaddrIn_returns
    (show sizeofSockaddrIn ≤ linuxAddr.length by omega)
    (show sizeofSockaddrIn ≤ (stack.storage stored).length by
      rw [length_storage hfits]; omega)
  exact ⟨d, by rw [addrOn, nativeToLinuxSockaddr_inet hfamily hl, hd, ok_bind],
    hlast⟩

/-- And so is a `PF_INET6`. -/
theorem addrOn_inet6 (stack : Stack) (hroom : linuxLen ≤ linuxAddr.length)
    (hfits : stored.length ≤ sizeofSockaddrStorage)
    (hl : sizeofSockaddrIn6 ≤ linuxLen)
    (hfamily : saFamily (stack.storage stored) = .ok pfInet6) :
    ∃ d, addrOn linuxAddr linuxLen stored stack = .ok (d, sizeofSockaddrIn6) ∧
      slice d 24 4 = slice (stack.storage stored) 24 4 := by
  have hsize : sizeofSockaddrStorage = 128 := rfl
  have hin : sizeofSockaddrIn6 = 28 := rfl
  obtain ⟨d, hd, hlast⟩ := nativeToLinuxSockaddrIn6_returns
    (show sizeofSockaddrIn6 ≤ linuxAddr.length by omega)
    (show sizeofSockaddrIn6 ≤ (stack.storage stored).length by
      rw [length_storage hfits]; omega)
  exact ⟨d, by rw [addrOn, nativeToLinuxSockaddr_inet6 hfamily hl, hd, ok_bind],
    hlast⟩

theorem not_sameAddr_of_inet (hroom : linuxLen ≤ linuxAddr.length)
    (hl : sizeofSockaddrIn ≤ linuxLen) (h2 : 2 ≤ stored.length)
    (hfam : storedFamily stored = pfInet)
    (hk : stored.length < sizeofSockaddrIn) :
    ¬SameAddr linuxAddr linuxLen stored := by
  have hsize : sizeofSockaddrStorage = 128 := rfl
  have hin : sizeofSockaddrIn = 16 := rfl
  obtain ⟨d, hd, h0⟩ := addrOn_inet (.filled 0) hroom (by omega) hl
    (saFamily_of_stored (by omega) h2 hfam)
  obtain ⟨d', hd', h1⟩ := addrOn_inet (.filled 1) hroom (by omega) hl
    (saFamily_of_stored (by omega) h2 hfam)
  refine not_sameAddr (x := 0) (y := 1) fun h => ?_
  rw [hd, hd'] at h
  cases h
  exact replicate_ne (i := 15) (by omega) (by omega) (by omega) h0 h1

theorem not_sameAddr_of_inet6 (hroom : linuxLen ≤ linuxAddr.length)
    (hl : sizeofSockaddrIn6 ≤ linuxLen) (h2 : 2 ≤ stored.length)
    (hfam : storedFamily stored = pfInet6)
    (hk : stored.length < sizeofSockaddrIn6) :
    ¬SameAddr linuxAddr linuxLen stored := by
  have hsize : sizeofSockaddrStorage = 128 := rfl
  have hin : sizeofSockaddrIn6 = 28 := rfl
  obtain ⟨d, hd, h0⟩ := addrOn_inet6 (.filled 0) hroom (by omega) hl
    (saFamily_of_stored (by omega) h2 hfam)
  obtain ⟨d', hd', h1⟩ := addrOn_inet6 (.filled 1) hroom (by omega) hl
    (saFamily_of_stored (by omega) h2 hfam)
  refine not_sameAddr (x := 0) (y := 1) fun h => ?_
  rw [hd, hd'] at h
  cases h
  exact replicate_ne (i := 27) (by omega) (by omega) (by omega) h0 h1

/-- Ones on the stack: a name whose NUL was not stored has none in the
storage. -/
theorem cstrAt_ones (hnul : 0 ∉ stored.drop 2)
    (hfits : stored.length ≤ sizeofSockaddrStorage) :
    ((Stack.filled 1).storage stored).cstrAt 2 = .error .fault := by
  have hsize : sizeofSockaddrStorage = 128 := rfl
  have hrest : ((Stack.filled 1).bytes sizeofSockaddrStorage).drop
      stored.length = .replicate (sizeofSockaddrStorage - stored.length) 1 :=
    List.drop_replicate
  have hall : ∀ x ∈ ((Stack.filled 1).storage stored).drop 2, x ≠ 0 := by
    intro x hx hzero
    rw [storage_eq_append, hrest, List.drop_append] at hx
    rcases List.mem_append.mp hx with hx | hx
    · exact hnul (hzero ▸ hx)
    · have hone := List.eq_of_mem_replicate (List.mem_of_mem_drop hx)
      exact absurd (hone.symm.trans hzero) (by decide)
  have hrun : (((Stack.filled 1).storage stored).drop 2).takeWhile (· ≠ 0) =
      ((Stack.filled 1).storage stored).drop 2 := by
    rw [List.takeWhile_eq_self_iff]
    intro x hx
    exact decide_eq_true (hall x hx)
  rw [cstrAt, hrun]
  exact if_neg (by rw [List.length_drop, length_storage hfits]; omega)

/-- A name whose NUL was not stored, or no family at all: with ones on the
stack the converter reads past the storage. -/
theorem addrOn_ones (hroom : linuxLen ≤ linuxAddr.length)
    (hfits : stored.length ≤ sizeofSockaddrStorage)
    (hl : sizeofLinuxSockaddrUn ≤ linuxLen)
    (hfam : 2 ≤ stored.length → storedFamily stored = pfUnix)
    (hnul : 0 ∉ stored.drop 2) :
    addrOn linuxAddr linuxLen stored (.filled 1) = .error .fault := by
  have hfamily : saFamily ((Stack.filled 1).storage stored) = .ok pfUnix := by
    rcases Nat.lt_or_ge stored.length 2 with hk | hk
    · exact saFamily_filled hk
    · rw [saFamily_stored hfits hk, hfam hk]
  rw [addrOn, nativeToLinuxSockaddr_unix hfamily hl,
    nativeToLinuxSockaddrUn_of_fault (by omega) (cstrAt_ones hnul hfits),
    error_bind]

/-! ## When it does not -/

/-- A caller whose length is too short for the family is turned down. -/
theorem addrOn_of_room {family : Word}
    (hfam : ∀ stack : Stack, saFamily (stack.storage stored) = .ok family)
    (hl : ∀ size, familyRoom family = some size → linuxLen < size)
    (stack : Stack) : addrOn linuxAddr linuxLen stored stack = .error .abort :=
  nativeToLinuxSockaddr_of_no_room (hfam stack) hl

/-- Too short a length for any address. -/
theorem addrOn_of_short (hfits : stored.length ≤ sizeofSockaddrStorage)
    (hl : linuxLen < sizeofSockaddrIn) (stack : Stack) :
    addrOn linuxAddr linuxLen stored stack = .error .abort :=
  nativeToLinuxSockaddr_of_no_room (saFamily_storage hfits) fun _ hsize =>
    Nat.lt_of_lt_of_le hl (sizeofSockaddrIn_le_familyRoom hsize)

/-- Runs that abort on every stack. -/
theorem stackFree_of_aborts {α : Type} {run : Stack → Outcome α}
    (h : ∀ stack, run stack = .error .abort) : StackFree run := by
  refine ⟨fun stack stack' => (h stack).trans (h stack').symm, fun stack => ?_⟩
  rw [h stack]
  exact staysInBounds_abort

theorem sameAddr_of_inet (hroom : linuxLen ≤ linuxAddr.length)
    (hfits : stored.length ≤ sizeofSockaddrStorage)
    (hl : sizeofSockaddrIn ≤ linuxLen)
    (hfam : storedFamily stored = pfInet)
    (hk : sizeofSockaddrIn ≤ stored.length) :
    SameAddr linuxAddr linuxLen stored := by
  have hin : sizeofSockaddrIn = 16 := rfl
  have hconv : ∀ stack : Stack, addrOn linuxAddr linuxLen stored stack =
      nativeToLinuxSockaddrIn linuxAddr stored >>=
        fun d => .ok (d, sizeofSockaddrIn) := by
    intro stack
    have hfamily : saFamily (stack.storage stored) = .ok pfInet :=
      saFamily_of_stored hfits (by omega) hfam
    have hload : ∀ o n, o + n ≤ 16 → (stack.storage stored).load o n =
        stored.load o n := fun o n h => by
      rw [load_storage hfits (by omega), load_of (.inr (by omega))]
    rw [addrOn, nativeToLinuxSockaddr_inet hfamily hl, nativeToLinuxSockaddrIn,
      hload 2 2 (by decide), hload 4 4 (by decide), hload 8 8 (by decide)]
    rfl
  refine ⟨fun stack stack' => (hconv stack).trans (hconv stack').symm,
    fun stack => ?_⟩
  obtain ⟨d, hd, -⟩ := addrOn_inet stack hroom hfits hl
    (saFamily_of_stored hfits (by omega) hfam)
  rw [hd]
  exact staysInBounds_ok _

theorem sameAddr_of_inet6 (hroom : linuxLen ≤ linuxAddr.length)
    (hfits : stored.length ≤ sizeofSockaddrStorage)
    (hl : sizeofSockaddrIn6 ≤ linuxLen)
    (hfam : storedFamily stored = pfInet6)
    (hk : sizeofSockaddrIn6 ≤ stored.length) :
    SameAddr linuxAddr linuxLen stored := by
  have hin : sizeofSockaddrIn6 = 28 := rfl
  have hconv : ∀ stack : Stack, addrOn linuxAddr linuxLen stored stack =
      nativeToLinuxSockaddrIn6 linuxAddr stored >>=
        fun d => .ok (d, sizeofSockaddrIn6) := by
    intro stack
    have hfamily : saFamily (stack.storage stored) = .ok pfInet6 :=
      saFamily_of_stored hfits (by omega) hfam
    have hload : ∀ o n, o + n ≤ 28 → (stack.storage stored).load o n =
        stored.load o n := fun o n h => by
      rw [load_storage hfits (by omega), load_of (.inr (by omega))]
    rw [addrOn, nativeToLinuxSockaddr_inet6 hfamily hl,
      nativeToLinuxSockaddrIn6, hload 2 2 (by decide), hload 4 4 (by decide),
      hload 8 16 (by decide), hload 24 4 (by decide)]
    rfl
  refine ⟨fun stack stack' => (hconv stack).trans (hconv stack').symm,
    fun stack => ?_⟩
  obtain ⟨d, hd, -⟩ := addrOn_inet6 stack hroom hfits hl
    (saFamily_of_stored hfits (by omega) hfam)
  rw [hd]
  exact staysInBounds_ok _

/-- What comes of a name that was stored with its NUL: it is too long, or it
is converted. -/
theorem addrOn_unix (stack : Stack) (hroom : linuxLen ≤ linuxAddr.length)
    (hl : sizeofLinuxSockaddrUn ≤ linuxLen)
    (hfamily : saFamily (stack.storage stored) = .ok pfUnix)
    (hnul : 0 ∈ stored.drop 2) :
    addrOn linuxAddr linuxLen stored stack =
      if linuxSunPathSize ≤ ((stored.drop 2).takeWhile (· ≠ 0)).length then
        .error .abort
      else .ok (patch linuxAddr 0 (leBytes 2 linuxPfUnix.toNat ++
        ((stored.drop 2).takeWhile (· ≠ 0) ++ [0])), sizeofLinuxSockaddrUn) := by
  have hpath := @cstrAt_storage_of_nul stack _ hnul
  rw [addrOn, nativeToLinuxSockaddr_unix hfamily hl]
  split
  · rename_i hlong
    rw [nativeToLinuxSockaddrUn_of_long (by omega) hpath hlong, error_bind]
  · rename_i hshort
    rw [nativeToLinuxSockaddrUn_patch (by omega) hpath (by omega), ok_bind]

theorem sameAddr_of_unix (hroom : linuxLen ≤ linuxAddr.length)
    (hfits : stored.length ≤ sizeofSockaddrStorage)
    (hl : sizeofLinuxSockaddrUn ≤ linuxLen) (h2 : 2 ≤ stored.length)
    (hfam : storedFamily stored = pfUnix) (hnul : 0 ∈ stored.drop 2) :
    SameAddr linuxAddr linuxLen stored := by
  have hconv := fun stack : Stack => addrOn_unix stack hroom hl
    (saFamily_of_stored hfits h2 hfam) hnul
  refine ⟨fun stack stack' => (hconv stack).trans (hconv stack').symm,
    fun stack => ?_⟩
  rw [hconv stack]
  split
  · exact staysInBounds_abort
  · exact staysInBounds_ok _

/-- The families by the room they ask for: the caller has none for this
one, or it is one of the three and fits. -/
theorem family_cases (family : Word) (linuxLen : Nat) :
    (∀ size, familyRoom family = some size → linuxLen < size) ∨
      family = pfUnix ∧ sizeofLinuxSockaddrUn ≤ linuxLen ∨
      family = pfInet ∧ sizeofSockaddrIn ≤ linuxLen ∨
      family = pfInet6 ∧ sizeofSockaddrIn6 ≤ linuxLen := by
  by_cases hroom : ∀ size, familyRoom family = some size → linuxLen < size
  · exact .inl hroom
  · push Not at hroom
    obtain ⟨size, hsize, hl⟩ := hroom
    unfold familyRoom at hsize
    split at hsize
    · rename_i hfam
      cases hsize
      exact .inr (.inl ⟨hfam, hl⟩)
    · split at hsize
      · rename_i hfam
        cases hsize
        exact .inr (.inr (.inl ⟨hfam, hl⟩))
      · split at hsize
        · rename_i hfam
          cases hsize
          exact .inr (.inr (.inr ⟨hfam, hl⟩))
        · cases hsize

/-- The stack does not show exactly when the stored bytes settle the
address. -/
theorem sameAddr_iff (hroom : linuxLen ≤ linuxAddr.length)
    (hfits : stored.length ≤ sizeofSockaddrStorage) :
    SameAddr linuxAddr linuxLen stored ↔ AddrDetermined linuxLen stored := by
  constructor
  · intro hsame
    rcases Nat.lt_or_ge linuxLen sizeofSockaddrIn with hshort | hl
    · exact .inl hshort
    · have h2 : 2 ≤ stored.length := by
        by_contra hk
        exact not_sameAddr_of_no_family hroom hl (by omega) hsame
      refine .inr ⟨h2, fun hfam => ?_, fun hfam => ?_, fun hfam => ?_⟩
      · by_contra hk
        exact not_sameAddr_of_inet hroom hl h2 hfam (by omega) hsame
      · by_contra hk
        rw [not_or] at hk
        exact not_sameAddr_of_inet6 hroom (by omega) h2 hfam (by omega) hsame
      · by_contra hk
        rw [not_or] at hk
        have hbounds := hsame.2 (.filled 1)
        rw [addrOn_ones hroom hfits (by omega) (fun _ => hfam) hk.2] at hbounds
        exact hbounds.1 rfl
  · rintro (hshort | ⟨h2, hinet, hinet6, hunix⟩)
    · exact stackFree_of_aborts (addrOn_of_short hfits hshort)
    · rcases family_cases (storedFamily stored) linuxLen with
        hno | ⟨hfam, hl⟩ | ⟨hfam, hl⟩ | ⟨hfam, hl⟩
      · exact stackFree_of_aborts
          (addrOn_of_room (fun stack => saFamily_stored hfits h2) hno)
      · exact sameAddr_of_unix hroom hfits hl h2 hfam
          ((hunix hfam).resolve_left (by omega))
      · exact sameAddr_of_inet hroom hfits hl hfam (hinet hfam)
      · exact sameAddr_of_inet6 hroom hfits hl hfam
          ((hinet6 hfam).resolve_left (by omega))

/-- A conversion stays in the storage unless it is of a name that was not
stored up to its NUL. -/
theorem addrOn_staysInBounds (hroom : linuxLen ≤ linuxAddr.length)
    (hfits : stored.length ≤ sizeofSockaddrStorage) {family : Word}
    (hfamily : saFamily (stack.storage stored) = .ok family)
    (hnul : family = pfUnix → sizeofLinuxSockaddrUn ≤ linuxLen →
      0 ∈ stored.drop 2) :
    StaysInBounds (addrOn linuxAddr linuxLen stored stack) := by
  rcases family_cases family linuxLen with
    hno | ⟨rfl, hl⟩ | ⟨rfl, hl⟩ | ⟨rfl, hl⟩
  · rw [addrOn, nativeToLinuxSockaddr_of_no_room hfamily hno]
    exact staysInBounds_abort
  · rw [addrOn_unix stack hroom hl hfamily (hnul rfl hl)]
    split
    · exact staysInBounds_abort
    · exact staysInBounds_ok _
  · obtain ⟨d, hd, -⟩ := addrOn_inet stack hroom hfits hl hfamily
    rw [hd]
    exact staysInBounds_ok _
  · obtain ⟨d, hd, -⟩ := addrOn_inet6 stack hroom hfits hl hfamily
    rw [hd]
    exact staysInBounds_ok _

/-- No stack leads out of the storage exactly when no name runs on. -/
theorem addrOn_bounded_iff (hroom : linuxLen ≤ linuxAddr.length)
    (hfits : stored.length ≤ sizeofSockaddrStorage) :
    (∀ stack, StaysInBounds (addrOn linuxAddr linuxLen stored stack)) ↔
      AddrBounded linuxLen stored := by
  constructor
  · intro hbounds
    rcases Nat.lt_or_ge linuxLen sizeofLinuxSockaddrUn with hshort | hl
    · exact .inl hshort
    · have hones : (2 ≤ stored.length → storedFamily stored = pfUnix) →
          0 ∈ stored.drop 2 := by
        intro hfam
        by_contra hnul
        have hbound := hbounds (.filled 1)
        rw [addrOn_ones hroom hfits hl hfam hnul] at hbound
        exact hbound.1 rfl
      have h2 : 2 ≤ stored.length := by
        by_contra hk
        have hmem := hones fun h => absurd h hk
        rw [List.drop_eq_nil_of_le (by omega)] at hmem
        exact nomatch hmem
      exact .inr ⟨h2, fun hfam => hones fun _ => hfam⟩
  · rintro (hshort | ⟨h2, hnul⟩) stack
    · exact addrOn_staysInBounds hroom hfits (saFamily_storage hfits)
        fun _ hl => absurd hl (Nat.not_le.mpr hshort)
    · exact addrOn_staysInBounds hroom hfits (saFamily_stored hfits h2)
        fun hfam _ => hnul hfam

/-- Every stack makes the conversion abort exactly when the stored bytes
do. -/
theorem addrOn_rejected_iff (hroom : linuxLen ≤ linuxAddr.length)
    (hfits : stored.length ≤ sizeofSockaddrStorage) :
    (∀ stack, addrOn linuxAddr linuxLen stored stack = .error .abort) ↔
      AddrRejected linuxLen stored := by
  constructor
  · intro habort
    rcases Nat.lt_or_ge linuxLen sizeofSockaddrIn with hshort | hl
    · exact .inl hshort
    · have h2 : 2 ≤ stored.length := by
        by_contra hk
        obtain ⟨out, hout⟩ := addrOn_twos hroom hl (show stored.length < 2 by omega)
        exact nomatch hout.symm.trans (habort _)
      have hfamily : ∀ stack : Stack, saFamily (stack.storage stored) =
          .ok (storedFamily stored) := fun stack => saFamily_stored hfits h2
      refine .inr ⟨h2, ?_⟩
      rcases family_cases (storedFamily stored) linuxLen with
        hno | ⟨hfam, hl⟩ | ⟨hfam, hl⟩ | ⟨hfam, hl⟩
      · exact .inl hno
      · have hnul : 0 ∈ stored.drop 2 := by
          by_contra hnul
          have hfault := addrOn_ones hroom hfits hl (fun _ => hfam) hnul
          exact nomatch hfault.symm.trans (habort _)
        refine .inr ⟨hfam, hnul, ?_⟩
        by_contra hshort
        have hconv := addrOn_unix (.filled 0) hroom hl
          ((hfamily (.filled 0)).trans (congrArg _ hfam)) hnul
        rw [if_neg hshort] at hconv
        exact nomatch hconv.symm.trans (habort _)
      · obtain ⟨d, hd, -⟩ := addrOn_inet (.filled 0) hroom hfits hl
          ((hfamily (.filled 0)).trans (congrArg _ hfam))
        exact nomatch hd.symm.trans (habort _)
      · obtain ⟨d, hd, -⟩ := addrOn_inet6 (.filled 0) hroom hfits hl
          ((hfamily (.filled 0)).trans (congrArg _ hfam))
        exact nomatch hd.symm.trans (habort _)
  · rintro (hshort | ⟨h2, hno | ⟨hfam, hnul, hlong⟩⟩) stack
    · exact addrOn_of_short hfits hshort stack
    · exact addrOn_of_room (fun stack => saFamily_stored hfits h2) hno stack
    · rcases Nat.lt_or_ge linuxLen sizeofLinuxSockaddrUn with hshort | hl
      · have hfamily : ∀ stack : Stack, saFamily (stack.storage stored) =
            .ok pfUnix := fun stack => saFamily_of_stored hfits h2 hfam
        refine addrOn_of_room hfamily ?_ stack
        intro size hsize
        cases hsize
        exact hshort
      · rw [addrOn_unix stack hroom hl (saFamily_of_stored hfits h2 hfam) hnul,
          if_pos hlong]

end SameAddr

/-! ## The entry points -/

/-- What the caller gets from a routine does not depend on the stack it runs
on. -/
def Unaffected {α : Type} (p : Stack → SockRoutine α)
    (h : (c : SockCall) → Except Errno (SockAnswer c)) (e₀ : Errno) : Prop :=
  StackFree fun stack => (p stack).run h e₀

section EntryPoints

variable {h : (c : SockCall) → Except Errno (SockAnswer c)} {e₀ : Errno}
  {linuxAddr stored : Buf} {linuxLen : Nat}

/-- A routine that hands on what it made of the stack, from which `r` gets
it back. -/
theorem unaffected_iff {α β : Type} {p : Stack → SockRoutine α}
    {made : Stack → Outcome β} (g : β → α) (r : α → β) (hr : ∀ b, r (g b) = b)
    (hp : ∀ stack, (p stack).run h e₀ =
      made stack >>= fun out => .ok (g out, e₀)) :
    Unaffected p h e₀ ↔ StackFree made := by
  have hrun : (fun stack => (p stack).run h e₀) =
      fun stack => made stack >>= fun out => .ok (g out, e₀) := funext hp
  rw [Unaffected, hrun]
  exact stackFree_bind_of_returns (fun x => r x.1) fun b => ⟨_, rfl, hr b⟩

theorem shimRecvfrom_unaffected_iff {s : Word} {buf : Ptr} {len : Nat}
    {linuxFlags flags : Word} {nbytes : Nat}
    (hflags : linuxToNativeMsgFlags linuxFlags = .ok flags)
    (hanswer : h (.recvfrom s buf len flags (some sizeofSockaddrStorage)) =
      .ok (nbytes, stored)) :
    Unaffected (fun stack => shimRecvfrom stack s buf len linuxFlags
      (some (linuxAddr, linuxLen))) h e₀ ↔
        SameAddr linuxAddr linuxLen stored := by
  refine unaffected_iff (fun out => (some nbytes, some out))
    (fun x => x.2.getD ([], 0)) (fun out => rfl) ?_
  intro stack
  rw [shimRecvfrom, Routine.run_bind, Routine.run_lift, hflags]
  simp only [ok_bind, callNative, Routine.run_bind, Routine.run_native,
    hanswer, Routine.run_lift]
  rw [addrOn, Stack.storage]
  cases nativeToLinuxSockaddr linuxAddr linuxLen
    ((stack.bytes sizeofSockaddrStorage).patch 0 stored) <;> rfl

theorem shimGetsockname_unaffected_iff {s : Word}
    (hanswer : h (.getsockname s sizeofSockaddrStorage) = .ok stored) :
    Unaffected (fun stack => shimGetsockname stack s linuxAddr linuxLen) h e₀ ↔
      SameAddr linuxAddr linuxLen stored := by
  refine unaffected_iff (fun out => (some (), out)) Prod.snd (fun out => rfl) ?_
  intro stack
  rw [shimGetsockname]
  simp only [callNative, Routine.run_bind, Routine.run_native, hanswer,
    ok_bind, Routine.run_lift]
  rw [addrOn, Stack.storage]
  cases nativeToLinuxSockaddr linuxAddr linuxLen
    ((stack.bytes sizeofSockaddrStorage).patch 0 stored) <;> rfl

end EntryPoints

/-! ## recvmsg -/

/-- The control data are too long for the caller, or their conversion into
an array of `room` bytes stays in bounds. -/
def ControlBounded (abi : Abi) (room cap : Nat) (control : Buf) : Prop :=
  control.length ≤ cap → NativeControlGood abi control room

/-- The control data are not too long for the caller, and every header the
conversion meets is of a kind it translates. -/
def ControlAccepted (abi : Abi) (cap : Nat) (control : Buf) : Prop :=
  control.length ≤ cap ∧
    ∀ off, Visits abi control.length control (NativeAccepted control) off →
      NativeAccepted control off

/-- What `recvmsg` needs so that the stack does not show, by what comes of
the control data: with the flags or the address the call ends before them;
control data that are turned down hide the address, if it could be read;
and control data that are converted leave it to be seen. -/
def RecvmsgDetermined (abi : Abi) (mem : Mem) (linuxMsg : LinuxMsghdr)
    (answer : RecvAnswer) : Prop :=
  (∀ flags, nativeToLinuxMsgFlags answer.msgFlags ≠ .ok flags) ∨
    AddrRejected linuxMsg.msgNamelen answer.msgName ∨
    ControlBounded abi (mem.obj linuxMsg.msgControl).length
        linuxMsg.msgControllen answer.msgControl ∧
      AddrBounded linuxMsg.msgNamelen answer.msgName ∧
      (ControlAccepted abi linuxMsg.msgControllen answer.msgControl →
        AddrDetermined linuxMsg.msgNamelen answer.msgName)

section Recvmsg

variable {abi : Abi} {mem mem' : Mem} {linuxMsg linuxMsg' : LinuxMsghdr}
  {answer : RecvAnswer}

theorem nativeToLinuxMsgFlags_eq_error {flags : Word} {e : Stop}
    (h : nativeToLinuxMsgFlags flags = .error e) : e = .abort := by
  rw [nativeToLinuxMsgFlags, require, require] at h
  repeat' split at h
  all_goals cases h
  all_goals rfl

/-- The conversion of the control data, by what it depends on. -/
theorem nativeToLinuxMsgControl_eq (abi : Abi) (mem : Mem)
    (linuxMsg : LinuxMsghdr) (answer : RecvAnswer) :
    nativeToLinuxMsgControl abi mem linuxMsg answer.msg =
      if 0 < answer.msgControl.length then
        require (answer.msgControl.length ≤ linuxMsg.msgControllen) >>= fun _ =>
          convertCmsgs abi (nativeToLinuxCmsg abi answer.msgControl)
              answer.msgControl.length answer.msgControl
              (mem.obj linuxMsg.msgControl) >>= fun dst =>
            .ok (mem.update linuxMsg.msgControl dst,
              { linuxMsg with msgControllen := answer.msgControl.length })
      else
        .ok (mem, { linuxMsg with msgControl := null, msgControllen := 0 }) := by
  have hlen : answer.msg.msgControllen.toNat = answer.msgControl.length :=
    Nat.mod_eq_of_lt answer.length_msgControl
  have hmsg : answer.msg.msgControl.getD [] = answer.msgControl := rfl
  rw [nativeToLinuxMsgControl, hlen, hmsg, List.take_length]
  rfl

theorem nativeToLinuxMsgControl_staysInBounds_iff
    (hcap : linuxMsg.msgControllen ≤ (mem.obj linuxMsg.msgControl).length) :
    StaysInBounds (nativeToLinuxMsgControl abi mem linuxMsg answer.msg) ↔
      ControlBounded abi (mem.obj linuxMsg.msgControl).length
        linuxMsg.msgControllen answer.msgControl := by
  have hlen : answer.msg.msgControllen.toNat = answer.msgControl.length :=
    Nat.mod_eq_of_lt answer.length_msgControl
  have hmsg : answer.msg.msgControl.getD [] = answer.msgControl := rfl
  have hiff := (msgControl_staysInBounds_iff abi mem answer.msg linuxMsg
    (by rw [hlen, hmsg]) hcap).2
  rw [hlen, hmsg, List.take_length] at hiff
  exact hiff

/-- A conversion that stays in bounds returns exactly if the control data
are accepted. -/
theorem nativeToLinuxMsgControl_returns_iff
    (hcap : linuxMsg.msgControllen ≤ (mem.obj linuxMsg.msgControl).length)
    (hbounded : ControlBounded abi (mem.obj linuxMsg.msgControl).length
      linuxMsg.msgControllen answer.msgControl) :
    (∃ r, nativeToLinuxMsgControl abi mem linuxMsg answer.msg = .ok r) ↔
      ControlAccepted abi linuxMsg.msgControllen answer.msgControl := by
  rw [nativeToLinuxMsgControl_eq]
  by_cases hpos : 0 < answer.msgControl.length
  · rw [if_pos hpos]
    by_cases hle : answer.msgControl.length ≤ linuxMsg.msgControllen
    · have H : Rewrites abi answer.msgControl
          (nativeToLinuxCmsg abi answer.msgControl)
          (mem.obj linuxMsg.msgControl).length _ _ :=
        nativeToLinuxCmsg_rewrites answer.length_msgControl (by omega)
      have hiff := H.returns_iff
        (rfl : (mem.obj linuxMsg.msgControl).length = _) (Nat.le_refl _)
        (hbounded hle)
      rw [require_of hle, ok_bind]
      refine Iff.trans ?_ (hiff.trans (and_iff_right hle).symm)
      exact ⟨fun ⟨r, hr⟩ => (bind_eq_ok.mp hr).imp fun dst h => h.1,
        fun ⟨dst, hdst⟩ => ⟨_, bind_eq_ok.mpr ⟨dst, hdst, rfl⟩⟩⟩
    · rw [require_of_not hle]
      exact iff_of_false (fun ⟨r, hr⟩ => nomatch hr) fun h => hle h.1
  · have hnil : answer.msgControl = [] :=
      List.eq_nil_of_length_eq_zero (by omega)
    rw [if_neg hpos]
    refine iff_of_true ⟨_, rfl⟩ ?_
    rw [hnil]
    exact ⟨Nat.zero_le _, fun off hvisits => absurd hvisits not_visits_nil⟩

/-- It writes to the control buffer and to no other object, and leaves the
length of the name. -/
theorem nativeToLinuxMsgControl_frame
    (h : nativeToLinuxMsgControl abi mem linuxMsg answer.msg =
      .ok (mem', linuxMsg')) {p : Ptr} (hp : p ≠ linuxMsg.msgControl) :
    mem'.obj p = mem.obj p ∧ linuxMsg'.msgNamelen = linuxMsg.msgNamelen := by
  rw [nativeToLinuxMsgControl] at h
  split at h
  · obtain ⟨_, -, h⟩ := bind_eq_ok.mp h
    obtain ⟨dst, -, h⟩ := bind_eq_ok.mp h
    cases h
    exact ⟨Mem.obj_update_of_ne hp dst, rfl⟩
  · cases h
    exact ⟨rfl, rfl⟩

/-- What becomes of the address `out` once the control data follow it. -/
def writtenBack (abi : Abi) (mem : Mem) (linuxMsg : LinuxMsghdr)
    (answer : RecvAnswer) (linuxFlags : Word) (out : Buf × Nat) :
    Outcome (Mem × LinuxMsghdr) :=
  nativeToLinuxMsgControl abi (mem.update linuxMsg.msgName out.1)
    { linuxMsg with msgIovlen := answer.msgIovlen, msgFlags := linuxFlags,
                    msgNamelen := out.2 } answer.msg

/-- What a successful `recvmsg` writes back is the address, and then
whatever becomes of the control data. -/
theorem receiveMsg_eq {stack : Stack} (hname : linuxMsg.msgName ≠ null)
    {linuxFlags : Word}
    (hflags : nativeToLinuxMsgFlags answer.msgFlags = .ok linuxFlags) :
    receiveMsg abi stack mem linuxMsg answer =
      addrOn (mem.obj linuxMsg.msgName) linuxMsg.msgNamelen answer.msgName
        stack >>= writtenBack abi mem linuxMsg answer linuxFlags := by
  rw [receiveMsg, receiveHead, hflags, ok_bind]
  dsimp only
  rw [if_pos hname, addrOn, Stack.storage]
  cases nativeToLinuxSockaddr (mem.obj linuxMsg.msgName) linuxMsg.msgNamelen
    ((stack.bytes sizeofSockaddrStorage).patch 0 answer.msgName) <;> rfl

section WrittenBack

variable {linuxFlags : Word} {out : Buf × Nat}

/-- The control buffer is another object than the name. -/
theorem obj_update_name (mem : Mem)
    (hdistinct : linuxMsg.msgName ≠ linuxMsg.msgControl) (b : Buf) :
    (mem.update linuxMsg.msgName b).obj linuxMsg.msgControl =
      mem.obj linuxMsg.msgControl :=
  Mem.obj_update_of_ne (Ne.symm hdistinct) b

theorem writtenBack_staysInBounds_iff
    (hdistinct : linuxMsg.msgName ≠ linuxMsg.msgControl)
    (hcap : linuxMsg.msgControllen ≤ (mem.obj linuxMsg.msgControl).length) :
    StaysInBounds (writtenBack abi mem linuxMsg answer linuxFlags out) ↔
      ControlBounded abi (mem.obj linuxMsg.msgControl).length
        linuxMsg.msgControllen answer.msgControl := by
  have hobj := obj_update_name mem hdistinct out.1
  rw [writtenBack, nativeToLinuxMsgControl_staysInBounds_iff
    (by dsimp only; rw [hobj]; exact hcap), hobj]

theorem writtenBack_returns_iff
    (hdistinct : linuxMsg.msgName ≠ linuxMsg.msgControl)
    (hcap : linuxMsg.msgControllen ≤ (mem.obj linuxMsg.msgControl).length)
    (hbounded : ControlBounded abi (mem.obj linuxMsg.msgControl).length
      linuxMsg.msgControllen answer.msgControl) :
    (∃ r, writtenBack abi mem linuxMsg answer linuxFlags out = .ok r) ↔
      ControlAccepted abi linuxMsg.msgControllen answer.msgControl := by
  have hobj := obj_update_name mem hdistinct out.1
  exact nativeToLinuxMsgControl_returns_iff
    (by dsimp only; rw [hobj]; exact hcap) (by dsimp only; rw [hobj]; exact hbounded)

/-- The address can be told from what is written back. -/
theorem writtenBack_addr (hname : linuxMsg.msgName ≠ null)
    (hdistinct : linuxMsg.msgName ≠ linuxMsg.msgControl) {r : Mem × LinuxMsghdr}
    (hr : writtenBack abi mem linuxMsg answer linuxFlags out = .ok r) :
    (r.1.obj linuxMsg.msgName, r.2.msgNamelen) = out := by
  obtain ⟨hobj, hlen⟩ := nativeToLinuxMsgControl_frame hr hdistinct
  rw [hobj, Mem.obj_update_self hname, hlen]

end WrittenBack

/-- What comes of a successful `recvmsg` shows the stack exactly if the
address does, as far as the control data let it be seen. -/
theorem receiveMsg_stackFree_iff (hname : linuxMsg.msgName ≠ null)
    (hdistinct : linuxMsg.msgName ≠ linuxMsg.msgControl)
    (hroom : linuxMsg.msgNamelen ≤ (mem.obj linuxMsg.msgName).length)
    (hcap : linuxMsg.msgControllen ≤ (mem.obj linuxMsg.msgControl).length)
    (hfits : answer.msgName.length ≤ sizeofSockaddrStorage) :
    StackFree (fun stack => receiveMsg abi stack mem linuxMsg answer) ↔
      RecvmsgDetermined abi mem linuxMsg answer := by
  have hsame := sameAddr_iff hroom hfits
  have hbound := addrOn_bounded_iff hroom hfits
  have hreject := addrOn_rejected_iff hroom hfits
  cases hflags : nativeToLinuxMsgFlags answer.msgFlags with
  | error e =>
      obtain rfl := nativeToLinuxMsgFlags_eq_error hflags
      refine iff_of_true (stackFree_of_aborts fun stack => ?_)
        (.inl fun flags h => nomatch hflags.symm.trans h)
      rw [receiveMsg, receiveHead, hflags]
      rfl
  | ok f =>
      have hknown : ¬∀ flags, nativeToLinuxMsgFlags answer.msgFlags ≠
          .ok flags := fun h => h f hflags
      have hreceive : (fun stack => receiveMsg abi stack mem linuxMsg answer) =
          fun stack => addrOn (mem.obj linuxMsg.msgName) linuxMsg.msgNamelen
            answer.msgName stack >>= writtenBack abi mem linuxMsg answer f :=
        funext fun stack => receiveMsg_eq hname hflags
      rw [hreceive, RecvmsgDetermined, or_iff_right hknown]
      by_cases hgood : ControlBounded abi (mem.obj linuxMsg.msgControl).length
          linuxMsg.msgControllen answer.msgControl
      · rw [and_iff_right hgood]
        by_cases hacc : ControlAccepted abi linuxMsg.msgControllen
            answer.msgControl
        · refine (stackFree_bind_of_returns
            (fun r => (r.1.obj linuxMsg.msgName, r.2.msgNamelen))
            fun out => ?_).trans (hsame.trans ?_)
          · obtain ⟨r, hr⟩ :=
              (writtenBack_returns_iff hdistinct hcap hgood).mpr hacc
            exact ⟨r, hr, writtenBack_addr hname hdistinct hr⟩
          · refine ⟨fun h => .inr ⟨hbound.mp (hsame.mpr h).2, fun _ => h⟩, ?_⟩
            rintro (h | ⟨-, h⟩)
            · exact hsame.mp (stackFree_of_aborts (hreject.mpr h))
            · exact h hacc
        · refine (stackFree_bind_of_aborts fun out => ?_).trans
            (hbound.trans ?_)
          · have hstays : StaysInBounds (writtenBack abi mem linuxMsg answer f
                out) := (writtenBack_staysInBounds_iff hdistinct hcap).mpr hgood
            refine abort_of_staysInBounds hstays fun r hr => hacc ?_
            exact (writtenBack_returns_iff hdistinct hcap hgood).mp ⟨r, hr⟩
          · refine ⟨fun h => .inr ⟨h, fun h => absurd h hacc⟩, ?_⟩
            rintro (h | ⟨h, -⟩)
            · exact hbound.mp (stackFree_of_aborts (hreject.mpr h)).2
            · exact h
      · refine (stackFree_bind_of_leaves fun out => ?_).trans
          (hreject.trans ?_)
        · exact (writtenBack_staysInBounds_iff hdistinct hcap).not.mpr hgood
        · exact ⟨.inl, fun h => h.resolve_right fun h => hgood h.1⟩

theorem shimRecvmsg_unaffected_iff {s linuxFlags flags : Word}
    {h : (c : SockCall) → Except Errno (SockAnswer c)} {e₀ : Errno}
    (hflags : linuxToNativeMsgFlags linuxFlags = .ok flags)
    (hanswer : h (.recvmsg s (recvRequest linuxMsg) flags) = .ok answer) :
    Unaffected (fun stack => shimRecvmsg abi stack mem s linuxMsg linuxFlags)
        h e₀ ↔
      StackFree fun stack => receiveMsg abi stack mem linuxMsg answer := by
  refine unaffected_iff (fun out => (some answer.nbytes, out)) Prod.snd
    (fun out => rfl) ?_
  intro stack
  rw [shimRecvmsg, Routine.run_bind, Routine.run_lift, hflags]
  simp only [ok_bind, callNative, Routine.run_bind, Routine.run_native,
    hanswer, Routine.run_lift]
  cases receiveMsg abi stack mem linuxMsg answer <;> rfl

end Recvmsg

/-- When a received address is a matter of what the kernel stored. For
`recvfrom` and `getsockname` exactly if the stored bytes determine it; for
`recvmsg` exactly if they do as far as the rest of the message lets it be
seen. A caller's lengths are those of its buffers at most, and its name and
control buffers are two objects. -/
theorem receivedAddr_unaffected_iff
    (h : (c : SockCall) → Except Errno (SockAnswer c)) (e₀ : Errno) (s : Word) :
    (∀ buf len linuxFlags flags linuxAddr linuxLen nbytes stored,
      linuxToNativeMsgFlags linuxFlags = .ok flags →
      h (.recvfrom s buf len flags (some sizeofSockaddrStorage)) =
        .ok (nbytes, stored) →
      stored.length ≤ sizeofSockaddrStorage → linuxLen ≤ linuxAddr.length →
      (Unaffected (fun stack => shimRecvfrom stack s buf len linuxFlags
          (some (linuxAddr, linuxLen))) h e₀ ↔
        AddrDetermined linuxLen stored)) ∧
    (∀ linuxName linuxNamelen stored,
      h (.getsockname s sizeofSockaddrStorage) = .ok stored →
      stored.length ≤ sizeofSockaddrStorage →
      linuxNamelen ≤ linuxName.length →
      (Unaffected (fun stack =>
          shimGetsockname stack s linuxName linuxNamelen) h e₀ ↔
        AddrDetermined linuxNamelen stored)) ∧
    (∀ abi mem linuxMsg linuxFlags flags answer,
      linuxMsg.msgName ≠ null → linuxMsg.msgName ≠ linuxMsg.msgControl →
      linuxMsg.msgNamelen ≤ (mem.obj linuxMsg.msgName).length →
      linuxMsg.msgControllen ≤ (mem.obj linuxMsg.msgControl).length →
      linuxToNativeMsgFlags linuxFlags = .ok flags →
      h (.recvmsg s (recvRequest linuxMsg) flags) = .ok answer →
      answer.msgName.length ≤ sizeofSockaddrStorage →
      (Unaffected (fun stack => shimRecvmsg abi stack mem s linuxMsg linuxFlags)
          h e₀ ↔
        RecvmsgDetermined abi mem linuxMsg answer)) := by
  refine ⟨?_, ?_, ?_⟩
  · intro buf len linuxFlags flags linuxAddr linuxLen nbytes stored hflags
      hanswer hfits hroom
    rw [shimRecvfrom_unaffected_iff hflags hanswer, sameAddr_iff hroom hfits]
  · intro linuxName linuxNamelen stored hanswer hfits hroom
    rw [shimGetsockname_unaffected_iff hanswer, sameAddr_iff hroom hfits]
  · intro abi mem linuxMsg linuxFlags flags answer hname hdistinct hroom hcap
      hflags hanswer hfits
    rw [shimRecvmsg_unaffected_iff hflags hanswer,
      receiveMsg_stackFree_iff hname hdistinct hroom hcap hfits]

/-- The kernel of a connected stream socket: data, and no address. -/
def connected : (c : SockCall) → Except Errno (SockAnswer c)
  | .recvfrom .. => .ok (5, [])
  | .getsockname .. => .ok (leBytes 1 16 ++ leBytes 1 pfInet.toNat ++
      .replicate 14 7)
  | .recvmsg .. => .ok ⟨5, leBytes 1 16 ++ leBytes 1 pfInet.toNat ++
      .replicate 14 7, 1, [], 0, by decide⟩
  | _ => .error enosys

set_option maxRecDepth 2000 in
/-- With no address stored, what the caller gets is what the stack held: an
address of twos, or an abort. -/
theorem recvfrom_connected_shows_stack :
    (shimRecvfrom (.filled 2) 3 1 16 0 (some (.replicate 16 0, 16))).run
        connected 0 =
      .ok ((some 5, some (leBytes 2 linuxPfInet.toNat ++ .replicate 14 2, 16)),
        0) ∧
      (shimRecvfrom (.filled 0) 3 1 16 0 (some (.replicate 16 0, 16))).run
        connected 0 = .error .abort := by
  constructor
  · rfl
  · rfl

/-- One whose message also brings a descriptor that was cut off. -/
def connectedRights : (c : SockCall) → Except Errno (SockAnswer c)
  | .recvmsg .. => .ok ⟨5, [], 1, truncatedRights, msgCtrunc, by decide⟩
  | _ => .error enosys

/-- The caller's name and control buffers. -/
def nameAndControl : Mem :=
  (Mem.only 1 (.replicate 28 0)).update 2 (.replicate 16 0)

theorem receivedAddr_connected :
    ¬Unaffected (fun stack => shimRecvfrom stack 3 1 16 0
        (some (.replicate 16 0, 16))) connected 0 ∧
      Unaffected (fun stack => shimGetsockname stack 3 (.replicate 28 0) 28)
        connected 0 ∧
      Unaffected (fun stack => shimRecvmsg .amd64 stack nameAndControl 3
        ⟨1, 28, 5, 1, 2, 16, 0⟩ 0) connected 0 ∧
      ¬Unaffected (fun stack => shimRecvmsg .amd64 stack nameAndControl 3
        ⟨1, 28, 5, 1, 2, 16, 0⟩ 0) connectedRights 0 := by
  obtain ⟨hfrom, hname, hmsg⟩ := receivedAddr_unaffected_iff connected 0 3
  have hrights := (receivedAddr_unaffected_iff connectedRights 0 3).2.2 .amd64
    nameAndControl ⟨1, 28, 5, 1, 2, 16, 0⟩ 0 0 _ (by decide) (by decide)
    (by decide) (by decide) rfl rfl (by decide)
  refine ⟨?_, ?_, ?_, ?_⟩
  · exact mt (hfrom 1 16 0 0 (.replicate 16 0) 16 5 [] rfl rfl (by decide)
      (by decide)).mp (by decide)
  · exact (hname (.replicate 28 0) 28 _ rfl (by decide) (by decide)).mpr
      (by decide)
  · refine (hmsg .amd64 nameAndControl ⟨1, 28, 5, 1, 2, 16, 0⟩ 0 0 _
      (by decide) (by decide) (by decide) (by decide) rfl rfl
      (by decide)).mpr (.inr (.inr ⟨fun _ off hvisits => ?_, ?_, fun _ => by
        decide⟩))
    · exact absurd hvisits not_visits_nil
    · exact .inl (by decide)
  · refine mt hrights.mp ?_
    rintro (hflags | hshort | ⟨hbounded, -⟩)
    · exact hflags linuxMsgCtrunc rfl
    · rcases hshort with hshort | ⟨h2, -⟩
      · exact absurd hshort (by decide)
      · exact absurd h2 (by decide)
    · have hstays : StaysInBounds (nativeToLinuxMsgControl .amd64
          nameAndControl ⟨1, 28, 5, 1, 2, 16, 0⟩ (RecvAnswer.msg
            ⟨5, [], 1, truncatedRights, msgCtrunc, by decide⟩)) :=
        (nativeToLinuxMsgControl_staysInBounds_iff (by decide)).mpr hbounded
      exact absurd hstays (by decide)

end Libc6Shim
