import Libc6Shim.DirStreams
import Libc6Shim.Statfs

/-!
# Records with narrow fields

On i386 a record comes in two layouts, and the calls that fill the old one are
to fail when a number does not fit. They do not look: the number is cut to
its width, and the call succeeds. So what they store is true exactly of
records whose inode numbers, sizes, offsets and counts are below 2^32
(`narrowRecords_true_iff`).
-/

namespace Libc6Shim

open CSem Buf Outcome Routine

/-! ## Numbers -/

/-- The numbers of a `struct stat`, of which `st_size` is read as signed or
not by the layout. -/
def statNumbers {l : StatLayout} (size : BitVec l.sizeBits → Int)
    (b : LinuxStat l) : List Int :=
  [b.stDev.toNat, b.stIno.toNat, b.stNlink.toNat, b.stMode.toNat, b.stUid.toNat,
    b.stGid.toNat, b.stRdev.toNat, size b.stSize, b.stBlksize.toNat,
    b.stBlocks.toNat, b.stAtim.tvSec, b.stAtim.tvNsec, b.stMtim.tvSec,
    b.stMtim.tvNsec, b.stCtim.tvSec, b.stCtim.tvNsec]

def narrowStat (b : LinuxStat (linuxStat .i386)) : List Int :=
  statNumbers (fun x => x.toNat) b

def wideStat (b : LinuxStat (linuxStat64 .i386)) : List Int :=
  statNumbers (fun x => x.toInt) b

def statfsNumbers {l : StatfsLayout} (b : LinuxStatfs l) : List Nat :=
  [b.fType.toNat, b.fBsize.toNat, b.fBlocks.toNat, b.fBfree.toNat,
    b.fBavail.toNat, b.fFiles.toNat, b.fFfree.toNat, b.fFsid.toNat,
    b.fNamelen.toNat, b.fFrsize.toNat, b.fFlags.toNat]

def direntNumbers {l : DirentLayout} (e : LinuxDirent l) : List Nat :=
  [e.dIno.toNat, e.dOff.toNat, e.dReclen.toNat, e.dType.toNat]

/-! ## What is to be true -/

/-- Where the native side has `sb`, the two forms of a call that both succeed
store the same numbers. -/
structure StatTrue (sb : NativeStat) : Prop where
  xstat : ∀ h path e narrow wide e₁ e₂, h (.stat (some path)) = .ok sb →
    run h (shimXstat .i386 path) e = .ok (some narrow, e₁) →
    run h (shimXstat64 .i386 path) e = .ok (some wide, e₂) →
    narrowStat narrow = wideStat wide
  lxstat : ∀ h linuxEmulPath path e narrow wide e₁ e₂,
    h (.lstat (redirect linuxEmulPath path)) = .ok sb →
    run h (shimLxstat .i386 linuxEmulPath path) e = .ok (some narrow, e₁) →
    run h (shimLxstat64 .i386 linuxEmulPath path) e = .ok (some wide, e₂) →
    narrowStat narrow = wideStat wide
  fxstat : ∀ h fd e narrow wide e₁ e₂, h (.fstat fd) = .ok sb →
    run h (shimFxstat .i386 fd) e = .ok (some narrow, e₁) →
    run h (shimFxstat64 .i386 fd) e = .ok (some wide, e₂) →
    narrowStat narrow = wideStat wide

structure StatfsTrue (buf : NativeStatfs) : Prop where
  statfs : ∀ h path e narrow wide e₁ e₂, h (.statfs path) = .ok buf →
    run h (shimStatfs .i386 path) e = .ok (some narrow, e₁) →
    run h (shimStatfs64 .i386 path) e = .ok (some wide, e₂) →
    statfsNumbers narrow = statfsNumbers wide
  fstatfs : ∀ h fd e narrow wide e₁ e₂, h (.fstatfs fd) = .ok buf →
    run h (shimFstatfs .i386 fd) e = .ok (some narrow, e₁) →
    run h (shimFstatfs64 .i386 fd) e = .ok (some wide, e₂) →
    statfsNumbers narrow = statfsNumbers wide

/-- A stream at rest, whose next entry is `entry`. -/
def NextIs {σ : Type} (lib : (c : DirCall) → σ → DirAnswer c × σ)
    (h : DirHeap .i386) (t : σ) (p : Ptr) (entry : NativeDirent) : Prop :=
  ∃ d os, IsStream h p d os ∧ d.locked = false ∧
    (lib (.readdir d.dir) t).1 = some entry

structure DirentTrue (entry : NativeDirent) : Prop where
  readdir : ∀ (σ : Type) (lib : (c : DirCall) → σ → DirAnswer c × σ) junk h t p,
    NextIs lib h t p entry → ∀ r₁ r₂ h₁ h₂ t₁ t₂ narrow wide,
    Stateful.exec lib (shimReaddir junk p) h t = (.ok (r₁, h₁), t₁) →
    Stateful.exec lib (shimReaddir64 junk p) h t = (.ok (r₂, h₂), t₂) →
    h₁.obj r₁ = some (.entry narrow) → h₂.obj r₂ = some (.entry64 wide) →
    direntNumbers narrow = direntNumbers wide
  readdirR : ∀ (σ : Type) (lib : (c : DirCall) → σ → DirAnswer c × σ) h t p,
    NextIs lib h t p entry → ∀ q₁ q₂ r₁ r₂ h₁ h₂ t₁ t₂ narrow wide,
    Stateful.exec lib (shimReaddirR p q₁) h t = (.ok (r₁, h₁), t₁) →
    Stateful.exec lib (shimReaddir64R p q₂) h t = (.ok (r₂, h₂), t₂) →
    h₁.obj r₁ = some (.entry narrow) → h₂.obj r₂ = some (.entry64 wide) →
    direntNumbers narrow = direntNumbers wide

/-! ## What fits -/

/-- A number that the narrow field has room for. -/
def FitsNarrow (x : BitVec 64) : Prop := x.toNat < 2 ^ 32

instance : DecidablePred FitsNarrow := fun _ =>
  inferInstanceAs (Decidable (_ < _))

def StatFits (sb : NativeStat) : Prop :=
  FitsNarrow sb.stIno ∧ FitsNarrow sb.stSize ∧ FitsNarrow sb.stBlocks

def StatfsFits (buf : NativeStatfs) : Prop :=
  FitsNarrow buf.fBlocks ∧ FitsNarrow buf.fBfree ∧ FitsNarrow buf.fBavail ∧
    FitsNarrow buf.fFiles ∧ FitsNarrow buf.fFfree

def DirentFits (entry : NativeDirent) : Prop :=
  FitsNarrow entry.dIno ∧ FitsNarrow entry.dOff

theorem cut_eq_iff (x : BitVec 64) :
    (x.setWidth 32).toNat = (x.setWidth 64).toNat ↔ FitsNarrow x := by
  have hlt := x.isLt
  rw [BitVec.setWidth_eq, BitVec.toNat_setWidth, FitsNarrow]
  omega

/-- The wide field is signed, the narrow one is not. -/
theorem cut_eq_signed_iff (x : BitVec 64) :
    ((x.setWidth 32).toNat : Int) = (x.setWidth 64).toInt ↔ FitsNarrow x := by
  have hlt := x.isLt
  rw [BitVec.setWidth_eq, BitVec.toNat_setWidth, BitVec.toInt_eq_toNat_cond,
    FitsNarrow]
  split <;> omega

section

variable {sb : NativeStat} {buf : NativeStatfs} {entry : NativeDirent}

/-- The device number is the same in both, whatever it is. -/
theorem statNumbers_eq_iff (rdev : BitVec 64) :
    narrowStat { copyStatBuf (linuxStat .i386) sb with stRdev := rdev } =
        wideStat { copyStatBuf (linuxStat64 .i386) sb with stRdev := rdev } ↔
      StatFits sb := by
  rw [StatFits, ← cut_eq_iff, ← cut_eq_signed_iff, ← cut_eq_iff]
  simp only [narrowStat, wideStat, statNumbers, copyStatBuf, linuxStat,
    linuxStat64, List.cons.injEq, Nat.cast_inj, true_and, and_true]

theorem statfsNumbers_eq_iff :
    statfsNumbers (copyStatfsBuf (linuxStatfs .i386) buf) =
        statfsNumbers (copyStatfsBuf (linuxStatfs64 .i386) buf) ↔
      StatfsFits buf := by
  simp only [StatfsFits, ← cut_eq_iff, statfsNumbers, copyStatfsBuf, linuxStatfs,
    linuxStatfs64, List.cons.injEq, BitVec.ofNat_eq_ofNat, BitVec.toNat_ofNat,
    true_and, and_true]

theorem direntNumbers_eq_iff (dst₁ : LinuxDirent (linuxDirent .i386))
    (dst₂ : LinuxDirent (linuxDirent64 .i386)) :
    direntNumbers (copyDirentry dst₁ entry) =
        direntNumbers (copyDirentry dst₂ entry) ↔ DirentFits entry := by
  simp only [DirentFits, ← cut_eq_iff, direntNumbers, copyDirentry, linuxDirent,
    linuxDirent64, List.cons.injEq, and_true]

/-! ## What the calls store -/

/-- What `FIX_NV_DEV_ID` makes of a device number does not depend on the
layout it is in. -/
theorem run_fixNvDevId (path : Buf) (rdev : BitVec 64) :
    ∃ x : Errno → Outcome (BitVec 64 × Errno), ∀ (l : StatLayout)
      (b : LinuxStat l), b.stRdev = rdev → ∀ h e,
        run h (fixNvDevId .i386 path b) e =
          x e >>= fun r => .ok ({ b with stRdev := r.1 }, r.2) := by
  by_cases hnv : startsWith path (lit "/dev/nvidia") = true
  · by_cases hctl : (path.drop (lit "/dev/nvidia").length).head? = some 99
    · refine ⟨fun e => .ok (makeDevId 195 255, e), fun l b hb h e => ?_⟩
      rw [fixNvDevId, if_pos hnv]
      dsimp only
      rw [if_pos hctl]
      rfl
    · by_cases hmodeset : (path.drop (lit "/dev/nvidia").length).head? = some 45
      · refine ⟨fun e => .ok (makeDevId 195 254, e), fun l b hb h e => ?_⟩
        rw [fixNvDevId, if_pos hnv]
        dsimp only
        rw [if_neg hctl, if_pos hmodeset]
        rfl
      · rcases hnum : strtoulErrno (Abi.i386.sizeMod - 1)
          (path.drop (lit "/dev/nvidia").length) with ⟨i, _ | err⟩
        · refine ⟨fun _ => do
            Outcome.require (i < 254)
            return (makeDevId 195 (BitVec.ofNat 32 i), 0), fun l b hb h e => ?_⟩
          rw [fixNvDevId, if_pos hnv]
          dsimp only
          rw [if_neg hctl, if_neg hmodeset, hnum]
          by_cases hlt : i < 254
          · rw [require_of hlt]
            rfl
          · rw [require_of_not hlt]
            rfl
        · refine ⟨fun _ => .ok (rdev, err), fun l b hb h e => ?_⟩
          rw [fixNvDevId, if_pos hnv]
          dsimp only
          rw [if_neg hctl, if_neg hmodeset, hnum, ← hb]
          rfl
  · refine ⟨fun e => .ok (rdev, e), fun l b hb h e => ?_⟩
    rw [fixNvDevId, if_neg hnv, ← hb]
    rfl

theorem xstat_stores {h : (c : FileCall) → Except Errno (FileAnswer c)}
    {path : Buf} (hsb : h (.stat (some path)) = .ok sb) (e : Errno) :
    ∃ rdev, ∀ (l : StatLayout) b e', run h (xstat .i386 l path) e = .ok (some b, e') →
      b = { copyStatBuf l sb with stRdev := rdev } := by
  obtain ⟨x, hx⟩ := run_fixNvDevId path sb.stRdev
  have hrun : ∀ l, run h (xstat .i386 l path) e =
      x e >>= fun r => .ok (some { copyStatBuf l sb with stRdev := r.1 }, r.2) := by
    intro l
    rw [xstat, callFile, run_bind, run_native, hsb, ok_bind]
    show run h (some <$> fixNvDevId .i386 path (copyStatBuf l sb)) e = _
    rw [run_map, hx l (copyStatBuf l sb) rfl]
    cases x e <;> rfl
  cases hxe : x e with
  | error stop =>
      refine ⟨0, fun l b e' hok => ?_⟩
      rw [hrun, hxe] at hok
      cases hok
  | ok r =>
      refine ⟨r.1, fun l b e' hok => ?_⟩
      rw [hrun, hxe] at hok
      cases hok
      rfl

theorem lxstat_stores {h : (c : FileCall) → Except Errno (FileAnswer c)}
    {linuxEmulPath path : Buf}
    (hsb : h (.lstat (redirect linuxEmulPath path)) = .ok sb) (l : StatLayout)
    (e : Errno) :
    run h (lxstat l linuxEmulPath path) e = .ok (some (copyStatBuf l sb), e) := by
  rw [lxstat, callFile, run_bind, run_native, hsb]
  rfl

theorem fxstat_stores {h : (c : StatfsCall) → Except Errno (StatfsAnswer c)}
    {fd : Word} (hsb : h (.fstat fd) = .ok sb) (l : StatLayout) (e : Errno) :
    run h (fxstat l fd) e = .ok (some (copyStatBuf l sb), e) := by
  rw [fxstat, callStatfs, run_bind, run_native, hsb]
  rfl

theorem statfs_stores {h : (c : StatfsCall) → Except Errno (StatfsAnswer c)}
    {path : Buf} (hbuf : h (.statfs path) = .ok buf) (l : StatfsLayout) (e : Errno) :
    run h (statfs l path) e = .ok (some (copyStatfsBuf l buf), e) := by
  rw [statfs, callStatfs, run_bind, run_native, hbuf]
  rfl

theorem fstatfs_stores {h : (c : StatfsCall) → Except Errno (StatfsAnswer c)}
    {fd : Word} (hbuf : h (.fstatfs fd) = .ok buf) (l : StatfsLayout) (e : Errno) :
    run h (fstatfs l fd) e = .ok (some (copyStatfsBuf l buf), e) := by
  rw [fstatfs, callStatfs, run_bind, run_native, hbuf]
  rfl

end

/-! ## Directory entries -/

section

variable {σ : Type} {lib : (c : DirCall) → σ → DirAnswer c × σ}
  {h h' : DirHeap .i386} {t t' : σ} {p r q : Ptr} {entry : NativeDirent}

/-- The next entry is read, and what is done with it says what is stored. -/
theorem exec_readNext_of (hnext : NextIs lib h t p entry)
    {take : NativeDirent → DirHeap .i386 → Outcome (Ptr × DirHeap .i386)}
    (hexec : Stateful.exec lib (readNext p take) h t = (.ok (r, h'), t')) :
    take entry h = .ok (r, h') := by
  obtain ⟨d, os, hs, -, hlib⟩ := hnext
  rw [exec_readNext hs.directory] at hexec
  rcases hnat : lib (.readdir d.dir) t with ⟨answer, t''⟩
  rw [hnat] at hexec hlib
  obtain rfl : answer = some entry := hlib
  exact (Prod.mk.inj hexec).1

theorem readdir_stores {junk : Junk .i386} (hnext : NextIs lib h t p entry)
    (hexec : Stateful.exec lib (shimReaddir junk p) h t = (.ok (r, h'), t')) :
    ∃ dst, h'.obj r = some (.entry (copyDirentry dst entry)) := by
  obtain ⟨d, os, hs, hl, -⟩ := id hnext
  obtain ⟨h₁, hrun, hobj, -⟩ := insertEntry_spec junk hs hl entry
  cases hrun.symm.trans (exec_readNext_of hnext hexec)
  exact ⟨_, hobj⟩

theorem readdir64_stores {junk : Junk .i386} (hnext : NextIs lib h t p entry)
    (hexec : Stateful.exec lib (shimReaddir64 junk p) h t = (.ok (r, h'), t')) :
    ∃ dst, h'.obj r = some (.entry64 (copyDirentry dst entry)) := by
  obtain ⟨d, os, hs, hl, -⟩ := id hnext
  obtain ⟨h₁, hrun, hobj, -⟩ := insertEntry64_spec junk hs hl entry
  cases hrun.symm.trans (exec_readNext_of hnext hexec)
  exact ⟨_, hobj⟩

theorem fillEntry_stores (hrun : fillEntry q entry h = .ok (r, h')) :
    ∃ dst, h'.obj r = some (.entry (copyDirentry dst entry)) := by
  obtain ⟨dst, hq, rfl, rfl⟩ := fillEntry_inv hrun
  exact ⟨dst, Heap.obj_put_self hq⟩

theorem fillEntry64_stores (hrun : fillEntry64 q entry h = .ok (r, h')) :
    ∃ dst, h'.obj r = some (.entry64 (copyDirentry dst entry)) := by
  obtain ⟨dst, hq, rfl, rfl⟩ := fillEntry64_inv hrun
  exact ⟨dst, Heap.obj_put_self hq⟩

/-- Entries in the two layouts that were copied from one. -/
theorem direntNumbers_of_stored (hfits : DirentFits entry) {h₁ h₂ : DirHeap .i386}
    {r₁ r₂ : Ptr} {narrow : LinuxDirent (linuxDirent .i386)}
    {wide : LinuxDirent (linuxDirent64 .i386)}
    (h₁stored : ∃ dst, h₁.obj r₁ = some (.entry (copyDirentry dst entry)))
    (h₂stored : ∃ dst, h₂.obj r₂ = some (.entry64 (copyDirentry dst entry)))
    (hnarrow : h₁.obj r₁ = some (.entry narrow))
    (hwide : h₂.obj r₂ = some (.entry64 wide)) :
    direntNumbers narrow = direntNumbers wide := by
  obtain ⟨dst₁, hobj₁⟩ := h₁stored
  obtain ⟨dst₂, hobj₂⟩ := h₂stored
  cases hobj₁.symm.trans hnarrow
  cases hobj₂.symm.trans hwide
  exact (direntNumbers_eq_iff dst₁ dst₂).mpr hfits

end

/-! ## True records -/

/-- A native side with one file. -/
def statOnly (sb : NativeStat) : (c : StatfsCall) → Except Errno (StatfsAnswer c)
  | .fstat _ | .fstatat .. => .ok sb
  | .statfs _ | .fstatfs _ => .error enosys

/-- A native side with one file system. -/
def statfsOnly (buf : NativeStatfs) :
    (c : StatfsCall) → Except Errno (StatfsAnswer c)
  | .fstat _ | .fstatat .. => .error enosys
  | .statfs _ | .fstatfs _ => .ok buf

/-- A native side all of whose directories are full of one entry. -/
def entryOnly (entry : NativeDirent) : (c : DirCall) → Unit → DirAnswer c × Unit
  | .opendir _, _ | .fdopendir _, _ => ((1 : Ptr), ())
  | .readdir _, _ => (some entry, ())
  | .rewinddir _, _ | .seekdir .., _ => ((), ())
  | .telldir _, _ => ((0 : Int), ())
  | .closedir _, _ => ((0 : Word), ())

def blankJunk : Junk .i386 where
  entry _ := ⟨0, 0, 0, 0, zeroName⟩
  entry64 _ := ⟨0, 0, 0, 0, zeroName⟩
  link _ := null

section

variable {sb : NativeStat} {buf : NativeStatfs} {entry : NativeDirent}

theorem statTrue_iff : StatTrue sb ↔ StatFits sb := by
  constructor
  · intro htrue
    have hsb : statOnly sb (.fstat 0) = .ok sb := rfl
    exact (statNumbers_eq_iff sb.stRdev).mp (htrue.fxstat _ 0 0 _ _ 0 0 hsb
      (fxstat_stores hsb _ 0) (fxstat_stores hsb _ 0))
  · intro hfits
    constructor
    · intro h path e narrow wide e₁ e₂ hsb hnarrow hwide
      obtain ⟨rdev, hstores⟩ := xstat_stores hsb e
      rw [hstores _ _ _ hnarrow, hstores _ _ _ hwide]
      exact (statNumbers_eq_iff rdev).mpr hfits
    · intro h linuxEmulPath path e narrow wide e₁ e₂ hsb hnarrow hwide
      cases (lxstat_stores hsb _ e).symm.trans hnarrow
      cases (lxstat_stores hsb _ e).symm.trans hwide
      exact (statNumbers_eq_iff sb.stRdev).mpr hfits
    · intro h fd e narrow wide e₁ e₂ hsb hnarrow hwide
      cases (fxstat_stores hsb _ e).symm.trans hnarrow
      cases (fxstat_stores hsb _ e).symm.trans hwide
      exact (statNumbers_eq_iff sb.stRdev).mpr hfits

theorem statfsTrue_iff : StatfsTrue buf ↔ StatfsFits buf := by
  constructor
  · intro htrue
    have hbuf : statfsOnly buf (.fstatfs 0) = .ok buf := rfl
    exact statfsNumbers_eq_iff.mp (htrue.fstatfs _ 0 0 _ _ 0 0 hbuf
      (fstatfs_stores hbuf _ 0) (fstatfs_stores hbuf _ 0))
  · intro hfits
    constructor
    · intro h path e narrow wide e₁ e₂ hbuf hnarrow hwide
      cases (statfs_stores hbuf _ e).symm.trans hnarrow
      cases (statfs_stores hbuf _ e).symm.trans hwide
      exact statfsNumbers_eq_iff.mpr hfits
    · intro h fd e narrow wide e₁ e₂ hbuf hnarrow hwide
      cases (fstatfs_stores hbuf _ e).symm.trans hnarrow
      cases (fstatfs_stores hbuf _ e).symm.trans hwide
      exact statfsNumbers_eq_iff.mpr hfits

theorem exec_entryOnly {h h' : DirHeap .i386} {p r : Ptr} {d : ShimDirectory}
    {os : List Owned} (hs : IsStream h p d os)
    {take : NativeDirent → DirHeap .i386 → Outcome (Ptr × DirHeap .i386)}
    (htake : take entry h = .ok (r, h')) :
    Stateful.exec (entryOnly entry) (readNext p take) h () = (.ok (r, h'), ()) := by
  rw [exec_readNext hs.directory]
  exact congrArg (·, ()) htake

/-- A new stream's first entry, read either way, is `entry`. -/
theorem direntFits_of_true (htrue : DirentTrue entry) : DirentFits entry := by
  obtain ⟨h, p, hs⟩ : ∃ (h : DirHeap .i386) (p : Ptr),
      IsStream h p ⟨1, null, false⟩ [] :=
    ⟨_, _, isStream_createShimDir 1 Heap.empty⟩
  obtain ⟨h₁, hrun₁, hobj₁, -⟩ := insertEntry_spec blankJunk hs rfl entry
  obtain ⟨h₂, hrun₂, hobj₂, -⟩ := insertEntry64_spec blankJunk hs rfl entry
  have hnext : NextIs (entryOnly entry) h () p entry := ⟨_, _, hs, rfl, rfl⟩
  exact (direntNumbers_eq_iff _ _).mp (htrue.readdir _ _ blankJunk _ _ _ hnext
    _ _ _ _ _ _ _ _ (exec_entryOnly hs hrun₁) (exec_entryOnly hs hrun₂) hobj₁
    hobj₂)

theorem direntTrue_iff : DirentTrue entry ↔ DirentFits entry := by
  refine ⟨direntFits_of_true, fun hfits => ?_⟩
  constructor
  · intro σ lib junk h t p hnext r₁ r₂ h₁ h₂ t₁ t₂ narrow wide hexec₁ hexec₂
    exact direntNumbers_of_stored hfits (readdir_stores hnext hexec₁)
      (readdir64_stores hnext hexec₂)
  · intro σ lib h t p hnext q₁ q₂ r₁ r₂ h₁ h₂ t₁ t₂ narrow wide hexec₁ hexec₂
    exact direntNumbers_of_stored hfits
      (fillEntry_stores (exec_readNext_of hnext hexec₁))
      (fillEntry64_stores (exec_readNext_of hnext hexec₂))

end

/-- The narrow records are true exactly if what is cut fits. -/
theorem narrowRecords_true_iff (sb : NativeStat) (buf : NativeStatfs)
    (entry : NativeDirent) :
    (StatTrue sb ↔ StatFits sb) ∧ (StatfsTrue buf ↔ StatfsFits buf) ∧
      (DirentTrue entry ↔ DirentFits entry) :=
  ⟨statTrue_iff, statfsTrue_iff, direntTrue_iff⟩

/-- A file of four gigabytes is empty. -/
def fourGigabytes : NativeStat :=
  ⟨64, 7, 1, 0o100644, 0, 0, 0, 0x100000000, 4096, 0x800000, ⟨0, 0⟩, ⟨0, 0⟩, ⟨0, 0⟩⟩

theorem fourGigabytes_not_true :
    (copyStatBuf (linuxStat .i386) fourGigabytes).stSize = (0 : BitVec 32) ∧
      ¬StatTrue fourGigabytes :=
  ⟨rfl, fun htrue => absurd (statTrue_iff.mp htrue).2.1 (by decide)⟩

end Libc6Shim
