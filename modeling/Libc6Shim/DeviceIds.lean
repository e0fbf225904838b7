import Libc6Shim.FileCalls

/-!
# Device numbers

`make_dev_id` (`src/libc/sys/stat.c`) puts a major and a minor number into one
word, each in two pieces. `bitPlace` says where every bit goes: the places are
the 64 of the word, each taken once, so that nothing is lost
(`makeDevId_bijective`).

The NVIDIA nodes get their number from their name. Behind `/dev/nvidia` the
name has a number, which `strtoul` reads up to the first byte that is no digit.
-/

namespace Libc6Shim

open CSem Buf Outcome Routine

/-! ## The places of the bits -/

/-- Where bit `i` of a major number is. -/
def majorBit (i : Nat) : Nat := if i < 12 then i + 8 else i + 32

/-- Where bit `i` of a minor number is. -/
def minorBit (i : Nat) : Nat := if i < 8 then i else i + 12

theorem majorBit_lt {i : Nat} (h : i < 32) : majorBit i < 64 := by
  rw [majorBit]
  split <;> omega

theorem minorBit_lt {i : Nat} (h : i < 32) : minorBit i < 64 := by
  rw [minorBit]
  split <;> omega

/-- The place of a bit of the major number, on the left, or of the minor. -/
def bitPlace : Fin 32 ⊕ Fin 32 → Fin 64
  | .inl i => ⟨majorBit i, majorBit_lt i.isLt⟩
  | .inr i => ⟨minorBit i, minorBit_lt i.isLt⟩

/-- Every place is that of a bit. -/
theorem place_cases {b : Nat} (hb : b < 64) :
    (∃ i < 32, b = majorBit i) ∨ ∃ i < 32, b = minorBit i := by
  by_cases h8 : b < 8
  · exact .inr ⟨b, by omega, (if_pos h8).symm⟩
  by_cases h20 : b < 20
  · refine .inl ⟨b - 8, by omega, ?_⟩
    rw [majorBit, if_pos (by omega)]
    omega
  by_cases h44 : b < 44
  · refine .inr ⟨b - 12, by omega, ?_⟩
    rw [minorBit, if_neg (by omega)]
    omega
  · refine .inl ⟨b - 32, by omega, ?_⟩
    rw [majorBit, if_neg (by omega)]
    omega

theorem bitPlace_bijective : Function.Bijective bitPlace := by
  constructor
  · rintro (i | i) (j | j) hplace <;>
      replace hplace := congrArg Fin.val hplace <;>
      simp only [bitPlace, majorBit, minorBit] at hplace
    · congr 1
      ext
      split at hplace <;> split at hplace <;> omega
    · split at hplace <;> split at hplace <;> omega
    · split at hplace <;> split at hplace <;> omega
    · congr 1
      ext
      split at hplace <;> split at hplace <;> omega
  · intro b
    rcases place_cases b.isLt with ⟨i, hi, hb⟩ | ⟨i, hi, hb⟩
    · exact ⟨.inl ⟨i, hi⟩, Fin.ext hb.symm⟩
    · exact ⟨.inr ⟨i, hi⟩, Fin.ext hb.symm⟩

/-! ## Packing -/

/-- The major number: bits 8 to 19, and 44 to 63 above them. -/
def devMajor (dev : BitVec 64) : BitVec 32 :=
  dev.extractLsb' 44 20 ++ dev.extractLsb' 8 12

/-- The minor number: bits 0 to 7, and 20 to 43 above them. -/
def devMinor (dev : BitVec 64) : BitVec 32 :=
  dev.extractLsb' 20 24 ++ dev.extractLsb' 0 8

/-- The bits from `lo` to `hi` of a number, moved up by `s`. -/
theorem getLsbD_placed {x mask : BitVec 32} {lo hi s b : Nat}
    (hmask : ∀ i < 32, mask.getLsbD i = decide (lo ≤ i ∧ i < hi))
    (hhi : hi ≤ 32) (hb : b < 64) :
    ((x &&& mask).setWidth 64 <<< s).getLsbD b =
      (decide (lo + s ≤ b ∧ b < hi + s) && x.getLsbD (b - s)) := by
  rw [BitVec.getLsbD_shiftLeft, BitVec.getLsbD_setWidth, BitVec.getLsbD_and]
  by_cases hin : lo + s ≤ b ∧ b < hi + s
  · have hs : ¬b < s := by omega
    have h64 : b - s < 64 := by omega
    have hbit : lo ≤ b - s ∧ b - s < hi := by omega
    rw [hmask (b - s) (by omega)]
    simp [hin, hb, hs, h64, hbit]
  · by_cases h32 : b - s < 32
    · rw [hmask (b - s) h32]
      by_cases hs : b < s
      · simp [hin, hs]
      · have hbit : ¬(lo ≤ b - s ∧ b - s < hi) := by omega
        simp [hin, hbit]
    · rw [BitVec.getLsbD_of_ge mask _ (by omega)]
      simp [hin]

theorem getLsbD_makeDevId (major minor : BitVec 32) {b : Nat} (hb : b < 64) :
    (makeDevId major minor).getLsbD b =
      if b < 8 then minor.getLsbD b
      else if b < 20 then major.getLsbD (b - 8)
      else if b < 44 then minor.getLsbD (b - 12)
      else major.getLsbD (b - 32) := by
  have hmajorLow := @getLsbD_placed major 0x00000fff 0 12 8 b
    (by decide) (by omega) hb
  have hmajorHigh := @getLsbD_placed major 0xfffff000 12 32 32 b
    (by decide) (by omega) hb
  have hminorLow := @getLsbD_placed minor 0x000000ff 0 8 0 b
    (by decide) (by omega) hb
  have hminorHigh := @getLsbD_placed minor 0xffffff00 8 32 12 b
    (by decide) (by omega) hb
  rw [makeDevId, BitVec.getLsbD_or, BitVec.getLsbD_or, BitVec.getLsbD_or,
    hmajorLow, hmajorHigh, hminorLow, hminorHigh]
  split_ifs <;> grind

section

variable {major minor : BitVec 32} {dev : BitVec 64} {i : Nat}

theorem makeDevId_majorBit (hi : i < 32) :
    (makeDevId major minor).getLsbD (majorBit i) = major.getLsbD i := by
  rw [getLsbD_makeDevId major minor (majorBit_lt hi), majorBit]
  by_cases h12 : i < 12
  · rw [if_pos h12, if_neg (by omega), if_pos (by omega), Nat.add_sub_cancel]
  · rw [if_neg h12, if_neg (by omega), if_neg (by omega), if_neg (by omega),
      Nat.add_sub_cancel]

theorem makeDevId_minorBit (hi : i < 32) :
    (makeDevId major minor).getLsbD (minorBit i) = minor.getLsbD i := by
  rw [getLsbD_makeDevId major minor (minorBit_lt hi), minorBit]
  by_cases h8 : i < 8
  · rw [if_pos h8, if_pos h8]
  · rw [if_neg h8, if_neg (by omega), if_neg (by omega), if_pos (by omega),
      Nat.add_sub_cancel]

theorem getLsbD_devMajor (hi : i < 32) :
    (devMajor dev).getLsbD i = dev.getLsbD (majorBit i) := by
  rw [devMajor, BitVec.getLsbD_append, majorBit, BitVec.getLsbD_extractLsb',
    BitVec.getLsbD_extractLsb']
  by_cases h12 : i < 12
  · rw [if_pos h12, if_pos h12, decide_eq_true h12, Bool.true_and,
      Nat.add_comm]
  · rw [if_neg h12, if_neg h12, decide_eq_true (by omega), Bool.true_and,
      show 44 + (i - 12) = i + 32 by omega]

theorem getLsbD_devMinor (hi : i < 32) :
    (devMinor dev).getLsbD i = dev.getLsbD (minorBit i) := by
  rw [devMinor, BitVec.getLsbD_append, minorBit, BitVec.getLsbD_extractLsb',
    BitVec.getLsbD_extractLsb']
  by_cases h8 : i < 8
  · rw [if_pos h8, if_pos h8, decide_eq_true h8, Bool.true_and, Nat.zero_add]
  · rw [if_neg h8, if_neg h8, decide_eq_true (by omega), Bool.true_and,
      show 20 + (i - 8) = i + 12 by omega]

theorem devMajor_makeDevId (major minor : BitVec 32) :
    devMajor (makeDevId major minor) = major :=
  BitVec.eq_of_getLsbD_eq fun i hi => by
    rw [getLsbD_devMajor hi, makeDevId_majorBit hi]

theorem devMinor_makeDevId (major minor : BitVec 32) :
    devMinor (makeDevId major minor) = minor :=
  BitVec.eq_of_getLsbD_eq fun i hi => by
    rw [getLsbD_devMinor hi, makeDevId_minorBit hi]

theorem makeDevId_of_halves (dev : BitVec 64) :
    makeDevId (devMajor dev) (devMinor dev) = dev := by
  refine BitVec.eq_of_getLsbD_eq fun b hb => ?_
  rcases place_cases hb with ⟨i, hi, rfl⟩ | ⟨i, hi, rfl⟩
  · rw [makeDevId_majorBit hi, getLsbD_devMajor hi]
  · rw [makeDevId_minorBit hi, getLsbD_devMinor hi]

end

theorem makeDevId_bijective :
    Function.Bijective fun id : BitVec 32 × BitVec 32 => makeDevId id.1 id.2 :=
  Function.bijective_iff_has_inverse.mpr
    ⟨fun dev => (devMajor dev, devMinor dev),
      fun id => Prod.ext (devMajor_makeDevId id.1 id.2)
        (devMinor_makeDevId id.1 id.2),
      fun dev => makeDevId_of_halves dev⟩

/-! ## The NVIDIA nodes -/

/-- The path of a node with a number in its name, and what may follow. -/
def NumberedNode (path : Buf) (n : Nat) : Prop :=
  ∃ digits rest, path = lit "/dev/nvidia" ++ (digits ++ rest) ∧
    digits ≠ [] ∧ (∀ c ∈ digits, isDigit c = true) ∧
    (∀ c ∈ rest.head?, isDigit c = false) ∧ digitsVal digits = n

section

variable {abi : Abi} {l : StatLayout} {path : Buf} {n : Nat} {sb : NativeStat}
  {h : (c : FileCall) → Except Errno (FileAnswer c)} {errno : Errno}

theorem run_fixNvDevId_numbered (hnode : NumberedNode path n) (hn : n < 254)
    (statBuf : LinuxStat l) :
    run h (fixNvDevId abi path statBuf) errno =
      .ok ({ statBuf with stRdev := makeDevId 195 (BitVec.ofNat 32 n) }, 0) := by
  obtain ⟨digits, rest, rfl, hne, hdigits, hrest, rfl⟩ := hnode
  have hmax : digitsVal digits ≤ abi.sizeMod - 1 := by
    have hsize := abi.sizeMod_ge
    omega
  have hread := strtoulErrno_digits hne hdigits hrest hmax
  have hhead : ∀ c, isDigit c = false → (digits ++ rest).head? ≠ some c := by
    intro c hc he
    obtain ⟨x, xs, rfl⟩ := List.exists_cons_of_ne_nil hne
    obtain rfl : x = c := Option.some.inj he
    exact absurd (hdigits x (List.mem_cons_self ..)) (by rw [hc]; decide)
  rw [fixNvDevId, if_pos (startsWith_iff.mpr ⟨_, rfl⟩)]
  dsimp only
  rw [List.drop_left, if_neg (hhead 99 (by decide)),
    if_neg (hhead 45 (by decide)), hread]
  simp only [run_bind, run_lift, require_of hn, ok_bind]
  rfl

theorem run_xstat_numbered (hnode : NumberedNode path n) (hn : n < 254)
    (hsb : h (.stat (some path)) = .ok sb) :
    run h (xstat abi l path) errno =
      .ok (some { copyStatBuf l sb with
        stRdev := makeDevId 195 (BitVec.ofNat 32 n) }, 0) := by
  rw [xstat, callFile, run_bind, run_native, hsb, ok_bind]
  show run h (some <$> fixNvDevId abi path (copyStatBuf l sb)) errno = _
  rw [run_map, run_fixNvDevId_numbered hnode hn]
  rfl

end

/-- A device number that decodes to a pair. -/
def DecodesTo (dev : BitVec 64) (major minor : Nat) : Prop :=
  (devMajor dev).toNat = major ∧ (devMinor dev).toNat = minor

theorem makeDevId_decodesTo {n : Nat} (hn : n < 254) :
    DecodesTo (makeDevId 195 (BitVec.ofNat 32 n)) 195 n := by
  refine ⟨by rw [devMajor_makeDevId]; rfl, ?_⟩
  rw [devMinor_makeDevId, BitVec.toNat_ofNat, Nat.mod_eq_of_lt (by omega)]

/-- Device numbers are packed without loss, and the number of an NVIDIA node
is the one in its name. -/
theorem deviceIds_faithful :
    (Function.Bijective bitPlace ∧
      ∀ (major minor : BitVec 32) (i : Fin 32),
        (makeDevId major minor)[bitPlace (.inl i)] = major[i] ∧
          (makeDevId major minor)[bitPlace (.inr i)] = minor[i]) ∧
    ((Function.Bijective fun id : BitVec 32 × BitVec 32 =>
        makeDevId id.1 id.2) ∧
      (∀ major minor, devMajor (makeDevId major minor) = major ∧
        devMinor (makeDevId major minor) = minor) ∧
      ∀ dev, makeDevId (devMajor dev) (devMinor dev) = dev) ∧
    ∀ (abi : Abi) (path : Buf) (n : Nat) (sb : NativeStat) h errno,
      NumberedNode path n → n < 254 → h (.stat (some path)) = .ok sb →
      (∃ b e, run h (shimXstat abi path) errno = .ok (some b, e) ∧
        DecodesTo b.stRdev 195 n) ∧
      ∃ b e, run h (shimXstat64 abi path) errno = .ok (some b, e) ∧
        DecodesTo b.stRdev 195 n := by
  refine ⟨⟨bitPlace_bijective, fun major minor i => ⟨?_, ?_⟩⟩,
    ⟨makeDevId_bijective, fun major minor => ⟨devMajor_makeDevId major minor,
      devMinor_makeDevId major minor⟩, makeDevId_of_halves⟩, ?_⟩
  · exact makeDevId_majorBit i.isLt
  · exact makeDevId_minorBit i.isLt
  · intro abi path n sb h errno hnode hn hsb
    exact ⟨⟨_, _, run_xstat_numbered hnode hn hsb, makeDevId_decodesTo hn⟩,
      _, _, run_xstat_numbered hnode hn hsb, makeDevId_decodesTo hn⟩

/-- A file system whose every file is a character device. -/
def characterDevices : (c : FileCall) → Except Errno (FileAnswer c)
  | .stat _ | .lstat _ =>
      .ok ⟨64, 7, 1, 0o020666, 0, 0, 0x77, 0, 4096, 0, ⟨0, 0⟩, ⟨0, 0⟩, ⟨0, 0⟩⟩
  | .open .. | .fopen .. | .fmemopen .. | .fwrite .. | .rewind _ | .access .. =>
      .error enosys

/-- The eighth device, by a path with more behind the number. -/
theorem nvidia7_faithful :
    ∃ b e, run characterDevices (shimXstat .i386 (lit "/dev/nvidia07.old")) 0 =
      .ok (some b, e) ∧ DecodesTo b.stRdev 195 7 :=
  have hrest : ∀ c ∈ (lit ".old").head?, isDigit c = false := fun c hc => by
    obtain rfl : 46 = c := Option.some.inj hc
    decide
  (deviceIds_faithful.2.2 .i386 (lit "/dev/nvidia07.old") 7 _ characterDevices 0
    ⟨lit "07", lit ".old", by decide, by decide, List.all_eq_true.mp rfl, hrest,
      rfl⟩ (by decide) rfl).1

end Libc6Shim
