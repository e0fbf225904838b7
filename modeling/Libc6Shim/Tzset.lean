import Libc6Shim.Abi
import Libc6Shim.CSemCalendar
import Libc6Shim.CSemString

/-!
# The time zone, for Linux programs

Linux programs read the offset of their zone from `timezone`, and whether it has
a daylight saving time from `daylight`. `tzset` (`src/libc/time.c`) works the two
out: it looks at two days of every year, going back from the present to 1970,
and stops at the first that has the flag it is after (`findOffset`).

The days are a list in descending order (`samples_pairwise`), so that the first
that is met is the latest there is (`find?_of_pairwise`).
-/

namespace Libc6Shim

open CSem Outcome

/-! ## The native library -/

/-- What is read of the local time. -/
structure LocalTm where
  tmMon : Int
  tmYear : Int
  tmIsdst : Int
  tmGmtoff : Int
deriving Repr, DecidableEq

inductive TimeCall where
  | tzset
  | time
  | localtimeR (t : Int)

/-- `tzset` leaves the two names of the zone. -/
@[reducible] def TimeAnswer : TimeCall → Type
  | .tzset => Buf × Buf
  | .time => Int
  | .localtimeR _ => Option LocalTm

abbrev TimeProg := Prog TimeCall TimeAnswer

def callTime (c : TimeCall) : TimeProg (TimeAnswer c) := .call c .ret

/-- `time_t` is a `long`. -/
def Abi.timeBits (abi : Abi) : Nat := 8 * abi.wordBytes

/-! ## The shim -/

/-- `localtime_r`, or else a panic. -/
def localtimeOrPanic (t : Int) : TimeProg LocalTm := do
  match ← callTime (.localtimeR t) with
  | some out => return out
  | none => .stop .abort

section

variable (abi : Abi) (currentYear currentMonth : Int) (isDst : Bool)

/-- The body of the inner loop: the sample, if it is what is looked for, and
the date as it is left. -/
def findOffsetMonth (year month : Int) (date : Tm) :
    TimeProg (Option LocalTm × Tm) := do
  if year = currentYear ∧ currentMonth < month then return (none, date)
  else
    let (t, date) := timegm abi.timeBits
      { date with tmMday := 21, tmMon := month, tmYear := year }
    let out ← localtimeOrPanic t
    return (if out.tmIsdst = isDst.toNat then some out else none, date)

/-- The inner loop, from `month` down to June in steps of six. -/
def findOffsetMonths (year month : Int) (date : Tm) :
    TimeProg (Option LocalTm × Tm) := do
  if 5 ≤ month then
    match ← findOffsetMonth abi currentYear currentMonth isDst year month date with
    | (some out, date) => return (some out, date)
    | (none, date) => findOffsetMonths year (month - 6) date
  else return (none, date)
termination_by month.toNat

/-- The outer loop, from `year` down to 1970. -/
def findOffsetYears (year : Int) (date : Tm) : TimeProg (Option LocalTm) := do
  if 70 ≤ year then
    match ← findOffsetMonths abi currentYear currentMonth isDst year 11 date with
    | (some out, _) => return some out
    | (none, date) => findOffsetYears (year - 1) date
  else return none
termination_by year.toNat

/-- Whether there is an offset, and the caller's object as it is left. -/
def findOffset (offset : Option Int) : TimeProg (Bool × Option Int) := do
  match ← findOffsetYears abi currentYear currentMonth isDst currentYear
      ⟨0, 0, 0, 0, 0, 0⟩ with
  | some out => return (true, offset.map fun _ => out.tmGmtoff)
  | none => return (false, offset)

end

/-- What `tzset` publishes: the names, cut to fit, and each variable under its
two names. -/
structure TimeGlobals where
  tzname0 : Buf
  tzname1 : Buf
  timezone : Int
  underTimezone : Int
  daylight : Int
  underDaylight : Int
deriving Repr, DecidableEq

/-- `sizeof(shim_tzname_0)` -/
def sizeofTzname : Nat := 6

/-- `junk` is what `timezone` holds before it is set. -/
def shimTzset (abi : Abi) (junk : Int) : TimeProg TimeGlobals := do
  let (name0, name1) ← callTime .tzset
  let t ← callTime .time
  let lt ← localtimeOrPanic t
  let (found, offset) ← findOffset abi lt.tmYear lt.tmMon false (some junk)
  let timezone := if found then -offset.getD junk else 0
  let (found, _) ← findOffset abi lt.tmYear lt.tmMon true none
  let daylight := if found then 1 else 0
  return {
    tzname0 := name0.take (sizeofTzname - 1)
    tzname1 := name1.take (sizeofTzname - 1)
    timezone, underTimezone := timezone
    daylight, underDaylight := daylight }

/-! ## Samples -/

/-- The start of the 21st of a month. -/
def sampleTime (year month : Int) : Int :=
  Tm.seconds ⟨0, 0, 0, 21, month, year⟩

/-- The sample of a month, unless it is a later month of the current year. -/
def samplesAt (currentYear currentMonth year month : Int) : List Int :=
  if year = currentYear ∧ currentMonth < month then []
  else [sampleTime year month]

/-- The samples from `year` back, the later first. -/
def samplesFrom (currentYear currentMonth year : Int) : List Int :=
  if 70 ≤ year then
    samplesAt currentYear currentMonth year 11 ++
      samplesAt currentYear currentMonth year 5 ++
      samplesFrom currentYear currentMonth (year - 1)
  else []
termination_by year.toNat

/-- `t` is the start of 21 June or 21 December of a year up to the current one,
and in that year of no later month. -/
def Sampled (currentYear currentMonth t : Int) : Prop :=
  ∃ year month, 70 ≤ year ∧ year ≤ currentYear ∧ (month = 5 ∨ month = 11) ∧
    ¬(year = currentYear ∧ currentMonth < month) ∧ t = sampleTime year month

section

variable {y m year month t : Int}

theorem sampleTime_june (year : Int) :
    sampleTime year 5 =
      86400 * (Tm.daysToYear year + 171 + Tm.leapDay year) := by
  have hdays : Tm.days ⟨0, 0, 0, 21, 5, year⟩ =
      Tm.daysToYear (year + 0) + 151 + Tm.leapDay (year + 0) + 20 := rfl
  rw [sampleTime, Tm.Midnight.seconds ⟨rfl, rfl, rfl⟩, hdays, Int.add_zero]
  omega

theorem sampleTime_december (year : Int) :
    sampleTime year 11 =
      86400 * (Tm.daysToYear year + 354 + Tm.leapDay year) := by
  have hdays : Tm.days ⟨0, 0, 0, 21, 11, year⟩ =
      Tm.daysToYear (year + 0) + 334 + Tm.leapDay (year + 0) + 20 := rfl
  rw [sampleTime, Tm.Midnight.seconds ⟨rfl, rfl, rfl⟩, hdays, Int.add_zero]
  omega

theorem june_lt_december (year : Int) :
    sampleTime year 5 < sampleTime year 11 := by
  rw [sampleTime_june, sampleTime_december]
  omega

theorem december_lt_june (year : Int) :
    sampleTime (year - 1) 11 < sampleTime year 5 := by
  have hdays := Tm.daysToYear_succ (year - 1)
  have hleap := Tm.leapDay_bounds (year - 1)
  have hleap' := Tm.leapDay_bounds year
  rw [Int.sub_add_cancel] at hdays
  rw [sampleTime_december, sampleTime_june]
  omega

theorem mem_samplesAt : t ∈ samplesAt y m year month ↔
    ¬(year = y ∧ m < month) ∧ t = sampleTime year month := by
  rw [samplesAt]
  split
  · rename_i hskip
    exact iff_of_false List.not_mem_nil fun h => h.1 hskip
  · rename_i hskip
    rw [List.mem_singleton]
    exact ⟨fun h => ⟨hskip, h⟩, fun h => h.2⟩

theorem mem_samplesFrom : t ∈ samplesFrom y m year ↔
    ∃ year' month, 70 ≤ year' ∧ year' ≤ year ∧ (month = 5 ∨ month = 11) ∧
      ¬(year' = y ∧ m < month) ∧ t = sampleTime year' month := by
  induction year using samplesFrom.induct with
  | case1 year hge ih =>
      rw [samplesFrom, if_pos hge, List.mem_append, List.mem_append,
        mem_samplesAt, mem_samplesAt, ih]
      constructor
      · rintro ((⟨hskip, ht⟩ | ⟨hskip, ht⟩) | ⟨year', month, h70, hle, h⟩)
        · exact ⟨year, 11, hge, Int.le_refl _, .inr rfl, hskip, ht⟩
        · exact ⟨year, 5, hge, Int.le_refl _, .inl rfl, hskip, ht⟩
        · exact ⟨year', month, h70, by omega, h⟩
      · rintro ⟨year', month, h70, hle, hmonth, hskip, ht⟩
        rcases Int.lt_or_eq_of_le hle with hlt | rfl
        · exact .inr ⟨year', month, h70, by omega, hmonth, hskip, ht⟩
        · rcases hmonth with rfl | rfl
          · exact .inl (.inr ⟨hskip, ht⟩)
          · exact .inl (.inl ⟨hskip, ht⟩)
  | case2 year hlt =>
      rw [samplesFrom, if_neg hlt]
      refine iff_of_false List.not_mem_nil ?_
      rintro ⟨year', month, h70, hle, -⟩
      omega

theorem sampled_iff_mem : Sampled y m t ↔ t ∈ samplesFrom y m y :=
  mem_samplesFrom.symm

/-- Nothing is later than December. -/
theorem le_december (ht : t ∈ samplesFrom y m year) : t ≤ sampleTime year 11 := by
  induction year using samplesFrom.induct with
  | case1 year hge ih =>
      rw [samplesFrom, if_pos hge, List.mem_append, List.mem_append,
        mem_samplesAt, mem_samplesAt] at ht
      rcases ht with (⟨-, rfl⟩ | ⟨-, rfl⟩) | ht
      · exact Int.le_refl _
      · exact (june_lt_december year).le
      · exact ((ih ht).trans_lt (december_lt_june year)).le.trans
          (june_lt_december year).le
  | case2 year hlt =>
      rw [samplesFrom, if_neg hlt] at ht
      cases ht

theorem samples_pairwise (y m year : Int) :
    (samplesFrom y m year).Pairwise (· > ·) := by
  induction year using samplesFrom.induct with
  | case1 year hge ih =>
      have hbefore : ∀ t ∈ samplesFrom y m (year - 1), t < sampleTime year 5 :=
        fun t ht => (le_december ht).trans_lt (december_lt_june year)
      have hmonths := june_lt_december year
      have hone : ∀ month, (samplesAt y m year month).Pairwise (· > ·) := by
        intro month
        rw [samplesAt]
        split
        · exact .nil
        · exact List.pairwise_singleton _ _
      rw [samplesFrom, if_pos hge, List.append_assoc, List.pairwise_append,
        List.pairwise_append]
      refine ⟨hone 11, ⟨hone 5, ih, fun a ha b hb => ?_⟩, fun a ha b hb => ?_⟩
      · rw [(mem_samplesAt.mp ha).2]
        exact hbefore b hb
      · rw [(mem_samplesAt.mp ha).2]
        rcases List.mem_append.mp hb with hb | hb
        · rw [(mem_samplesAt.mp hb).2]
          exact hmonths
        · exact (hbefore b hb).trans hmonths
  | case2 year hlt =>
      rw [samplesFrom, if_neg hlt]
      exact .nil

end

/-- The first in a descending list is the latest. -/
theorem find?_of_pairwise {p : Int → Bool} {l : List Int}
    (hl : l.Pairwise (· > ·)) {t : Int} :
    l.find? p = some t ↔
      t ∈ l ∧ p t = true ∧ ∀ t' ∈ l, p t' = true → t' ≤ t := by
  induction l with
  | nil => exact ⟨nofun, fun h => absurd h.1 List.not_mem_nil⟩
  | cons x xs ih =>
      obtain ⟨hx, hxs⟩ := List.pairwise_cons.mp hl
      by_cases hp : p x = true
      · rw [List.find?_cons_of_pos hp, Option.some.injEq]
        constructor
        · rintro rfl
          refine ⟨List.mem_cons_self .., hp, fun t' ht' _ => ?_⟩
          rcases List.mem_cons.mp ht' with rfl | ht'
          · exact Int.le_refl _
          · exact (hx t' ht').le
        · rintro ⟨ht, -, hlatest⟩
          rcases List.mem_cons.mp ht with rfl | ht
          · rfl
          · exact absurd (hlatest x (List.mem_cons_self ..) hp)
              (Int.not_le.mpr (hx t ht))
      · rw [List.find?_cons_of_neg hp, ih hxs]
        constructor
        · rintro ⟨ht, hpt, hlatest⟩
          refine ⟨List.mem_cons_of_mem _ ht, hpt, fun t' ht' hpt' => ?_⟩
          rcases List.mem_cons.mp ht' with rfl | ht'
          · exact absurd hpt' hp
          · exact hlatest t' ht' hpt'
        · rintro ⟨ht, hpt, hlatest⟩
          rcases List.mem_cons.mp ht with rfl | ht
          · exact absurd hpt hp
          · exact ⟨ht, hpt, fun t' ht' => hlatest t' (List.mem_cons_of_mem _ ht')⟩

/-! ## Zones -/

/-- A time zone: the local time of every instant, with a flag that is 0 or
1. -/
structure Zone where
  localtime : Int → LocalTm
  isdst : ∀ t, (localtime t).tmIsdst = 0 ∨ (localtime t).tmIsdst = 1

namespace Zone

def dst (zone : Zone) (t : Int) : Bool := (zone.localtime t).tmIsdst = 1

def gmtoff (zone : Zone) (t : Int) : Int := (zone.localtime t).tmGmtoff

theorem tmIsdst_eq_iff (zone : Zone) (t : Int) (d : Bool) :
    (zone.localtime t).tmIsdst = d.toNat ↔ zone.dst t = d := by
  rw [dst]
  rcases zone.isdst t with h | h <;> rw [h] <;> cases d <;> decide

/-- The library keeps the time of the zone. -/
def Kept (zone : Zone) (h : (c : TimeCall) → TimeAnswer c) : Prop :=
  ∀ t, h (.localtimeR t) = some (zone.localtime t)

/-- The samples with the flag `d`. -/
def IsSample (zone : Zone) (y m : Int) (d : Bool) (t : Int) : Prop :=
  Sampled y m t ∧ zone.dst t = d

def IsLatest (zone : Zone) (y m : Int) (d : Bool) (t : Int) : Prop :=
  zone.IsSample y m d t ∧ ∀ t', zone.IsSample y m d t' → t' ≤ t

end Zone

/-- An instant that `time_t` has room for. -/
def FitsTime (abi : Abi) (t : Int) : Prop :=
  -2 ^ (abi.timeBits - 1) ≤ t ∧ t < 2 ^ (abi.timeBits - 1)

/-- The months that a clock of the ABI can show. That of i386 ends in January
2038; elsewhere an `int` has the year. -/
def ClockShows (y m : Int) : Abi → Prop
  | .i386 => y < 138 ∨ y = 138 ∧ m < 5
  | .amd64 => y < 2 ^ 31

instance (y m : Int) : DecidablePred (ClockShows y m)
  | .i386 => inferInstanceAs (Decidable (_ ∨ _))
  | .amd64 => inferInstanceAs (Decidable (_ < _))

section

variable {abi : Abi} {h : (c : TimeCall) → TimeAnswer c} {zone : Zone}
  {y m year month t : Int} {d : Bool} {date : Tm}

theorem fitsTime_of_mem (hshows : ClockShows y m abi)
    (ht : t ∈ samplesFrom y m y) : FitsTime abi t := by
  obtain ⟨year, month, h70, hle, hmonth, hskip, rfl⟩ := mem_samplesFrom.mp ht
  have hleap := Tm.leapDay_bounds year
  have hpos : 0 ≤ sampleTime year month := by
    rcases hmonth with rfl | rfl
    · rw [sampleTime_june, Tm.daysToYear]
      omega
    · rw [sampleTime_december, Tm.daysToYear]
      omega
  have hlast : sampleTime year month ≤
      86400 * (Tm.daysToYear year + 354 + Tm.leapDay year) := by
    rcases hmonth with rfl | rfl
    · rw [sampleTime_june]
      omega
    · rw [sampleTime_december]
  rw [Tm.daysToYear] at hlast
  cases abi with
  | i386 =>
      have hyear : year ≤ 137 := by
        simp only [ClockShows] at hshows
        omega
      have hbits : (2 : Int) ^ (Abi.i386.timeBits - 1) = 2147483648 := rfl
      rw [FitsTime, hbits]
      omega
  | amd64 =>
      have hyear : year < 2 ^ 31 := Int.lt_of_le_of_lt hle hshows
      have hbits : (2 : Int) ^ (Abi.amd64.timeBits - 1) = 9223372036854775808 :=
        rfl
      rw [FitsTime, hbits]
      omega

/-! ## The loops -/

theorem run_localtimeOrPanic (hzone : zone.Kept h) (t : Int) :
    (localtimeOrPanic t).run h = .ok (zone.localtime t) := by
  show Prog.run h (match h (.localtimeR t) with
    | some out => (pure out : TimeProg LocalTm)
    | none => .stop .abort) = _
  rw [hzone t]
  rfl

/-- What the loops look for in a list of samples. -/
def Zone.first (zone : Zone) (d : Bool) (samples : List Int) : Option LocalTm :=
  (samples.find? fun t => zone.dst t = d).map zone.localtime

theorem Zone.first_append (zone : Zone) (d : Bool) (l l' : List Int) :
    zone.first d (l ++ l') = (zone.first d l).or (zone.first d l') := by
  rw [first, List.find?_append, Option.map_or]
  rfl

theorem Zone.first_singleton (zone : Zone) (d : Bool) (t : Int) :
    zone.first d [t] = if zone.dst t = d then some (zone.localtime t) else none := by
  rw [first, List.find?_singleton]
  by_cases hdst : zone.dst t = d
  · rw [if_pos (decide_eq_true hdst), if_pos hdst]
    rfl
  · rw [if_neg (by rw [decide_eq_false hdst]; decide), if_neg hdst]
    rfl

theorem run_findOffsetMonth (hzone : zone.Kept h) (hdate : date.Midnight)
    (hfits : ∀ t ∈ samplesAt y m year month, FitsTime abi t) :
    ∃ date' : Tm, date'.Midnight ∧
      (findOffsetMonth abi y m d year month date).run h =
        .ok (zone.first d (samplesAt y m year month), date') := by
  by_cases hskip : year = y ∧ m < month
  · refine ⟨date, hdate, ?_⟩
    rw [findOffsetMonth, if_pos hskip, samplesAt, if_pos hskip]
    rfl
  · have hseconds : Tm.seconds
        { date with tmMday := 21, tmMon := month, tmYear := year } =
          sampleTime year month := by
      obtain ⟨hsec, hmin, hhour⟩ := hdate
      rw [sampleTime, hsec, hmin, hhour]
    obtain ⟨date', htimegm, hdate'⟩ := @timegm_midnight abi.timeBits
      { date with tmMday := 21, tmMon := month, tmYear := year } hdate (by
        rw [hseconds]
        exact hfits _ (mem_samplesAt.mpr ⟨hskip, rfl⟩))
    refine ⟨date', hdate', ?_⟩
    rw [findOffsetMonth, if_neg hskip, htimegm, samplesAt, if_neg hskip]
    dsimp only
    rw [hseconds, Prog.run_bind, run_localtimeOrPanic hzone, ok_bind,
      zone.first_singleton, ← if_congr (zone.tmIsdst_eq_iff _ d) rfl rfl]
    rfl

/-- A year's samples. -/
theorem run_findOffsetMonths (hzone : zone.Kept h) (hdate : date.Midnight)
    (hfits : ∀ t ∈ samplesAt y m year 11 ++ samplesAt y m year 5, FitsTime abi t) :
    ∃ date' : Tm, date'.Midnight ∧
      (findOffsetMonths abi y m d year 11 date).run h =
        .ok (zone.first d (samplesAt y m year 11 ++ samplesAt y m year 5),
          date') := by
  rw [List.forall_mem_append] at hfits
  obtain ⟨date₁, hdate₁, hrun₁⟩ :=
    @run_findOffsetMonth abi h zone y m year 11 d date hzone hdate hfits.1
  obtain ⟨date₂, hdate₂, hrun₂⟩ :=
    @run_findOffsetMonth abi h zone y m year 5 d date₁ hzone hdate₁ hfits.2
  rw [zone.first_append, findOffsetMonths, if_pos (by decide), Prog.run_bind,
    hrun₁, ok_bind]
  cases zone.first d (samplesAt y m year 11) with
  | some out => exact ⟨date₁, hdate₁, rfl⟩
  | none =>
      refine ⟨date₂, hdate₂, ?_⟩
      show (findOffsetMonths abi y m d year (11 - 6) date₁).run h = _
      rw [show (11 - 6 : Int) = 5 by decide, findOffsetMonths,
        if_pos (by decide), Prog.run_bind, hrun₂, ok_bind]
      cases zone.first d (samplesAt y m year 5) with
      | some out => rfl
      | none =>
          show (findOffsetMonths abi y m d year (5 - 6) date₂).run h = _
          rw [findOffsetMonths, if_neg (by decide)]
          rfl

/-- All samples from a year back. -/
theorem run_findOffsetYears (hzone : zone.Kept h) (hdate : date.Midnight)
    (hfits : ∀ t ∈ samplesFrom y m year, FitsTime abi t) :
    (findOffsetYears abi y m d year date).run h =
      .ok (zone.first d (samplesFrom y m year)) := by
  induction year using samplesFrom.induct generalizing date with
  | case1 year hge ih =>
      rw [samplesFrom, if_pos hge] at hfits ⊢
      rw [List.forall_mem_append] at hfits
      obtain ⟨date', hdate', hrun⟩ :=
        @run_findOffsetMonths abi h zone y m year d date hzone hdate hfits.1
      rw [zone.first_append, findOffsetYears, if_pos hge, Prog.run_bind, hrun,
        ok_bind]
      cases zone.first d (samplesAt y m year 11 ++ samplesAt y m year 5) with
      | some out => rfl
      | none => exact ih hdate' hfits.2
  | case2 year hlt =>
      rw [samplesFrom, if_neg hlt, findOffsetYears, if_neg hlt]
      rfl

theorem run_findOffset (hzone : zone.Kept h) (hshows : ClockShows y m abi)
    (d : Bool) (offset : Option Int) :
    (findOffset abi y m d offset).run h =
      .ok (match zone.first d (samplesFrom y m y) with
        | some out => (true, offset.map fun _ => out.tmGmtoff)
        | none => (false, offset)) := by
  rw [findOffset, Prog.run_bind, run_findOffsetYears hzone ⟨rfl, rfl, rfl⟩
    fun t ht => fitsTime_of_mem hshows ht, ok_bind]
  cases zone.first d (samplesFrom y m y) <;> rfl

/-! ## The latest sample -/

/-- What is found is the latest sample there is. -/
theorem Zone.first_eq_some {out : LocalTm}
    (hfirst : zone.first d (samplesFrom y m y) = some out) :
    ∃ t, zone.IsLatest y m d t ∧ out = zone.localtime t := by
  obtain ⟨t, hfind, rfl⟩ := Option.map_eq_some_iff.mp hfirst
  obtain ⟨ht, hdst, hlatest⟩ :=
    (find?_of_pairwise (samples_pairwise y m y)).mp hfind
  refine ⟨t, ⟨⟨sampled_iff_mem.mpr ht, of_decide_eq_true hdst⟩, ?_⟩, rfl⟩
  rintro t' ⟨ht', hdst'⟩
  exact hlatest t' (sampled_iff_mem.mp ht') (decide_eq_true hdst')

theorem Zone.first_eq_none (hfirst : zone.first d (samplesFrom y m y) = none) :
    ¬∃ t, zone.IsSample y m d t := by
  rintro ⟨t, ht, hdst⟩
  have hnone := List.find?_eq_none.mp (Option.map_eq_none_iff.mp hfirst) t
    (sampled_iff_mem.mp ht)
  exact hnone (decide_eq_true hdst)

/-- There is but one latest sample. -/
theorem Zone.IsLatest.eq {t' : Int} (ht : zone.IsLatest y m d t)
    (ht' : zone.IsLatest y m d t') : t = t' :=
  Int.le_antisymm (ht'.2 t ht.1) (ht.2 t' ht'.1)

/-- What `find_offset` owes: whether there is a sample, and the offset of the
latest. -/
def Zone.Finds (zone : Zone) (y m : Int) (d : Bool) (old : Option Int) :
    Bool × Option Int → Prop
  | (found, offset) => (found = true ↔ ∃ t, zone.IsSample y m d t) ∧
      (found = true → ∃ t, zone.IsLatest y m d t ∧
        offset = old.map fun _ => zone.gmtoff t)

theorem finds_findOffset (hzone : zone.Kept h) (hshows : ClockShows y m abi)
    (d : Bool) (old : Option Int) :
    ∃ r, (findOffset abi y m d old).run h = .ok r ∧ zone.Finds y m d old r := by
  rw [run_findOffset hzone hshows]
  cases hfirst : zone.first d (samplesFrom y m y) with
  | some out =>
      obtain ⟨t, hlatest, rfl⟩ := Zone.first_eq_some hfirst
      exact ⟨_, rfl, iff_of_true rfl ⟨t, hlatest.1⟩, fun _ => ⟨t, hlatest, rfl⟩⟩
  | none =>
      exact ⟨_, rfl, iff_of_false nofun (Zone.first_eq_none hfirst), nofun⟩

/-- What `tzset` owes, in the month `m` of the year `y`. -/
structure Zone.Published (zone : Zone) (y m : Int) (g : TimeGlobals) : Prop where
  timezone : ∀ t, zone.IsLatest y m false t → g.timezone = -zone.gmtoff t
  timezone_none : (¬∃ t, zone.IsSample y m false t) → g.timezone = 0
  underTimezone : g.underTimezone = g.timezone
  daylight : g.daylight = 1 ↔ ∃ t, zone.IsSample y m true t
  daylight_none : (¬∃ t, zone.IsSample y m true t) → g.daylight = 0
  underDaylight : g.underDaylight = g.daylight

/-- What is published comes from two searches. -/
theorem run_shimTzset (hzone : zone.Kept h)
    (hyear : (zone.localtime (h .time)).tmYear = y)
    (hmon : (zone.localtime (h .time)).tmMon = m) {junk : Int}
    {standard : Bool × Option Int} {daylight : Bool × Option Int}
    (hstandard : (findOffset abi y m false (some junk)).run h = .ok standard)
    (hdaylight : (findOffset abi y m true none).run h = .ok daylight) :
    ∃ g, (shimTzset abi junk).run h = .ok g ∧
      g.timezone = (if standard.1 then -standard.2.getD junk else 0) ∧
      g.underTimezone = g.timezone ∧
      g.daylight = (if daylight.1 then 1 else 0) ∧
      g.underDaylight = g.daylight := by
  subst hyear hmon
  have htzset : (callTime .tzset).run h = .ok (h .tzset) := rfl
  have htime : (callTime .time).run h = .ok (h .time) := rfl
  rw [shimTzset, Prog.run_bind, htzset, ok_bind, Prog.run_bind, htime, ok_bind,
    Prog.run_bind, run_localtimeOrPanic hzone, ok_bind, Prog.run_bind, hstandard,
    ok_bind]
  dsimp only
  rw [Prog.run_bind, hdaylight, ok_bind]
  exact ⟨_, rfl, rfl, rfl, rfl, rfl⟩

theorem published_shimTzset (hzone : zone.Kept h)
    (hyear : (zone.localtime (h .time)).tmYear = y)
    (hmon : (zone.localtime (h .time)).tmMon = m)
    (hshows : ClockShows y m abi) (junk : Int) :
    ∃ g, (shimTzset abi junk).run h = .ok g ∧ zone.Published y m g := by
  obtain ⟨⟨found, offset⟩, hstandard, hiff, hlatest⟩ :=
    finds_findOffset hzone hshows false (some junk)
  obtain ⟨⟨found', offset'⟩, hdaylight, hiff', -⟩ :=
    finds_findOffset hzone hshows true none
  obtain ⟨g, hrun, htimezone, hunder, hday, hunder'⟩ :=
    run_shimTzset hzone hyear hmon hstandard hdaylight
  refine ⟨g, hrun, ?_, fun hnone => ?_, hunder, ?_, fun hnone => ?_, hunder'⟩
  · intro t ht
    have hfound := hiff.mpr ⟨t, ht.1⟩
    obtain ⟨t', ht', rfl⟩ := hlatest hfound
    rw [htimezone, if_pos hfound, ht.eq ht']
    rfl
  · rw [htimezone, if_neg (mt hiff.mp hnone)]
  · rw [hday, ← hiff']
    cases found' with
    | false => exact iff_of_false nofun nofun
    | true => exact iff_of_true rfl rfl
  · rw [hday, if_neg (mt hiff'.mp hnone)]

end

/-- `find_offset` finds the latest offset there is, and `tzset` publishes it. -/
theorem tzset_publishes_latest {abi : Abi} {h : (c : TimeCall) → TimeAnswer c}
    {zone : Zone} (hzone : zone.Kept h) (y m : Int)
    (hshows : ClockShows y m abi) :
    (∀ d old, ∃ r, (findOffset abi y m d old).run h = .ok r ∧
      zone.Finds y m d old r) ∧
    ((zone.localtime (h .time)).tmYear = y →
      (zone.localtime (h .time)).tmMon = m →
      ∀ junk, ∃ g, (shimTzset abi junk).run h = .ok g ∧ zone.Published y m g) :=
  ⟨finds_findOffset hzone hshows,
    fun hyear hmon => published_shimTzset hzone hyear hmon hshows⟩

/-- A zone that was given up: an hour ahead, and daylight saving time until
1980. -/
def permanentWinter : Zone where
  localtime t := ⟨9, 124, if t < 315532800 then 1 else 0, 3600⟩
  isdst t := by
    dsimp only
    split
    · exact .inr rfl
    · exact .inl rfl

def inPermanentWinter : (c : TimeCall) → TimeAnswer c
  | .tzset => (lit "CET", lit "CEST")
  | .time => 1729000000
  | .localtimeR t => some (permanentWinter.localtime t)

theorem permanentWinter_published :
    ∃ g, (shimTzset .i386 7).run inPermanentWinter = .ok g ∧
      permanentWinter.Published 124 9 g :=
  (tzset_publishes_latest (fun _ => rfl) 124 9 (by decide)).2 rfl rfl 7

end Libc6Shim
