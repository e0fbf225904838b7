import Libc6Shim.Abi

/-!
# The texts of errors

`strerror`, `strerror_r`, `__xpg_strerror_r` and `perror`
(`src/libc/string.c`) are given the number a shim call delivered and put it
back into the native numbering before they look up its text.

The two tables of `src/util.c` are each other's inverse on the four errors
they move. What they leave in place is the trouble: a native error whose own
number is one of the four Linux ones is delivered under it, and then taken
for the error that was moved there (`errors_survive_iff`). Of FreeBSD's
errors these are EDEADLK and ENOTSOCK.
-/

namespace Libc6Shim

open CSem

/-! ## The native calls -/

inductive TextCall where
  | strerror (errnum : Errno)
  | strerrorR (errnum : Errno) (buflen : Nat)
  /-- `errno` is as `perror` finds it. -/
  | perror (string : Option Buf) (errno : Errno)
deriving DecidableEq

/-- `strerror_r` answers with its result and what it leaves in the buffer. -/
@[reducible] def TextAnswer : TextCall → Type
  | .strerror _ => Buf
  | .strerrorR .. => Errno × Buf
  | .perror .. => Unit

abbrev TextRoutine := Stateful Errno TextCall TextAnswer

def callText (c : TextCall) : TextRoutine (TextAnswer c) := Stateful.call c

/-! ## The shim -/

def shimPerror (string : Option Buf) : TextRoutine Unit := do
  modify linuxToNativeErrno
  callText (.perror string (← get))

def shimStrerror (errnum : Errno) : TextRoutine Buf :=
  callText (.strerror (linuxToNativeErrno errnum))

/-- Returns the buffer, whatever the native call says. -/
def shimStrerrorR (errnum : Errno) (buflen : Nat) : TextRoutine Buf := do
  let (_, strerrbuf) ← callText (.strerrorR (linuxToNativeErrno errnum) buflen)
  return strerrbuf

def shimXpgStrerrorR (errnum : Errno) (buflen : Nat) :
    TextRoutine (Errno × Buf) :=
  callText (.strerrorR (linuxToNativeErrno errnum) buflen)

/-! ## What survives -/

/-- The calls made when `errno` is `e`. -/
def textCalls {α : Type} (h : (c : TextCall) → TextAnswer c)
    (p : TextRoutine α) (e : Errno) : List TextCall := (p e).calls h

/-- The error comes back as it was, and the four functions, given the number
it was delivered under, ask for its own text. -/
structure ErrorSurvives (e : Errno) : Prop where
  back : linuxToNativeErrno (nativeToLinuxErrno e) = e
  strerror : ∀ h errno,
    textCalls h (shimStrerror (nativeToLinuxErrno e)) errno = [.strerror e]
  strerrorR : ∀ h errno buflen,
    textCalls h (shimStrerrorR (nativeToLinuxErrno e) buflen) errno =
      [.strerrorR e buflen]
  xpgStrerrorR : ∀ h errno buflen,
    textCalls h (shimXpgStrerrorR (nativeToLinuxErrno e) buflen) errno =
      [.strerrorR e buflen]
  perror : ∀ h string,
    textCalls h (shimPerror string) (nativeToLinuxErrno e) = [.perror string e]

/-- Two errors that are delivered under one number. -/
def Collide (e e' : Errno) : Prop :=
  e ≠ e' ∧ nativeToLinuxErrno e = nativeToLinuxErrno e'

/-- A number that Linux has for another error, one of the four moved. -/
def IsMoved (e : Errno) : Prop :=
  e = linuxEagain ∨ e = linuxEnosys ∨ e = linuxEtimedout ∨ e = linuxEinprogress

/-- A FreeBSD error number and another, of the error that is delivered under the
first: of EAGAIN, ENOSYS, ETIMEDOUT and EINPROGRESS. -/
def sharedNumbers : List (Errno × Errno) := [(11, 35), (38, 78), (110, 60), (115, 36)]

section

variable {e e' : Errno}

/-- What is moved is brought back. -/
theorem back_of_renumbered (he : Renumbered e) :
    linuxToNativeErrno (nativeToLinuxErrno e) = e := by
  rcases he with rfl | rfl | rfl | rfl <;> rfl

theorem linuxToNativeErrno_eq_self (he : ¬IsMoved e) :
    linuxToNativeErrno e = e := by
  simp only [IsMoved, not_or] at he
  obtain ⟨h1, h2, h3, h4⟩ := he
  rw [linuxToNativeErrno, if_neg h1, if_neg h2, if_neg h3, if_neg h4]

/-- The number Linux has for a moved error stands for that error alone. -/
theorem renumbered_of_isMoved (he : IsMoved e) :
    Renumbered (linuxToNativeErrno e) ∧
      nativeToLinuxErrno (linuxToNativeErrno e) = e := by
  rcases he with rfl | rfl | rfl | rfl
  · exact ⟨.inl rfl, rfl⟩
  · exact ⟨.inr (.inl rfl), rfl⟩
  · exact ⟨.inr (.inr (.inl rfl)), rfl⟩
  · exact ⟨.inr (.inr (.inr rfl)), rfl⟩

/-- No error is both moved and in the place of a moved one. -/
theorem not_isMoved_of_renumbered (he : Renumbered e) : ¬IsMoved e := by
  rcases he with rfl | rfl | rfl | rfl <;> rintro (h | h | h | h) <;>
    exact absurd h (by decide)

theorem back_iff :
    linuxToNativeErrno (nativeToLinuxErrno e) = e ↔ ¬IsMoved e := by
  by_cases hren : Renumbered e
  · exact iff_of_true (back_of_renumbered hren) (not_isMoved_of_renumbered hren)
  · rw [nativeToLinuxErrno_eq_self_iff.mpr hren]
    refine ⟨fun hback hmoved => hren ?_, linuxToNativeErrno_eq_self⟩
    rw [← hback]
    exact (renumbered_of_isMoved hmoved).1

/-- The texts asked for are those of the number that comes back. -/
theorem errorSurvives_iff_back :
    ErrorSurvives e ↔ linuxToNativeErrno (nativeToLinuxErrno e) = e := by
  refine ⟨ErrorSurvives.back, fun hback => ?_⟩
  constructor
  · exact hback
  · exact fun h errno => congrArg (fun n => [TextCall.strerror n]) hback
  · exact fun h errno buflen =>
      congrArg (fun n => [TextCall.strerrorR n buflen]) hback
  · exact fun h errno buflen =>
      congrArg (fun n => [TextCall.strerrorR n buflen]) hback
  · exact fun h string => congrArg (fun n => [TextCall.perror string n]) hback

theorem nativeToLinuxErrno_of_isMoved (he : IsMoved e) :
    nativeToLinuxErrno e = e :=
  nativeToLinuxErrno_eq_self_iff.mpr fun hren => not_isMoved_of_renumbered hren he

/-- An error in the place of a moved one is delivered under the same number
as that one. -/
theorem collide_of_isMoved (he : IsMoved e) (he' : e' = linuxToNativeErrno e) :
    Collide e e' := by
  obtain ⟨hren, hback⟩ := renumbered_of_isMoved he
  rw [← he'] at hren hback
  refine ⟨fun heq => not_isMoved_of_renumbered hren (heq ▸ he), ?_⟩
  rw [nativeToLinuxErrno_of_isMoved he, hback]

/-- Two errors are delivered under one number exactly if one has the place
the other was moved to. -/
theorem collide_iff :
    Collide e e' ↔
      IsMoved e ∧ e' = linuxToNativeErrno e ∨
        IsMoved e' ∧ e = linuxToNativeErrno e' := by
  constructor
  · rintro ⟨hne, heq⟩
    by_cases he : IsMoved e
    · by_cases he' : IsMoved e'
      · rw [nativeToLinuxErrno_of_isMoved he, nativeToLinuxErrno_of_isMoved he']
          at heq
        exact absurd heq hne
      · refine .inl ⟨he, ?_⟩
        rw [← back_iff.mpr he', ← heq, nativeToLinuxErrno_of_isMoved he]
    · by_cases he' : IsMoved e'
      · refine .inr ⟨he', ?_⟩
        rw [← back_iff.mpr he, heq, nativeToLinuxErrno_of_isMoved he']
      · refine absurd ?_ hne
        rw [← back_iff.mpr he, heq, back_iff.mpr he']
  · rintro (⟨he, heq⟩ | ⟨he', heq⟩)
    · exact collide_of_isMoved he heq
    · obtain ⟨hne, hsame⟩ := collide_of_isMoved he' heq
      exact ⟨hne.symm, hsame.symm⟩

theorem mem_sharedNumbers_iff :
    (e, e') ∈ sharedNumbers ↔ IsMoved e ∧ e' = linuxToNativeErrno e := by
  simp only [sharedNumbers, List.mem_cons, List.not_mem_nil, or_false, Prod.mk.injEq]
  constructor
  · rintro (⟨rfl, rfl⟩ | ⟨rfl, rfl⟩ | ⟨rfl, rfl⟩ | ⟨rfl, rfl⟩)
    · exact ⟨.inl rfl, rfl⟩
    · exact ⟨.inr (.inl rfl), rfl⟩
    · exact ⟨.inr (.inr (.inl rfl)), rfl⟩
    · exact ⟨.inr (.inr (.inr rfl)), rfl⟩
  · rintro ⟨rfl | rfl | rfl | rfl, rfl⟩
    · exact .inl ⟨rfl, rfl⟩
    · exact .inr (.inl ⟨rfl, rfl⟩)
    · exact .inr (.inr (.inl ⟨rfl, rfl⟩))
    · exact .inr (.inr (.inr ⟨rfl, rfl⟩))

end

/-- Exactly the errors that have no other's Linux number as their own
survive, and only such a number is ever shared. -/
theorem errors_survive_iff (e : Errno) :
    (ErrorSurvives e ↔ ¬IsMoved e) ∧
      ∀ e', Collide e e' ↔ (e, e') ∈ sharedNumbers ∨ (e', e) ∈ sharedNumbers := by
  refine ⟨errorSurvives_iff_back.trans back_iff, fun e' => ?_⟩
  rw [mem_sharedNumbers_iff, mem_sharedNumbers_iff]
  exact collide_iff

/-- A deadlock is reported as a resource that is temporarily unavailable. -/
theorem edeadlk_not_survives : ¬ErrorSurvives edeadlk ∧ Collide edeadlk eagain :=
  ⟨fun h => absurd h.back (by decide), by decide, rfl⟩

end Libc6Shim
