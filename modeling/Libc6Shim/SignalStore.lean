import Libc6Shim.Signals

/-!
# Signal actions as a store

Seen from Linux code, `sigaction` on the signals that are its own is a store:
it installs the action it is given (`ActionFor`), hands back what was last
installed for a signal (`installed`), and fails, changing nothing, exactly if
the native side refuses the action or nothing was asked for. The native
library is a store already, keyed by native number; what has to be carried
across is that a supported number stands for itself, that the two flag
translations undo each other (`sigactionFlags_roundTrip`), and that of the
mask as much comes back as was copied down.
-/

namespace Libc6Shim

open CSem Outcome

/-! ## Actions there and back -/

/-- The bits of `sigactionFlagPairs`. -/
def sigactionFlagBits : List (Nat × Nat) :=
  [(0, 3), (1, 5), (2, 6), (27, 0), (28, 1), (30, 4), (31, 2)]

theorem sigactionFlagPairs_eq :
    sigactionFlagPairs = bitTable 32 sigactionFlagBits := by decide

/-- Known flags come back as they were. -/
theorem sigactionFlags_roundTrip {linuxFlags flags : Word}
    (h : linuxToFreebsdSigactionFlags linuxFlags = .ok flags) :
    freebsdToLinuxSigactionFlags flags = .ok linuxFlags := by
  obtain ⟨_, hknown, hflags⟩ := bind_eq_ok.mp h
  obtain rfl := Except.ok.inj hflags
  rw [require_eq_ok, and_not_eq_zero_iff] at hknown
  have hlt : ∀ p ∈ sigactionFlagBits, p.1 < 32 ∧ p.2 < 32 := by decide
  have hnative : setFlags 0 sigactionFlagPairs linuxFlags &&&
      ~~~knownNativeSigactionFlags = 0 := by
    rw [and_not_eq_zero_iff]
    intro j hj hset
    rw [sigactionFlagPairs_eq] at hset
    obtain ⟨p, hp, -, rfl⟩ := (getLsbD_setFlags_bits
      (fun p hp => (hlt p hp).1) linuxFlags hj).mp hset
    have hbits : ∀ p ∈ sigactionFlagBits,
        knownNativeSigactionFlags.getLsbD p.2 = true := by decide
    exact hbits p hp
  rw [freebsdToLinuxSigactionFlags, require_of hnative, ok_bind,
    sigactionFlagPairs_eq, setFlags_swap hlt (by decide)]
  · rfl
  · intro i hi hset
    have hbits : ∀ i < 32, knownLinuxSigactionFlags.getLsbD i = true →
        i ∈ sigactionFlagBits.map Prod.fst := by decide
    exact hbits i hi (hknown i hi hset)

/-- The action as Linux code tells it: the handler, the flags, and which of
the native signals are in the mask. -/
def SameAction (a b : LinuxSigaction) : Prop :=
  a.linuxSaHandler = b.linuxSaHandler ∧ a.saFlags = b.saFlags ∧
    ∀ signo, 1 ≤ signo → signo ≤ 128 → a.saMask.has signo = b.saMask.has signo

/-- The flags that both systems have for an action: Linux's, and FreeBSD's of
the same name. -/
def sigactionFlagCounterparts : List (Word × Word) :=
  [(linuxSaNocldstop, saNocldstop), (linuxSaNocldwait, saNocldwait),
    (linuxSaSiginfo, saSiginfo), (linuxSaOnstack, saOnstack),
    (linuxSaRestart, saRestart), (linuxSaNodefer, saNodefer),
    (linuxSaResethand, saResethand)]

/-- The native action that a Linux one asks for: its handler, its mask, and
its flags under their native names. -/
structure ActionFor (native : NativeSigaction) (a : LinuxSigaction) : Prop where
  handler : native.saHandler = a.linuxSaHandler
  mask : ∀ signo, 1 ≤ signo → signo ≤ 128 →
    native.saMask.getLsbD (signo - 1) = a.saMask.has signo
  flags : native.saFlags = unionOf sigactionFlagCounterparts a.saFlags

theorem ActionFor.unique {m n : NativeSigaction} {a : LinuxSigaction}
    (hm : ActionFor m a) (hn : ActionFor n a) : m = n := by
  have hmask : m.saMask = n.saMask := by
    refine BitVec.eq_of_getLsbD_eq fun i hi => ?_
    exact (hm.mask (i + 1) (by omega) (by omega)).trans
      (hn.mask (i + 1) (by omega) (by omega)).symm
  cases m
  cases n
  cases hmask
  cases hm.handler.trans hn.handler.symm
  cases hm.flags.trans hn.flags.symm
  rfl

/-- What the shim makes of an action is what it asks for. -/
theorem linuxToNativeSigaction_actionFor {a : LinuxSigaction}
    {native : NativeSigaction} (h : linuxToNativeSigaction a = .ok native) :
    ActionFor native a := by
  have htable : sigactionFlagPairs = sigactionFlagCounterparts := by decide
  obtain ⟨flags, hflags, hret⟩ := bind_eq_ok.mp h
  obtain ⟨_, -, hflags⟩ := bind_eq_ok.mp hflags
  obtain rfl := Except.ok.inj hflags
  obtain rfl := Except.ok.inj hret
  refine ⟨rfl, fun signo h1 h128 => ?_, ?_⟩
  · rw [LinuxSigset.has, BitVec.getLsbD_setWidth,
      decide_eq_true (show signo - 1 < 128 by omega), Bool.true_and]
  · rw [← htable]
    exact (setFlags_eq_union 0 _ _).trans BitVec.zero_or

/-- Overwriting a set with what was copied down of another gives its
members. -/
theorem has_overwrite (set src : LinuxSigset) {signo : Nat} (h1 : 1 ≤ signo)
    (h128 : signo ≤ 128) :
    (set.overwrite (src.setWidth 128)).has signo = src.has signo := by
  have hlt : signo - 1 < 128 := by omega
  rw [LinuxSigset.has, LinuxSigset.has, LinuxSigset.overwrite,
    BitVec.getLsbD_append, if_pos hlt, BitVec.getLsbD_setWidth,
    decide_eq_true hlt, Bool.true_and]

/-- A translated action is translated back into the same one. -/
theorem nativeToLinuxSigaction_of {a : LinuxSigaction} {native : NativeSigaction}
    (h : linuxToNativeSigaction a = .ok native) (dst : LinuxSigaction) :
    ∃ o, nativeToLinuxSigaction dst native = .ok o ∧ SameAction o a := by
  obtain ⟨flags, hflags, hret⟩ := bind_eq_ok.mp h
  obtain rfl := Except.ok.inj hret
  rw [nativeToLinuxSigaction, sigactionFlags_roundTrip hflags]
  exact ⟨_, rfl, rfl, rfl, fun signo h1 h128 => has_overwrite _ _ h1 h128⟩

/-! ## Calls and what comes back -/

structure SigactionCall where
  linuxSig : Int
  linuxAct : Option LinuxSigaction
  linuxOact : Option LinuxSigaction

/-- A call on a signal of the caller's own, with flags the shim knows. -/
structure SigactionCall.Legal (c : SigactionCall) : Prop where
  own : ¬Intercepted c.linuxSig
  supported : Supported c.linuxSig
  flags : ∀ a, c.linuxAct = some a →
    a.saFlags &&& ~~~knownLinuxSigactionFlags = 0

/-- What comes back from a call: its result, and `*oact`. -/
abbrev SigactionResult := Option Unit × Option LinuxSigaction

def SigactionCall.exec (lib : SignalLib) (d : Dispositions)
    (c : SigactionCall) (e : Errno) :
    Outcome (SigactionResult × Errno) × Dispositions :=
  Routine.exec lib.answer (shimSigaction c.linuxSig c.linuxAct c.linuxOact) e d

/-- The call `c` returns `r` and leaves the dispositions `d'`. -/
def SigactionCall.Returns (lib : SignalLib) (d : Dispositions)
    (c : SigactionCall) (r : SigactionResult) (d' : Dispositions) : Prop :=
  ∃ e e', c.exec lib d e = (.ok (r, e'), d')

/-- A legal call with its result, as one step. -/
def SigactionStep (lib : SignalLib) (d : Dispositions)
    (ev : SigactionCall × SigactionResult) (d' : Dispositions) : Prop :=
  ev.1.Legal ∧ ev.1.Returns lib d ev.2 d'

/-! ## The store -/

/-- What has been installed for each Linux signal. -/
abbrev SigStore := Int → Option LinuxSigaction

/-- The store after a call. -/
def SigStore.after (st : SigStore) (ev : SigactionCall × SigactionResult) :
    SigStore :=
  if ev.2.1 = some () ∧ ev.1.linuxAct ≠ none then
    Function.update st ev.1.linuxSig ev.1.linuxAct
  else st

/-- What the calls of a run installed last. -/
def installed (past : List (SigactionCall × SigactionResult)) : SigStore :=
  past.foldl SigStore.after fun _ => none

/-- The call asks for nothing, or the native side refuses the action it asks
for. -/
def SigactionCall.Refused (lib : SignalLib) (d : Dispositions)
    (c : SigactionCall) : Prop :=
  c.linuxAct = none ∧ c.linuxOact = none ∨
    ∃ act e, Option.Rel ActionFor act c.linuxAct ∧
      lib.refuses d (.sigaction c.linuxSig act c.linuxOact.isSome) = some e

/-- The call behaves as one on a store: when it fails, what is in place
after it, the old action, the actions of other signals, and what a failing
call does. A supported signal has one number on both sides. -/
structure StoreLike (lib : SignalLib) (st : SigStore) (d : Dispositions)
    (c : SigactionCall) (r : SigactionResult) (d' : Dispositions) : Prop where
  refused : r.1 = none ↔ c.Refused lib d
  installs : r.1 = some () → ∀ a, c.linuxAct = some a →
    ActionFor (d' c.linuxSig) a
  query : c.linuxAct = none → d' = d
  old : r.1 = some () → c.linuxOact ≠ none → ∀ a, st c.linuxSig = some a →
    ∃ o, r.2 = some o ∧ SameAction o a
  others : ∀ m ≠ c.linuxSig, d' m = d m
  failed : r.1 = none → d' = d ∧ r.2 = c.linuxOact

/-- The native dispositions have what is installed. -/
def Installs (st : SigStore) (d : Dispositions) : Prop :=
  ∀ n a, st n = some a → linuxToNativeSigaction a = .ok (d n)

section Steps

variable {lib : SignalLib} {d d' : Dispositions} {c : SigactionCall}
  {r : SigactionResult} {st : SigStore}

theorem SigactionCall.Legal.converts (hc : c.Legal) :
    ∃ act, c.linuxAct.mapM linuxToNativeSigaction = .ok act := by
  cases hact : c.linuxAct with
  | none => exact ⟨none, rfl⟩
  | some a =>
      refine ⟨some ⟨a.linuxSaHandler, a.saMask.setWidth 128,
        setFlags 0 sigactionFlagPairs a.saFlags⟩, ?_⟩
      rw [Option.mapM_some, linuxToNativeSigaction,
        linuxToFreebsdSigactionFlags, require_of (hc.flags a hact)]
      rfl

/-- The native side gets the action the call asks for. -/
theorem SigactionCall.refused_iff {act : Option NativeSigaction}
    (hact : c.linuxAct.mapM linuxToNativeSigaction = .ok act) :
    c.Refused lib d ↔ c.linuxAct = none ∧ c.linuxOact = none ∨
      ∃ e, lib.refuses d (.sigaction c.linuxSig act c.linuxOact.isSome) =
        some e := by
  have hrel : ∀ act', Option.Rel ActionFor act' c.linuxAct ↔ act' = act := by
    intro act'
    cases hc' : c.linuxAct with
    | none =>
        rw [hc'] at hact
        obtain rfl := Except.ok.inj hact
        cases act' with
        | none => exact iff_of_true .none rfl
        | some native => exact iff_of_false nofun nofun
    | some a =>
        rw [hc', Option.mapM_some] at hact
        obtain ⟨native, hnative, hret⟩ := bind_eq_ok.mp hact
        obtain rfl := Except.ok.inj hret
        have hfor := linuxToNativeSigaction_actionFor hnative
        constructor
        · intro h
          cases h with
          | some h => exact congrArg some (h.unique hfor)
        · rintro rfl
          exact .some hfor
  refine or_congr_right ⟨?_, ?_⟩
  · rintro ⟨act', e, hact', he⟩
    obtain rfl := (hrel act').mp hact'
    exact ⟨e, he⟩
  · rintro ⟨e, he⟩
    exact ⟨act, e, (hrel act).mpr rfl, he⟩

/-- What a legal call can come to: it is refused, or it takes the native
action for the old one and puts the new one in its place. -/
theorem SigactionCall.Returns.cases (hc : c.Legal) (h : c.Returns lib d r d') :
    c.Refused lib d ∧ r = (none, c.linuxOact) ∧ d' = d ∨
      ¬c.Refused lib d ∧ r.1 = some () ∧
        c.linuxOact.mapM (nativeToLinuxSigaction · (d c.linuxSig)) = .ok r.2 ∧
        (c.linuxAct = none ∧ d' = d ∨
          ∃ a native, c.linuxAct = some a ∧
            linuxToNativeSigaction a = .ok native ∧
            d' = Function.update d c.linuxSig native) := by
  obtain ⟨e, e', h⟩ := h
  obtain ⟨act, hact⟩ := hc.converts
  have hrefused := @SigactionCall.refused_iff lib d c act hact
  rw [SigactionCall.exec, exec_shimSigaction hc.own hc.supported hact] at h
  split at h
  · rename_i hnone
    obtain ⟨hr, rfl⟩ := Prod.mk.inj h
    obtain ⟨rfl, -⟩ := Prod.mk.inj (Except.ok.inj hr)
    rw [hnone.2]
    exact .inl ⟨hrefused.mpr (.inl hnone), rfl, rfl⟩
  · rename_i hasked
    cases hrefuses : lib.refuses d (.sigaction c.linuxSig act
      c.linuxOact.isSome) with
    | some e'' =>
        rw [hrefuses] at h
        obtain ⟨hr, rfl⟩ := Prod.mk.inj h
        exact .inl ⟨hrefused.mpr (.inr ⟨e'', hrefuses⟩),
          (Prod.mk.inj (Except.ok.inj hr)).1.symm, rfl⟩
    | none =>
        rw [hrefuses] at h
        obtain ⟨hr, hd'⟩ := Prod.mk.inj h
        obtain ⟨o, ho, hr⟩ := bind_eq_ok.mp hr
        obtain ⟨rfl, -⟩ := Prod.mk.inj (Except.ok.inj hr)
        refine .inr ⟨fun hno => ?_, rfl, ho, ?_⟩
        · rcases hrefused.mp hno with hnone | ⟨e'', he⟩
          · exact hasked hnone
          · exact nomatch hrefuses.symm.trans he
        cases hc' : c.linuxAct with
        | none =>
            rw [hc'] at hact
            obtain rfl := Except.ok.inj hact
            exact .inl ⟨rfl, hd'.symm⟩
        | some a =>
            rw [hc', Option.mapM_some] at hact
            obtain ⟨native, hnative, hret⟩ := bind_eq_ok.mp hact
            obtain rfl := Except.ok.inj hret
            exact .inr ⟨a, native, rfl, hnative, hd'.symm⟩

/-- One call on a store that the dispositions have. -/
theorem Installs.storeLike (hst : Installs st d) (hc : c.Legal)
    (h : c.Returns lib d r d') : StoreLike lib st d c r d' := by
  rcases h.cases hc with ⟨hno, rfl, rfl⟩ | ⟨hyes, hret, hold, hnew⟩
  · exact
      { refused := iff_of_true rfl hno
        installs := nofun
        query := fun _ => rfl
        old := nofun
        others := fun _ _ => rfl
        failed := fun _ => ⟨rfl, rfl⟩ }
  refine
    { refused := iff_of_false (by rw [hret]; exact nofun) hyes
      installs := fun _ a ha => ?_
      query := fun hnone => ?_
      old := fun _ hask a ha => ?_
      others := fun m hne => ?_
      failed := fun hfail => ?_ }
  · rcases hnew with ⟨hnone, -⟩ | ⟨b, native, hb, hnative, rfl⟩
    · exact nomatch hnone.symm.trans ha
    · obtain rfl := Option.some.inj (hb.symm.trans ha)
      rw [Function.update_self]
      exact linuxToNativeSigaction_actionFor hnative
  · rcases hnew with ⟨-, hd'⟩ | ⟨b, native, hb, -, -⟩
    · exact hd'
    · exact nomatch hnone.symm.trans hb
  · obtain ⟨oact, hoact⟩ := Option.ne_none_iff_exists'.mp hask
    obtain ⟨o, ho, hsame⟩ := nativeToLinuxSigaction_of (hst _ a ha) oact
    rw [hoact, Option.mapM_some, ho] at hold
    exact ⟨o, (Except.ok.inj hold).symm, hsame⟩
  · rcases hnew with ⟨-, rfl⟩ | ⟨a, native, -, -, rfl⟩
    · rfl
    · exact Function.update_of_ne hne _ _
  · rw [hret] at hfail
    cases hfail

/-- A call leaves the dispositions with what is then installed. -/
theorem Installs.after (hst : Installs st d) (hc : c.Legal)
    (h : c.Returns lib d r d') : Installs (st.after (c, r)) d' := by
  intro n a hn
  rw [SigStore.after] at hn
  rcases h.cases hc with ⟨-, rfl, rfl⟩ | ⟨-, hret, -, ⟨hnone, rfl⟩ | ⟨b, native,
    hb, hnative, rfl⟩⟩
  · rw [if_neg (by simp)] at hn
    exact hst n a hn
  · rw [if_neg (by simp [hnone])] at hn
    exact hst n a hn
  · rw [if_pos ⟨hret, by simp [hb]⟩, hb] at hn
    by_cases hsig : n = c.linuxSig
    · subst hsig
      rw [Function.update_self] at hn ⊢
      obtain rfl := Option.some.inj hn
      exact hnative
    · rw [Function.update_of_ne hsig] at hn ⊢
      exact hst n a hn

/-- A legal call for a signal whose action is known to be the caller's, or
one that does not ask for it, returns. -/
theorem Installs.returns (hst : Installs st d) (hc : c.Legal)
    (hknown : c.linuxOact = none ∨ st c.linuxSig ≠ none) (e : Errno) :
    ∃ r e' d', c.exec lib d e = (.ok (r, e'), d') := by
  obtain ⟨act, hact⟩ := hc.converts
  have hold : ∃ o, c.linuxOact.mapM
      (nativeToLinuxSigaction · (d c.linuxSig)) = .ok o := by
    cases hoact : c.linuxOact with
    | none => exact ⟨none, rfl⟩
    | some oact =>
        rw [hoact] at hknown
        obtain ⟨a, ha⟩ := Option.ne_none_iff_exists'.mp
          (hknown.resolve_left nofun)
        obtain ⟨o, ho, -⟩ := nativeToLinuxSigaction_of (hst _ a ha) oact
        rw [Option.mapM_some, ho]
        exact ⟨some o, rfl⟩
  obtain ⟨o, ho⟩ := hold
  rw [SigactionCall.exec, exec_shimSigaction hc.own hc.supported hact, ho]
  split
  · exact ⟨_, _, _, rfl⟩
  · cases lib.refuses d (.sigaction c.linuxSig act c.linuxOact.isSome) with
    | some e' => exact ⟨_, _, _, rfl⟩
    | none => exact ⟨_, _, _, rfl⟩

end Steps

theorem installs_of_runs {lib : SignalLib} {d₀ d : Dispositions}
    {past : List (SigactionCall × SigactionResult)}
    (hrun : Runs (· = d₀) (SigactionStep lib) past d) :
    Installs (installed past) d := by
  refine hrun.invariant (I := fun past d => Installs (installed past) d) ?_ ?_
  · intro d _ n a hn
    cases hn
  · intro past d ev d' _ hst hstep
    rw [installed, List.foldl_append]
    exact hst.after hstep.1 hstep.2

/-- Over any run from any native dispositions, the next call behaves as one
on the store of what the run installed: unless the native side refuses, it
succeeds and leaves the action it was given in place. And it returns, unless
it asks for an action from before the run. -/
theorem sigaction_store {lib : SignalLib} {d₀ d : Dispositions}
    {past : List (SigactionCall × SigactionResult)}
    (hrun : Runs (· = d₀) (SigactionStep lib) past d) {c : SigactionCall}
    (hc : c.Legal) :
    (∀ r d', c.Returns lib d r d' → StoreLike lib (installed past) d c r d') ∧
      (c.linuxOact = none ∨ installed past c.linuxSig ≠ none → ∀ e,
        ∃ r e' d', c.exec lib d e = (.ok (r, e'), d')) :=
  ⟨fun _ _ => (installs_of_runs hrun).storeLike hc,
    (installs_of_runs hrun).returns hc⟩

/-- `SIGTERM` handled, with `SIGUSR1` of the native numbers blocked. -/
def handleTerm : SigactionCall where
  linuxSig := 15
  linuxAct := some ⟨4096, 0x20000000, linuxSaRestart⟩
  linuxOact := none

/-- The action in place for `SIGTERM`. -/
def queryTerm : SigactionCall where
  linuxSig := 15
  linuxAct := none
  linuxOact := some ⟨0, 0, 0⟩

/-- Another handler for `SIGTERM`, and the one before. -/
def replaceTerm : SigactionCall where
  linuxSig := 15
  linuxAct := some ⟨8192, 0, 0⟩
  linuxOact := some ⟨0, 0, 0⟩

/-- Handled once, `SIGTERM` is found handled, and may be handled anew. -/
theorem sigterm_store :
    ∃ d, SigactionStep obligingSignalLib defaultDispositions
        (handleTerm, some (), none) d ∧
      (∀ c ∈ [queryTerm, replaceTerm],
        (∀ r d', c.Returns obligingSignalLib d r d' →
          StoreLike obligingSignalLib (installed [(handleTerm, some (), none)]) d
            c r d') ∧
        ∀ e, ∃ r e' d', c.exec obligingSignalLib d e = (.ok (r, e'), d')) := by
  have hlegal : handleTerm.Legal :=
    ⟨by decide, by decide, fun a ha => by
      obtain rfl := Option.some.inj ha
      decide⟩
  have hstep : SigactionStep obligingSignalLib defaultDispositions
      (handleTerm, some (), none)
      (handleTerm.exec obligingSignalLib defaultDispositions 0).2 :=
    ⟨hlegal, 0, 0, rfl⟩
  have hstart : Runs (· = defaultDispositions)
      (SigactionStep obligingSignalLib) [] defaultDispositions := .nil rfl
  have hnext : ∀ c ∈ [queryTerm, replaceTerm], c.Legal ∧ c.linuxSig = 15 := by
    intro c hc
    rcases List.mem_cons.mp hc with rfl | hc
    · exact ⟨⟨by decide, by decide, fun a ha => by cases ha⟩, rfl⟩
    · obtain rfl := List.mem_singleton.mp hc
      refine ⟨⟨by decide, by decide, fun a ha => ?_⟩, rfl⟩
      obtain rfl := Option.some.inj ha
      decide
  have hknown : installed ([] ++ [(handleTerm, some (), none)]) 15 =
      handleTerm.linuxAct := rfl
  refine ⟨_, hstep, fun c hc => ?_⟩
  obtain ⟨hlegal', hsig⟩ := hnext c hc
  obtain ⟨hlike, hreturns⟩ := sigaction_store (hstart.snoc hstep) hlegal'
  exact ⟨hlike, hreturns (.inr (by rw [hsig, hknown]; exact Option.some_ne_none _))⟩

end Libc6Shim
