import Libc6Shim.WrapperRoundTrip

/-!
# Signatures of wrappers

A prototype of the grammar against the wrapper that is generated for it: its
header read again, and the call in it.
-/

namespace Libc6Shim

open Ruby Regex

/-! ## What is to be kept -/

/-- The name a declarator declares, and its form. -/
def Decl.declarator (d : Decl) : Option Text × Form := (d.name, d.form)

/-- The declarator over the types as Linux has them. -/
def Decl.shimDeclarator (d : Decl) : Option Text × Form :=
  (d.name, d.form.toShim)

/-- What has to be passed for a parameter, if it has a name. -/
def Decl.passed (d : Decl) : Option Text :=
  d.name.map fun name => if name = "...".toList then "_args_".toList else name

/-- What a wrapper calls. -/
def wrapperCallee (function : Prototype) (shimFunImpl : Option Text) : Text :=
  shimFunImpl.getD
    ((if isVariadic function then ['v'] else []) ++ function.name.getD [])

/-- The header line, read again without the brace, has the signature of the
function over the types as Linux has them. -/
def HeaderKept (function : Prototype) (line : Text) : Prop :=
  ∃ header function', line = header ++ " \x7b".toList ∧
    parsePrototype header = .ok function' ∧
    function'.name = function.name.map ("shim_".toList ++ ·) ∧
    function'.type = function.type.map toShimType ∧
    function'.args.map Decl.declarator = function.args.map Decl.shimDeclarator

/-- The call passes the parameters, in their order. -/
def CallKept (function : Prototype) (shimFunImpl : Option Text) : Prop :=
  wrapperCall function shimFunImpl = wrapperCallee function shimFunImpl ++
    "(".toList ++ join ", ".toList (function.args.filterMap Decl.passed) ++
      ");".toList

/-- The wrapper that is generated for a prototype keeps its signature. -/
def SignatureKept (prototype : Text) (shimFunImpl : Option Text) : Prop :=
  ∃ function lines, parsePrototype prototype = .ok function ∧
    generateWrapper function shimFunImpl = .ok lines ∧
    (∃ line, lines.head? = some line ∧ HeaderKept function line) ∧
    "  ".toList ++ wrapperCall function shimFunImpl ∈ lines ∧
    CallKept function shimFunImpl

/-! ## Prototypes of the grammar -/

/-- A function's signature, as a prototype has it. -/
structure Signature where
  type : Text
  gap : Text
  name : Text
  params : List Param
  function_ok : (Param.plain type gap name).Ok
  params_ok : ∀ p ∈ params, p.Ok
  void_alone : .void ∈ params → params = [.void]

namespace Signature

/-- A prototype is split into the texts of the signature; where nothing is
between two commas there is nothing to read. -/
def WrittenAs (sig : Signature) (prototype : Text) : Prop :=
  ∃ parts, splitPrototype prototype = .ok parts ∧ parts.filter (· ≠ []) =
    (Param.plain sig.type sig.gap sig.name :: sig.params).map Param.text

/-- A single parameter of type `void` with a name is taken for none. -/
def Nameless (sig : Signature) : Prop :=
  ∀ gap name, sig.params ≠ [.plain "void".toList gap name]

def Kept (sig : Signature) : Prop := (∀ p ∈ sig.params, p.Kept) ∧ sig.Nameless

end Signature

/-- What is read for parameters from index `i` on. -/
def declsFrom : Nat → List Param → List Decl
  | _, [] => []
  | i, p :: ps => p.decl i :: declsFrom (i + 1) ps

/-- What is written for them. -/
def emittedFrom : Nat → List Param → List Text
  | _, [] => []
  | i, p :: ps => p.emitted i :: emittedFrom (i + 1) ps

section Lists

variable {proto : Text} {ps : List Param} {i : Nat}

theorem parseDecls_text (h : ∀ p ∈ ps, p.Ok) :
    parseDecls proto i (ps.map Param.text) = .ok (declsFrom i ps) := by
  induction ps generalizing i with
  | nil => rfl
  | cons p ps ih =>
      rw [List.map_cons, parseDecls, parseDecl_text (h p (by simp)),
        ih fun p' hp' => h p' (by simp [hp'])]
      rfl

theorem mapM_toDecl (h : ∀ p ∈ ps, p.Ok) :
    (declsFrom i ps).mapM toDecl = .ok (emittedFrom i ps) := by
  induction ps generalizing i with
  | nil => rfl
  | cons p ps ih =>
      rw [declsFrom, List.mapM_cons, toDecl_decl (h p (by simp)),
        ih fun p' hp' => h p' (by simp [hp'])]
      rfl

/-- The parameters are read again as they were just when each is kept. -/
theorem reread_all (h : ∀ p ∈ ps, p.Ok) :
    (∃ ds, parseDecls proto i ((emittedFrom i ps).map strip) = .ok ds ∧
        ds.map Decl.declarator = (declsFrom i ps).map Decl.shimDeclarator) ↔
      ∀ p ∈ ps, p.Kept := by
  induction ps generalizing i with
  | nil => exact iff_of_true ⟨[], rfl, rfl⟩ nofun
  | cons p ps ih =>
      have hp := h p (by simp)
      have hform := form_decl (i := i) hp
      have hhead := @reread_emitted proto i p hp
      have htail := @ih (i + 1) fun p' hp' => h p' (by simp [hp'])
      rw [List.forall_mem_cons, ← hhead, ← htail, emittedFrom, List.map_cons,
        parseDecls]
      constructor
      · rintro ⟨ds, hds, hmap⟩
        cases hd : parseDecl proto (strip (p.emitted i)) i with
        | error e =>
            rw [hd] at hds
            cases hds
        | ok d =>
            cases hds' : parseDecls proto (i + 1)
                ((emittedFrom (i + 1) ps).map strip) with
            | error e =>
                rw [hd, hds'] at hds
                cases hds
            | ok ds' =>
                rw [hd, hds'] at hds
                obtain rfl := Except.ok.inj hds
                obtain ⟨hd', hmap'⟩ := List.cons.inj hmap
                obtain ⟨hname, hform'⟩ := Prod.mk.inj hd'
                rw [hform] at hform'
                exact ⟨⟨d, hd, hname, hform'⟩, ds', rfl, hmap'⟩
      · rintro ⟨⟨d, hd, hname, hform'⟩, ds', hds', hmap⟩
        refine ⟨d :: ds', ?_, ?_⟩
        · rw [hd, hds']
          rfl
        · rw [List.map_cons, declsFrom, List.map_cons, hmap, Decl.declarator,
            Decl.shimDeclarator, hname, hform', hform]

end Lists

/-! ## The header -/

section Header

variable {ps : List Param} {p : Param} {i : Nat} {sig : Signature}
  {prototype : Text} {shimFunImpl : Option Text}

theorem strip_emitted_ne_nil (h : p.Ok) : strip (p.emitted i) ≠ [] := by
  have hword : ∀ {n : Text}, WordText n →
      ∃ c ∈ n, (isSpace c || c == '\x00') = false := by
    intro n hn
    obtain ⟨c, hc⟩ := List.exists_mem_of_ne_nil n hn.ne_nil
    have hnul : c ≠ '\x00' := by
      rintro rfl
      exact hn.not_mem rfl hc
    exact ⟨c, hc, by simp [not_space_of_isWord (hn.chars c hc), hnul]⟩
  obtain ⟨c, hc, hbare⟩ :
      ∃ c ∈ p.emitted i, (isSpace c || c == '\x00') = false := by
    cases p with
    | plain t g n =>
        obtain ⟨c, hc, hbare⟩ := hword h.2.2.1
        exact ⟨c, by simp [Param.emitted, hc], hbare⟩
    | unnamed t =>
        obtain ⟨c, hc, hbare⟩ := hword (argName_word i)
        exact ⟨c, by simp [Param.emitted, hc], hbare⟩
    | array e g n sz =>
        obtain ⟨c, hc, hbare⟩ := hword h.2.2.1
        exact ⟨c, by simp [Param.emitted, hc], hbare⟩
    | funPtr r g n ws q =>
        obtain ⟨c, hc, hbare⟩ := hword h.2.2.1
        exact ⟨c, by simp [Param.emitted, hc], hbare⟩
    | loneArray e sz =>
        obtain ⟨c, hc, hbare⟩ := hword (argName_word i)
        exact ⟨c, by simp [Param.emitted, hc], hbare⟩
    | loneFunPtr r q =>
        obtain ⟨c, hc, hbare⟩ := hword (argName_word i)
        exact ⟨c, by simp [Param.emitted, hc], hbare⟩
    | void => exact ⟨'v', by simp [Param.emitted], rfl⟩
    | ellipsis => exact ⟨'.', by simp [Param.emitted], rfl⟩
  exact strip_ne_nil hc hbare

theorem forall_emittedFrom {P : Text → Prop} (h : ∀ p ∈ ps, ∀ i, P (p.emitted i)) :
    ∀ d ∈ emittedFrom i ps, P d := by
  induction ps generalizing i with
  | nil => exact nofun
  | cons p ps ih =>
      intro d hd
      rcases List.mem_cons.mp hd with rfl | hd
      · exact h p (by simp) i
      · exact ih (fun p' hp' => h p' (by simp [hp'])) d hd

namespace Signature

/-- What is read from the prototype. -/
def function (sig : Signature) (prototype : Text) : Prototype :=
  ⟨prototype, some sig.name, some sig.type, declsFrom 1 sig.params⟩

def header (sig : Signature) : Text :=
  toShimType sig.type ++ " shim_".toList ++ sig.name ++
    '(' :: (join ", ".toList (emittedFrom 1 sig.params) ++ [')'])

theorem parsePrototype_eq (h : sig.WrittenAs prototype) :
    parsePrototype prototype = .ok (sig.function prototype) := by
  obtain ⟨parts, hparts, htexts⟩ := h
  have hok : ∀ p ∈ Param.plain sig.type sig.gap sig.name :: sig.params, p.Ok :=
    List.forall_mem_cons.mpr ⟨sig.function_ok, sig.params_ok⟩
  rw [parsePrototype, hparts]
  show (parseDecls prototype 0 (parts.filter (· ≠ [])) >>= _) = _
  rw [htexts, parseDecls_text hok]
  rfl

theorem generateWrapper_eq (sig : Signature) (prototype : Text)
    (shimFunImpl : Option Text) :
    ∃ lines, generateWrapper (sig.function prototype) shimFunImpl = .ok lines ∧
      lines.head? = some (sig.header ++ " \x7b".toList) ∧
      "  ".toList ++ wrapperCall (sig.function prototype) shimFunImpl ∈ lines := by
  have hheader : wrapperHeader (sig.function prototype) = .ok sig.header := by
    rw [wrapperHeader]
    show (List.mapM toDecl (declsFrom 1 sig.params) >>= _) = _
    rw [mapM_toDecl sig.params_ok]
    show Except.ok _ = _
    simp [header]
  rw [generateWrapper, hheader]
  refine ⟨_, rfl, rfl, ?_⟩
  iterate 4 apply List.mem_append_left
  exact List.mem_append_right _ (List.mem_singleton_self _)

theorem shimName_word (sig : Signature) : WordText ("shim_".toList ++ sig.name) := by
  obtain ⟨-, -, hname, -⟩ := sig.function_ok
  refine ⟨by simp, fun c hc => ?_⟩
  rcases List.mem_append.mp hc with hc | hc
  · exact List.all_eq_true.mp (show "shim_".toList.all isWord by decide +kernel) c hc
  · exact hname.chars c hc

theorem front_eq (sig : Signature) :
    toShimType sig.type ++ " shim_".toList ++ sig.name =
      toShimType sig.type ++ " ".toList ++ ("shim_".toList ++ sig.name) := by
  simp

/-- What stands before the parameters is read as the function. -/
theorem parseDecl_front (sig : Signature) (proto : Text) (i : Nat) :
    parseDecl proto (strip (toShimType sig.type ++ " shim_".toList ++ sig.name)) i =
      .ok ⟨some ("shim_".toList ++ sig.name), some (toShimType sig.type)⟩ := by
  have hrestrict : "shim_".toList ++ sig.name ≠ "restrict".toList := by
    intro heq
    have hhead := congrArg List.head? heq
    simp at hhead
  rw [front_eq]
  exact parse_plain_emitted sig.function_ok.1 sig.shimName_word
    fun h => absurd h hrestrict

theorem isDeclChar_front (sig : Signature) :
    ∀ c ∈ toShimType sig.type ++ " shim_".toList ++ sig.name, isDeclChar c := by
  rw [front_eq]
  intro c hc
  rcases List.mem_append.mp hc with hc | hc
  · rcases List.mem_append.mp hc with hc | hc
    · exact isDeclChar_of_isTypeChar (sig.function_ok.1.toShimType.chars c hc)
    · exact List.all_eq_true.mp
        (show " ".toList.all isDeclChar by decide +kernel) c hc
  · simp [isDeclChar, sig.shimName_word.chars c hc]

/-- So the header is read as the function and its parameters. -/
theorem parsePrototype_header (sig : Signature) :
    parsePrototype sig.header =
      (parseDecls sig.header 1 ((emittedFrom 1 sig.params).map strip)).map
        fun args => ⟨sig.header, some ("shim_".toList ++ sig.name),
          some (toShimType sig.type), args⟩ := by
  have hne : ∀ d ∈ (toShimType sig.type ++ " shim_".toList ++ sig.name) ::
      emittedFrom 1 sig.params, strip d ≠ [] := by
    refine List.forall_mem_cons.mpr ⟨?_, forall_emittedFrom fun p hp i =>
      strip_emitted_ne_nil (sig.params_ok p hp)⟩
    exact strip_ne_nil (c := 's') (by simp) rfl
  obtain ⟨parts, hparts, hfilter⟩ := splitPrototype_header sig.isDeclChar_front
    (forall_emittedFrom fun p hp i => through_emitted (sig.params_ok p hp)) hne
  rw [parsePrototype, header, hparts]
  show (parseDecls _ 0 (parts.filter (· ≠ [])) >>= _) = _
  rw [hfilter, List.map_cons, parseDecls, sig.parseDecl_front]
  cases parseDecls _ 1 ((emittedFrom 1 sig.params).map strip) with
  | error e => rfl
  | ok ds => rfl

/-- The header is kept just when every parameter is. -/
theorem headerKept_iff (sig : Signature) (prototype : Text) :
    HeaderKept (sig.function prototype) (sig.header ++ " \x7b".toList) ↔
      ∀ p ∈ sig.params, p.Kept := by
  rw [← @reread_all sig.header _ 1 sig.params_ok]
  constructor
  · rintro ⟨header, function', hline, hparse, -, -, hargs⟩
    obtain rfl := List.append_cancel_right hline
    rw [parsePrototype_header] at hparse
    cases hds : parseDecls sig.header 1 ((emittedFrom 1 sig.params).map strip) with
    | error e =>
        rw [hds] at hparse
        cases hparse
    | ok ds =>
        rw [hds] at hparse
        obtain rfl := Except.ok.inj hparse
        exact ⟨ds, rfl, hargs⟩
  · rintro ⟨ds, hds, hargs⟩
    refine ⟨sig.header, ⟨sig.header, some ("shim_".toList ++ sig.name),
      some (toShimType sig.type), ds⟩, rfl, ?_, rfl, rfl, hargs⟩
    rw [parsePrototype_header, hds]
    rfl

end Signature

end Header

/-! ## The call -/

section Call

variable {ps : List Param} {p : Param} {i : Nat} {prototype : Text}
  {shimFunImpl : Option Text}

theorem name_decl (h : p ≠ .void) : ∃ name, (p.decl i).name = some name := by
  cases p with
  | void => exact absurd rfl h
  | _ => exact ⟨_, rfl⟩

theorem passed_declsFrom (h : .void ∉ ps) :
    (declsFrom i ps).filterMap Decl.passed = (declsFrom i ps).map callArg := by
  induction ps generalizing i with
  | nil => rfl
  | cons p ps ih =>
      obtain ⟨name, hname⟩ := @name_decl p i fun hp => h (by simp [hp])
      have hpassed : (p.decl i).passed = some (callArg (p.decl i)) := by
        rw [Decl.passed, callArg, hname]
        by_cases hellipsis : name = "...".toList
        · rw [hellipsis, if_pos rfl, Option.map_some, if_pos rfl]
        · have hellipsis' : (some name : Option Text) ≠ some "...".toList :=
            fun heq => hellipsis (Option.some.inj heq)
          rw [if_neg hellipsis', Option.map_some, if_neg hellipsis]
          rfl
      rw [declsFrom, List.filterMap_cons_some hpassed, List.map_cons,
        ih fun hmem => h (List.mem_cons_of_mem p hmem)]

/-- The type `void` is read for `void` and for a name of that type only. -/
theorem type_decl_void (h : p.Ok) (hvoid : (p.decl i).type = some "void".toList) :
    p = .void ∨ ∃ gap name, p = .plain "void".toList gap name := by
  have hne : ∀ {s : Text} {c}, c ∈ s → c ∉ "void".toList →
      some s ≠ some "void".toList := by
    rintro s c hmem hnot heq
    rw [Option.some.inj heq] at hmem
    exact hnot hmem
  cases p with
  | plain t g n => exact .inr ⟨g, n, by rw [Option.some.inj hvoid]⟩
  | unnamed t =>
      obtain rfl := Option.some.inj hvoid
      obtain ⟨-, hlast | ⟨u, c, -, heq⟩ | ⟨-, hne⟩⟩ := h
      · exact absurd hlast (by decide +kernel)
      · have hlast := congrArg List.getLast? heq
        have hd : "void".toList.getLast? = some 'd' := rfl
        have ht : ('*' :: c :: "restrict".toList).getLast? = some 't' := rfl
        rw [List.getLast?_append, hd, ht] at hlast
        cases hlast
      · exact absurd rfl hne
  | array e g n sz =>
      exact absurd hvoid (hne (c := '[') (by simp [brackets]) (by decide +kernel))
  | funPtr r g n ws q =>
      exact absurd hvoid (hne (c := '(') (by simp [pointerText]) (by decide +kernel))
  | loneArray e sz =>
      exact absurd hvoid (hne (c := '[') (by simp [brackets]) (by decide +kernel))
  | loneFunPtr r q =>
      exact absurd hvoid (hne (c := '(') (by simp [pointerText]) (by decide +kernel))
  | void => exact .inl rfl
  | ellipsis => cases hvoid

theorem callKept_iff_join {function : Prototype} :
    CallKept function shimFunImpl ↔
      join ", ".toList (function.realArgs.map callArg) =
        join ", ".toList (function.args.filterMap Decl.passed) := by
  have hcall : wrapperCall function shimFunImpl =
      wrapperCallee function shimFunImpl ++ "(".toList ++
        join ", ".toList (function.realArgs.map callArg) ++ ");".toList := by
    cases shimFunImpl with
    | none => rfl
    | some impl => rfl
  rw [CallKept, hcall, List.append_left_inj, List.append_right_inj]

theorem length_declsFrom (ps : List Param) (i : Nat) :
    (declsFrom i ps).length = ps.length := by
  induction ps generalizing i with
  | nil => rfl
  | cons p ps ih => rw [declsFrom, List.length_cons, ih, List.length_cons]

/-- The call is kept unless the one parameter is taken for none. -/
theorem callKept_iff (sig : Signature) (prototype : Text)
    (shimFunImpl : Option Text) :
    CallKept (sig.function prototype) shimFunImpl ↔ sig.Nameless := by
  obtain ⟨type, gap, name, ps, -, hps, halone⟩ := sig
  rw [callKept_iff_join]
  by_cases hvoid : .void ∈ ps
  · obtain rfl := halone hvoid
    exact iff_of_true rfl fun _ _ heq => by cases heq
  · show join _ (Prototype.realArgs _ |>.map callArg) =
      join _ ((declsFrom 1 ps).filterMap Decl.passed) ↔ _
    rw [passed_declsFrom hvoid, Prototype.realArgs]
    split
    · rename_i hone
      obtain ⟨hlength, htype⟩ := hone
      obtain ⟨p, rfl⟩ : ∃ p, ps = [p] :=
        List.length_eq_one_iff.mp ((length_declsFrom ps 1).symm.trans hlength)
      rcases type_decl_void (hps p (by simp)) htype with rfl | ⟨gap, name, rfl⟩
      · simp at hvoid
      · obtain ⟨-, -, hname, -⟩ := hps _ (List.mem_singleton_self _)
        refine iff_of_false (fun heq => ?_) fun h => h gap name rfl
        have hellipsis : (some name : Option Text) ≠ some "...".toList := by
          intro h
          obtain rfl := Option.some.inj h
          exact hname.not_mem (c := '.') rfl (by decide +kernel)
        have hpassed : callArg ⟨some name, some "void".toList⟩ = name :=
          if_neg hellipsis
        refine hname.ne_nil ?_
        rw [← hpassed]
        simpa [join, declsFrom, Param.decl] using heq.symm
    · rename_i hone
      refine iff_of_true rfl ?_
      rintro gap name rfl
      exact hone ⟨rfl, rfl⟩

end Call

section Kept

variable {sig : Signature} {prototype : Text} {shimFunImpl : Option Text}

/-- Where a signature is kept, both its header and its call are. -/
theorem kept_of_signatureKept (h : sig.WrittenAs prototype)
    (hkept : SignatureKept prototype shimFunImpl) :
    HeaderKept (sig.function prototype) (sig.header ++ " \x7b".toList) ∧
      CallKept (sig.function prototype) shimFunImpl := by
  obtain ⟨lines, hlines, hhead, -⟩ := sig.generateWrapper_eq prototype shimFunImpl
  obtain ⟨function, lines', hfunction, hlines', ⟨line, hline, hheader⟩, -, hcall⟩ :=
    hkept
  obtain rfl := Except.ok.inj ((Signature.parsePrototype_eq h).symm.trans hfunction)
  obtain rfl := Except.ok.inj (hlines.symm.trans hlines')
  obtain rfl := Option.some.inj (hhead.symm.trans hline)
  exact ⟨hheader, hcall⟩

theorem plain_ok {t n : Text}
    (ht : t.head?.any (!isSpace ·) ∧ t.getLast?.any (!isSpace ·) ∧ t.all isTypeChar)
    (hn : n ≠ [] ∧ n.all isWord ∧ n ≠ "restrict".toList) :
    (Param.plain t " ".toList n).Ok :=
  ⟨typeText_of_all ht.1 ht.2.1 ht.2.2, separated_blank t,
    ⟨hn.1, List.all_eq_true.mp hn.2.1⟩, fun h => hn.2.2 h.1⟩

end Kept

/-- A wrapper keeps the signature of its function just when each parameter is
kept and a single one is no named `void`. -/
theorem signatureKept_iff (sig : Signature) (prototype : Text)
    (h : sig.WrittenAs prototype) (shimFunImpl : Option Text) :
    SignatureKept prototype shimFunImpl ↔ sig.Kept := by
  constructor
  · intro hkept
    obtain ⟨hheader, hcall⟩ := kept_of_signatureKept h hkept
    exact ⟨(sig.headerKept_iff prototype).mp hheader,
      (callKept_iff sig prototype shimFunImpl).mp hcall⟩
  · rintro ⟨hparams, hnameless⟩
    obtain ⟨lines, hlines, hhead, hcall⟩ :=
      sig.generateWrapper_eq prototype shimFunImpl
    exact ⟨sig.function prototype, lines, Signature.parsePrototype_eq h, hlines,
      ⟨_, hhead, (sig.headerKept_iff prototype).mpr hparams⟩, hcall,
      (callKept_iff sig prototype shimFunImpl).mpr hnameless⟩

def setenvSignature : Signature where
  type := "int".toList
  gap := " ".toList
  name := "setenv".toList
  params := [.plain "const char*".toList " ".toList "name".toList,
    .plain "const char*".toList " ".toList "value".toList,
    .plain "int".toList " ".toList "overwrite".toList]
  function_ok := plain_ok (by decide +kernel) (by decide +kernel)
  params_ok := by
    simp only [List.forall_mem_cons]
    exact ⟨plain_ok (by decide +kernel) (by decide +kernel),
      plain_ok (by decide +kernel) (by decide +kernel),
      plain_ok (by decide +kernel) (by decide +kernel), nofun⟩
  void_alone := by simp

def setenvPrototype : Text :=
  "int setenv(const char* name, const char* value, int overwrite)".toList

theorem setenv_writtenAs : setenvSignature.WrittenAs setenvPrototype :=
  ⟨["int setenv".toList, "const char* name".toList, "const char* value".toList,
    "int overwrite".toList], by decide +kernel, by decide +kernel⟩

/-- With no blank before `restrict` it is a name. -/
def putsSignature : Signature where
  type := "int".toList
  gap := " ".toList
  name := "puts".toList
  params := [.plain "const char *".toList [] "restrict".toList]
  function_ok := plain_ok (by decide +kernel) (by decide +kernel)
  params_ok := by
    simp only [List.forall_mem_cons]
    refine ⟨⟨typeText_of_all (by decide +kernel) (by decide +kernel)
      (by decide +kernel), ⟨nofun, .inr ⟨by decide +kernel, ' ', by decide +kernel,
        rfl⟩⟩, restrict_word, ?_⟩, nofun⟩
    rintro ⟨-, -, c, -, hgap⟩
    cases hgap
  void_alone := by simp

def putsPrototype : Text := "int puts(const char *restrict)".toList

theorem puts_writtenAs : putsSignature.WrittenAs putsPrototype :=
  ⟨["int puts".toList, "const char *restrict".toList], by decide +kernel,
    by decide +kernel⟩

theorem signatureKept_setenv :
    SignatureKept setenvPrototype none ∧ ¬SignatureKept putsPrototype none := by
  constructor
  · refine (signatureKept_iff setenvSignature setenvPrototype setenv_writtenAs
      none).mpr ⟨?_, ?_⟩
    · intro p hp
      simp only [setenvSignature, List.mem_cons, List.not_mem_nil, or_false] at hp
      rcases hp with rfl | rfl | rfl
      · exact fun hrestrict => absurd hrestrict (by decide +kernel)
      · exact fun hrestrict => absurd hrestrict (by decide +kernel)
      · exact fun hrestrict => absurd hrestrict (by decide +kernel)
    · intro gap name hparams
      cases hparams
  · refine mt (signatureKept_iff putsSignature putsPrototype puts_writtenAs
      none).mp fun hkept => ?_
    have hplain := hkept.1 (.plain "const char *".toList [] "restrict".toList)
      (List.mem_singleton_self _) rfl
    exact hplain (by decide +kernel)

/-- `poll`, as it is in `src/prototypes.rb`. -/
def pollSignature : Signature where
  type := "int".toList
  gap := " ".toList
  name := "poll".toList
  params := [.array "struct pollfd".toList " ".toList "fds".toList [],
    .plain "nfds_t".toList " ".toList "nfds".toList,
    .plain "int".toList " ".toList "timeout".toList]
  function_ok := plain_ok (by decide +kernel) (by decide +kernel)
  params_ok := by
    simp only [List.forall_mem_cons]
    have hfds : (Param.plain "struct pollfd".toList " ".toList "fds".toList).Ok :=
      plain_ok (by decide +kernel) (by decide +kernel)
    exact ⟨⟨hfds.1, hfds.2.1, hfds.2.2.1, .inl nofun⟩,
      plain_ok (by decide +kernel) (by decide +kernel),
      plain_ok (by decide +kernel) (by decide +kernel), nofun⟩
  void_alone := by simp

def pollPrototype : Text :=
  "int poll(struct pollfd fds[], nfds_t nfds, int timeout)".toList

theorem poll_writtenAs : pollSignature.WrittenAs pollPrototype :=
  ⟨["int poll".toList, "struct pollfd fds[]".toList, "nfds_t nfds".toList,
    "int timeout".toList], by decide +kernel, by decide +kernel⟩

/-- The element type of an array is written as it was. -/
theorem signatureKept_not_poll :
    pollSignature.WrittenAs pollPrototype ∧
      ¬SignatureKept pollPrototype none := by
  refine ⟨poll_writtenAs, fun h => ?_⟩
  obtain ⟨hheader, -⟩ := kept_of_signatureKept poll_writtenAs h
  have hkept := (pollSignature.headerKept_iff pollPrototype).mp hheader
    (.array "struct pollfd".toList " ".toList "fds".toList [])
    (List.mem_cons_self ..)
  have hchanged : toShimType "struct pollfd".toList ≠ "struct pollfd".toList := by
    decide +kernel
  exact hchanged hkept

end Libc6Shim
