import Libc6Shim.Prototype

/-!
# The wrapper generator

`utils/wrappers.rb` and `utils/wrappers_c.rb`. A wrapper is a C function over
the types as Linux has them (`toShimType`), whose body calls either an
implementation of the shim's or the native function. The latter is done only
for functions whose types are compatible (`checkCompat`).
-/

namespace Libc6Shim

open Ruby

/-! ## Types -/

/-- `/clockid_t(\*|)/` -/
def clockidRegex : Regex := .cat [.str "clockid_t", .group 1 (.oneOf ["*", ""])]

/-- `/glob(64|)_t\*(\srestrict|)/` -/
def globRegex : Regex :=
  .cat [.str "glob", .group 1 (.oneOf ["64", ""]), .str "_t*",
    .group 2 (.alt (.cat [.cls isSpace, .str "restrict"]) .empty)]

/-- `/^(const |)pthread_(barrier|cond|mutex|rwlock)attr_t\*/` -/
def pthreadAttrRegex : Regex :=
  .cat [.bol, .group 1 (.oneOf ["const ", ""]), .str "pthread_",
    .group 2 (.oneOf ["barrier", "cond", "mutex", "rwlock"]), .str "attr_t*"]

/-- `/(^|\s)(stack_t|sigset_t)($|[^\w_])/` -/
def sigsetRegex : Regex :=
  .cat [.group 1 (.alt .bol (.cls isSpace)),
    .group 2 (.oneOf ["stack_t", "sigset_t"]),
    .group 3 (.alt .eol (.cls fun c => !(isWord c || c == '_')))]

/-- `/struct\s+/` -/
def structRegex : Regex := .cat [.str "struct", .plus isSpace]

/-- The types that have to be spelled so, and what becomes of them. -/
def shimTypeTable : List (Text × Text) :=
  [("mode_t".toList, "linux_mode_t".toList),
    ("off_t".toList, "linux_off_t".toList),
    ("off64_t".toList, "linux_off64_t".toList),
    ("fpos_t*".toList, "linux_fpos_t*".toList),
    ("fpos64_t*".toList, "linux_fpos64_t*".toList),
    ("DIR*".toList, "linux_DIR*".toList),
    ("locale_t".toList, "linux_locale_t".toList),
    ("pthread_once_t*".toList, "linux_pthread_once_t*".toList),
    ("pthread_mutex_t*".toList, "linux_pthread_mutex_t*".toList)]

/-- `"#{$1}linux_#{$2}#{$3}"` -/
def linuxSigset (m : Regex.Match) : Text :=
  m.text 1 ++ "linux_".toList ++ m.text 2 ++ m.text 3

/-- The rest of the cascade, after the literal spellings. -/
def toShimTypeRest (type : Text) : Text :=
  match pthreadAttrRegex.search type with
  | some m =>
      m.text 1 ++ "linux_pthread_".toList ++ m.text 2 ++ "attr_t*".toList
  | none =>
      if (sigsetRegex.search type).isSome then
        sigsetRegex.gsub linuxSigset type
      else structRegex.gsub (fun _ => "linux_".toList) type

def toShimType (type : Text) : Text :=
  match clockidRegex.search type with
  | some m => "linux_clockid_t".toList ++ m.text 1
  | none =>
      if type = "cpu_set_t*".toList then "linux_cpu_set_t*".toList
      else
        match globRegex.search type with
        | some m =>
            "linux_glob".toList ++ m.text 1 ++ "_t*".toList ++ m.text 2
        | none =>
            match shimTypeTable.lookup type with
            | some shimType => shimType
            | none => toShimTypeRest type

/-! ## Logging -/

/-- `/^.+?\(\*\)\s*\([^\)]+\)$/` -/
def callbackRegex : Regex :=
  .cat [.bol, .plusLazy isDot, .str "(*)", .many isSpace, .char '(',
    .plus (· != ')'), .char ')', .eol]

/-- `/const char ?\*\*/` -/
def stringsRegex : Regex :=
  .cat [.str "const char", .opt (.char ' '), .str "**"]

/-- `/const char ?\*[^\*]*/` -/
def stringRegex : Regex :=
  .cat [.str "const char", .opt (.char ' '), .char '*', .many (· != '*')]

def formatTable : List (Text × Text) :=
  [("int".toList, "%d".toList), ("uid_t".toList, "%d".toList),
    ("gid_t".toList, "%d".toList), ("nl_item".toList, "%d".toList),
    ("mode_t".toList, "0%o".toList), ("long".toList, "%ld".toList),
    ("unsigned long".toList, "0x%lx".toList),
    ("unsigned int".toList, "%u".toList), ("socklen_t".toList, "%u".toList),
    ("size_t".toList, "%zu".toList), ("ssize_t".toList, "%zd".toList),
    ("float".toList, "%f".toList), ("double".toList, "%f".toList),
    ("off_t".toList, "%zd".toList), ("off64_t".toList, "%jd".toList),
    ("iconv_t".toList, "%p".toList), ("locale_t".toList, "%p".toList),
    ("pthread_t".toList, "%p".toList), ("time_t".toList, "%zd".toList),
    ("clockid_t".toList, "%d".toList), ("pid_t".toList, "%d".toList),
    ("wchar_t".toList, "%d".toList), ("pthread_key_t".toList, "%u".toList),
    ("wint_t".toList, "%u".toList), ("wctype_t".toList, "%lu".toList)]

/-- A type that is `nil` fits no pattern. -/
def formatSpecifier (name type : Option Text) : Text :=
  if name = some "...".toList then "...".toList
  else
    match type with
    | none => "_".toList
    | some type =>
        if (callbackRegex.search type).isSome then "%p [callback]".toList
        else if (stringsRegex.search type).isSome then "%p".toList
        else if (stringRegex.search type).isSome then "%.100s".toList
        else if type.contains '*' ∨ type = "va_list".toList then "%p".toList
        else (formatTable.lookup type).getD "_".toList

/-- `/%[^a-z]*s/` -/
def stringFormatRegex : Regex :=
  .cat [.char '%', .many (!Char.isLower ·), .char 's']

/-- A specifier of a text is put in quotes. -/
def quoteFormat (f : Text) : Text :=
  if (stringFormatRegex.search f).isSome then
    "\\\"".toList ++ f ++ "\\\"".toList
  else f

def logArgs (args : List Decl) : Text :=
  let parts := args.map fun arg => formatSpecifier arg.name arg.type
  let logged := (args.filter fun arg =>
    (formatSpecifier arg.name arg.type).contains '%').map (·.name.getD [])
  let fmt := join ", ".toList (parts.map quoteFormat)
  if parts = [] then "LOG_ENTRY();".toList
  else if logged = [] then
    "LOG_ENTRY(\"".toList ++ fmt ++ "\");".toList
  else
    "LOG_ENTRY(\"".toList ++ fmt ++ "\", ".toList ++
      join ", ".toList logged ++ ");".toList

def logResult (function : Prototype) : Text :=
  if function.type = some "void".toList then "LOG_EXIT();".toList
  else
    let f := formatSpecifier function.name function.type
    "LOG_EXIT(\"".toList ++ quoteFormat f ++ "\"".toList ++
      (if f.contains '%' then ", _ret_".toList else []) ++ ");".toList

/-! ## The wrapper -/

def isVariadic (function : Prototype) : Bool :=
  function.args.length > 1 &&
    (function.args.getLast?.bind (·.name)) == some "...".toList

/-- `/^(.+?)\s?(\[(\d*|restrict)\])$/` -/
def arrayType : Regex :=
  .cat [.bol, .group 1 (.plusLazy isDot), .opt (.cls isSpace),
    bracketRegex 2, .eol]

/-- `/^(.+)?\(([\*\^])\)\s*(\([^\)]+\))$/` -/
def functionPointerType : Regex :=
  .cat [.bol, .opt (.group 1 (.plus isDot)), .char '(',
    .group 2 (.cls isPointerMark), .char ')', .many isSpace,
    .group 3 (.cat [.char '(', .plus (· != ')'), .char ')']), .eol]

/-- The declaration of a parameter in the wrapper. -/
def toDecl (arg : Decl) : Except GenError Text :=
  let name := arg.name.getD []
  match arg.type with
  | none => .ok (" ".toList ++ name)
  | some type =>
      match arrayType.search type with
      | some m => .ok (m.text 1 ++ " ".toList ++ name ++ m.text 2)
      | none =>
          match functionPointerType.search type with
          | some m => do
              let result ← unlessNil (m.groups 1)
              return toShimType result ++ "(".toList ++ m.text 2 ++ name ++
                ")".toList ++ toShimType (m.text 3)
          | none => .ok (toShimType type ++ " ".toList ++ name)

/-- The parameters that there are. -/
def Prototype.realArgs (function : Prototype) : List Decl :=
  if function.args.length = 1 ∧
      function.args.head?.bind (·.type) = some "void".toList then []
  else function.args

/-- The declarator of the wrapper. -/
def wrapperHeader (function : Prototype) : Except GenError Text := do
  let type ← unlessNil function.type
  let name ← unlessNil function.name
  let decls ← function.args.mapM toDecl
  return toShimType type ++ " shim_".toList ++ name ++ "(".toList ++
    join ", ".toList decls ++ ")".toList

/-- What is passed for a parameter. -/
def callArg (arg : Decl) : Text :=
  if arg.name = some "...".toList then "_args_".toList else arg.name.getD []

/-- The call in the wrapper, of the implementation if there is one. -/
def wrapperCall (function : Prototype) (shimFunImpl : Option Text) : Text :=
  (match shimFunImpl with
    | some impl => impl
    | none =>
        (if isVariadic function then ['v'] else []) ++
          function.name.getD []) ++
    "(".toList ++ join ", ".toList (function.realArgs.map callArg) ++
      ");".toList

/-- The name of the last parameter before the ellipsis, `args[-2][:name]`. -/
def lastNamed (function : Prototype) : Text :=
  (function.realArgs.dropLast.getLast?.bind (·.name)).getD []

/-- The lines of a wrapper. -/
def generateWrapper (function : Prototype) (shimFunImpl : Option Text) :
    Except GenError (List Text) := do
  let header ← wrapperHeader function
  let type ← unlessNil function.type
  let variadic := isVariadic function
  let void := type = "void".toList
  return [header ++ " \x7b".toList, "  ".toList ++ logArgs function.realArgs] ++
    (if variadic then
      ["  va_list _args_;".toList,
        "  va_start(_args_, ".toList ++ lastNamed function ++ ");".toList]
    else []) ++
    (if void then [] else
      ["  ".toList ++ toShimType type ++ " _ret_ = ".toList]) ++
    ["  ".toList ++ wrapperCall function shimFunImpl] ++
    (if variadic then ["  va_end(_args_);".toList] else []) ++
    ["  ".toList ++ logResult function] ++
    (if void then [] else ["  return _ret_;".toList]) ++
    ["\x7d".toList]

/-! ## Which functions are wrapped -/

/-- `STRUCT_COMPATIBILITY` -/
def structCompatibility : List (Text × Bool) :=
  [("FTW".toList, true), ("addrinfo".toList, false),
    ("cmsghdr".toList, false), ("dirent".toList, false),
    ("dl_phdr_info".toList, true), ("in_addr".toList, true),
    ("iovec".toList, true), ("hostent".toList, true),
    ("msghdr".toList, false), ("option".toList, true),
    ("passwd".toList, false), ("pollfd".toList, true),
    ("protoent".toList, true), ("rlimit".toList, false),
    ("rusage".toList, true), ("sembuf".toList, true),
    ("sched_param".toList, true), ("shmid_ds".toList, false),
    ("sigaction".toList, false), ("sockaddr".toList, false),
    ("stat".toList, false), ("statfs".toList, false),
    ("termios".toList, false), ("timespec".toList, true),
    ("timeval".toList, true), ("timezone".toList, true),
    ("tm".toList, true), ("utsname".toList, false),
    ("stat64".toList, false), ("statfs64".toList, false),
    ("utimbuf".toList, true)]

/-- `/^sig|signal/` -/
def signalRegex : Regex := .alt (.cat [.bol, .str "sig"]) (.str "signal")

/-- `/^(const |)(pthread_(barrier|cond|mutex)attr_t|pthread_mutex_t)\*/` -/
def pthreadTypeRegex : Regex :=
  .cat [.bol, .group 1 (.oneOf ["const ", ""]),
    .group 2 (.alt
      (.cat [.str "pthread_", .group 3 (.oneOf ["barrier", "cond", "mutex"]),
        .str "attr_t"])
      (.str "pthread_mutex_t")), .char '*']

/-- `/ucontext_t/` -/
def ucontextRegex : Regex := .str "ucontext_t"

/-- `/^(const |)struct (\w+)/` -/
def structTypeRegex : Regex :=
  .cat [.bol, .group 1 (.oneOf ["const ", ""]), .str "struct ",
    .group 2 (.plus isWord)]

/-- The body of the loop: the type does not make the function incompatible.
A struct that is not in the table does. -/
def compatType (type : Text) : Bool :=
  if (pthreadTypeRegex.search type).isSome then false
  else if (ucontextRegex.search type).isSome then false
  else
    match structTypeRegex.search type with
    | some m => (structCompatibility.lookup (m.text 2)).getD false
    | none => true

def checkCompat (function : Prototype) : Bool :=
  let name := function.name.getD []
  if (signalRegex.search name).isSome ∧ name ≠ "pthread_cond_signal".toList then
    false
  else
    (function.realArgs.map (·.type) ++ [function.type]).all fun type =>
      type.all compatType

/-! ## What a wrapper does -/

/-- What the wrapper for a prototype calls when it is called with `args`,
and what it passes: the implementation of the shim's, or the native function
if the types are compatible. Otherwise there is a stub only. -/
def wrapperInvokes {α : Type} (prototype : Text) (shimFunImpl : Option Text)
    (args : List α) : Option (Text × List α) := do
  let function ← (parsePrototype prototype).toOption
  let name ← function.name
  let env := (function.realArgs.map fun arg => arg.name.getD []).zip args
  let passed ← (function.realArgs.map callArg).mapM (List.lookup · env)
  match shimFunImpl with
  | some impl => some (impl, passed)
  | none => if checkCompat function then some (name, passed) else none

end Libc6Shim
