import Libc6Shim.RubyRegex

/-!
# Prototypes

The reader of C prototypes in `src/prototypes.rb`, which the generators of
wrappers are built on. A prototype is cut at the commas and parentheses of
its outermost level (`splitPrototype`), and each piece is read by the first
pattern it fits (`parseDecl`): as a pointer without a name, as `void` or the
ellipsis, as a lone word, as a function pointer, or as a type and a name,
with or without brackets.

What Ruby raises is the error of an `Except`.
-/

namespace Libc6Shim

open Ruby

/-! ## Data -/

/-- What a generator may raise. -/
inductive GenError where
  | unexpectedCharacter (char : Char) (pos : Nat) (prototype : Text)
  | unknownDecl (decl prototype : Text)
  | duplicateDefinition (prototype : Text)
  /-- A method called on `nil`, or `nil` given where a text is wanted. -/
  | nilError
deriving DecidableEq

/-- A declaration, as it is read: `{name: .., type: ..}`. -/
structure Decl where
  name : Option Text
  type : Option Text
deriving DecidableEq

/-- What `parse_prototype` returns. -/
structure Prototype where
  prototype : Text
  name : Option Text
  type : Option Text
  args : List Decl
deriving DecidableEq

/-- A call of a method on what may be `nil`. -/
def unlessNil {α : Type} : Option α → Except GenError α
  | some a => .ok a
  | none => .error .nilError

/-! ## Splitting -/

/-- The variables of the loop. -/
structure SplitState where
  parts : List Text
  depth : Int
  decl : Text

/-- `/\/\*.*?\*\//` -/
def commentRegex : Regex :=
  .cat [.str "/*", .manyLazy isDot, .str "*/"]

/-- `/[\w\s\*\^\[\]\.\+]/i` -/
def isDeclChar (c : Char) : Bool :=
  isWord c || isSpace c || c == '*' || c == '^' || c == '[' || c == ']' ||
    c == '.' || c == '+'

/-- The body of the loop. -/
def splitChar (prototype : Text) (st : SplitState) (char : Char) (i : Nat) :
    Except GenError SplitState :=
  if char = '(' then
    if st.depth = 0 then
      .ok { parts := st.parts ++ [st.decl], depth := st.depth + 1, decl := [] }
    else .ok { st with decl := st.decl ++ ['('], depth := st.depth + 1 }
  else if char = ')' then
    if st.depth - 1 = 0 then
      .ok { st with depth := st.depth - 1, parts := st.parts ++ [st.decl] }
    else .ok { st with depth := st.depth - 1, decl := st.decl ++ [')'] }
  else if char = ',' then
    if st.depth = 1 then
      .ok { st with parts := st.parts ++ [st.decl], decl := [] }
    else .ok { st with decl := st.decl ++ [','] }
  else if isDeclChar char then .ok { st with decl := st.decl ++ [char] }
  else if char.val = 0xa0 then .ok { st with decl := st.decl ++ [' '] }
  else .error (.unexpectedCharacter char (i + 1) prototype)

/-- The loop, from the character with index `i` on. -/
def splitChars (prototype : Text) :
    SplitState → Nat → Text → Except GenError SplitState
  | st, _, [] => .ok st
  | st, i, char :: s => do
      splitChars prototype (← splitChar prototype st char i) (i + 1) s

def splitPrototype (prototype : Text) : Except GenError (List Text) := do
  let st ← splitChars prototype { parts := [], depth := 0, decl := [] } 0
    (commentRegex.gsub (fun _ => []) prototype)
  return st.parts.map strip

/-! ## Reading a declaration -/

/-- `/\*$/` -/
def pointerRegex : Regex := .cat [.char '*', .eol]

/-- `/\*\srestrict$/` -/
def restrictRegex : Regex :=
  .cat [.char '*', .cls isSpace, .str "restrict", .eol]

/-- `/^[^\s]+$/` -/
def loneRegex : Regex := .cat [.bol, .plus (!isSpace ·), .eol]

/-- `[\*\^]` -/
def isPointerMark (c : Char) : Bool := c == '*' || c == '^'

/-- `/^(.+)?\([\*\^](\w+)\)\s*(\([^\)]+\))$/` -/
def functionPointerDecl : Regex :=
  .cat [.bol, .opt (.group 1 (.plus isDot)), .char '(', .cls isPointerMark,
    .group 2 (.plus isWord), .char ')', .many isSpace,
    .group 3 (.cat [.char '(', .plus (· != ')'), .char ')']), .eol]

/-- `/^(.+?)(\w+)$/` -/
def namedRegex : Regex :=
  .cat [.bol, .group 1 (.plusLazy isDot), .group 2 (.plus isWord), .eol]

/-- `(\[(\d*|restrict)\])`, the groups numbered `n` and `n + 1`. -/
def bracketRegex (n : Nat) : Regex :=
  .group n (.cat [.char '[',
    .group (n + 1) (.alt (.many isDigit) (.str "restrict")), .char ']'])

/-- `/^(.+?)(\w+)(\[(\d*|restrict)\])$/` -/
def arrayRegex : Regex :=
  .cat [.bol, .group 1 (.plusLazy isDot), .group 2 (.plus isWord),
    bracketRegex 3, .eol]

/-- `"_arg_#{i}"` -/
def argName (i : Nat) : Text := "_arg_".toList ++ (Nat.repr i).toList

/-- The declaration with index `i`. -/
def parseDecl (prototype : Text) (decl : Text) (i : Nat) : Except GenError Decl :=
  if (pointerRegex.search decl).isSome ∨ (restrictRegex.search decl).isSome then
    .ok { name := some (argName i), type := some decl }
  else if decl = "void".toList then
    .ok { name := none, type := some "void".toList }
  else if decl = "...".toList then
    .ok { name := some "...".toList, type := none }
  else if (loneRegex.search decl).isSome then
    .ok { name := some (argName i), type := some decl }
  else
    match functionPointerDecl.search decl with
    | some m => do
        let type := (← unlessNil (m.groups 1)) ++ "(*)".toList ++
          (← unlessNil (m.groups 3))
        return { name := m.groups 2, type := some type }
    | none =>
        match namedRegex.search decl with
        | some m => do
            return { name := m.groups 2,
                     type := some (strip (← unlessNil (m.groups 1))) }
        | none =>
            match arrayRegex.search decl with
            | some m => do
                let type := (← unlessNil (m.groups 1)) ++
                  (← unlessNil (m.groups 3))
                return { name := m.groups 2, type := some type }
            | none => .error (.unknownDecl decl prototype)

/-- The declarations from index `i` on. -/
def parseDecls (prototype : Text) : Nat → List Text → Except GenError (List Decl)
  | _, [] => .ok []
  | i, decl :: decls => do
      let d ← parseDecl prototype decl i
      return d :: (← parseDecls prototype (i + 1) decls)

def parsePrototype (prototype : Text) : Except GenError Prototype := do
  let parts ← splitPrototype prototype
  match ← parseDecls prototype 0 (parts.filter (· ≠ [])) with
  | fnTypeName :: args =>
      return { prototype, name := fnTypeName.name, type := fnTypeName.type, args }
  | [] => .error .nilError

end Libc6Shim
