import ClassForge.TypeRef.Basic
import ClassForge.TypeRef.Token

/-!
# Reading type names

The grammar of type names over their parts:

```
type      = name [ "<" type { "," type } ">" ] { "[]" }
```

with blanks allowed before every part. A name is `void`, the word for a primitive type, the symbol
of a type variable in scope, or the name of a class; only the last takes type arguments, and an
array of `void` does not exist. A name neither starts nor ends with a dot.

A type variable that is read carries the erasure of its declared bound, so two readings of one
text under the same variables agree whatever generic bounds they were declared with.

Reading can fail in two ways. A text that the grammar does not derive is malformed. A text in
which the reader meets a blank outside ASCII is broken off there, and the two are kept apart.
-/

namespace ClassForge.TypeRef

/-- Why a text is not read as a type. -/
inductive ParseFault where
  /-- The text is not a type name. -/
  | malformed
  /-- A blank wider than one byte stands where a part was expected. -/
  | brokenBlank
deriving DecidableEq, Inhabited

namespace Parser

/-- The parts after any ASCII blanks. It fails at a wide blank. -/
def skipBlanks : List Token → Except ParseFault (List Token)
  | .blank :: parts => skipBlanks parts
  | .wideBlank :: _ => .error .brokenBlank
  | parts => .ok parts

/-- Whether a run of name characters is a name: not empty, no dot at either end. -/
def isName (text : String) : Bool :=
  !text.isEmpty && text.toList.head? != some '.' && text.toList.getLast? != some '.'

/-- What a name means where the given type variables are in scope. -/
def meaning (scope : List TypeVariable) (text : String) : TypeRef :=
  if text = "void" then void
  else
    match Primitive.ofKeyword? text with
    | some p => primitive p
    | none =>
      match scope.find? (·.symbol = text) with
      | some v => typeVar v.symbol v.bound.erasure
      | none => named text

/-- Reads the brackets that follow a type. -/
def arrayOf (t : TypeRef) : List Token → Except ParseFault (TypeRef × List Token)
  | .blank :: parts => arrayOf t parts
  | .wideBlank :: _ => .error .brokenBlank
  | .brackets :: parts => if t.isVoid then .error .malformed else arrayOf (array t) parts
  | parts => .ok (t, parts)

mutual

/-- Reads a type. Each call uses up one unit of the first argument and each nesting of type
arguments two parts, so the number of parts is always enough. -/
def type (scope : List TypeVariable) :
    Nat → List Token → Except ParseFault (TypeRef × List Token)
  | 0, _ => .error .malformed
  | n + 1, parts => do
    match ← skipBlanks parts with
    | .name text :: parts =>
      if isName text then
        match ← skipBlanks parts with
        | .openArguments :: parts =>
          match meaning scope text with
          | named raw => do
            let (ts, parts) ← arguments scope n parts
            arrayOf (parameterized raw ts) parts
          | _ => .error .malformed
        | parts => arrayOf (meaning scope text) parts
      else .error .malformed
    | _ => .error .malformed

/-- Reads type arguments up to and including the part that closes them. -/
def arguments (scope : List TypeVariable) :
    Nat → List Token → Except ParseFault (List TypeRef × List Token)
  | 0, _ => .error .malformed
  | n + 1, parts => do
    let (t, parts) ← type scope n parts
    match ← skipBlanks parts with
    | .comma :: parts =>
      let (ts, parts) ← arguments scope n parts
      return (t :: ts, parts)
    | .closeArguments :: parts => return ([t], parts)
    | _ => .error .malformed

end

end Parser

/-- Reads a text as a type, with the given type variables in scope. Blanks at either end of the
text do not count. -/
def parse (text : String) (scope : List TypeVariable) : Except ParseFault TypeRef := do
  let parts := Token.ofChars (Text.trimBlanks text.toList)
  match ← Parser.type scope parts.length parts with
  | (t, []) => return t
  | _ => .error .malformed

end ClassForge.TypeRef
