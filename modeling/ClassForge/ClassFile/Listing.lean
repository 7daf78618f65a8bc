import ClassForge.ClassFile.Basic
import ClassForge.Document

/-!
# Listings

A listing shows a class file as text: the release, the header, and then the members with a blank
line between each two, instructions numbered from zero.
-/

namespace ClassForge

namespace Document

/-- How far each level is indented. -/
def step : Int := 4

/-- Types with commas between them. -/
def types (ts : List TypeRef) : Document := text (TypeRef.displayAll ts)

/-- A clause that is left out if there are no types. -/
def clause (keyword : String) (ts : List TypeRef) : Document :=
  if ts.isEmpty then empty else seq [text (" " ++ keyword ++ " "), types ts]

/-- Annotations, each on a line of its own. -/
def noteLines (as : List Annotation) : Document :=
  seq (as.map fun a => seq [text a.display, line])

/-- A value after some words, or nothing. -/
def value (words : String) : Option AnnotationValue → Document
  | none => empty
  | some v => text (words ++ v.display)

end Document

open Document in
/-- The instructions with the size of the frame. -/
def Code.document (c : Code) : Document :=
  nest step (seq
    [line,
      text ("Code: max_stack=" ++ toString c.maxStack ++ ", max_locals=" ++ toString c.maxLocals),
      nest step (seq (c.instructions.mapIdx fun i instruction =>
        seq [line, text (toString i ++ ": " ++ instruction.display)]))])

open Document in
def WrittenField.document (f : WrittenField) : Document :=
  seq
    [noteLines f.annotations, text f.modifiers.leadingKeywords, text f.type.display, text " ",
      text f.name, value " = " f.constant, text ";"]

open Document in
def WrittenMethod.document (m : WrittenMethod) : Document :=
  seq
    [noteLines m.annotations, text m.modifiers.leadingKeywords, text m.returnType.display,
      text " ", text m.name, text "(", types m.parameterTypes, text ")",
      clause "throws" m.exceptions, value " default " m.defaultValue, text ";",
      m.code.elim empty Code.document]

namespace ClassFile

open Document

/-- The words in front of the name. An interface is abstract without saying so. -/
def keywords (c : ClassFile) : String :=
  let isInterface := c.modifiers.has .accInterface
  (c.modifiers \ .of [.accInterface, .accAbstract]).leadingKeywords ++
    (if c.modifiers.has .accAbstract && !isInterface then "abstract " else "") ++
    (if isInterface then "interface " else "class ")

/-- The members, indented. -/
def members (c : ClassFile) : Document :=
  let all := c.fields.map (·.document) ++ c.methods.map (·.document)
  if all.isEmpty then empty else nest step (seq [line, join (seq [text "\n", line]) all])

/-- The listing as a document. -/
def document (c : ClassFile) : Document :=
  seq
    [text ("// " ++ c.release.display), line, text c.keywords, text c.name,
      clause "extends" c.superclass.toList, clause "implements" c.interfaces, text " \x7b",
      c.members, line, text "\x7d"]

/-- The listing. -/
def listing (c : ClassFile) : String := c.document.toText

end ClassFile

end ClassForge
