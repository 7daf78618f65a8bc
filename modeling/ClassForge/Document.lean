/-!
# Indented text

A document is text with line breaks whose indentation is decided by where they stand: `nest` indents
the breaks inside it further. Documents are put together first and rendered once, so nothing that
builds one has to know how deep it will stand.
-/

namespace ClassForge

/-- Text with indentation left open. -/
inductive Document where
  | text (s : String)
  /-- A line break and the indentation that holds there. -/
  | line
  /-- A document whose breaks are indented so much further. -/
  | nest (indentation : Int) (body : Document)
  | seq (parts : List Document)
deriving Inhabited

namespace Document

/-- No text. -/
def empty : Document := seq []

instance : Coe String Document := ⟨text⟩

/-- Documents in order with a separator between each two. -/
def join (separator : Document) (ds : List Document) : Document :=
  seq (ds.intersperse separator)

mutual

/-- The text of a document that stands at an indentation; one below zero counts as none. -/
def render (indentation : Int) : Document → String
  | text s => s
  | line => "\n" ++ String.ofList (List.replicate indentation.toNat ' ')
  | nest more body => body.render (indentation + more)
  | seq parts => renderAll indentation parts

/-- The texts of several documents, one after the other. -/
def renderAll (indentation : Int) : List Document → String
  | [] => ""
  | d :: ds => d.render indentation ++ renderAll indentation ds

end

/-- The text of a document that stands at the margin. -/
def toText (d : Document) : String := d.render 0

end Document

end ClassForge
