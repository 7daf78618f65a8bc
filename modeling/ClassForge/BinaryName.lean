/-!
# Binary names

A class is known by its binary name, `com.example.Foo`: the package, a dot, and the simple name.
A class file writes the same name with slashes, `com/example/Foo`, and calls it internal.

Names are plain text here. What makes a text a legal name is a question for validation, so every
function below is total: a name without a dot lies in the package with the empty name.
-/

namespace ClassForge.BinaryName

/-- The root of every class hierarchy. -/
def object : String := "java.lang.Object"

/-- The class of text constants. -/
def string : String := "java.lang.String"

/-- The class of class literals. -/
def classLiteral : String := "java.lang.Class"

/-- The root of everything that can be thrown. -/
def throwable : String := "java.lang.Throwable"

/-- What stands after the last dot. -/
def simpleName (name : String) : String :=
  String.ofList (name.toList.reverse.takeWhile (· ≠ '.')).reverse

/-- What stands before the last dot, empty if there is none. -/
def package (name : String) : String :=
  String.ofList ((name.toList.reverse.dropWhile (· ≠ '.')).drop 1).reverse

/-- The name with slashes for dots. -/
def internal (name : String) : String :=
  String.ofList (name.toList.map fun c => if c = '.' then '/' else c)

/-- The parts between the dots; a text without dots is its own only part. -/
def segments (name : String) : List String :=
  (split name.toList).map String.ofList
where
  /-- The parts of a character list, of which there is always at least one. -/
  split : List Char → List (List Char)
    | [] => [[]]
    | c :: cs =>
      if c = '.' then [] :: split cs
      else
        match split cs with
        | [] => [[c]]
        | part :: parts => (c :: part) :: parts

end ClassForge.BinaryName
