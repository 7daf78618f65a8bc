import ClassForge.Annotation
import ClassForge.Member.Method

/-!
# Annotations of written methods

A rule says by a tree of `Attributes` which annotations its methods are written with. For a build
the tree is flattened to the sources that it reads in order, which is all that `apply` needs. An
annotation whose type is already there is left out.
-/

namespace ClassForge

/-- Which annotations are written. -/
inductive Attributes where
  | nothing
  /-- Those that the method declares. -/
  | declared
  | fixed (annotations : List Annotation)
  | all (parts : List Attributes)
deriving Inhabited

/-- Where annotations are taken from. -/
inductive AnnotationSource where
  /-- From the method that is written. -/
  | declared
  | fixed (annotations : List Annotation)
deriving DecidableEq, Inhabited

namespace AnnotationSource

/-- The annotations for a method. -/
def annotations (m : Method) : AnnotationSource → List Annotation
  | declared => m.annotations
  | fixed as => as

/-- The annotations with those of some sources added. -/
def apply (sources : List AnnotationSource) (m : Method) (existing : List Annotation := []) :
    List Annotation :=
  sources.foldl (fun as s => Annotation.merge as (s.annotations m)) existing

end AnnotationSource

namespace Attributes

/-- The annotations that a method declares, whatever method they are written for. -/
def ofMethod (m : Method) : Attributes := fixed m.annotations

mutual

/-- The sources in the order in which they are read. -/
def sources : Attributes → List AnnotationSource
  | nothing => []
  | declared => [.declared]
  | fixed as => [.fixed as]
  | all parts => allSources parts

/-- The sources of several trees. -/
def allSources : List Attributes → List AnnotationSource
  | [] => []
  | a :: as => a.sources ++ allSources as

end

/-! ### Equality -/

mutual

/-- Whether two trees are the same. -/
def same : Attributes → Attributes → Bool
  | nothing, nothing => true
  | declared, declared => true
  | fixed as, fixed bs => as == bs
  | all as, all bs => sameAll as bs
  | _, _ => false

/-- Whether two lists hold the same trees. -/
def sameAll : List Attributes → List Attributes → Bool
  | [], [] => true
  | a :: as, b :: bs => same a b && sameAll as bs
  | _, _ => false

end

mutual

theorem same_iff : (a b : Attributes) → (same a b = true ↔ a = b)
  | nothing, b => by cases b <;> simp [same]
  | declared, b => by cases b <;> simp [same]
  | fixed _, b => by cases b <;> simp [same]
  | all as, b => by cases b <;> simp [same, sameAll_iff as]

theorem sameAll_iff : (as bs : List Attributes) → (sameAll as bs = true ↔ as = bs)
  | [], bs => by cases bs <;> simp [sameAll]
  | a :: as, bs => by cases bs <;> simp [sameAll, same_iff a, sameAll_iff as]

end

instance : DecidableEq Attributes := fun a b => decidable_of_iff _ (same_iff a b)

end Attributes

end ClassForge
