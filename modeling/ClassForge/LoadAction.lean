import ClassForge.Annotation

/-!
# What happens when a type is loaded

Values that cannot be written into a class file are put into static fields once the type is
loaded. A load action is a tree of such assignments; all that counts of it is the assignments in
their order.
-/

namespace ClassForge

/-- Assignments to static fields. -/
inductive LoadAction where
  | nothing
  | assign (field : String) (value : AnnotationValue)
  | sequence (parts : List LoadAction)
deriving Inhabited

namespace LoadAction

/-- One action and then another. A sequence in front takes in what follows. -/
def andThen : LoadAction → LoadAction → LoadAction
  | nothing, b => b
  | a, nothing => a
  | sequence as, sequence bs => sequence (as ++ bs)
  | sequence as, b => sequence (as ++ [b])
  | a, b => sequence [a, b]

mutual

/-- Whether there is an assignment. -/
def isAlive : LoadAction → Bool
  | nothing => false
  | assign _ _ => true
  | sequence parts => anyAlive parts

/-- Whether there is an assignment in a list. -/
def anyAlive : List LoadAction → Bool
  | [] => false
  | a :: as => a.isAlive || anyAlive as

end

mutual

/-- The assignments in the order in which they happen. -/
def assignments : LoadAction → List (String × AnnotationValue)
  | nothing => []
  | assign field value => [(field, value)]
  | sequence parts => allAssignments parts

/-- The assignments of the actions in a list. -/
def allAssignments : List LoadAction → List (String × AnnotationValue)
  | [] => []
  | a :: as => a.assignments ++ allAssignments as

end

theorem allAssignments_append (as bs : List LoadAction) :
    allAssignments (as ++ bs) = allAssignments as ++ allAssignments bs := by
  induction as with
  | nil => rfl
  | cons a as ih => simp [allAssignments, ih]

/-- The first action happens first. -/
@[simp] theorem assignments_andThen (a b : LoadAction) :
    (a.andThen b).assignments = a.assignments ++ b.assignments := by
  cases a <;> cases b <;>
    simp [andThen, assignments, allAssignments, allAssignments_append]

end LoadAction

end ClassForge
