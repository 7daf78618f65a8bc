import ClassForge.TypeDecl

/-!
# The pool of known types

Questions about types that are not being built, above all about supertypes, are answered from a
pool of declarations, one for each name. The type under construction is usually not in the pool,
so what starts from a type takes its declaration.

A name that the pool does not know is taken for a public class without members. A pool that knows
little therefore answers less, but never stands in the way.
-/

namespace ClassForge

/-- Known types, at most one for each name. -/
structure Pool where
  types : List TypeDecl
  /-- No name has two declarations. -/
  nodup : (types.map (·.name)).Nodup

namespace Pool

/-- The pool without types. -/
def empty : Pool := ⟨[], .nil⟩

instance : Inhabited Pool := ⟨empty⟩

/-- The number of known types. -/
def size (p : Pool) : Nat := p.types.length

/-- The declaration of a name, if the pool knows it. -/
def find? (p : Pool) (name : String) : Option TypeDecl := p.types.find? (·.name = name)

/-- Whether the pool knows the name. -/
def contains (p : Pool) (name : String) : Bool := (p.find? name).isSome

/-- The pool with a declaration added, in place of an earlier one of its name. -/
def register (p : Pool) (t : TypeDecl) : Pool where
  types := t :: p.types.filter (·.name ≠ t.name)
  nodup := by
    refine List.nodup_cons.2 ⟨?_, p.nodup.sublist (List.filter_sublist.map _)⟩
    simp

/-- The pool with several declarations added in order. -/
def registerAll (p : Pool) (ts : List TypeDecl) : Pool := ts.foldl register p

@[simp] theorem find?_empty (name : String) : empty.find? name = none := rfl

@[simp] theorem find?_register (p : Pool) (t : TypeDecl) (name : String) :
    (p.register t).find? name = if name = t.name then some t else p.find? name := by
  by_cases h : name = t.name
  · simp [find?, register, h]
  · have h' : t.name ≠ name := fun e => h e.symm
    simp only [find?, register, List.find?_cons, h', decide_false, List.find?_filter, h, if_false]
    congr 1
    funext u
    by_cases hu : u.name = name <;> simp [hu, h]

theorem name_of_find? {p : Pool} {name : String} {t : TypeDecl} (h : p.find? name = some t) :
    t.name = name := by
  simpa using List.find?_some h

theorem mem_of_find? {p : Pool} {name : String} {t : TypeDecl} (h : p.find? name = some t) :
    t ∈ p.types :=
  List.mem_of_find?_eq_some h

end Pool

end ClassForge
