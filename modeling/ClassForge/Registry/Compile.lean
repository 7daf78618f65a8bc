import ClassForge.Registry.Prepare

/-!
# Records for bound methods

A prepared registry is compiled for a target. Rules share handlers and attributes, and each of them
is compiled once; that saves work and changes nothing, as compiling depends on nothing but the
target.

A bound method then has a record. Where the class file format has bridges, the other types of the
method's family get access bridges, as far as the method can answer them. An interface gets none
for a method without code. Without bridges in the format, a visibility bridge is not written at
all.

## Main definitions

* `PreparedRegistry.compile` — the compiled entries
* `CompiledRegistry.record` — the plan for a method
-/

namespace ClassForge

/-- What a method is bound to, ready to plan its record. -/
structure CompiledEntry where
  source : Method
  handler : CompiledHandler
  sources : List AnnotationSource
  method : Method
  bridgeTypes : List MethodType
  visibility : Visibility
  isBridge : Bool

/-- The compiled entry for an entry. -/
def Entry.compile (t : Target) (e : Entry) : CompiledEntry where
  source := e.source
  handler := e.handler.compile t
  sources := e.attributes.sources
  method := e.method
  bridgeTypes := e.bridgeTypes
  visibility := e.visibility
  isBridge := e.isBridge

/-- The record of the method in the type `t`. -/
def CompiledEntry.record (e : CompiledEntry) (t : TypeDecl) (supportsBridges : Bool) :
    MethodRecord :=
  if !supportsBridges then
    if e.isBridge then .skipped e.method else e.handler.record e.method e.sources e.visibility
  else
    let main := e.handler.record e.method e.sources e.visibility
    let types := e.bridgeTypes.filter e.method.canBridge
    if types.isEmpty || (t.isInterface && main.sort ≠ .implemented) then main
    else
      .withBridges main
        { owner := t.name, dispatch := if t.isInterface then .interface else .virtual
          target := e.method, types, sources := e.sources }

/-- Handlers and attributes that are compiled already. -/
structure CompileCache where
  handlers : OrderedMap Handler CompiledHandler := .empty
  attributes : OrderedMap Attributes (List AnnotationSource) := .empty

namespace CompileCache

/-- The compiled handler, from the cache if it is there. -/
def handler (c : CompileCache) (t : Target) (h : Handler) : CompiledHandler × CompileCache :=
  match c.handlers.get? h with
  | some compiled => (compiled, c)
  | none =>
    let compiled := h.compile t
    (compiled, { c with handlers := c.handlers.insert h compiled })

/-- The flattened attributes, from the cache if they are there. -/
def sources (c : CompileCache) (a : Attributes) : List AnnotationSource × CompileCache :=
  match c.attributes.get? a with
  | some flat => (flat, c)
  | none => (a.sources, { c with attributes := c.attributes.insert a a.sources })

/-- The compiled entry, with all that it shares taken from the cache. -/
def entry (c : CompileCache) (t : Target) (e : Entry) : CompiledEntry × CompileCache :=
  let (handler, c) := c.handler t e.handler
  let (sources, c) := c.sources e.attributes
  ({ e.compile t with handler, sources }, c)

end CompileCache

/-- A registry compiled for a target. -/
structure CompiledRegistry where
  draft : Draft
  entries : OrderedMap MethodIdentity CompiledEntry
  methods : List Method
  supportsBridges : Bool
  target : Target

namespace PreparedRegistry

/-- The bound methods without the type initializer. -/
def instrumented (r : PreparedRegistry) : List Method := Entries.instrumented r.entries

/-- Compiles entries one after the other. -/
def compileEntries (t : Target) (es : Entries) : OrderedMap MethodIdentity CompiledEntry :=
  (es.entries.foldl step (.empty, {})).1
where
  step (s : OrderedMap MethodIdentity CompiledEntry × CompileCache) (e : MethodIdentity × Entry) :
      OrderedMap MethodIdentity CompiledEntry × CompileCache :=
    let (compiled, cache) := s.2.entry t e.2
    (s.1.insert e.1 compiled, cache)

/-- The registry compiled for a release, where the methods of `plan` were moved aside. -/
def compile (r : PreparedRegistry) (release : Release) (plan : RelocationPlan := .none) :
    CompiledRegistry :=
  let target := Target.make r.draft.decl r.graph r.pool plan
  { draft := r.draft, entries := compileEntries target r.entries, methods := r.methods
    supportsBridges := release.supportsBridges, target }

end PreparedRegistry

namespace CompiledRegistry

/-- The bound methods without the type initializer. -/
def instrumented (r : CompiledRegistry) : List Method :=
  (r.entries.values.map (·.source)).filter (!·.isTypeInitializer)

/-- The plan for a method; one that is not bound is not written. -/
def record (r : CompiledRegistry) (m : Method) : MethodRecord :=
  match r.entries.get? m.identity with
  | some e => e.record r.draft.decl r.supportsBridges
  | none => .skipped m

end CompiledRegistry

end ClassForge
