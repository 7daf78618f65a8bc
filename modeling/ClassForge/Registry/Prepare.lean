import ClassForge.Draft.Validation
import ClassForge.Matcher.Latent
import ClassForge.ModifierChange
import ClassForge.Registry.Handler

/-!
# Rules and what they claim

A registry is a list of rules. Applied to a draft it binds methods in three steps.

* Every handler prepares the draft, in the order of the rules, a repeated one only once. A method
  that a handler adds is its own: it is bound to the handler at once, and no rule claims it.
* Every family of the draft's graph offers its representative to the rules, and the first rule that
  matches claims it. A public method of an inherited package-private class that no rule claims is
  bound to a visibility bridge.
* The constructors, static and private methods that the draft declares are offered in the same
  way, and then the type initializer.

A method is offered only if its types are visible to the draft and the registry is allowed to claim
it. The type initializer is always offered.

## Main definitions

* `Rule`, `Registry` — the rules, first match first
* `Entry` — what a method is bound to
* `Registry.prepare` — the bindings for a draft
-/

namespace ClassForge

/-- Which methods are claimed, and how they are written. -/
structure Rule where
  matcher : LatentMatcher
  handler : Handler
  attributes : Attributes := .nothing
  /-- Changes to the flags of claimed methods. -/
  changes : List ModifierChange := []
deriving Inhabited

/-- Rules in the order in which they are tried. -/
structure Registry where
  rules : List Rule := []
deriving Inhabited

/-- What a method is bound to. -/
structure Entry where
  /-- The method as it was found. -/
  source : Method
  handler : Handler
  attributes : Attributes
  /-- The method as it is written, after the changes of its rule. -/
  method : Method
  /-- The erased types of the method's family. -/
  types : List MethodType
  visibility : Visibility
  /-- Whether the registry made up the entry to expose an inherited method. -/
  isBridge : Bool
deriving Inhabited

/-- What methods are bound to, in the order in which they were bound. -/
abbrev Entries := OrderedMap MethodIdentity Entry

namespace Entry

/-- The types of the family that the method itself does not answer. -/
def bridgeTypes (e : Entry) : List MethodType := e.types.filter (· ≠ e.method.type)

/-- The entry of a method that a handler added to the type. -/
def ofHelper (h : Handler) (m : Method) : Entry where
  source := m
  handler := h
  attributes := .ofMethod m
  method := m
  types := []
  visibility := m.visibility
  isBridge := false

/-- The entry of a method that a rule claims. -/
def ofRule (r : Rule) (m : Method) (types : List MethodType) (v : Visibility) : Entry where
  source := m
  handler := r.handler
  attributes := r.attributes
  method := m.change r.changes
  types := types
  visibility := v
  isBridge := false

/-- The entry that exposes an inherited method. -/
def ofBridge (node : Node) : Entry where
  source := node.representative
  handler := .bridge
  attributes := .ofMethod node.representative
  method := node.representative
  types := []
  visibility := node.visibility
  isBridge := true

end Entry

/-- The entries with one more. An earlier entry of the method is replaced, but the method stays as
it was found first. -/
def Entries.bind (es : Entries) (e : Entry) : Entries :=
  es.alter e.source.identity fun
    | some old => { e with source := old.source }
    | none => e

namespace Registry

/-- The registry with a rule tried before all others. -/
def prepend (r : Registry) (rule : Rule) : Registry := ⟨rule :: r.rules⟩

/-- The registry with a rule tried after all others. -/
def append (r : Registry) (rule : Rule) : Registry := ⟨r.rules ++ [rule]⟩

/-- The number of rules. -/
def size (r : Registry) : Nat := r.rules.length

/-! ### Preparing the draft -/

/-- A draft while handlers prepare it. -/
structure Progress where
  draft : Draft
  /-- The handlers that have had their turn. -/
  handled : List Handler := []
  /-- The methods that the draft is known to declare. -/
  known : List MethodIdentity
  entries : Entries := .empty

namespace Progress

/-- A draft before the first handler. -/
def start (d : Draft) : Progress := { draft := d, known := d.decl.methods.map (·.identity) }

/-- Binds a method of the draft to the handler `h` that added it. -/
def capture (h : Handler) (s : Progress) (m : Method) : Progress :=
  if m.identity ∈ s.known then s
  else
    { s with known := m.identity :: s.known, entries := s.entries.bind (.ofHelper h m) }

/-- Gives the handler of a rule its turn. -/
def step (s : Progress) (r : Rule) : Build Progress :=
  if r.handler ∈ s.handled then .ok s
  else do
    let draft ← r.handler.prepare s.draft
    return draft.decl.methods.foldl (capture r.handler)
      { s with draft, handled := r.handler :: s.handled }

end Progress

/-! ### Binding methods -/

/-- A rule whose matcher knows the type. -/
abbrev ResolvedRule := MethodMatcher × Rule

/-- What binding looks at. -/
structure Scene where
  pool : Pool
  type : TypeDecl
  /-- Which methods may be claimed. -/
  claimable : MethodMatcher
  rules : List ResolvedRule

namespace Scene

/-- Whether the method is offered to the rules. -/
def offers (s : Scene) (es : Entries) (m : Method) : Bool :=
  !es.contains m.identity && s.pool.isTypeVisible s.type m.returnType &&
    m.parameters.all (fun p => s.pool.isTypeVisible s.type p.type) &&
    s.claimable.accepts s.pool m

/-- The first rule that matches. -/
def ruleFor? (s : Scene) (m : Method) : Option Rule :=
  (s.rules.find? fun r => r.1.accepts s.pool m).map Prod.snd

/-- Whether the family has to be exposed by the type: its representative is public and can be
overridden, but it is inherited from a package-private class, and no bridge exposes it yet. -/
def needsBridge (s : Scene) (node : Node) : Bool :=
  let m := node.representative
  s.type.isPublic && !s.type.isInterface && node.sort ≠ .visible && m.isPublic && !m.isAbstract &&
    !m.isFinal && m.owner ≠ s.type.name && (s.pool.find? m.owner).any (·.isPackagePrivate)

/-- Offers the representative of a family. -/
def bindNode (s : Scene) (es : Entries) (node : Node) : Entries :=
  let m := node.representative
  match if s.offers es m then s.ruleFor? m else none with
  | some r => es.bind (.ofRule r m node.types node.visibility)
  | none =>
    if s.needsBridge node && !es.contains m.identity then es.bind (.ofBridge node) else es

/-- Binds a method that is no member of a family to the first rule that matches. -/
def bindMethod (s : Scene) (es : Entries) (m : Method) : Entries :=
  match s.ruleFor? m with
  | some r => es.bind (.ofRule r m [] m.visibility)
  | none => es

/-- The methods of no family that are offered, the type initializer last. -/
def nonVirtual (s : Scene) (es : Entries) : List Method :=
  s.type.methods.filter (fun m => !m.isVirtual && !m.isTypeInitializer && s.offers es m) ++
    [.typeInitializer s.type.name]

end Scene

end Registry

/-- A registry applied to a draft. -/
structure PreparedRegistry where
  /-- The draft with what the handlers added. -/
  draft : Draft
  graph : LinkedGraph
  entries : Entries
  /-- All methods that were looked at: representatives of families, then methods of no family,
  then the type initializer. -/
  methods : List Method
  pool : Pool

/-- The bound methods without the type initializer. -/
def Entries.instrumented (es : Entries) : List Method :=
  (es.values.map (·.source)).filter (!·.isTypeInitializer)

/-- Binds the methods of a draft. `claimable` says which methods may be claimed; with `validate`
the draft has to make sense once it is prepared. -/
def Registry.prepare (r : Registry) (d : Draft) (scope : GraphScope) (validate : Bool) (p : Pool)
    (claimable : LatentMatcher) : Build PreparedRegistry := do
  let progress ← r.rules.foldlM Registry.Progress.step (.start d)
  let type := progress.draft.decl
  let graph := scope.compile p type
  let scene : Scene :=
    { pool := p, type, claimable := claimable.resolve type
      rules := r.rules.map fun rule => (rule.matcher.resolve type, rule) }
  let virtualEntries := graph.graph.values.foldl scene.bindNode progress.entries
  let others := scene.nonVirtual virtualEntries
  if validate then discard (progress.draft.validate p)
  return {
    draft := progress.draft
    graph
    entries := others.foldl scene.bindMethod virtualEntries
    methods := graph.graph.values.map (·.representative) ++ others
    pool := p }

end ClassForge
