import ClassForge.Appender
import ClassForge.Attributes
import ClassForge.ClassFile.Basic

/-!
# What is written for a method

A record is the plan for one method: nothing, a declaration, or code. Whether a method is abstract
in the class file is decided by whether it gets code, never by its declaration, and a method is
written at least as visible as its record asks for.

Two kinds of bridge appear. A *visibility bridge* declares an inherited method once more so that
it is visible, and calls it. An *access bridge* stands beside a method of the type, answers
another signature of the same family, and calls the method with its arguments cast.

## Main definitions

* `MethodRecord` — the plans
* `MethodRecord.prepend` — code that runs first
* `MethodRecord.apply` — the written methods
-/

namespace ClassForge

/-- The bridges beside a method. -/
structure AccessBridges where
  /-- The type that gets the bridges. -/
  owner : String
  dispatch : Dispatch
  /-- The method that the bridges call. -/
  target : Method
  /-- The erased types that the bridges answer. -/
  types : List MethodType
  sources : List AnnotationSource

/-- The plan for one method. -/
inductive MethodRecord where
  /-- The method is not written. -/
  | skipped (method : Method)
  /-- The method is written without code. -/
  | declared (method : Method) (sources : List AnnotationSource) (visibility : Visibility)
  | implemented (method : Method) (code : Appender) (sources : List AnnotationSource)
      (visibility : Visibility)
  /-- The method is written as an annotation element with a default. -/
  | annotationDefault (method : Method) (value : AnnotationValue)
      (sources : List AnnotationSource)
  /-- `bridge` is written and calls `target` in the superclass. -/
  | visibilityBridge (bridge target : Method) (superclass : String)
      (sources : List AnnotationSource)
  | withBridges (main : MethodRecord) (bridges : AccessBridges)

/-- What a record contributes to a class file. -/
inductive RecordSort where
  /-- Nothing. -/
  | skipped
  /-- A declaration without code. -/
  | defined
  /-- A declaration with code. -/
  | implemented
deriving DecidableEq, Inhabited

/-- The sort in words. -/
def RecordSort.display : RecordSort → String
  | skipped => "skipped"
  | defined => "defined"
  | implemented => "implemented"

/-- The flags that a method is written with. -/
def Method.writtenModifiers (m : Method) (visibility : Visibility) (hasCode : Bool) : Modifiers :=
  let flags :=
    if hasCode then m.modifiers \ .of [.accAbstract, .accNative]
    else (m.modifiers ∪ .of [.accAbstract]) \ .of [.accNative]
  flags.withVisibility (m.visibility.widen visibility)

namespace AccessBridges

/-- The flags of the bridges beside a method with the flags `m`. -/
def modifiers (m : Modifiers) : Modifiers :=
  (m ∪ .of [.accBridge, .accSynthetic]) \ .of [.accAbstract, .accNative]

/-- The bridge for some erased types. -/
def bridge (b : AccessBridges) (flags : Modifiers) (t : MethodType) : Method :=
  { owner := b.owner, name := b.target.name, modifiers := flags, returnType := t.returnType
    parameters := t.parameterTypes.map ({ type := · }), exceptions := b.target.exceptions }

/-- Casts the arguments of a bridge and calls the method. -/
def forward (b : AccessBridges) (bridge : Method) : Fragment :=
  .join (.loadThis ::
    (bridge.parameters.zip b.target.parameters).mapIdx (fun i p =>
      .join [.load p.1.type (bridge.parameterOffset i), .cast p.2.type]) ++
    [.invokeOn b.target b.owner b.dispatch, .ret bridge.returnType])

/-- The written bridge for some erased types. -/
def write (b : AccessBridges) (flags : Modifiers) (t : MethodType) : Build WrittenMethod := do
  let bridge := b.bridge flags t
  let code ← Appender.codeOf bridge (b.forward bridge)
  return { WrittenMethod.of bridge bridge.modifiers with
    annotations := AnnotationSource.apply b.sources bridge, code := some code }

end AccessBridges

namespace MethodRecord

def sort : MethodRecord → RecordSort
  | skipped _ => .skipped
  | declared .. | annotationDefault .. => .defined
  | implemented .. | visibilityBridge .. => .implemented
  | withBridges main _ => main.sort

/-- The method that the record is about. -/
def method : MethodRecord → Method
  | skipped m | declared m _ _ | implemented m _ _ _ | annotationDefault m _ _ => m
  | visibilityBridge bridge _ _ _ => bridge
  | withBridges main _ => main.method

/-- The visibility that the record asks for. -/
def visibility : MethodRecord → Visibility
  | declared _ _ v | implemented _ _ _ v => v
  | withBridges main _ => main.visibility
  | r => r.method.visibility

/-- The record with code that runs first. What is not written becomes a method that returns a zero
value after that code; what is written without code of its own cannot take any. -/
def prepend (first : Appender) : MethodRecord → Build MethodRecord
  | skipped m =>
    let tail : Appender := .fragment (.join [.pushDefault m.returnType, .ret m.returnType])
    .ok (implemented m (.join [first, tail]) [] m.visibility)
  | implemented m code sources v => .ok (implemented m (.join [first, code]) sources v)
  | withBridges main bridges => do return withBridges (← main.prepend first) bridges
  | r => .error (.misuse (.noCode r.method))

/-- A written method without bridges. -/
def write (m : Method) (modifiers : Modifiers) (sources : List AnnotationSource) :
    WrittenMethod :=
  { WrittenMethod.of m modifiers with annotations := AnnotationSource.apply sources m }

/-- The written methods: the method itself, and then its bridges. -/
def apply : MethodRecord → Build (List WrittenMethod)
  | skipped _ => .ok []
  | declared m sources v => .ok [write m (m.writtenModifiers v false) sources]
  | implemented m code sources v => do
    let code ← code.apply m
    return [{ write m (m.writtenModifiers v true) sources with code := some code }]
  | annotationDefault m value sources =>
    let written := write m (m.writtenModifiers m.visibility false) sources
    .ok [{ written with defaultValue := some value }]
  | visibilityBridge bridge target superclass sources => do
    let code ← Appender.codeOf bridge
      (.join [.loadArguments bridge true, .invokeOn target superclass .special,
        .ret bridge.returnType])
    return [{ write bridge bridge.modifiers sources with code := some code }]
  | withBridges main bridges => do
    let written ← main.apply
    let flags := AccessBridges.modifiers main.method.modifiers
    return written ++ (← bridges.types.mapM (bridges.write flags))

end MethodRecord

end ClassForge
