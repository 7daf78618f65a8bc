import ClassForge.Annotation
import ClassForge.Appender
import ClassForge.Attributes
import ClassForge.BinaryName
import ClassForge.BuildConfig
import ClassForge.BuildError
import ClassForge.BuiltType
import ClassForge.ClassFile.Basic
import ClassForge.ClassFile.Listing
import ClassForge.Code.Array
import ClassForge.Code.Emit
import ClassForge.Code.Fragment
import ClassForge.Code.Instruction
import ClassForge.CommandLine.Arguments
import ClassForge.CommandLine.Run
import ClassForge.Constant
import ClassForge.Constructors
import ClassForge.Digest.Sha256
import ClassForge.Document
import ClassForge.Draft.Basic
import ClassForge.Draft.Validation
import ClassForge.FieldLocator
import ClassForge.FieldRegistry
import ClassForge.Implementation.Basic
import ClassForge.Implementation.Compile
import ClassForge.LoadAction
import ClassForge.Main
import ClassForge.Matcher.Field
import ClassForge.Matcher.Latent
import ClassForge.Matcher.Method
import ClassForge.Member.Field
import ClassForge.Member.Method
import ClassForge.MethodGraph.Compile
import ClassForge.MethodGraph.Merge
import ClassForge.MethodGraph.Node
import ClassForge.MethodRecord
import ClassForge.ModifierChange
import ClassForge.Modifiers
import ClassForge.Naming
import ClassForge.OrderedMap
import ClassForge.Plan.Build
import ClassForge.Plan.Config
import ClassForge.Plan.Decode
import ClassForge.Plan.Outline
import ClassForge.Pool.Access
import ClassForge.Pool.Basic
import ClassForge.Pool.Builtin
import ClassForge.Pool.Hierarchy
import ClassForge.Registry.Compile
import ClassForge.Registry.Handler
import ClassForge.Registry.Prepare
import ClassForge.Release
import ClassForge.Relocation
import ClassForge.Subclass
import ClassForge.Target
import ClassForge.Text.Alphabetic
import ClassForge.Text.Blank
import ClassForge.Text.Intervals
import ClassForge.Text.Invisible
import ClassForge.Text.Numeric
import ClassForge.Text.Quoted
import ClassForge.Text.Uppercase
import ClassForge.Toml.DateTable
import ClassForge.Toml.DateTime
import ClassForge.Toml.Decode
import ClassForge.Toml.Number
import ClassForge.Toml.Parser
import ClassForge.Toml.Scan
import ClassForge.Toml.Text
import ClassForge.Toml.Tree
import ClassForge.Toml.Value
import ClassForge.TypeDecl
import ClassForge.TypeRef.Basic
import ClassForge.TypeRef.Parser
import ClassForge.TypeRef.Token
import ClassForge.Proofs.Acceptance
import ClassForge.Proofs.AccessBridges
import ClassForge.Proofs.Ambiguity
import ClassForge.Proofs.Binding
import ClassForge.Proofs.BrokenBlanks
import ClassForge.Proofs.ClassMethods
import ClassForge.Proofs.Compilation
import ClassForge.Proofs.Conflicts
import ClassForge.Proofs.DeclaredMethods
import ClassForge.Proofs.Descriptors
import ClassForge.Proofs.ExistingBridges
import ClassForge.Proofs.Families
import ClassForge.Proofs.FamilyEntries
import ClassForge.Proofs.FamilyKinds
import ClassForge.Proofs.FamilyMembers
import ClassForge.Proofs.FamilyRecords
import ClassForge.Proofs.FamilySteps
import ClassForge.Proofs.FieldConstants
import ClassForge.Proofs.FieldLookup
import ClassForge.Proofs.FirstMatch
import ClassForge.Proofs.FixedValues
import ClassForge.Proofs.Flattening
import ClassForge.Proofs.FrameWidths
import ClassForge.Proofs.GeneratedCode
import ClassForge.Proofs.GenericShapes
import ClassForge.Proofs.GraphWalk
import ClassForge.Proofs.Growth
import ClassForge.Proofs.HandlerTurns
import ClassForge.Proofs.HelperBodies
import ClassForge.Proofs.HierarchyOrder
import ClassForge.Proofs.ImitatedConstructors
import ClassForge.Proofs.ImplementationSteps
import ClassForge.Proofs.InitializerCode
import ClassForge.Proofs.Interceptions
import ClassForge.Proofs.LinkedGraphs
import ClassForge.Proofs.MostSpecific
import ClassForge.Proofs.OperandStack
import ClassForge.Proofs.Origins
import ClassForge.Proofs.Outcomes
import ClassForge.Proofs.Preparation
import ClassForge.Proofs.ReadingPositions
import ClassForge.Proofs.RelocatedCalls
import ClassForge.Proofs.RelocatedNames
import ClassForge.Proofs.Relocations
import ClassForge.Proofs.RoundTrips
import ClassForge.Proofs.SameHeader
import ClassForge.Proofs.Signatures
import ClassForge.Proofs.StackKinds
import ClassForge.Proofs.Subtyping
import ClassForge.Proofs.SuperCalls
import ClassForge.Proofs.SuperConstructors
import ClassForge.Proofs.Supertypes
import ClassForge.Proofs.Tokens
import ClassForge.Proofs.TypeNames
import ClassForge.Proofs.TypeTexts
import ClassForge.Proofs.Unbound
import ClassForge.Proofs.VisibilityBridges
import ClassForge.Proofs.VisibleSuperCalls
import ClassForge.Proofs.WellFormed
import ClassForge.Proofs.WrittenCode
import ClassForge.Proofs.WrittenFlags
import ClassForge.Proofs.WrittenMethods
import ClassForge.Proofs.WrittenVisibility
