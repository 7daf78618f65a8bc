import ClassForge.CommandLine.Arguments
import ClassForge.Plan.Build

/-!
# Running a command

A run reads at most one file, and it leaves behind an exit status, some output and at most one
written file. All of that is a function of the arguments and of what is in the file, so only
reading, printing and writing are left to the program.

## Main definitions

* `Outcome` — what a run leaves behind
* `Invocation.run` — a command, given the text of its plan
* `CommandLine.run` — the whole program, given what files hold
-/

namespace ClassForge

/-- What a run leaves behind. -/
structure Outcome where
  status : Nat := 0
  /-- What is printed. -/
  output : String := ""
  /-- The file that is written, with its text. -/
  written : Option (String × String) := none
  /-- What is said about an error. -/
  complaint : String := ""
deriving DecidableEq, Inhabited

/-- Why a command failed. -/
inductive RunError where
  /-- The file of the plan cannot be read. -/
  | unreadable (file : String)
  | format (cause : PlanSyntaxError)
  | plan (cause : PlanError)
deriving DecidableEq

namespace RunError

/-- The error in words. -/
def message : RunError → String
  | unreadable file => "cannot read " ++ file
  | format (.config cause) => cause.message
  | format .malformed => "invalid plan"
  | plan cause => cause.message

/-- The exit status. A type name that is broken off ends the program at once. -/
def status : RunError → Nat
  | plan (.typeName _ .brokenBlank) => 101
  | _ => 1

/-- What a failed run leaves behind. -/
def outcome (e : RunError) : Outcome := { status := e.status, complaint := e.message ++ "\n" }

end RunError

/-- The class of the plan in a text. -/
def Plan.build (text : String) : Except RunError BuiltType := do
  let plan ← (Plan.ofText text).mapError .format
  plan.make.mapError .plan

namespace Invocation

/-- The file of the plan. -/
def plan : Invocation → String
  | .build plan _ | .check plan => plan

/-- What is said of a class that can be built. -/
def report (t : BuiltType) : String :=
  t.decl.name ++ ": ok (" ++ toString t.classFile.methods.length ++ " methods, " ++
    toString t.classFile.fields.length ++ " fields)\n"

/-- What a command leaves behind for a class that was built. -/
def outcome (t : BuiltType) : Invocation → Outcome
  | .build _ none => { output := t.listing ++ "\n" }
  | .build _ (some file) => { written := some (file, t.listing ++ "\n") }
  | .check _ => { output := report t }

/-- Runs a command, given the text of its plan if the file can be read. -/
def run (i : Invocation) (text : Option String) : Outcome :=
  match text with
  | none => (RunError.unreadable i.plan).outcome
  | some text =>
    match Plan.build text with
    | .ok t => i.outcome t
    | .error e => e.outcome

end Invocation

namespace CommandLine

/-- The description of the arguments. -/
def usage : String :=
  "Builds subclasses from plans\n\n" ++
  "  build PLAN [-o FILE]  write the listing of the class, to FILE if it is given\n" ++
  "  check PLAN            say whether the class can be built\n" ++
  "  help                  print this text\n"

/-- The version of the program. -/
def version : String := "0.1.0\n"

end CommandLine

/-- What a run leaves behind that has nothing to do. -/
def Stop.outcome : Stop → Outcome
  | help => { output := CommandLine.usage }
  | version => { output := CommandLine.version }
  | misused cause => { status := 2, complaint := cause.message ++ "\n" }

/-- Runs the program, given the texts of the files that can be read. -/
def CommandLine.run (arguments : List String) (read : String → Option String) : Outcome :=
  match Invocation.ofArguments arguments with
  | .ok i => i.run (read i.plan)
  | .error stop => stop.outcome

end ClassForge
