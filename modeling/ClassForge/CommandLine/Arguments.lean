/-!
# Arguments

The program has two commands: `build` writes the listing of a planned class, and `check` only says
whether it could. Both take the file of the plan, and `build` takes an option for a file to write
to. Options may stand before or after the file, up to `--`, which makes the rest plain words.
Letters of short options may be run together, and the last of them may have its value right behind
it or behind a `=`.

Arguments are read from left to right, and reading stops at the first that cannot be understood, or
that asks for help or for the version.

## Main definitions

* `Invocation` — what a command is to do
* `Stop` — why there is nothing to do
* `Invocation.ofArguments` — reading the arguments
-/

namespace ClassForge

/-- What a command is to do. -/
inductive Invocation where
  /-- Write the listing, to a file if one is given. -/
  | build (plan : String) (output : Option String)
  | check (plan : String)
deriving DecidableEq

/-- Why arguments cannot be understood. -/
inductive UsageError where
  | unknownCommand (word : String)
  | unknownOption (argument : String)
  | unexpected (word : String)
  | missingCommand
  | missingPlan
  | missingFile
  | repeatedFile
deriving DecidableEq

/-- The error in words. -/
def UsageError.message : UsageError → String
  | unknownCommand word => "unknown command: " ++ word
  | unknownOption argument => "unknown option: " ++ argument
  | unexpected word => "unexpected argument: " ++ word
  | missingCommand => "a command is required"
  | missingPlan => "the file of a plan is required"
  | missingFile => "--output needs a file"
  | repeatedFile => "--output is given twice"

/-- Why there is nothing to do. -/
inductive Stop where
  | help
  | version
  | misused (cause : UsageError)
deriving DecidableEq

namespace CommandLine

/-- What the arguments are about so far. -/
inductive Topic where
  | nothing
  | build
  | check
  /-- Help, on a command or in general. -/
  | help (command : Option String)
deriving DecidableEq, Inhabited

/-- What the arguments said so far. -/
structure Progress where
  topic : Topic := .nothing
  plan : Option String := none
  output : Option String := none
  /-- Whether the next argument has to be the file to write to. -/
  awaitsFile : Bool := false
  /-- Whether options have ended. -/
  onlyWords : Bool := false
deriving DecidableEq, Inhabited

/-- The outcome of reading arguments. -/
abbrev Reading := Except Stop

/-- An argument cannot be understood. -/
def misused {α : Type} (cause : UsageError) : Reading α := .error (.misused cause)

/-- The names of the commands. -/
def commands : List (String × Topic) :=
  [("build", .build), ("check", .check), ("help", .help none)]

namespace Progress

/-- Reads a word that is no option. -/
def word (s : Progress) (w : String) : Reading Progress :=
  match s.topic with
  | .nothing =>
    match if s.onlyWords then none else commands.lookup w with
    | some topic => .ok { s with topic }
    | none => misused (.unknownCommand w)
  | .build | .check => if s.plan.isNone then .ok { s with plan := some w } else misused (.unexpected w)
  | .help none =>
    if (commands.lookup w).isSome then .ok { s with topic := .help (some w) }
    else misused (.unknownCommand w)
  | .help (some _) => misused (.unknownCommand w)

/-- Takes the file to write to. -/
def file (s : Progress) (name : String) : Reading Progress :=
  if s.output.isNone then .ok { s with output := some name, awaitsFile := false }
  else misused .repeatedFile

/-- Reads the letters of short options, which stand in the argument `whole`. -/
def letters (s : Progress) (whole : String) : List Char → Reading Progress
  | [] => .ok s
  | 'v' :: cs => s.letters whole cs
  | 'h' :: _ => .error .help
  | c :: cs =>
    if c = 'V' ∧ s.topic = .nothing then .error .version
    else if c = 'o' ∧ s.topic = .build then
      match cs with
      | [] => .ok { s with awaitsFile := true }
      | '=' :: name => s.file (String.ofList name)
      | name => s.file (String.ofList name)
    else misused (.unknownOption whole)

/-- Reads a long option, with the text behind its `=` if it has one. -/
def long (s : Progress) (name : String) (value : Option String) : Reading Progress :=
  match name, value with
  | "verbose", none => .ok s
  | "help", none => .error .help
  | "version", none =>
    if s.topic = .nothing then .error .version else misused (.unknownOption name)
  | "output", value =>
    if s.topic = .build then value.elim (.ok { s with awaitsFile := true }) s.file
    else misused (.unknownOption name)
  | _, _ => misused (.unknownOption name)

/-- Reads one argument. -/
def step (s : Progress) (argument : String) : Reading Progress :=
  let isPlain := s.onlyWords || s.topic matches .help _
  match if isPlain then [] else argument.toList with
  | '-' :: c :: cs =>
    if s.awaitsFile then misused .missingFile
    else if c ≠ '-' then s.letters argument (c :: cs)
    else if cs = [] then .ok { s with onlyWords := true }
    else
      let name := cs.takeWhile (· ≠ '=')
      let value := cs.drop (name.length + 1)
      s.long (String.ofList name) (if name = cs then none else some (String.ofList value))
  | _ => if s.awaitsFile then s.file argument else s.word argument

/-- What is to be done when all arguments have been read. -/
def finish (s : Progress) : Reading Invocation :=
  if s.awaitsFile then misused .missingFile
  else
    match s.topic, s.plan with
    | .nothing, _ => misused .missingCommand
    | .help _, _ => .error .help
    | _, none => misused .missingPlan
    | .build, some plan => .ok (.build plan s.output)
    | .check, some plan => .ok (.check plan)

end Progress

end CommandLine

open CommandLine in
/-- What the arguments ask for. -/
def Invocation.ofArguments (arguments : List String) : Reading Invocation := do
  (← arguments.foldlM Progress.step {}).finish

end ClassForge
