import ClassForge.CommandLine.Run

/-!
# The program

Reads the file of the plan, runs the command, prints and writes what it leaves behind, and exits
with its status.
-/

namespace ClassForge

/-- The text of a file, if it can be read. -/
def textOf? (file : String) : IO (Option String) := do
  try return some (← IO.FS.readFile ⟨file⟩) catch _ => return none

/-- What the arguments lead to. -/
def outcomeOf (arguments : List String) : IO Outcome := do
  match Invocation.ofArguments arguments with
  | .error stop => return stop.outcome
  | .ok i => return i.run (← textOf? i.plan)

/-- Whether a text could be written to a file. -/
def write (file text : String) : IO Bool := do
  try
    IO.FS.writeFile ⟨file⟩ text
    return true
  catch _ => return false

/-- Prints and writes what a run leaves behind, and returns the exit status. -/
def Outcome.deliver (o : Outcome) : IO UInt32 := do
  IO.print o.output
  IO.eprint o.complaint
  match o.written with
  | none => return .ofNat o.status
  | some (file, text) =>
    if ← write file text then return .ofNat o.status
    IO.eprintln ("cannot write " ++ file)
    return 1

end ClassForge

def main (arguments : List String) : IO UInt32 := do
  (← ClassForge.outcomeOf arguments).deliver
