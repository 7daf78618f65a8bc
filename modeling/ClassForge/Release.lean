/-!
# Releases of the platform

A class file is written for one release of the platform, and its header gives the major version of
the format. The first release has version 45, the second 46, and from then on each release is one
more. Bridge methods, with which one method answers several signatures, came with release 5.

A release carries the proof that the writer knows it, so nothing that takes one can fail on it.
-/

namespace ClassForge

/-- A release that class files can be written for. -/
structure Release where
  number : Nat
  known : 1 ≤ number ∧ number ≤ 25
deriving DecidableEq

/-- The release has a number that the writer does not know. -/
structure UnsupportedRelease where
  number : Nat
deriving DecidableEq

/-- The error in words. -/
def UnsupportedRelease.message (e : UnsupportedRelease) : String :=
  "unsupported class file version: Java " ++ toString e.number

namespace Release

/-- The release with a number, if the writer knows it. -/
def of? (number : Nat) : Option Release :=
  if h : 1 ≤ number ∧ number ≤ 25 then some ⟨number, h⟩ else none

theorem of?_number (r : Release) : of? r.number = some r := by
  simp [of?, r.known]

/-- The release with a number. -/
def ofNumber (number : Nat) : Except UnsupportedRelease Release :=
  match of? number with
  | some r => .ok r
  | none => .error ⟨number⟩

/-- The release that class files are written for unless another is asked for. -/
def default : Release := ⟨8, by decide⟩

instance : Inhabited Release := ⟨default⟩

/-- The major version of the class file format. -/
def major (r : Release) : Nat := if r.number = 1 then 45 else r.number + 44

/-- Whether the format has bridge methods. -/
def supportsBridges (r : Release) : Bool := 49 ≤ r.major

theorem supportsBridges_iff (r : Release) : r.supportsBridges = true ↔ 5 ≤ r.number := by
  have := r.known
  rw [supportsBridges, decide_eq_true_iff, major]
  split <;> omega

/-- The release with its major version. -/
def display (r : Release) : String :=
  "Java " ++ toString r.number ++ " (major " ++ toString r.major ++ ")"

instance : ToString Release := ⟨display⟩

end Release

end ClassForge
