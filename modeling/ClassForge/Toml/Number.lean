import ClassForge.Toml.DateTime
import ClassForge.Toml.Value

/-!
# Numbers in a settings file

An underscore may stand between two digits of a number. Integers are written in base ten, without
leading zeros, or after `0x`, `0o` and `0b` in another base and then without a sign; they have to
fit in 64 bits. A number with a fraction or an exponent may not be too large for a double; how it
is rounded does not matter here.

A number may begin like a date or a time, so these are tried first.

## Main definitions

* `number` — a number, a date or a time
-/

namespace ClassForge.Toml

open Scan

/-! ### Digits -/

/-- The digits after a first digit, with an underscore before any of them. -/
def moreDigits (isDigit : Char → Bool) : Scan (List Char) := fun cs => some (go cs)
where
  go : List Char → List Char × List Char
    | '_' :: c :: cs =>
      if isDigit c then (c :: (go cs).1, (go cs).2) else ([], '_' :: c :: cs)
    | c :: cs => if isDigit c then (c :: (go cs).1, (go cs).2) else ([], c :: cs)
    | [] => ([], [])

/-- One digit or more. -/
def digits (isDigit : Char → Bool) : Scan (List Char) := do
  return (← one isDigit) :: (← moreDigits isDigit)

/-- The digits of a decimal integer: a zero, or digits of which the first is none. -/
def decimalDigits : Scan (List Char) := do
  let c ← one Char.isDigit
  if c = '0' then return [c] else return c :: (← moreDigits Char.isDigit)

/-- A sign, which may be missing; whether it is a minus. -/
def sign : Scan Bool := do
  match ← peek? with
  | some '-' => char '-'; return true
  | some '+' => char '+'; return false
  | _ => return false

/-! ### Integers -/

/-- The integer, if it fits in 64 bits. -/
def fitting (n : Int) : Scan Value :=
  if Int64.minValue.toInt ≤ n ∧ n ≤ Int64.maxValue.toInt then pure (.integer n) else failure

/-- An integer after the word for its base. -/
def integerInBase (mark : String) (base : Nat) : Scan Value := do
  word mark
  let ds ← digits fun c => (hexDigit? c).any (· < base)
  fitting (ofDigits base ds)

/-- An integer. -/
def integer : Scan Value :=
  integerInBase "0x" 16 <|> integerInBase "0o" 8 <|> integerInBase "0b" 2 <|> do
    let isNegative ← sign
    let n : Int := ofDigits 10 (← decimalDigits)
    fitting (if isNegative then -n else n)

/-! ### Numbers with a fraction -/

/-- Whether `m * 10 ^ e` rounds to a double that is finite. -/
def isFinite (m : Nat) (e : Int) : Bool :=
  let size : Int := (toString m).length + e
  if m = 0 ∨ size < 300 then true
  else if size > 310 then false
  else if 0 ≤ e then m * Nat.pow 10 e.toNat < overflow else m < overflow * Nat.pow 10 (-e).toNat
where
  /-- The least number that is rounded up beyond the largest double. -/
  overflow : Nat := Nat.pow 2 1024 - Nat.pow 2 970

/-- An exponent. -/
def exponent : Scan Int := do
  discard (one fun c => c = 'e' || c = 'E')
  let isNegative ← sign
  let n : Int := ofDigits 10 (← digits Char.isDigit)
  return if isNegative then -n else n

/-- A number with a fraction, an exponent or both. -/
def decimal : Scan Value := do
  let isNegative ← sign
  let whole ← decimalDigits
  let fraction ← attempt (do char '.'; digits Char.isDigit)
  let e ← match fraction with
    | none => exponent
    | some _ => (·.getD 0) <$> attempt exponent
  let fraction := fraction.getD []
  if isNegative || isFinite (ofDigits 10 (whole ++ fraction)) (e - fraction.length) then
    return .float
  else failure

/-- The words for what is no finite number. -/
def special : Scan Value := do
  discard sign
  word "inf" <|> word "nan"
  return .float

/-- A number, a date or a time. -/
def number : Scan Value := (.dateTime <$> moment) <|> decimal <|> integer <|> special

end ClassForge.Toml
