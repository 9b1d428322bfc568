import ModelLoading.Toml.Strings
import ModelLoading.Toml.Value

/-!
# Numbers

Integers have 64 bits and a sign; without a sign they may be written in base 16, 8 or 2. Numbers with
a fraction or an exponent are kept as they are written, but must not round to positive infinity as
numbers of 64 bits. Single underscores may stand between digits.
-/

namespace ModelLoading.Toml

/-- Whether a character is a decimal digit. -/
def isDigit (c : Char) : Bool := '0' ≤ c ∧ c ≤ '9'

/-- Further digits after a first one, underscores between them left out. -/
def moreDigits (p : Char → Bool) : List Char → Except Error (List Char × List Char)
  | '_' :: c :: rest => if p c then consRead (some c) (moreDigits p rest) else .error .syntaxError
  | c :: rest =>
    if c = '_' then .error .syntaxError
    else if p c then consRead (some c) (moreDigits p rest)
    else .ok ([], c :: rest)
  | [] => .ok ([], [])

/-- One digit or more, underscores between them left out. -/
def digits (p : Char → Bool) : Parser (List Char) := do
  match ← Parser.peek with
  | some c => if p c then .ofFunction (moreDigits p) else Parser.refuse
  | none => Parser.refuse

/-- The value of digits in a base. -/
def valueOf (base : Nat) (ds : List Char) : Nat :=
  ds.foldl (fun n c => base * n + (hexValue? c).getD 0) 0

/-- A value of a number with 64 bits and a sign. -/
def int64? (n : Int) : Except Error Value :=
  if (Int64.ofInt n).toInt = n then .ok (.integer n) else .error .syntaxError

/-- The digits of a decimal number; a zero at the front stands alone. -/
def decimalDigits : Parser (List Char) := do
  if (← Parser.peek) = some '0' then
    Parser.skip
    return ['0']
  else digits isDigit

/-- A sign, if one follows. -/
def sign? : Parser (Option Char) := do
  match ← Parser.peek with
  | some '+' => Parser.skip; return some '+'
  | some '-' => Parser.skip; return some '-'
  | _ => return none

/-- The least number that rounds to infinity: it lies half a unit of the last place above the greatest
number of 64 bits. -/
def overflowBound : Nat := Nat.pow 2 1024 - Nat.pow 2 970

/-- Whether the number with these digits, times a power of ten, rounds to infinity. -/
def overflows (significand : List Char) (exponent : Int) : Bool :=
  let m := valueOf 10 significand
  let size : Int := ((significand.dropWhile (· = '0')).length : Int) + exponent
  if m = 0 ∨ size ≤ 300 then false
  else if size > 320 then true
  else if 0 ≤ exponent then overflowBound ≤ m * Nat.pow 10 exponent.toNat
  else overflowBound * Nat.pow 10 (-exponent).toNat ≤ m

/-- The rest of a number after its decimal digits: a fraction, an exponent, or nothing. -/
def numberTail (sign : Option Char) (whole : List Char) : Parser Value := do
  let fraction ← match ← Parser.peek with
    | some '.' => Parser.skip; some <$> digits isDigit
    | _ => pure none
  let exponent ← match ← Parser.peek with
    | some c =>
      if c = 'e' ∨ c = 'E' then
        Parser.skip
        let sign ← sign?
        let ds ← digits isDigit
        pure (some (sign, ds))
      else pure none
    | none => pure none
  let negative := sign = some '-'
  match fraction, exponent with
  | none, none =>
    let n := valueOf 10 whole
    int64? (if negative then -n else n)
  | _, _ =>
    let decimals := fraction.getD []
    let power : Int := match exponent with
      | some (some '-', ds) => -valueOf 10 ds
      | some (_, ds) => valueOf 10 ds
      | none => 0
    if !negative ∧ overflows (whole ++ decimals) (power - decimals.length) then Parser.refuse
    else
      let fractionText := match fraction with
        | some ds => '.' :: ds
        | none => []
      let exponentText := match exponent with
        | some (sign, ds) => 'e' :: sign.toList ++ ds
        | none => []
      return .float (.ofList (sign.toList ++ whole ++ fractionText ++ exponentText))

/-- A number in a base other than ten, after its two-letter mark. -/
def basedInteger (base : Nat) (p : Char → Bool) : Parser Value := do
  Parser.skip
  Parser.skip
  int64? (valueOf base (← digits p))

/-- Whether a character is a hexadecimal digit. -/
def isHexDigit (c : Char) : Bool := (hexValue? c).isSome

/-- A number. -/
def number : Parser Value := do
  match ← get with
  | '0' :: 'x' :: _ => basedInteger 16 isHexDigit
  | '0' :: 'o' :: _ => basedInteger 8 fun c => '0' ≤ c ∧ c ≤ '7'
  | '0' :: 'b' :: _ => basedInteger 2 fun c => c = '0' ∨ c = '1'
  | _ =>
    let sign ← sign?
    match ← get with
    | 'i' :: 'n' :: 'f' :: rest =>
      set rest
      return .float (.ofList (sign.toList ++ "inf".toList))
    | 'n' :: 'a' :: 'n' :: rest =>
      set rest
      return .float (.ofList (sign.toList ++ "nan".toList))
    | _ => numberTail sign (← decimalDigits)

end ModelLoading.Toml
