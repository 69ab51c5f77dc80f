/-
How a double is read from text. Blanks around the numeral are dropped and the
decimal digits of every script count as digits; then comes an optional sign
and either one of the words for the special values, in any case, or digits
with an optional point and exponent. An underscore may stand between two
digits. What is read is rounded once, to the nearest double.
-/
import ReversePolish.Number.Decimal
import ReversePolish.Text.Blank
import ReversePolish.Text.DecimalDigit

namespace ReversePolish
namespace Numeral

/-- The character as the grammar knows it: a digit of any script as the digit of that value,
and a blank outside of ASCII as a plain space. -/
def normal (c : Char) : Char :=
  if c.toNat < 128 then c
  else if isBlank c then ' '
  else match decimalDigit? c with
    | some d => Char.ofNat ('0'.toNat + d)
    | none => c

def trim (cs : List Char) : List Char :=
  ((cs.dropWhile isBlank).reverse.dropWhile isBlank).reverse

/-- Drops the underscores; none if one of them does not stand between two digits. `before` is
the character in front of the text. -/
def joinDigits (before : Char) : List Char → Option (List Char)
  | [] => some []
  | ['_'] => none
  | '_' :: c :: rest =>
    if before.isDigit && c.isDigit then (joinDigits c rest).map (c :: ·) else none
  | c :: rest => (joinDigits c rest).map (c :: ·)

/-- Splits off a sign: is the number negative, and what follows. -/
def splitSign : List Char → Bool × List Char
  | '-' :: rest => (true, rest)
  | '+' :: rest => (false, rest)
  | rest => (false, rest)

def valueOf (digits : List Char) : Nat :=
  digits.foldl (fun value c => 10 * value + (c.toNat - '0'.toNat)) 0

def readExponent? : List Char → Option Int
  | [] => some 0
  | c :: rest =>
    let (negative, digits) := splitSign rest
    if (c == 'e' || c == 'E') && !digits.isEmpty && digits.all Char.isDigit then
      some (if negative then -(valueOf digits) else valueOf digits)
    else none

/-- Digits with an optional point, at least one of them, and an optional exponent. -/
def readDecimal? (cs : List Char) : Option Decimal :=
  let before := cs.takeWhile Char.isDigit
  let rest := cs.dropWhile Char.isDigit
  let (after, rest) := match rest with
    | '.' :: rest => (rest.takeWhile Char.isDigit, rest.dropWhile Char.isDigit)
    | rest => ([], rest)
  if before.isEmpty && after.isEmpty then none
  else (readExponent? rest).map fun e => ⟨valueOf (before ++ after), e - after.length⟩

def readWord? (negative : Bool) (cs : List Char) : Option Binary64 :=
  let word := String.ofList (cs.map Char.toLower)
  if word = "inf" ∨ word = "infinity" then some (.infinite negative)
  else if word = "nan" then some .undefined
  else none

/-- Reads a numeral; a number that is too great for a double becomes infinite. -/
def readBinary64? (cs : List Char) : Option Binary64 := do
  let cs ← joinDigits ' ' (trim (cs.map normal))
  let (negative, cs) := splitSign cs
  match readWord? negative cs with
  | some x => some x
  | none =>
    let d ← readDecimal? cs
    some (match d.nearest with
      | some size => .finite negative size
      | none => .infinite negative)

def read? (text : String) : Option Float := (readBinary64? text.toList).map (·.toFloat)

end Numeral
end ReversePolish
