/-
Amounts of memory as they are written: in the greatest unit of which there is
at least one, a unit being 1024 of the one before it, and in three digits. The
number of bytes is rounded twice, to a double and then to the digits.
-/
import ReversePolish.Number.Binary64

namespace ReversePolish
namespace Bytes

/-- The units in order, each with its size as a power of two. -/
def units : List (Nat × String) :=
  [(10, "KiB"), (20, "MiB"), (30, "GiB"), (40, "TiB"), (50, "PiB"), (60, "EiB")]

/-- The greatest unit of which there is at least one. That is asked in whole numbers of the unit
before it, so what comes to 1024 of one unit by rounding is written in the next. -/
def unitOf (bytes : Fraction) : Nat × String :=
  (units.reverse.find? fun unit => 1024 ≤ (bytes.divPow2 (unit.1 - 10)).round).getD (10, "KiB")

def pointed (digits places : Nat) : String :=
  let after := toString (digits % 10 ^ places)
  toString (digits / 10 ^ places) ++ "." ++
    (if places = 0 then "" else "".pushn '0' (places - after.length) ++ after)

/-- A positive amount in three digits, or in all those before the point if there are four. -/
def amount (x : Fraction) : String :=
  let scaled (places : Nat) : Nat := (x.divPow10 (-places)).round
  if scaled 2 < 1000 then pointed (scaled 2) 2
  else if scaled 1 < 1000 then pointed (scaled 1) 1
  else pointed (scaled 0) 0

def rounded (bytes : Nat) : Fraction :=
  ((Magnitude.nearest ⟨bytes, 1⟩).map Magnitude.toFraction).getD ⟨bytes, 1⟩

/-- A number of bytes, at least 1024. -/
def text (bytes : Nat) : String :=
  let (power, unit) := unitOf (rounded bytes)
  amount ((rounded bytes).divPow2 power) ++ " " ++ unit

end Bytes
end ReversePolish
