import Mathlib.Algebra.Group.Int.Defs
import Mathlib.Data.Nat.Notation

/-!
# Strings of C

Byte strings, and the functions of the C library that read numbers in them. A
byte is a `Char`; nothing here looks at characters beyond ASCII.
-/

namespace Ssp

/-- A byte string. -/
abbrev Bytes := List Char

/-- `isspace`, in the "C" locale. -/
def isSpace (c : Char) : Bool :=
  c == ' ' || c == '\t' || c == '\n' || c == '\x0b' || c == '\x0c' || c == '\r'

/-- The value of the digits a string begins with. -/
def leadingDigits (s : Bytes) : ℕ :=
  (s.takeWhile Char.isDigit).foldl (fun n c => 10 * n + (c.toNat - '0'.toNat)) 0

/-- `strtol` in base 10: white space, a sign, and digits, clamped to a `long` of
    64 bits. -/
def strtol (s : Bytes) : Int :=
  match s.dropWhile isSpace with
  | '-' :: t => max (-(leadingDigits t : Int)) (-2 ^ 63)
  | '+' :: t => min (leadingDigits t : Int) (2 ^ 63 - 1)
  | t => min (leadingDigits t : Int) (2 ^ 63 - 1)

/-- The bits of the `int` that `atoi` returns: `strtol`, truncated. -/
def atoi (s : Bytes) : UInt32 := UInt32.ofInt (strtol s)

example : atoi "42 sessions".toList = 42 := by decide
example : atoi "-1".toList = 4294967295 := by decide

end Ssp
