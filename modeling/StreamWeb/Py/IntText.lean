import Mathlib.Data.List.Basic
import StreamWeb.Py

/-!
# `int` of a string

`int(s)` in base ten: blanks around the literal, a sign, decimal digits of any
script, and single underscores between digits.
-/

namespace StreamWeb.Py

/-- The characters of value zero, ten code points in front of their script's next character. -/
def decimalZeros : List Nat :=
  [0x30, 0x660, 0x6F0, 0x7C0, 0x966, 0x9E6, 0xA66, 0xAE6, 0xB66, 0xBE6, 0xC66, 0xCE6, 0xD66, 0xDE6,
    0xE50, 0xED0, 0xF20, 0x1040, 0x1090, 0x17E0, 0x1810, 0x1946, 0x19D0, 0x1A80, 0x1A90, 0x1B50,
    0x1BB0, 0x1C40, 0x1C50, 0xA620, 0xA8D0, 0xA900, 0xA9D0, 0xA9F0, 0xAA50, 0xABF0, 0xFF10, 0x104A0,
    0x10D30, 0x11066, 0x110F0, 0x11136, 0x111D0, 0x112F0, 0x11450, 0x114D0, 0x11650, 0x116C0, 0x11730,
    0x118E0, 0x11950, 0x11C50, 0x11D50, 0x11DA0, 0x11F50, 0x16A60, 0x16AC0, 0x16B50, 0x1D7CE, 0x1D7D8,
    0x1D7E2, 0x1D7EC, 0x1D7F6, 0x1E140, 0x1E2F0, 0x1E4F0, 0x1E950, 0x1FBF0]

def digitValue (c : Char) : Option Nat :=
  (decimalZeros.find? fun low => low ≤ c.toNat && c.toNat < low + 10).map (c.toNat - ·)

/-- `c.isspace()` -/
def isSpace (c : Char) : Bool :=
  let n := c.toNat
  (9 ≤ n && n ≤ 13) || (0x1C ≤ n && n ≤ 0x20) || n == 0x85 || n == 0xA0 || n == 0x1680 ||
    (0x2000 ≤ n && n ≤ 0x200A) || n == 0x2028 || n == 0x2029 || n == 0x202F || n == 0x205F ||
    n == 0x3000

def strip (cs : List Char) : List Char := ((cs.dropWhile isSpace).reverse.dropWhile isSpace).reverse

/-- The digits behind a digit. -/
def moreDigits : List Char → Option (List Nat)
  | [] => some []
  | '_' :: c :: cs => (digitValue c).bind fun d => (moreDigits cs).map (d :: ·)
  | c :: cs => (digitValue c).bind fun d => (moreDigits cs).map (d :: ·)

def digits : List Char → Option (List Nat)
  | [] => none
  | c :: cs => (digitValue c).bind fun d => (moreDigits cs).map (d :: ·)

/-- `sys.int_info.default_max_str_digits` -/
def maxStrDigits : Nat := 4300

def magnitude (cs : List Char) : Option Nat :=
  (digits cs).bind fun ds =>
    if maxStrDigits < ds.length then none else some (ds.foldl (fun v d => 10 * v + d) 0)

/-- `int(s)`, or `none` for `ValueError`. -/
def intOfStr (s : String) : Option Int :=
  match strip s.toList with
  | '-' :: cs => (magnitude cs).map fun n => -(n : Int)
  | '+' :: cs => (magnitude cs).map fun n => (n : Int)
  | cs => (magnitude cs).map fun n => (n : Int)

example : intOfStr " +1_0\n" = some 10 := by decide
example : intOfStr "1__0" = none := by decide

end StreamWeb.Py
