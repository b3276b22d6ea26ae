import Mathlib.Algebra.Order.Ring.Abs
import Mathlib.Data.Rat.Floor

/-!
# Python built-ins

The built-in functions the source calls, under the source's words: `int` and
`round` of a number, `int.to_bytes`, `base64.b64encode` and the exceptions
they raise. Numbers that are floats in the source are exact rationals here.
-/

namespace StreamWeb

abbrev Bytes := List UInt8

namespace Py

/-- `int(x)`: truncation toward zero. -/
def int (x : ℚ) : ℤ := if 0 ≤ x then ⌊x⌋ else ⌈x⌉

/-- `round(x)` to an integer: ties go to the even one. -/
def round (x : ℚ) : ℤ :=
  let f := ⌊x⌋
  if x - f < 1 / 2 then f
  else if 1 / 2 < x - f then f + 1
  else if f % 2 = 0 then f else f + 1

/-- The exceptions of the modelled built-ins. -/
inductive Error where
  | overflowError (text : String)
  | unicodeDecodeError
  deriving DecidableEq, Repr

/-- The low `n` bytes of `v`, most significant first. -/
def bigEndian : Nat → Nat → Bytes
  | 0, _ => []
  | n + 1, v => bigEndian n (v / 256) ++ [UInt8.ofNat (v % 256)]

/-- The largest length of an object (`Py_ssize_t` of a 64-bit build). -/
def ssizeMax : Nat := 2 ^ 63 - 1

/-- `v.to_bytes(n, "big")`, while memory lasts. -/
def toBytes (v : Int) (n : Nat) : Except Error Bytes :=
  if ssizeMax < n then .error (.overflowError "Python int too large to convert to C ssize_t")
  else if v < 0 then .error (.overflowError "can't convert negative int to unsigned")
  else if 256 ^ n ≤ v.toNat then .error (.overflowError "int too big to convert")
  else .ok (bigEndian n v.toNat)

theorem toBytes_eq_ok_iff {v : Int} {n : Nat} {bytes : Bytes} :
    toBytes v n = .ok bytes ↔
      (n ≤ ssizeMax ∧ 0 ≤ v ∧ v.toNat < 256 ^ n) ∧ bytes = bigEndian n v.toNat := by
  unfold toBytes
  split_ifs with long negative big
  · simp [long]
  · simp [negative]
  · simp only [false_iff, not_and]
    intro fits
    exact absurd fits.2.2 (not_lt.2 big)
  · simp [not_lt.1 long, not_lt.1 negative, not_le.1 big, eq_comm]

def b64Alphabet : List Char :=
  "ABCDEFGHIJKLMNOPQRSTUVWXYZabcdefghijklmnopqrstuvwxyz0123456789+/".toList

def b64Char (n : Nat) : Char := b64Alphabet.getD n '='

/-- The characters of `base64.b64encode`: three bytes to four characters, the
last group padded. -/
def b64Chars : List Nat → List Char
  | a :: b :: c :: rest =>
    b64Char (a / 4) :: b64Char (a % 4 * 16 + b / 16) :: b64Char (b % 16 * 4 + c / 64) ::
      b64Char (c % 64) :: b64Chars rest
  | [a, b] => [b64Char (a / 4), b64Char (a % 4 * 16 + b / 16), b64Char (b % 16 * 4), '=']
  | [a] => [b64Char (a / 4), b64Char (a % 4 * 16), '=', '=']
  | [] => []

/-- `base64.b64encode(bytes).decode("ascii")`. -/
def b64encode (bytes : Bytes) : String := String.ofList (b64Chars (bytes.map UInt8.toNat))

/-- `f"{x:.df}"`. -/
def fixed (d : Nat) (x : ℚ) : String :=
  let scaled := (round (|x| * 10 ^ d)).toNat
  let digits := toString (scaled % 10 ^ d)
  (if x < 0 then "-" else "") ++ toString (scaled / 10 ^ d) ++ "." ++
    String.ofList (List.replicate (d - digits.length) '0') ++ digits

/-- `f"{x}"` of an integer or `None`. -/
def str (x : Option Int) : String := (x.map toString).getD "None"

/-- A value of a dictionary that is passed on as it is. -/
inductive Val where
  | none
  | bool (b : Bool)
  | int (n : Int)
  | float (x : ℚ)
  | str (s : String)
  | list (vs : List Val)
  | bytes (bs : Bytes)

/-- A dictionary with string keys, in insertion order. -/
abbrev Dict := List (String × Val)

end Py

end StreamWeb
