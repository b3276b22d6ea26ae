import StreamWeb.Py

/-!
# Reading base64

The reader's side of `base64.b64encode`: characters of the standard alphabet
by fours, the last four padded. Every byte string is read back
(`b64decode_b64encode`), with none, one or two characters of padding.
-/

namespace StreamWeb.Py

/-- The six bits a character stands for. -/
def b64Value (c : Char) : Option Nat := b64Alphabet.idxOf? c

/-- The bytes that characters stand for. -/
def b64Read : List Char → Option (List Nat)
  | [] => some []
  | a :: b :: c :: d :: rest => do
    let u ← b64Value a
    let v ← b64Value b
    if d = '=' then
      if rest ≠ [] then none
      else if c = '=' then some [u * 4 + v / 16]
      else
        let w ← b64Value c
        some [u * 4 + v / 16, v % 16 * 16 + w / 4]
    else
      let w ← b64Value c
      let x ← b64Value d
      let bytes ← b64Read rest
      some ([u * 4 + v / 16, v % 16 * 16 + w / 4, w % 4 * 64 + x] ++ bytes)
  | _ => none

def b64decode (s : String) : Option Bytes := (b64Read s.toList).map (List.map UInt8.ofNat)

theorem b64Value_b64Char : ∀ n < 64, b64Value (b64Char n) = some n ∧ b64Char n ≠ '=' := by
  decide +kernel

theorem b64Read_b64Chars (bytes : List Nat) (small : ∀ x ∈ bytes, x < 256) :
    b64Read (b64Chars bytes) = some bytes := by
  induction bytes using b64Chars.induct with
  | case1 a b c rest ih =>
    have ha := small a (by simp)
    have hb := small b (by simp)
    have hc := small c (by simp)
    have read := ih fun x mem => small x (by simp [mem])
    obtain ⟨first, -⟩ := b64Value_b64Char (a / 4) (by omega)
    obtain ⟨second, -⟩ := b64Value_b64Char (a % 4 * 16 + b / 16) (by omega)
    obtain ⟨third, -⟩ := b64Value_b64Char (b % 16 * 4 + c / 64) (by omega)
    obtain ⟨fourth, letter⟩ := b64Value_b64Char (c % 64) (by omega)
    simp [b64Chars, b64Read, first, second, third, fourth, letter, read]
    omega
  | case2 a b =>
    have ha := small a (by simp)
    have hb := small b (by simp)
    obtain ⟨first, -⟩ := b64Value_b64Char (a / 4) (by omega)
    obtain ⟨second, -⟩ := b64Value_b64Char (a % 4 * 16 + b / 16) (by omega)
    obtain ⟨third, letter⟩ := b64Value_b64Char (b % 16 * 4) (by omega)
    simp [b64Chars, b64Read, first, second, third, letter]
    omega
  | case3 a =>
    have ha := small a (by simp)
    obtain ⟨first, -⟩ := b64Value_b64Char (a / 4) (by omega)
    obtain ⟨second, -⟩ := b64Value_b64Char (a % 4 * 16) (by omega)
    simp [b64Chars, b64Read, first, second]
    omega
  | case4 => rfl

theorem b64decode_b64encode (bytes : Bytes) : b64decode (b64encode bytes) = some bytes := by
  have small : ∀ x ∈ bytes.map UInt8.toNat, x < 256 := by
    intro x mem
    obtain ⟨byte, _, rfl⟩ := List.mem_map.1 mem
    exact byte.toNat_lt
  rw [b64decode, b64encode, String.toList_ofList, b64Read_b64Chars _ small, Option.map_some,
    List.map_map]
  simp [Function.comp_def]

end StreamWeb.Py
