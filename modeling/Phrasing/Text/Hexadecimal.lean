import Phrasing.Text

/-!
# `Phrasing.Text.Hexadecimal` — numbers in hexadecimal digits

Escapes name characters by their code points, in hexadecimal digits of either letter case.
-/

namespace Phrasing.Text

/-- The value of a hexadecimal digit. -/
def hexDigit? (c : Char) : Option Nat :=
  if '0' ≤ c ∧ c ≤ '9' then some (c.toNat - '0'.toNat)
  else if 'a' ≤ c ∧ c ≤ 'f' then some (c.toNat - 'a'.toNat + 10)
  else if 'A' ≤ c ∧ c ≤ 'F' then some (c.toNat - 'A'.toNat + 10)
  else none

/-- The value of a run of hexadecimal digits. -/
def hexValue? (digits : Text) : Option Nat :=
  digits.foldl (fun value digit => do return (← value) * 16 + (← hexDigit? digit)) (some 0)

end Phrasing.Text
