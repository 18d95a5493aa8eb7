import FogDispatch.Number.Literal

/-!
# Hexadecimal digits

Written with letters of either case, read in both.
-/

namespace FogDispatch

/-- The digit of a number below sixteen; the letters from ten on start with `ten`. -/
def hexDigit (ten : Char) (n : Nat) : Char :=
  if n < 10 then Char.ofNat ('0'.toNat + n) else Char.ofNat (ten.toNat + (n - 10))

def hexValue? (c : Char) : Option Nat :=
  if isDigit c then digitValue? c
  else if 'a' ≤ c ∧ c ≤ 'f' then some (c.toNat - 'a'.toNat + 10)
  else if 'A' ≤ c ∧ c ≤ 'F' then some (c.toNat - 'A'.toNat + 10)
  else none

theorem hexValue?_hexDigit_lower (n : Fin 16) : hexValue? (hexDigit 'a' n) = some n.val := by
  revert n
  decide

theorem hexValue?_hexDigit_upper (n : Fin 16) : hexValue? (hexDigit 'A' n) = some n.val := by
  revert n
  decide

end FogDispatch
