/-!
Hexadecimal digits.
-/

namespace ReleaseFlags

namespace Hex

/-- The value of a hexadecimal digit in either case. -/
def value? (c : Char) : Option Nat :=
  if c.isDigit then some (c.toNat - '0'.toNat)
  else if 'a' ≤ c ∧ c ≤ 'f' then some (c.toNat - 'a'.toNat + 10)
  else if 'A' ≤ c ∧ c ≤ 'F' then some (c.toNat - 'A'.toNat + 10)
  else none

def isDigit (c : Char) : Bool := (value? c).isSome

/-- Reads digits, exactly as many as given, onto a number. -/
def readDigits : Nat → Nat → List Char → Option (Nat × List Char)
  | 0, n, rest => some (n, rest)
  | count + 1, n, c :: rest => do readDigits count (n * 16 + (← value? c)) rest
  | _ + 1, _, [] => none

/-- The given number of lower-case digits, the last ones of the number. -/
def digits : Nat → Nat → List Char
  | 0, _ => []
  | count + 1, n => digits count (n / 16) ++ [Nat.digitChar (n % 16)]

end Hex

end ReleaseFlags
