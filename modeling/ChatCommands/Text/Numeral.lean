/-!
# Decimal numerals

Reading natural numbers below a bound from decimal digits. `ofDigits?` wants digits alone;
`unsigned?` also takes a plus sign in front. Leading zeros count for nothing, and a number above
the bound is refused rather than wrapped.
-/

namespace ChatCommands.Text

/-- The value of a run of decimal digits, on top of what was read before it. -/
def digitsValue (read : Nat) : List Char → Nat
  | [] => read
  | c :: cs => digitsValue (10 * read + (c.toNat - '0'.toNat)) cs

/-- The number that a non-empty run of digits denotes, if it is at most `bound`. -/
def ofDigits? (bound : Nat) (cs : List Char) : Option Nat :=
  if cs.isEmpty || !cs.all Char.isDigit then none
  else
    let n := digitsValue 0 cs
    if n ≤ bound then some n else none

/-- A number at most `bound`, with or without a plus sign. -/
def unsigned? (bound : Nat) : List Char → Option Nat
  | '+' :: cs => ofDigits? bound cs
  | cs => ofDigits? bound cs

/-- The largest number of 64 bits. -/
def maxWord64 : Nat := 18446744073709551615

/-- The largest number of 32 bits. -/
def maxWord32 : Nat := 4294967295

end ChatCommands.Text
