import AxvisorTools.Text.Basic

/-!
# Python's `int(s, base)`

`Py.int base s` follows `PyLong_FromString`: blanks around the literal, one sign, the radix prefix
(with base 0 it chooses the radix), single underscores between digits, and the rule that a base-0
literal with a leading zero is only accepted when it is zero. `none` is `ValueError`.
-/

namespace Py

/-- `Py_ISSPACE`: the blanks around an integer literal. -/
def isSpace (c : Char) : Bool := c == ' ' || (9 ≤ c.toNat && c.toNat ≤ 13)

/-- The value of a digit in the largest radix, 36. -/
def digitValue (c : Char) : Option Nat :=
  if '0' ≤ c ∧ c ≤ '9' then some (c.toNat - '0'.toNat)
  else if 'a' ≤ c ∧ c ≤ 'z' then some (c.toNat - 'a'.toNat + 10)
  else if 'A' ≤ c ∧ c ≤ 'Z' then some (c.toNat - 'A'.toNat + 10)
  else none

/-- The value of a digit in radix `base`. -/
def digit? (base : Nat) (c : Char) : Option Nat := (digitValue c).filter (· < base)

/-- The number of a string of digits, read after `acc`. -/
def ofDigits (base acc : Nat) (t : Text) : Nat :=
  t.foldl (fun n c => n * base + (digit? base c).getD 0) acc

/-- Reads digits and single underscores between them: the number and the text after it. `under`
says that the last character read was an underscore. -/
def scanDigits (base : Nat) : Nat → Bool → Text → Option (Nat × Text)
  | acc, under, [] => if under then none else some (acc, [])
  | acc, under, c :: t =>
    if c = '_' then
      if under then none else scanDigits base acc true t
    else
      match digit? base c with
      | some d => scanDigits base (acc * base + d) false t
      | none => if under then none else some (acc, c :: t)

/-- The sign of a literal and what follows it. -/
def sign : Text → Int × Text
  | '+' :: t => (1, t)
  | '-' :: t => (-1, t)
  | t => (1, t)

/-- The radix of a base-0 literal, and whether only zero is accepted (a leading zero). -/
def radix : Text → Nat × Bool
  | '0' :: c :: _ =>
    if c = 'x' ∨ c = 'X' then (16, false)
    else if c = 'o' ∨ c = 'O' then (8, false)
    else if c = 'b' ∨ c = 'B' then (2, false)
    else (10, true)
  | '0' :: [] => (10, true)
  | _ => (10, false)

/-- Whether `c` after a leading zero is the prefix letter of radix `base`. -/
def isPrefixLetter (base : Nat) (c : Char) : Bool :=
  (base == 16 && (c == 'x' || c == 'X')) || (base == 8 && (c == 'o' || c == 'O')) ||
    (base == 2 && (c == 'b' || c == 'B'))

/-- Drops the radix prefix and the one underscore allowed after it. -/
def dropRadix (base : Nat) : Text → Text
  | '0' :: c :: t =>
    if isPrefixLetter base c then
      match t with
      | '_' :: t' => t'
      | t => t
    else '0' :: c :: t
  | t => t

/-- The digits of a literal, at least one and not starting with an underscore. -/
def digits (base : Nat) : Text → Option (Nat × Text)
  | [] => none
  | c :: t => if (digit? base c).isSome then scanDigits base 0 false (c :: t) else none

/-- `int(s, base)`. -/
def int (base : Nat) (s : Text) : Option Int :=
  let (sgn, t) := sign (s.dropWhile isSpace)
  let (base, zeroOnly) := if base = 0 then radix t else (base, false)
  match digits base (dropRadix base t) with
  | none => none
  | some (n, rest) =>
    if zeroOnly && n != 0 then none
    else if (rest.dropWhile isSpace).isEmpty then some (sgn * n)
    else none

/-- `int(b, base)` for `bytes`: every byte stands for the character of its code. -/
def intBytes (base : Nat) (b : Bytes) : Option Int := int base (b.map fun x => Char.ofNat x.toNat)

end Py
