import AxvisorTools.Text.Regex

/-!
# awk

The parts of awk that short programs need: `split` at a single character, the elements of an array, the
fields of a record, anchored patterns, and numbers. An awk keeps its numbers as floating-point values, so `Arith`
leaves open what they are and says only that it keeps the integers in its range `Exact` as they are.
`roundDouble` is what a double keeps of any integer.
-/

namespace Awk

open Regex

/-! ## Strings -/

/-- `split(s, a, sep)`: the elements of `a` from index 1 on. An empty string has none. -/
def split (sep : Char) (s : Text) : List Text := if s = [] then [] else s.splitOn sep

/-- `a[i]`; an index without an element reads as the empty string. -/
def elem (a : List Text) (i : Nat) : Text := if i = 0 then [] else a.getD (i - 1) []

/-- The fields of a record: the parts between its blanks. -/
def fields (l : Text) : List Text :=
  (l.splitOnP fun c => c == ' ' || c == '\t' || c == '\n').filter fun f => !f.isEmpty

/-- `$i`. -/
def field (l : Text) (i : Nat) : Text := if i = 0 then l else elem (fields l) i

/-- `/^r$/`, from the start of the string to its end. -/
def whole (r : Re) : Re :=
  .seq (.look fun prev _ => prev.isNone) (.seq r (.look fun _ next => next.isNone))

/-- `[0-9]+`. -/
def digits : Re := .seq (.one Char.isDigit) (.star true (.one Char.isDigit))

/-! ## Numbers -/

/-- The numbers of an awk: the value of a string, the constants, sums and differences, and what `print`
writes. The laws are about the natural numbers in `Exact`, which the awk neither rounds nor prints in
another format. -/
structure Arith (Num : Type) where
  number : Text → Num
  ofNat : Nat → Num
  add : Num → Num → Num
  sub : Num → Num → Num
  text : Num → Text
  Exact : Nat → Prop
  exact_zero : Exact 0
  exact_of_le {m n : Nat} : m ≤ n → Exact n → Exact m
  number_toDigits {n : Nat} : Exact n → number (Nat.toDigits 10 n) = ofNat n
  add_ofNat {m n : Nat} : Exact (m + n) → add (ofNat m) (ofNat n) = ofNat (m + n)
  sub_ofNat {m n : Nat} : Exact m → n ≤ m → sub (ofNat m) (ofNat n) = ofNat (m - n)
  text_ofNat {n : Nat} : Exact n → text (ofNat n) = Nat.toDigits 10 n

/-- An awk whose comparison with 0 is exact as well, and that prints numbers on one line. -/
structure Ordered (Num : Type) extends Arith Num where
  positive : Num → Bool
  positive_ofNat {n : Nat} : Exact n → positive (ofNat n) = decide (0 < n)
  newline_notMem_text : ∀ x, '\n' ∉ text x

/-- The double nearest to an integer: 53 significant bits, ties to the even one. -/
def roundDouble (n : Int) : Int :=
  if n.natAbs ≤ 2 ^ 53 then n
  else
    let unit := 2 ^ (n.natAbs.log2 - 52)
    let q := n.natAbs / unit
    let r := n.natAbs % unit
    let q := if 2 * r < unit then q else if unit < 2 * r then q + 1 else q + q % 2
    n.sign * (q * unit : Nat)

/-- The number that the digits at the front of a string spell. -/
def leadingNumber (t : Text) : Nat := Nat.ofDigitChars 10 (t.takeWhile Char.isDigit) 0

end Awk
