import AxvisorTools.Py.Re
import AxvisorTools.Text.Lines
import Mathlib.Data.List.DropRight

/-!
# Python's `str`

`splitlines` breaks a text at more characters than the newline, and text files are read with
universal newlines. Both treat a carriage return and a newline after it as one break.
-/

namespace Py

/-- The characters `str.splitlines` breaks at. -/
def isLineBreak (c : Char) : Bool :=
  let n := c.toNat
  (10 ≤ n && n ≤ 13) || (28 ≤ n && n ≤ 30) || n == 0x85 || n == 0x2028 || n == 0x2029

/-- `cur` is the line so far, last character first; `cr` says that a carriage return ended the line
before it, so that a newline here belongs to it. -/
def splitlinesFrom (cr : Bool) (cur : Text) : Text → List Text
  | [] => if cur = [] then [] else [cur.reverse]
  | c :: t =>
    if cr ∧ c = '\n' then splitlinesFrom false cur t
    else if isLineBreak c then cur.reverse :: splitlinesFrom (c == '\r') [] t
    else splitlinesFrom false (c :: cur) t

/-- `t.splitlines()`. -/
def splitlines (t : Text) : List Text := splitlinesFrom false [] t

/-- `Path.read_text()`: every `\r\n` and every other `\r` becomes a newline. -/
def universalNewlines : Text → Text
  | [] => []
  | '\r' :: '\n' :: t => '\n' :: universalNewlines t
  | c :: t => (if c = '\r' then '\n' else c) :: universalNewlines t

/-- Before its last character the text has a line break of `str.splitlines` that is no newline and
belongs to none. -/
def OtherBreak (t : Text) : Prop :=
  ∃ a c y, t = a ++ c :: y ∧ y ≠ [] ∧ isLineBreak c = true ∧ c ≠ '\n' ∧
    ¬ (c = '\r' ∧ y.head? = some '\n')

/-- `for line in f`: the lines of a text file, each with the newline or nothing after it. -/
def iterLines (t : Text) : List (Text × Text) :=
  (lines t).dropLast.map (·, ['\n']) ++
    match (lines t).getLast? with
    | some (c :: l) => [(c :: l, [])]
    | _ => []

/-- `t[t.find(s):]`, for a text with `s` in it. -/
def findFrom (s t : Text) : Option Text := t.tails.find? s.isPrefixOf

/-- `t.encode()`. -/
def encode (t : Text) : Bytes := t.flatMap String.utf8EncodeChar

/-- `t.strip()`. -/
def strip (t : Text) : Text := (t.dropWhile Re.isWhite).rdropWhile Re.isWhite

/-- The truth value of `t.strip()`. -/
def isBlank (t : Text) : Bool := t.all Re.isWhite

/-- The zeros of the decimal digits of Unicode 14; the other nine follow each of them. -/
def decimalZeros : List Nat :=
  [0x30, 0x660, 0x6f0, 0x7c0, 0x966, 0x9e6, 0xa66, 0xae6, 0xb66, 0xbe6, 0xc66, 0xce6, 0xd66, 0xde6,
    0xe50, 0xed0, 0xf20, 0x1040, 0x1090, 0x17e0, 0x1810, 0x1946, 0x19d0, 0x1a80, 0x1a90, 0x1b50,
    0x1bb0, 0x1c40, 0x1c50, 0xa620, 0xa8d0, 0xa900, 0xa9d0, 0xa9f0, 0xaa50, 0xabf0, 0xff10,
    0x104a0, 0x10d30, 0x11066, 0x110f0, 0x11136, 0x111d0, 0x112f0, 0x11450, 0x114d0, 0x11650,
    0x116c0, 0x11730, 0x118e0, 0x11950, 0x11c50, 0x11d50, 0x11da0, 0x16a60, 0x16ac0, 0x16b50,
    0x1d7ce, 0x1d7d8, 0x1d7e2, 0x1d7ec, 0x1d7f6, 0x1e140, 0x1e2f0, 0x1e950, 0x1fbf0]

/-- The value of a character of the class `\d`. -/
def decimal? (c : Char) : Option Nat :=
  (decimalZeros.find? fun z => z ≤ c.toNat ∧ c.toNat < z + 10).map (c.toNat - ·)

/-- `int(t)` for a text of the class `\d+`; more than 4300 digits are a `ValueError`. -/
def intOfDigits (t : Text) : Option Nat :=
  if t.length ≤ 4300 then (t.mapM decimal?).map fun ds => ds.foldl (fun n d => n * 10 + d) 0
  else none

/-- `t.upper()`; `special` gives the upper case of the characters that are not ASCII. -/
def upper (special : Char → Text) (t : Text) : Text :=
  t.flatMap fun c => if c.toNat < 128 then [c.toUpper] else special c

/-- What `int` reads for a character: the blanks and decimal digits of all scripts count. -/
def toAscii (c : Char) : Char :=
  if c.toNat < 127 then c
  else if Re.isWhite c then ' '
  else
    match decimal? c with
    | some d => Char.ofNat ('0'.toNat + d)
    | none => '?'

/-- A decimal literal of more than 4300 digits. -/
def isOverlong (base : Nat) (t : Text) : Bool :=
  (if base = 0 then (radix (sign (t.dropWhile isSpace)).2).1 else base) == 10 &&
    4300 < t.countP Char.isDigit

/-- `int(t, base)` for a `str`. -/
def intStr (base : Nat) (t : Text) : Option Int :=
  if isOverlong base (t.map toAscii) then none else int base (t.map toAscii)

/-- `str(n)`. -/
def str (n : Int) : Text :=
  if n < 0 then '-' :: Nat.toDigits 10 n.natAbs else Nat.toDigits 10 n.natAbs

/-- `f"{n:0widthx}"`, or `f"{n:x}"` for width 0: hexadecimal digits after zeros, which count with the
sign. -/
def formatHex (width : Nat) (n : Int) : Text :=
  let digits := Nat.toDigits 16 n.natAbs
  if n < 0 then '-' :: digits.leftpad (width - 1) '0' else digits.leftpad width '0'

/-- `t[:i]` and `t[i:]` for `i = t.find(s)`. -/
def splitFind (s : Text) : Text → Option (Text × Text)
  | [] => if s = [] then some ([], []) else none
  | c :: t =>
    if s.isPrefixOf (c :: t) then some ([], c :: t)
    else (splitFind s t).map fun p => (c :: p.1, p.2)

end Py
