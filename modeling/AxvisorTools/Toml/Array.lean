import AxvisorTools.Toml.Read

/-!
# Reading an array of TOML

`valueText` is the text of the value of a key, which may go on over several lines, and `firstRow` the
numbers of the first element of an array of arrays of integers.
-/

namespace Toml

/-! ## Integers -/

/-- Digits with single underscores between them, and nothing else. -/
def digits (base : Nat) (t : Text) : Option Nat :=
  match Py.digits base t with
  | some (n, []) => some n
  | _ => none

/-- A decimal number has no leading zero. -/
def decimal : Text → Option Nat
  | '0' :: [] => some 0
  | '0' :: _ => none
  | t => digits 10 t

/-- An integer. Only a decimal one has a sign. -/
def integer : Text → Option Int
  | '0' :: 'x' :: t => (digits 16 t).map Int.ofNat
  | '0' :: 'o' :: t => (digits 8 t).map Int.ofNat
  | '0' :: 'b' :: t => (digits 2 t).map Int.ofNat
  | '+' :: t => (decimal t).map Int.ofNat
  | '-' :: t => (decimal t).map fun n => -(n : Int)
  | t => (decimal t).map Int.ofNat

/-! ## Arrays -/

/-- Skips blanks, newlines and comments; `comment` says that the text starts inside of one. -/
def skip : Bool → Text → Text
  | _, [] => []
  | true, c :: t => skip (c != '\n') t
  | false, c :: t =>
    if c = '#' then skip true t
    else if isBlank c ∨ c = '\n' ∨ c = '\r' then skip false t
    else c :: t

/-- The integers of a row, the text between its brackets. -/
def row (t : Text) : Option (List Int) :=
  (t.splitOn ',').mapM fun x => integer (((skipBlanks x).reverse.dropWhile isBlank).reverse)

/-- The first element of an array of rows. -/
def firstRow (value : Text) : Option (List Int) :=
  match skip false value with
  | '[' :: t =>
    match skip false t with
    | '[' :: t => if ']' ∈ t then row (t.takeWhile (· ≠ ']')) else none
    | _ => none
  | _ => none

/-! ## Values -/

/-- The text after the `=` of a pair. -/
def afterEquals (l : Text) : Option Text :=
  match readPath l.length (skipBlanks (chomp l)) with
  | some (_, '=' :: t) => some t
  | _ => none

/-- The lines on which the open brackets are closed. -/
def continued : State → List Text → List Text
  | _, [] => []
  | s, l :: ls => if s.nest = [] then [] else l :: continued (readLine s l).2 ls

/-- The line is a pair with the given key. -/
def Role.isPair (key : Text) : Role → Bool
  | .entry [k] _ => k == key
  | _ => false

/-- The text of the value of the first pair with the given key. -/
def valueFrom (table : List Text) (key : Text) : State → List Text → Option Text
  | _, [] => none
  | s, l :: ls =>
    if s.table = table ∧ (readLine s l).1.isPair key then
      (afterEquals l).map fun v => unlines (v :: continued (readLine s l).2 ls)
    else valueFrom table key (readLine s l).2 ls

/-- The text of the value of a key. -/
def valueText (table : List Text) (key : Text) (t : Text) : Option Text :=
  valueFrom table key start (lines t)

example : (valueText ["a"] "k" "k = 1\n[a]\nk = [ # rows\n  [0x1_0, 2],\n]").bind
    firstRow = some [16, 2] := by decide

end Toml
