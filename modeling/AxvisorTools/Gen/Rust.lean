import AxvisorTools.Gen.RawString
import AxvisorTools.Lex.TraitFns

/-!
# Reading a Rust source file

The part of Rust that generated tables are written in: functions without arguments and structures
as items, and expressions made of numbers, raw strings, calls, macros, references, arrays and
records. What lies outside of it is not read.
-/

namespace Gen.Rust

open Lex (isBlank isIdent)

/-! ## Tokens -/

inductive Token
  | word (t : Text)
  | lifetime (t : Text)
  | str (t : Text)
  | arrow
  | sign (c : Char)
  deriving DecidableEq, Repr

def isSign (c : Char) : Bool :=
  c ∈ ['(', ')', '[', ']', '\x7b', '\x7d', '<', '>', '&', '!', ':', ',']

/-- A blank, a line comment or a token at the start of a text, and what follows it. -/
def lexOne : Text → Option (Option Token × Text)
  | [] => none
  | c :: t =>
    if isBlank c then some (none, t)
    else if c = '/' then
      if t.head? = some '/' then some (none, t.dropWhile (· ≠ '\n')) else none
    else if c = '-' then
      if t.head? = some '>' then some (some .arrow, t.tail) else none
    else if c = '\'' then
      -- a quote after the name makes it a character
      if t.takeWhile isIdent ≠ [] ∧ (t.dropWhile isIdent).head? ≠ some '\'' then
        some (some (.lifetime (t.takeWhile isIdent)), t.dropWhile isIdent)
      else none
    else if isSign c then some (some (.sign c), t)
    else match lexRawString (c :: t) with
      | some (v, u) => some (some (.str v), u)
      | none =>
        if isIdent c then some (some (.word (c :: t.takeWhile isIdent)), t.dropWhile isIdent)
        else none

/-- The tokens of a text; each step takes at least one character. -/
def lexFrom : Nat → Text → Option (List Token)
  | _, [] => some []
  | 0, _ :: _ => none
  | fuel + 1, t => do
    let (token, u) ← lexOne t
    let tokens ← lexFrom fuel u
    return token.toList ++ tokens

def lex (t : Text) : Option (List Token) := lexFrom t.length t

/-! ## Expressions -/

inductive Expr
  | num (n : Nat)
  | str (t : Text)
  | name (t : Text)
  | call (f : Text) (args : List Expr)
  | invoke (m : Text) (args : List Expr)
  | ref (e : Expr)
  | array (es : List Expr)
  | record (t : Text) (fields : List (Text × Expr))
  deriving Repr

/-- A decimal number. -/
def number (w : Text) : Option Nat :=
  if w.all Char.isDigit then some (Nat.ofDigitChars 10 w 0) else none

mutual

/-- An expression at the start of the tokens, and what follows it. -/
def readExpr : Nat → List Token → Option (Expr × List Token)
  | 0, _ => none
  | _ + 1, .str t :: ts => some (.str t, ts)
  | fuel + 1, .sign '&' :: ts => (readExpr fuel ts).map fun (e, ts) => (.ref e, ts)
  | fuel + 1, .sign '[' :: ts => (readArgs fuel ']' ts).map fun (es, ts) => (.array es, ts)
  | fuel + 1, .word w :: ts =>
    match number w with
    | some n => some (.num n, ts)
    | none =>
      match ts with
      | .sign '(' :: ts => (readArgs fuel ')' ts).map fun (es, ts) => (.call w es, ts)
      | .sign '!' :: .sign '(' :: ts =>
        (readArgs fuel ')' ts).map fun (es, ts) => (.invoke w es, ts)
      | .sign '!' :: .sign '[' :: ts =>
        (readArgs fuel ']' ts).map fun (es, ts) => (.invoke w es, ts)
      | .sign '\x7b' :: ts => (readFields fuel ts).map fun (fs, ts) => (.record w fs, ts)
      | ts => some (.name w, ts)
  | _ + 1, _ => none

/-- Expressions with commas between them, up to the closing bracket. -/
def readArgs : Nat → Char → List Token → Option (List Expr × List Token)
  | 0, _, _ => none
  | fuel + 1, close, ts =>
    if ts.head? = some (.sign close) then some ([], ts.tail)
    else do
      let (e, ts) ← readExpr fuel ts
      if ts.head? = some (.sign ',') then
        let (es, ts) ← readArgs fuel close ts.tail
        return (e :: es, ts)
      else if ts.head? = some (.sign close) then some ([e], ts.tail)
      else none

/-- The fields of a record, up to the closing brace. -/
def readFields : Nat → List Token → Option (List (Text × Expr) × List Token)
  | fuel + 1, .word f :: .sign ':' :: ts => do
    let (e, ts) ← readExpr fuel ts
    if ts.head? = some (.sign ',') then
      let (fs, ts) ← readFields fuel ts.tail
      return ((f, e) :: fs, ts)
    else if ts.head? = some (.sign '\x7d') then some ([(f, e)], ts.tail)
    else none
  | _ + 1, .sign '\x7d' :: ts => some ([], ts)
  | _, _ => none

end

inductive Item
  | fn (name : Text) (body : List Token)
  | struct (name : Text) (body : List Token)
  deriving DecidableEq, Repr

/-- The tokens up to the brace that closes the block, and what follows. -/
def block : Nat → List Token → Option (List Token × List Token)
  | _, [] => none
  | depth, t :: ts =>
    if t = .sign '\x7d' then
      match depth with
      | 0 => some ([], ts)
      | depth + 1 => (block depth ts).map fun (body, ts) => (t :: body, ts)
    else
      (block (if t = .sign '\x7b' then depth + 1 else depth) ts).map fun (body, ts) => (t :: body, ts)

/-- A public function without arguments, or a public structure. -/
def readItem (ts : List Token) : Option (Item × List Token) :=
  match ts with
  | .word p :: .word kind :: .word name :: ts =>
    if p ≠ "pub" then none
    else if kind = "fn" then
      match ts with
      | .sign '(' :: .sign ')' :: .arrow :: ts =>
        (block 0 (ts.dropWhile (· ≠ .sign '\x7b')).tail).map fun (body, ts) => (.fn name body, ts)
      | _ => none
    else if kind = "struct" then
      match ts with
      | .sign '\x7b' :: ts => (block 0 ts).map fun (body, ts) => (.struct name body, ts)
      | _ => none
    else none
  | _ => none

def readItems : Nat → List Token → Option (List Item)
  | _, [] => some []
  | 0, _ :: _ => none
  | fuel + 1, ts => do
    let (item, ts) ← readItem ts
    let items ← readItems fuel ts
    return item :: items

end Gen.Rust
