import AxvisorTools.Py.Int
import AxvisorTools.Text.Regex
import Mathlib.Data.Option.Basic

/-!
# Python's `re`

What the tools use of `re`: the class `\s`, `finditer`, `sub` with a plain replacement, and `subn`
with `count=1`, whose replacement is a template. `parseTemplate` follows `re._parser.parse_template`;
`none` is `re.error`.
-/

namespace Py.Re

open Regex

/-- `str.isspace`, which is also the class `\s`. -/
def isWhite (c : Char) : Bool :=
  let n := c.toNat
  (9 ≤ n && n ≤ 13) || (28 ≤ n && n ≤ 32) || n == 0x85 || n == 0xa0 || n == 0x1680 ||
    (0x2000 ≤ n && n ≤ 0x200a) || n == 0x2028 || n == 0x2029 || n == 0x202f || n == 0x205f ||
    n == 0x3000

def space : Re := .one isWhite

/-- A piece of a replacement template. -/
inductive Piece
  | char (c : Char)
  | group (n : Nat)
  deriving DecidableEq, Repr

/-- The escapes a template shares with string literals. -/
def escapeChar : Char → Option Char
  | 'a' => some '\x07'
  | 'b' => some '\x08'
  | 'f' => some '\x0c'
  | 'n' => some '\n'
  | 'r' => some '\r'
  | 't' => some '\t'
  | 'v' => some '\x0b'
  | '\\' => some '\\'
  | _ => none

/-- `\0` with up to two octal digits after it. -/
def octalEscape (t : Text) : Char × Text :=
  let ds := (t.take 2).takeWhile fun c => (digit? 8 c).isSome
  (Char.ofNat (ds.foldl (fun n c => n * 8 + (digitValue c).getD 0) 0), t.drop ds.length)

/-- A group number, or three octal digits, after the backslash and the digit `c`. -/
def digitEscape (c : Char) (t : Text) : Option (Piece × Text) :=
  match digit? 10 c, t with
  | some n, d :: t =>
    match digit? 10 d, t with
    | some m, e :: t =>
      match digit? 8 c, digit? 8 d, digit? 8 e with
      | some i, some j, some k =>
        if i * 64 + j * 8 + k ≤ 255 then some (.char (Char.ofNat (i * 64 + j * 8 + k)), t) else none
      | _, _, _ => some (.group (n * 10 + m), e :: t)
    | some m, [] => some (.group (n * 10 + m), [])
    | none, t => some (.group n, d :: t)
  | some n, [] => some (.group n, [])
  | none, _ => none

/-- `\g<n>`: no pattern here names its groups. -/
def namedEscape : Text → Option (Piece × Text)
  | '<' :: t =>
    let name := t.takeWhile (· != '>')
    match t.dropWhile (· != '>'), name.mapM (digit? 10) with
    | '>' :: rest, some ds =>
      if ds = [] then none else some (.group (ds.foldl (fun n d => n * 10 + d) 0), rest)
    | _, _ => none
  | _ => none

/-- What follows a backslash in a template. -/
def escape : Text → Option (List Piece × Text)
  | [] => none
  | 'g' :: t => (namedEscape t).map fun r => ([r.1], r.2)
  | '0' :: t => let r := octalEscape t; some ([.char r.1], r.2)
  | c :: t =>
    if (digit? 10 c).isSome then (digitEscape c t).map fun r => ([r.1], r.2)
    else
      match escapeChar c with
      | some d => some ([.char d], t)
      | none =>
        -- an unknown escape is an error for a letter and stands for itself otherwise
        if (digitValue c).isSome then none else some ([.char '\\', .char c], t)

/-- The pieces of a template; `fuel` bounds the number of characters. -/
def parseTemplate : Nat → Text → Option (List Piece)
  | 0, _ => some []
  | _ + 1, [] => some []
  | fuel + 1, c :: t =>
    if c = '\\' then do
      let r ← escape t
      return r.1 ++ (← parseTemplate fuel r.2)
    else do return .char c :: (← parseTemplate fuel t)

/-- Every backslash stands before a character that is no letter, digit or backslash, so that a
template with it stands for itself. -/
def verbatim : Text → Bool
  | [] => true
  | [c] => c != '\\'
  | c :: d :: t =>
    if c = '\\' then (digitValue d).isNone && d != '\\' && verbatim t else verbatim (d :: t)

/-- A piece, given the text of each group. -/
def Piece.text (groups : Nat → Text) : Piece → Text
  | .char c => [c]
  | .group n => groups n

def Piece.refersTo (ngroups : Nat) : Piece → Bool
  | .char _ => true
  | .group n => n ≤ ngroups

/-- The groups of a match, with the whole match as group 0. -/
def groupText (start : Text) (e : Pos) (n : Nat) : Text :=
  if n = 0 then (e.before.take (e.before.length - start.length)).reverse
  else (e.groups.lookup n).getD []

/-- `re.subn(r, template, text, count=1)` for a pattern with `ngroups` groups: the new text, or
`none` for no match, inside `none` for `re.error`. -/
def subn1 (r : Re) (ngroups : Nat) (template text : Text) : Option (Option Text) := do
  let pieces ← parseTemplate (template.length + 1) template
  guard (pieces.all (Piece.refersTo ngroups))
  return (search r text).map fun (start, e) =>
    start ++ pieces.flatMap (Piece.text (groupText start e)) ++ e.after

/-- The place after an empty match: the next search starts one character further on. -/
def pastEmpty : Pos → Option (Char × Text × Text)
  | ⟨_, [], _⟩ => none
  | ⟨before, c :: t, _⟩ => some (c, c :: before, t)

/-- The matches from a place on, with the text before each; `fuel` bounds their number. -/
def finditerFrom (r : Re) : Nat → Text → Text → List (Text × Pos)
  | 0, _, _ => []
  | fuel + 1, before, after =>
    match searchFrom r before after with
    | none => []
    | some (start, e) =>
      (start, e) ::
        if e.before.length = start.length then
          match pastEmpty e with
          | some (_, before, after) => finditerFrom r fuel before after
          | none => []
        else finditerFrom r fuel e.before e.after

/-- `r.finditer(text)`. -/
def finditer (r : Re) (text : Text) : List (Text × Pos) := finditerFrom r (text.length + 1) [] text

/-- The text from a place on with every match replaced. -/
def subFrom (r : Re) (repl : Text) : Nat → Text → Text → Text
  | 0, _, after => after
  | fuel + 1, before, after =>
    match searchFrom r before after with
    | none => after
    | some (start, e) =>
      start.drop before.length ++ repl ++
        if e.before.length = start.length then
          match pastEmpty e with
          | some (c, before, after) => c :: subFrom r repl fuel before after
          | none => []
        else subFrom r repl fuel e.before e.after

/-- `re.sub(r, repl, text)` for a replacement without backslashes. -/
def sub (r : Re) (repl text : Text) : Text := subFrom r repl (text.length + 1) [] text

end Py.Re
