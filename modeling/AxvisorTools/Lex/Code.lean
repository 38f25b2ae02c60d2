import AxvisorTools.Text.Basic

/-!
# Code, comments and literals

Which characters of a Rust or C text are code, that is, no part of a comment or of a string or
character literal. The lexer reads one character at a time. Where a rule looks further ahead, the
rest of what it has seen is a state of its own, `token`.
-/

namespace Lex

inductive Lang
  | rust
  | c
  deriving DecidableEq, Repr

/-- Where the lexer stands between two characters. -/
inductive State
  | code
  | lineComment
  | blockComment (depth : Nat)
  | string
  /-- `r#"…"#`, with the number of `#`. -/
  | rawString (hashes : Nat)
  | char
  /-- The next `n` characters are not code. -/
  | token (n : Nat) (next : State)
  deriving DecidableEq, Repr

def isIdent (c : Char) : Bool := c.isAlphanum || c == '_' || 128 ≤ c.toNat

/-- The length of the line splices of C that a text starts with. -/
def splices : Text → Nat
  | '\\' :: '\n' :: t => splices t + 2
  | '\\' :: '\r' :: '\n' :: t => splices t + 3
  | _ => 0

/-- How far away `c` is when it is the next character; C looks through splices. -/
def follows (lang : Lang) (c : Char) (t : Text) : Option Nat :=
  let skip := match lang with
    | .rust => 0
    | .c => splices t
  if (t.drop skip).head? = some c then some (skip + 1) else none

/-- The number of `#` between the `r` and the quote of a raw string. -/
def rawHashes (t : Text) : Option Nat :=
  let n := (t.takeWhile (· == '#')).length
  if (t.drop n).head? = some '"' then some n else none

/-- A literal with a prefix that starts with `c`: the rest of its opening, and the state inside. -/
def prefixed : Lang → Char → Text → Option (Nat × State)
  | .rust, 'r', t => (rawHashes t).map fun n => (n + 1, .rawString n)
  | .rust, 'b', 'r' :: t | .rust, 'c', 'r' :: t => (rawHashes t).map fun n => (n + 2, .rawString n)
  | .rust, 'b', '"' :: _ | .rust, 'c', '"' :: _ => some (1, .string)
  | .rust, 'b', '\'' :: _ => some (1, .char)
  | .c, 'L', '"' :: _ | .c, 'u', '"' :: _ | .c, 'U', '"' :: _ => some (1, .string)
  | .c, 'L', '\'' :: _ | .c, 'u', '\'' :: _ | .c, 'U', '\'' :: _ => some (1, .char)
  | .c, 'u', '8' :: '"' :: _ => some (2, .string)
  | .c, 'u', '8' :: '\'' :: _ => some (2, .char)
  | _, _, _ => none

/-- A quote of Rust: a character literal, or else the start of a lifetime. -/
def rustQuote : Text → Bool × State
  | '\\' :: _ => (false, .char)
  | _ :: '\'' :: _ => (false, .token 2 .code)
  | _ => (true, .code)

/-- A character of code; `prev` is the one before it. -/
def codeStep (lang : Lang) (prev : Option Char) (c : Char) (t : Text) : Bool × State :=
  match if prev.any isIdent then none else prefixed lang c t with
  | some (n, inside) => (false, .token n inside)
  | none =>
    match c with
    | '/' =>
      match follows lang '/' t, follows lang '*' t with
      | some n, _ => (false, .token n .lineComment)
      | none, some n => (false, .token n (.blockComment 1))
      | none, none => (true, .code)
    | '"' => (false, .string)
    | '\'' =>
      match lang with
      | .rust => rustQuote t
      | .c => (false, .char)
    | _ => (true, .code)

/-- A character of a comment to the end of the line, which a splice carries on. -/
def lineCommentStep (lang : Lang) (c : Char) (t : Text) : Bool × State :=
  if c = '\n' then (true, .code)
  else
    match lang, splices (c :: t) with
    | .c, n + 2 => (false, .token (n + 1) .lineComment)
    | _, _ => (false, .lineComment)

/-- A character of a block comment; those of Rust nest. -/
def blockCommentStep (lang : Lang) (depth : Nat) (c : Char) (t : Text) : Bool × State :=
  match c, lang with
  | '*', _ =>
    match follows lang '/' t with
    | some n => (false, .token n (if depth ≤ 1 then .code else .blockComment (depth - 1)))
    | none => (false, .blockComment depth)
  | '/', .rust =>
    match follows lang '*' t with
    | some n => (false, .token n (.blockComment (depth + 1)))
    | none => (false, .blockComment depth)
  | _, _ => (false, .blockComment depth)

/-- A character of a literal that ends at the quote `q`; in C also at the end of the line. -/
def quotedStep (lang : Lang) (q : Char) (inside : State) (c : Char) (t : Text) : Bool × State :=
  if c = q then (false, .code)
  else if c = '\\' then
    match lang, splices (c :: t) with
    | .c, n + 2 => (false, .token (n + 1) inside)
    | _, _ => (false, .token 1 inside)
  else if c = '\n' ∧ lang = .c then (true, .code)
  else (false, inside)

/-- `n` more characters that are not code. -/
def skip (n : Nat) (next : State) : State := if n = 0 then next else .token n next

/-- One character: whether it is code, and the state after it. -/
def step (lang : Lang) (prev : Option Char) (s : State) (c : Char) (t : Text) : Bool × State :=
  match s with
  | .code => codeStep lang prev c t
  | .lineComment => lineCommentStep lang c t
  | .blockComment depth => blockCommentStep lang depth c t
  | .string => quotedStep lang '"' .string c t
  | .char => quotedStep lang '\'' .char c t
  | .rawString n =>
    if c = '"' ∧ List.replicate n '#' <+: t then (false, skip n .code) else (false, .rawString n)
  | .token n next => (false, skip (n - 1) next)

def codeMaskFrom (lang : Lang) : Option Char → State → Text → List Bool
  | _, _, [] => []
  | prev, s, c :: t =>
    let r := step lang prev s c t
    r.1 :: codeMaskFrom lang (some c) r.2 t

/-- For each character, whether it is code. -/
def codeMask (lang : Lang) (t : Text) : List Bool := codeMaskFrom lang none .code t

/-- The `n` characters from place `i` on are all code. -/
def InCode (lang : Lang) (t : Text) (i n : Nat) : Prop :=
  (((codeMask lang t).drop i).take n).all id = true

instance (lang : Lang) (t : Text) (i n : Nat) : Decidable (InCode lang t i n) :=
  inferInstanceAs (Decidable (_ = true))

/-- A quote as a character, a nested comment and a line comment: only the `x` is code. -/
example : ((codeMask .rust "'\"'/*/**/*/x//").zip "'\"'/*/**/*/x//").filterMap
    (fun p => if p.1 then some p.2 else none) = ['x'] := by decide

end Lex
