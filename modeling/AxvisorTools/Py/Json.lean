import AxvisorTools.Text.Basic

/-!
# Python's `json`

`dumps` with the default ASCII escapes, on one line or indented, and `loads`. Both printers are
instances of `render`, which takes the white space between the tokens from a `Layout`. Numbers are
natural numbers: the tools write no others.
-/

namespace Py

/-- A JSON value; the fields of an object stand in their order. -/
inductive Json
  | null
  | bool (b : Bool)
  | num (n : Nat)
  | str (t : Text)
  | arr (items : List Json)
  | obj (fields : List (Text × Json))

namespace Json

/-! ## Strings -/

/-- `\uXXXX`. -/
def unicodeEscape (n : Nat) : Text :=
  ['\\', 'u', Nat.digitChar (n / 4096 % 16), Nat.digitChar (n / 256 % 16),
    Nat.digitChar (n / 16 % 16), Nat.digitChar (n % 16)]

/-- A character of a string with `ensure_ascii`: what lies outside `' '..'~'` is escaped, and a
character beyond the 16-bit plane as a surrogate pair. -/
def escapeChar (c : Char) : Text :=
  if c = '"' then ['\\', '"']
  else if c = '\\' then ['\\', '\\']
  else if c = '\n' then ['\\', 'n']
  else if c = '\r' then ['\\', 'r']
  else if c = '\t' then ['\\', 't']
  else if c = '\x0c' then ['\\', 'f']
  else if c = '\x08' then ['\\', 'b']
  else if ' ' ≤ c ∧ c ≤ '~' then [c]
  else if c.toNat < 0x10000 then unicodeEscape c.toNat
  else
    let n := c.toNat - 0x10000
    unicodeEscape (0xd800 + n / 1024) ++ unicodeEscape (0xdc00 + n % 1024)

def escape (t : Text) : Text := t.flatMap escapeChar

/-- A string with its quotes. -/
def quote (t : Text) : Text := '"' :: escape t ++ ['"']

/-! ## Printing -/

def isWhite (c : Char) : Bool := c == ' ' || c == '\t' || c == '\n' || c == '\r'

/-- The white space a printer puts after an opening bracket, before a closing one, after a comma
and after a colon, by the depth of the bracket. -/
structure Layout where
  opening : Nat → Text
  closing : Nat → Text
  comma : Nat → Text
  colon : Nat → Text
  white : ∀ k, (opening k ++ closing k ++ comma k ++ colon k).all isWhite = true

mutual

/-- The text of a value inside `k` brackets. -/
def render (l : Layout) (k : Nat) : Json → Text
  | .null => "null"
  | .bool b => (if b then "true" else "false").toList
  | .num n => Nat.toDigits 10 n
  | .str t => quote t
  | .arr [] => "[]"
  | .arr (x :: xs) =>
    '[' :: l.opening k ++ render l (k + 1) x ++ renderItems l k xs ++ l.closing k ++ [']']
  | .obj [] => "\x7b\x7d"
  | .obj ((key, x) :: fs) =>
    '\x7b' :: l.opening k ++ (quote key ++ ':' :: l.colon k ++ render l (k + 1) x) ++
      renderFields l k fs ++ l.closing k ++ ['\x7d']

/-- The items of an array after the first. -/
def renderItems (l : Layout) (k : Nat) : List Json → Text
  | [] => []
  | x :: xs => ',' :: l.comma k ++ render l (k + 1) x ++ renderItems l k xs

/-- The fields of an object after the first. -/
def renderFields (l : Layout) (k : Nat) : List (Text × Json) → Text
  | [] => []
  | (key, x) :: fs =>
    ',' :: l.comma k ++ (quote key ++ ':' :: l.colon k ++ render l (k + 1) x) ++
      renderFields l k fs

end

/-- `json.dumps(j)`. -/
def inlineLayout : Layout := ⟨fun _ => [], fun _ => [], fun _ => [' '], fun _ => [' '], fun _ => rfl⟩

def indent (k : Nat) : Text := '\n' :: List.replicate (2 * k) ' '

/-- `json.dumps(j, indent=2)`. -/
def indentLayout : Layout where
  opening k := indent (k + 1)
  closing := indent
  comma k := indent (k + 1)
  colon _ := [' ']
  white k := by simp [indent, isWhite]

def dumps (j : Json) : Text := render inlineLayout 0 j

def dumpsIndent (j : Json) : Text := render indentLayout 0 j

/-! ## Reading -/

def skipWhite (t : Text) : Text := t.dropWhile isWhite

def hexDigit (c : Char) : Option Nat :=
  if '0' ≤ c ∧ c ≤ '9' then some (c.toNat - 48)
  else if 'a' ≤ c ∧ c ≤ 'f' then some (c.toNat - 87)
  else if 'A' ≤ c ∧ c ≤ 'F' then some (c.toNat - 55)
  else none

def hex4 (a b c d : Char) : Option Nat := do
  return (← hexDigit a) * 4096 + (← hexDigit b) * 256 + (← hexDigit c) * 16 + (← hexDigit d)

/-- The escapes of one letter. -/
def unescapeChar : Char → Option Char
  | '"' => some '"'
  | '\\' => some '\\'
  | '/' => some '/'
  | 'b' => some '\x08'
  | 'f' => some '\x0c'
  | 'n' => some '\n'
  | 'r' => some '\r'
  | 't' => some '\t'
  | _ => none

/-- A character of the string and the characters after it. -/
def push (c : Char) (r : Option (Text × Text)) : Option (Text × Text) :=
  r.map fun (s, t) => (c :: s, t)

/-- A string after its opening quote. A surrogate that is not part of a pair is not a character of
a `Text`, so such a string is refused. -/
def readString : Text → Option (Text × Text)
  | [] => none
  | c :: t =>
    if c = '"' then some ([], t)
    else if c = '\\' then
      match t with
      | 'u' :: a :: b :: c :: d :: t =>
        match hex4 a b c d with
        | none => none
        | some n =>
          if 0xd800 ≤ n ∧ n < 0xdc00 then
            match t with
            | '\\' :: 'u' :: a :: b :: c :: d :: t =>
              match hex4 a b c d with
              | none => none
              | some m =>
                if 0xdc00 ≤ m ∧ m < 0xe000 then
                  push (Char.ofNat (0x10000 + (n - 0xd800) * 1024 + (m - 0xdc00))) (readString t)
                else none
            | _ => none
          else if 0xdc00 ≤ n ∧ n < 0xe000 then none
          else push (Char.ofNat n) (readString t)
      | e :: t =>
        match unescapeChar e with
        | none => none
        | some c => push c (readString t)
      | [] => none
    else if c.toNat < 0x20 then none
    else push c (readString t)

/-- A natural number without leading zeros. -/
def readNumber (t : Text) : Option (Json × Text) :=
  match t with
  | '0' :: t => some (.num 0, t)
  | t =>
    let ds := t.takeWhile Char.isDigit
    if ds = [] then none else some (.num (Nat.ofDigitChars 10 ds 0), t.dropWhile Char.isDigit)

/-- What follows a literal name. -/
def readName (name : Text) (j : Json) (t : Text) : Option (Json × Text) :=
  if name <+: t then some (j, t.drop name.length) else none

mutual

/-- A value and the text after it; `fuel` bounds the number of tokens. -/
def readValue : Nat → Text → Option (Json × Text)
  | 0, _ => none
  | fuel + 1, t =>
    match t with
    | [] => none
    | c :: u =>
      if c = '"' then (readString u).map fun (s, t) => (.str s, t)
      else if c = '[' then
        match skipWhite u with
        | ']' :: t => some (.arr [], t)
        | t => (readItems fuel t).map fun (xs, t) => (.arr xs, t)
      else if c = '\x7b' then
        match skipWhite u with
        | '\x7d' :: t => some (.obj [], t)
        | t => (readFields fuel t).map fun (fs, t) => (.obj fs, t)
      else if c = 'n' then readName "null" .null t
      else if c = 't' then readName "true" (.bool true) t
      else if c = 'f' then readName "false" (.bool false) t
      else readNumber t

/-- The items of an array up to its closing bracket. -/
def readItems : Nat → Text → Option (List Json × Text)
  | 0, _ => none
  | fuel + 1, t => do
    let (x, t) ← readValue fuel t
    match skipWhite t with
    | ',' :: t => (readItems fuel (skipWhite t)).map fun (xs, t) => (x :: xs, t)
    | ']' :: t => some ([x], t)
    | _ => none

/-- The fields of an object up to its closing bracket. -/
def readFields : Nat → Text → Option (List (Text × Json) × Text)
  | 0, _ => none
  | fuel + 1, t =>
    match t with
    | '"' :: t => do
      let (key, t) ← readString t
      match skipWhite t with
      | ':' :: t => do
        let (x, t) ← readValue fuel (skipWhite t)
        match skipWhite t with
        | ',' :: t => (readFields fuel (skipWhite t)).map fun (fs, t) => ((key, x) :: fs, t)
        | '\x7d' :: t => some ([(key, x)], t)
        | _ => none
      | _ => none
    | _ => none

end

/-- `json.loads(t)`; `none` is `JSONDecodeError`. -/
def loads (t : Text) : Option Json :=
  match readValue (t.length + 1) (skipWhite t) with
  | some (j, rest) => if skipWhite rest = [] then some j else none
  | none => none

/-- `d[key]` of an object that was read: the last pair with that key. -/
def get (key : Text) : Json → Option Json
  | .obj fields => (fields.reverse.find? fun f => f.1 = key).map (·.2)
  | _ => none

/-- The text of a string value. -/
def text? : Json → Option Text
  | .str t => some t
  | _ => none

end Json

end Py
