import AxvisorTools.Py.Int
import AxvisorTools.Text.Lines

/-!
# Reading TOML line by line

A reader for documents without multi-line strings in which every key/value pair starts on a line
of its own. Its state is the table the line belongs to and the brackets left open by a value that
continues on further lines; `readLine` gives the line's role. The reader is strict about the
structure of lines, keys and strings (what is not TOML there is `Role.bad`) and does not check
numbers and dates.
-/

namespace Toml

/-- A bracket that is still open. -/
inductive Bracket
  | square
  | curly
  deriving DecidableEq, Repr

/-- Where the reader is between two lines. -/
structure State where
  table : List Text
  nest : List Bracket
  deriving DecidableEq, Repr

/-- The value of a pair, as far as it is read. -/
inductive Value
  | string (t : Text)
  | other
  deriving DecidableEq, Repr

/-- What a line is. -/
inductive Role
  | blank
  | header (path : List Text) (array : Bool)
  | entry (path : List Text) (value : Value)
  | inside
  | bad
  deriving DecidableEq, Repr

/-! ## Blanks, strings and keys -/

def isBlank (c : Char) : Bool := c == ' ' || c == '\t'

def skipBlanks (t : Text) : Text := t.dropWhile isBlank

/-- Only blanks and a comment are left. -/
def atEnd (t : Text) : Bool := (skipBlanks t).head?.all (· == '#')

/-- Strings hold no control characters but tabs. -/
def isTextChar (c : Char) : Bool := c == '\t' || (0x20 ≤ c.toNat && c.toNat != 0x7f)

def isBareChar (c : Char) : Bool := c.isAlphanum || c == '_' || c == '-'

/-- The escapes of a basic string that take one letter. -/
def escapeChar : Char → Option Char
  | 'b' => some '\x08'
  | 't' => some '\t'
  | 'n' => some '\n'
  | 'f' => some '\x0c'
  | 'r' => some '\r'
  | '"' => some '"'
  | '\\' => some '\\'
  | _ => none

/-- The character with the given hexadecimal code. -/
def hexChar (ds : Text) : Option Char := do
  let ns ← ds.mapM (Py.digit? 16)
  let n := ns.foldl (fun n d => n * 16 + d) 0
  if n.isValidChar then some (Char.ofNat n) else none

/-- A basic string after its opening quote: its characters and what follows it. -/
def readBasic : Text → Option (Text × Text)
  | [] => none
  | c :: t =>
    if c = '"' then some ([], t)
    else if c = '\\' then
      match t with
      | 'u' :: d1 :: d2 :: d3 :: d4 :: t => do
        let c ← hexChar [d1, d2, d3, d4]
        let r ← readBasic t
        return (c :: r.1, r.2)
      | 'U' :: d1 :: d2 :: d3 :: d4 :: d5 :: d6 :: d7 :: d8 :: t => do
        let c ← hexChar [d1, d2, d3, d4, d5, d6, d7, d8]
        let r ← readBasic t
        return (c :: r.1, r.2)
      | e :: t => do
        let c ← escapeChar e
        let r ← readBasic t
        return (c :: r.1, r.2)
      | [] => none
    else if isTextChar c then do
      let r ← readBasic t
      return (c :: r.1, r.2)
    else none

/-- A literal string after its opening quote. -/
def readLiteral : Text → Option (Text × Text)
  | [] => none
  | c :: t =>
    if c = '\'' then some ([], t)
    else if isTextChar c then do
      let r ← readLiteral t
      return (c :: r.1, r.2)
    else none

/-- One part of a key. -/
def readKey : Text → Option (Text × Text)
  | '"' :: t => readBasic t
  | '\'' :: t => readLiteral t
  | t =>
    let k := t.takeWhile isBareChar
    if k = [] then none else some (k, t.dropWhile isBareChar)

/-- A dotted key and the text after it, blanks skipped; `fuel` bounds the number of parts. -/
def readPath : Nat → Text → Option (List Text × Text)
  | 0, _ => none
  | fuel + 1, t => do
    let (k, t) ← readKey (skipBlanks t)
    match skipBlanks t with
    | '.' :: t => do
      let (ks, t) ← readPath fuel t
      return (k :: ks, t)
    | t => return ([k], t)

/-! ## Values and lines -/

/-- Where the scan of a value stands. -/
inductive Mode
  | plain
  | basic
  | escaped
  | literal
  deriving DecidableEq, Repr

/-- The brackets left open at the end of a line of a value. A newline and a comment are only
allowed directly inside an array, `=` only directly inside an inline table. -/
def scan : Mode → List Bracket → Text → Option (List Bracket)
  | .plain, nest, [] => if nest.head? = some .curly then none else some nest
  | _, _, [] => none
  | .plain, nest, c :: t =>
    if c = '#' then if nest.head? = some .curly then none else some nest
    else if c = '"' then scan .basic nest t
    else if c = '\'' then scan .literal nest t
    else if c = '[' then scan .plain (.square :: nest) t
    else if c = '{' then scan .plain (.curly :: nest) t
    else if c = ']' then if nest.head? = some .square then scan .plain nest.tail t else none
    else if c = '}' then if nest.head? = some .curly then scan .plain nest.tail t else none
    else if c = '=' then if nest.head? = some .curly then scan .plain nest t else none
    else scan .plain nest t
  | .basic, nest, c :: t =>
    scan (if c = '"' then .plain else if c = '\\' then .escaped else .basic) nest t
  | .escaped, nest, _ :: t => scan .basic nest t
  | .literal, nest, c :: t => scan (if c = '\'' then .plain else .literal) nest t

/-- A string that ends its line. -/
def endString (r : Option (Text × Text)) : Option (Value × List Bracket) :=
  r.bind fun (s, t) => if atEnd t then some (.string s, []) else none

/-- The value after `=`, with the brackets it leaves open. -/
def readValue (t : Text) : Option (Value × List Bracket) :=
  match skipBlanks t with
  | [] => none
  | '#' :: _ => none
  | '"' :: t => endString (readBasic t)
  | '\'' :: t => endString (readLiteral t)
  | t => (scan .plain [] t).map fun nest => (.other, nest)

/-- `[path]` or `[[path]]` after its first bracket. -/
def readHeader (t : Text) : Option (List Text × Bool) :=
  match t with
  | '[' :: t =>
    match readPath t.length t with
    | some (path, ']' :: ']' :: t) => if atEnd t then some (path, true) else none
    | _ => none
  | t =>
    match readPath t.length t with
    | some (path, ']' :: t) => if atEnd t then some (path, false) else none
    | _ => none

/-- `key = value`. -/
def readEntry (t : Text) : Option (List Text × Value × List Bracket) :=
  match readPath t.length t with
  | some (path, '=' :: t) => (readValue t).map fun r => (path, r)
  | _ => none

/-- A line may end in the carriage return of a CRLF newline. -/
def chomp (l : Text) : Text := if l.getLast? = some '\r' then l.dropLast else l

/-- The role of a line and the state after it. -/
def readLine (s : State) (l : Text) : Role × State :=
  if s.nest ≠ [] then
    match scan .plain s.nest (chomp l) with
    | some nest => (.inside, { s with nest })
    | none => (.bad, s)
  else
    match skipBlanks (chomp l) with
    | [] => (.blank, s)
    | '#' :: _ => (.blank, s)
    | '[' :: t =>
      match readHeader t with
      | some (path, array) => (.header path array, { s with table := path })
      | none => (.bad, s)
    | t =>
      match readEntry t with
      | some (path, value, nest) => (.entry path value, { s with nest })
      | none => (.bad, s)

/-! ## Documents -/

/-- A line, the table it belongs to and its role. -/
structure Reading where
  table : List Text
  line : Text
  role : Role
  deriving DecidableEq, Repr

def readLines : State → List Text → List Reading
  | _, [] => []
  | s, l :: ls => ⟨s.table, l, (readLine s l).1⟩ :: readLines (readLine s l).2 ls

/-- The state after some lines. -/
def State.after (s : State) (ls : List Text) : State := ls.foldl (fun s l => (readLine s l).2) s

/-- The state before the first line. -/
def start : State := ⟨[], []⟩

def readings (ls : List Text) : List Reading := readLines start ls

/-- The line is a pair of `table` whose key is `key` or a dotted key that starts with it. -/
def Reading.defines (table : List Text) (key : Text) (r : Reading) : Bool :=
  match r.role with
  | .entry (k :: _) _ => r.table == table && k == key
  | _ => false

/-- The line opens the table `path` or a table below it. -/
def Reading.opens (path : List Text) (r : Reading) : Bool :=
  match r.role with
  | .header p _ => path.isPrefixOf p
  | _ => false

/-- Every line is read, and no value is left open. -/
def WellRead (ls : List Text) : Prop :=
  (∀ r ∈ readings ls, r.role ≠ .bad) ∧ (start.after ls).nest = []

/-- The lines that define `key` in `table`. -/
def definitions (table : List Text) (key : Text) (ls : List Text) : List Reading :=
  (readings ls).filter (·.defines table key)

/-- The lines that do not define `key` in `table`. -/
def others (table : List Text) (key : Text) (ls : List Text) : List Text :=
  ((readings ls).filter fun r => !r.defines table key).map (·.line)

/-- No line opens `table.key` or a table below it. -/
def NoSubtable (table : List Text) (key : Text) (ls : List Text) : Prop :=
  ∀ r ∈ readings ls, ¬r.opens (table ++ [key])

/-- `key` has exactly one definition in `table`, the string `value`. -/
def DefinesOnce (table : List Text) (key value : Text) (ls : List Text) : Prop :=
  (definitions table key ls).map (·.role) = [.entry [key] (.string value)] ∧
    NoSubtable table key ls

/-- Two lines that give the same key of `table`, one of them as a plain pair. -/
def clash (table : List Text) (r r' : Reading) : Bool :=
  let plain (r : Reading) : Option Text := match r.role with
    | .entry [k] _ => if r.table = table then some k else none
    | _ => none
  let uses (k : Text) (r : Reading) : Bool := r.defines table k || r.opens (table ++ [k])
  (plain r).any (uses · r') || (plain r').any (uses · r)

/-- A document that is read throughout, with one header `[table]` and no key of the table defined
twice. -/
structure Valid (table : List Text) (ls : List Text) : Prop where
  wellRead : WellRead ls
  oneTable : ((readings ls).map (·.role)).count (.header table false) = 1
  noArray : Role.header table true ∉ (readings ls).map (·.role)
  unique : (readings ls).Pairwise fun r r' => ¬clash table r r'

/-- `key = "value"`. -/
def stringPair (key value : Text) : Text := key ++ " = \"" ++ value ++ ['"']

/-- The lines `ls'` give `key` exactly one definition in `table`, with exactly `value`, and are
otherwise the lines `ls`, in the same order. -/
structure SetsOnce (table : List Text) (key value : Text) (ls ls' : List Text) : Prop where
  wellRead : WellRead ls'
  once : DefinesOnce table key value ls'
  others : others table key ls' = others table key ls

instance (ls : List Text) : Decidable (WellRead ls) := inferInstanceAs (Decidable (_ ∧ _))

instance (table : List Text) (key : Text) (ls : List Text) : Decidable (NoSubtable table key ls) :=
  inferInstanceAs (Decidable (∀ r ∈ readings ls, _))

instance (table : List Text) (key value : Text) (ls : List Text) :
    Decidable (DefinesOnce table key value ls) := inferInstanceAs (Decidable (_ ∧ _))

end Toml
