import AxvisorTools.Toml.Array
import Mathlib.Data.List.DropRight

/-!
# Documents a TOML parser accepts

On top of the reader: the values that are neither strings nor bracketed are checked (`isScalar`), and no
key or table may be defined twice (`Item.conflicts`). `Accepted` is what a document without multi-line
strings has to fulfil, and `Reads` says that a parser accepts it and finds an integer under a key.
-/

namespace Toml

/-! ## Scalars -/

def dropSign : Text → Text
  | '+' :: t => t
  | '-' :: t => t
  | t => t

/-- The exponent of a float, or nothing. -/
def isExponent : Text → Bool
  | [] => true
  | _ :: t => (digits 10 (dropSign t)).isSome

/-- A float: a decimal number with a fraction, an exponent or both, or one of the special values. -/
def isFloat (t : Text) : Bool :=
  let t := dropSign t
  let (mantissa, exponent) := t.span fun c => c != 'e' && c != 'E'
  t == "inf" || t == "nan" ||
    (isExponent exponent &&
      match mantissa.span (· != '.') with
      | (whole, []) => (decimal whole).isSome && exponent != []
      | (whole, _ :: fraction) => (decimal whole).isSome && (digits 10 fraction).isSome)

/-- The text has the form of `pattern`, in which `0` stands for any digit. -/
def hasForm : (pattern : Text) → Text → Bool
  | [], [] => true
  | p :: ps, c :: t => (if p = '0' then c.isDigit else c == p) && hasForm ps t
  | _, _ => false

def isDate (t : Text) : Bool := hasForm "0000-00-00" t

def isTime (t : Text) : Bool :=
  hasForm "00:00:00" (t.take 8) &&
    match t.drop 8 with
    | [] => true
    | c :: fraction => c == '.' && fraction != [] && fraction.all Char.isDigit

def isOffset (t : Text) : Bool :=
  t == ['Z'] || t == ['z'] || hasForm "+00:00" t || hasForm "-00:00" t

/-- A date, a time, or both of them with or without an offset. -/
def isDateTime (t : Text) : Bool :=
  isTime t || isDate t ||
    (isDate (t.take 10) &&
      match t.drop 10 with
      | [] => false
      | c :: t =>
        let (time, offset) := t.span fun c => c.isDigit || c == ':' || c == '.'
        (c == 'T' || c == 't' || c == ' ') && isTime time && (offset == [] || isOffset offset))

/-- A value that is neither a string nor in brackets. -/
def isScalar (t : Text) : Bool :=
  t == "true" || t == "false" || (integer t).isSome || isFloat t || isDateTime t

/-- The value on the line of a pair, without a comment and blanks around it. -/
def bareValue (l : Text) : Option Text :=
  (afterEquals l).map fun t => (skipBlanks (t.takeWhile (· ≠ '#'))).rdropWhile isBlank

/-- The integer on the line of a pair. -/
def intValue (l : Text) : Option Int := (bareValue l).bind integer

/-- A pair has a value; strings and brackets were checked when the line was read. -/
def Reading.hasValue (r : Reading) : Bool :=
  match r.role with
  | .entry _ .other => (bareValue r.line).any fun t => t.head? == some '[' || t.head? == some '\x7b' ||
      isScalar t
  | _ => true

/-! ## Definitions -/

/-- A path in which each key comes with the number of headers `[[…]]` seen for the path up to it, so
that the tables of an array are told apart. -/
abbrev Path := List (Text × Nat)

/-- The path `above ++ path`, without its part `above`, after the headers `[[…]]` in `seen`. -/
def place (seen : List (List Text)) : (above path : List Text) → Path
  | _, [] => []
  | above, k :: ks => (k, seen.count (above ++ [k])) :: place seen (above ++ [k]) ks

/-- What a line defines: a value in a table that is `depth` keys deep, or a table. -/
inductive Item
  | value (depth : Nat) (path : Path)
  | table (path : Path)
  | array (path : Path)
  deriving DecidableEq, Repr

/-- The headers `[[…]]` seen after a line. -/
def seenAfter (seen : List (List Text)) (r : Reading) : List (List Text) :=
  match r.role with
  | .header path true => path :: seen
  | _ => seen

/-- What a line defines. -/
def Reading.item (seen : List (List Text)) (r : Reading) : Option Item :=
  match r.role with
  | .entry path _ => some (.value r.table.length (place seen [] (r.table ++ path)))
  | .header path false => some (.table (place seen [] path))
  | .header path true => some (.array (place seen [] path))
  | _ => none

/-- What the lines of a document define. -/
def items : (seen : List (List Text)) → List Reading → List Item
  | _, [] => []
  | seen, r :: rs => (r.item seen).toList ++ items (seenAfter seen r) rs

/-- `q` is at or below `p`. -/
def covers : (p q : Path) → Bool
  | [], _ => true
  | _, [] => false
  | [a], b :: _ => a.1 == b.1
  | a :: p, b :: q => a == b && covers p q

/-- Two lines of a document define the same thing. A value leaves no room for anything at or below it,
and the tables above it that its dotted key has made have no header. -/
def Item.conflicts : Item → Item → Bool
  | .value _ p, .value _ q => covers p q || covers q p
  | .value d p, .table q => covers p q || (decide (d < q.length) && covers q p)
  | .value d p, .array q => covers p q || (decide (d < q.length) && covers q p)
  | .table q, .value d p => covers p q || (decide (d < q.length) && covers q p)
  | .array q, .value d p => covers p q || (decide (d < q.length) && covers q p)
  | .table p, .table q => p == q
  | .table p, .array q => covers p q && covers q p
  | .array p, .table q => covers p q && covers q p
  | .array _, .array _ => false

/-- A document that is read throughout, with a value in each pair and nothing defined twice. -/
structure Accepted (ls : List Text) : Prop where
  wellRead : WellRead ls
  values : ∀ r ∈ readings ls, r.hasValue = true
  distinct : (items [] (readings ls)).Pairwise fun i j => ¬i.conflicts j

instance (ls : List Text) : Decidable (Accepted ls) :=
  decidable_of_iff (WellRead ls ∧ (∀ r ∈ readings ls, r.hasValue = true) ∧
      (items [] (readings ls)).Pairwise fun i j => ¬i.conflicts j)
    ⟨fun h => ⟨h.1, h.2.1, h.2.2⟩, fun h => ⟨h.1, h.2, h.3⟩⟩

/-- What a pair with the plain key `key` defines below the lines `pre`. -/
def itemBelow (pre : List Text) (key : Text) : Item :=
  let table := (start.after pre).table
  .value table.length (place ((readings pre).foldl seenAfter []) [] (table ++ [key]))

/-- A pair of `table` with the plain key `key`. -/
def Reading.isPair (table : List Text) (key : Text) (r : Reading) : Bool :=
  r.table == table && r.role.isPair key

/-- A parser accepts the document and reads the integer `n` for `key` in `table`. -/
def Reads (ls : List Text) (table : List Text) (key : Text) (n : Int) : Prop :=
  Accepted ls ∧ ∃ r ∈ readings ls, r.isPair table key = true ∧ intValue r.line = some n

instance (ls : List Text) (table : List Text) (key : Text) (n : Int) :
    Decidable (Reads ls table key n) := inferInstanceAs (Decidable (_ ∧ _))

example : Accepted (lines "a.b = 1\n[[c]]\nk = 1979-05-27T07:32:00Z\n[[c]]\nk = -0.5e3 # x\n") := by
  decide +kernel

example : ¬Accepted (lines "[a]\nk = 1\n[b]\n[a.k]\n") := by decide +kernel

end Toml
