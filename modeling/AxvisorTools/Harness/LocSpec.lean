import AxvisorTools.Harness.StaticScan
import AxvisorTools.Text.Grep

/-!
# What the line count is for

`codeLines` is the number of lines with something besides comments and blanks. A line comment reaches
to the end of its line, a block comment to the next `*/`; neither starts inside the other. `Place`
adds to the place of a line what `loc_for_file` knows of it, and `extra` and `missed` are the lines
that are counted without code or not counted with code.
-/

namespace Harness.StaticScan

open Shell Py

/-! ## Code lines -/

/-- What stands outside of comments on a line, which starts inside a block comment or not. -/
def outsideComments : Bool → Text → Text
  | _, [] => []
  | false, '/' :: '/' :: _ => []
  | false, '/' :: '*' :: t => outsideComments true t
  | false, c :: t => c :: outsideComments false t
  | true, '*' :: '/' :: t => outsideComments false t
  | true, _ :: t => outsideComments true t

/-- The line ends inside a block comment. -/
def endsInside : Bool → Text → Bool
  | inside, [] => inside
  | false, '/' :: '/' :: _ => false
  | false, '/' :: '*' :: t => endsInside true t
  | false, _ :: t => endsInside false t
  | true, '*' :: '/' :: t => endsInside false t
  | true, _ :: t => endsInside true t

def hasCode (inside : Bool) (l : Text) : Bool := !isBlank (outsideComments inside l)

/-- The number of lines with code. -/
def codeLines : Bool → List Text → Nat
  | _, [] => 0
  | inside, l :: ls => (hasCode inside l).toNat + codeLines (endsInside inside l) ls

/-- The lines of a source file: they end at newlines. -/
def sourceText (tree : Tree) (path : Text) : Text := (tree.files.lookup path).getD []

def sourceLines (tree : Tree) (path : Text) : List Text := fileLines (sourceText tree path)

/-! ## What is miscounted -/

/-- Where a line starts: outside of block comments, or in one that `loc_for_file` has seen the start
of or not. -/
inductive Place
  | outside
  | seen
  | hidden
  deriving DecidableEq, Repr

def Place.inside (p : Place) : Bool := p ≠ .outside

/-- `s.startswith("/*")` and `s.startswith("//")`. -/
def startsBlock (s : Text) : Bool := ['/', '*'].isPrefixOf s

def startsLine (s : Text) : Bool := ['/', '/'].isPrefixOf s

/-- A block comment that starts with the text and goes on after it. -/
def opens (s : Text) : Bool := startsBlock s && (afterBlock s).isNone

/-- What follows a seen comment on the line, or `none` if it goes on after it. -/
def Place.rest (p : Place) (l : Text) : Option Text :=
  if p = .seen then afterBlock (strip l) else some (strip l)

/-- The place of the next line: only a comment that starts what follows a seen one is seen. -/
def Place.next (p : Place) (l : Text) : Place :=
  if endsInside p.inside l = false then .outside
  else
    match p.rest l with
    | none => .seen
    | some s => if opens s then .seen else .hidden

/-- Another comment, and no code. -/
def onlyMore (s : Text) : Bool := startsBlock s && !hasCode false s

/-- `/*/`, which opens a comment and does not close it. -/
def startsSlashed (s : Text) : Bool := ['/', '*', '/'].isPrefixOf s

/-- What is taken for code after `/*/`. -/
def countedAfter (s : Text) : Bool :=
  let v := strip (s.drop 3)
  v ≠ [] && !startsLine v

/-- A text outside of comments that is counted and has no code. -/
def extraText (s : Text) : Bool :=
  if startsSlashed s then countedAfter s && !hasCode false s
  else startsBlock s && (afterBlock s).any onlyMore

/-- A text outside of comments that has code and is not counted. -/
def missedText (s : Text) : Bool := startsSlashed s && !countedAfter s && hasCode false s

/-- The line is counted and has no code. -/
def extra : Place → Text → Bool
  | .outside, l => extraText (strip l)
  | .seen, l => (afterBlock (strip l)).any extraText
  | .hidden, l =>
    if startsBlock (strip l) then (afterBlock (strip l)).any onlyMore
    else strip l ≠ [] && !startsLine (strip l) && !hasCode true l

/-- The line has code and is not counted. -/
def missed : Place → Text → Bool
  | .outside, l => missedText (strip l)
  | .seen, l => (afterBlock (strip l)).any missedText
  | .hidden, l => startsLine (strip l) && hasCode true l

/-- The number of lines with a property of their place. -/
def countPlaced (f : Place → Text → Bool) : Place → List Text → Nat
  | _, [] => 0
  | p, l :: ls => (f p l).toNat + countPlaced f (p.next l) ls

end Harness.StaticScan
