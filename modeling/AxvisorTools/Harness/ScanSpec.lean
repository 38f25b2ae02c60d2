import AxvisorTools.Harness.StaticScan
import AxvisorTools.Lex.Code

/-!
# What the architecture scan is for

`Occurs` is what the scan should find: a forbidden symbol in the code of a source file, by the lexical
rules of its language. `Visible` is what it can find: a symbol on a line that does not start like a
comment, before the first `//` and outside of what it takes for strings. `CrateGone` are the trees in
which there is nothing of a crate to scan.
-/

namespace Harness.StaticScan

open Shell Py Regex

/-- The language of a source file. -/
def langOf (path : Text) : Lex.Lang := if suffix path = ".rs" then .rust else .c

/-- A match on line `n` of the text that lies in code from its first to its last character. -/
def CodeMatch (lang : Lex.Lang) (r : Re) (text : Text) (n : Nat) : Prop :=
  ∃ a x y g, text = a ++ (x ++ y) ∧ Matches r a.reverse x y g ∧ '\n' ∉ x ∧
    n = a.count '\n' + 1 ∧ Lex.InCode lang text a.length x.length

def forbiddenPatterns (isalnum : Char → Bool) : List (Text × Re) :=
  forbiddenHostPatterns isalnum ++ forbiddenKvmPatterns isalnum

/-- Line `n` of the file has a forbidden symbol in its code. -/
def Occurs (isalnum : Char → Bool) (tree : Tree) (path : Text) (n : Nat) : Prop :=
  ∃ text, tree.files.lookup path = some text ∧
    ∃ p ∈ forbiddenPatterns isalnum, CodeMatch (langOf path) p.2 text n

/-- The text up to the quote that closes a string, and what follows it. A backslash takes the next
character with it. -/
def closeQuote : Text → Option (Text × Text)
  | [] => none
  | '"' :: t => some ([], t)
  | '\\' :: [] => none
  | '\\' :: c :: t => if c = '\n' then none else (closeQuote t).map fun r => ('\\' :: c :: r.1, r.2)
  | c :: t => (closeQuote t).map fun r => (c :: r.1, r.2)

/-- Quotes pair up from the left: `Outside l t` says that `t`, the rest of the line `l`, does not
start inside a pair. A quote that nothing closes is a character like any other. -/
inductive Outside (l : Text) : Text → Prop
  | start : Outside l l
  | char {c : Char} {t : Text} (h : Outside l (c :: t)) (hc : c = '"' → closeQuote t = none) :
      Outside l t
  | pair {t body rest : Text} (h : Outside l ('"' :: t)) (hq : closeQuote t = some (body, rest)) :
      Outside l rest

/-- The line has a match that the scan can see. -/
def Visible (r : Re) (l : Text) : Prop :=
  isCommentLine l = false ∧ ∃ a x y g, l = a ++ (x ++ y) ∧ Matches r a.reverse x y g ∧
    a ++ x <+: cutComment l ∧ Outside (cutComment l) ((cutComment l).drop a.length)

/-- The match `x` behind `a` is one of these. -/
def VisibleAt (r : Re) (l a x : Text) : Prop :=
  isCommentLine l = false ∧ ∃ y g, l = a ++ (x ++ y) ∧ Matches r a.reverse x y g ∧
    a ++ x <+: cutComment l ∧ Outside (cutComment l) ((cutComment l).drop a.length)

/-- The first match that the scan can see is behind `a`. -/
def FirstVisible (r : Re) (l a : Text) : Prop :=
  (∃ x, VisibleAt r l a x) ∧ ∀ a' x, VisibleAt r l a' x → a.length ≤ a'.length

/-- The match that the search returns is behind `a`: it starts where the rest of the line starts in
what is left of the line. -/
def FoundAt (r : Re) (l a : Text) : Prop :=
  ∃ start e rest, search r (stripLineForScan l) = some (start, e) ∧ cutComment l = a ++ rest ∧
    Outside (cutComment l) rest ∧ stripLineForScan l = start ++ Re.sub quoted ['"', '"'] rest

/-- Line `n` of the file, as the scan counts lines, shows one of the symbols. -/
def Shows (patterns : List (Text × Re)) (tree : Tree) (path : Text) (n : Nat) : Prop :=
  ∃ l, (l, n) ∈ numbered tree path ∧ ∃ p ∈ patterns, Visible p.2 l

/-- `splitlinesFrom`, with the place where each line starts; `i` is the place that is reached. -/
def placedLinesFrom (cr : Bool) (i : Nat) (cur : Text) : Text → List (Nat × Text)
  | [] => if cur = [] then [] else [(i - cur.length, cur.reverse)]
  | c :: t =>
    if cr ∧ c = '\n' then placedLinesFrom false (i + 1) cur t
    else if isLineBreak c then
      (i - cur.length, cur.reverse) :: placedLinesFrom (c == '\r') (i + 1) [] t
    else placedLinesFrom false (i + 1) (c :: cur) t

/-- Line `n` of the file, as the scan counts lines, is `l`, which starts at place `o` of the text. -/
def LineOf (tree : Tree) (path : Text) (n : Nat) (text : Text) (o : Nat) (l : Text) : Prop :=
  tree.files.lookup path = some text ∧ ((o, l), n) ∈ (placedLinesFrom false 0 [] text).zipIdx 1

/-- What the pattern matches behind `a`, on a line that starts at `o`, lies in code. -/
def CodeAt (lang : Lex.Lang) (r : Re) (text : Text) (o : Nat) (l a : Text) : Prop :=
  ∀ x, VisibleAt r l a x → Lex.InCode lang text (o + a.length) x.length

/-- The match that made the finding lies in code. -/
def MadeInCode (isalnum : Char → Bool) (tree : Tree) (f : Finding) : Prop :=
  ∃ p ∈ forbiddenPatterns isalnum, p.1 = f.pattern ∧ ∃ text o l a,
    LineOf tree f.path f.line text o l ∧ FoundAt p.2 l a ∧ CodeAt (langOf f.path) p.2 text o l a

/-! ## Names of the host -/

section

variable (isalnum : Char → Bool)

/-- Nothing that would go on with a word stands at the end of `a`. -/
def EndsWord (a : Text) : Prop := ∀ c ∈ a.getLast?, isWord isalnum c = false

/-- Nothing that would go on with a word stands at the start of `y`. -/
def StartsOther (y : Text) : Prop := ∀ c ∈ y.head?, isWord isalnum c = false

/-- `x` stands in the line as a whole word. -/
def HasWord (l x : Text) : Prop :=
  ∃ a y, l = a ++ (x ++ y) ∧ EndsWord isalnum a ∧ StartsOther isalnum y

/-- `name` is a whole identifier of the line. -/
def Identifier (l name : Text) : Prop :=
  HasWord isalnum l name ∧ name ≠ [] ∧ ∀ c ∈ name, isWord isalnum c = true

/-- The names of `linux_kernel_api`. -/
def apiNames : List Text :=
  ["kmalloc", "kfree", "vmalloc", "vfree", "memremap", "iounmap", "request_irq", "free_irq",
    "copy_to_user", "copy_from_user", "misc_register", "proc_create"].map String.toList

/-- The line has a name of one of the families of host-specific names. -/
def HostName (l : Text) : Prop :=
  (∃ name, Identifier isalnum l name ∧ (name ∈ apiNames ∨
    name.map Char.toLower = "asterinas" ∨
    ∃ w rest, name = w ++ rest ∧ w.map Char.toLower = "linux_" ∧ rest ≠ [])) ∨
  ∃ a y, l = a ++ ("ostd::" ++ y) ∧ EndsWord isalnum a

/-- `x` is what `t`, given in lower case, matches with `re.IGNORECASE`. -/
def SameName (t x : Text) : Prop := List.Forall₂ (fun c d => sameLetter c d = true) t x

/-- The patterns other than `linux_kernel_api` and `asterinas_specific`. -/
def otherHostPatterns : List (Text × Re) :=
  (forbiddenHostPatterns isalnum).filter fun p =>
    p.1 ≠ "linux_kernel_api" && p.1 ≠ "asterinas_specific"

/-- The line has a listed name, `asterinas` or the bare word `linux_`, an `ostd::` before a word, or
what another pattern is for. A name that goes on after `linux_` is none of these. -/
def Recognised (l : Text) : Prop :=
  (∃ x, HasWord isalnum l x ∧
    (x ∈ apiNames ∨ SameName "asterinas" x ∨ SameName "linux_" x)) ∨
  (∃ a x c y, l = a ++ (x ++ c :: y) ∧ SameName "ostd::" x ∧ EndsWord isalnum a ∧
    isWord isalnum c = true) ∨
  ∃ p ∈ otherHostPatterns isalnum, found p.2 l = true

end

/-- A line of plain code: no comment marker, no quote, and no star at its start. -/
structure PlainCode (l : Text) : Prop where
  noMarker : ∀ m ∈ ["//".toList, "/*".toList, "*/".toList], ¬ m <:+: l
  noQuote : '"' ∉ l ∧ '\'' ∉ l
  noStar : (l.dropWhile Re.isWhite).head? ≠ some '*'

/-- The scan records `pass` for the check. -/
def Passes (scan : Scan) (id : String) : Prop :=
  ∃ reason, (id.toList, Verdict.pass, reason) ∈ scan.checks

/-- The directory is missing, or there is nothing in it. -/
def Gone (tree : Tree) (dir : Text) : Prop :=
  tree.isDir dir = false ∨ ∀ p, (dir ++ ['/']) <+: p → p ∉ tree.files.keys ∧ tree.isDir p = false

/-- The submodule, the directory of the crate or its `src` is gone. -/
def CrateGone (tree : Tree) (crate : Text) : Prop :=
  Gone tree "linux-host-kernel" ∨ Gone tree (upstream ++ crate) ∨ Gone tree (crateSrc crate)

end Harness.StaticScan
