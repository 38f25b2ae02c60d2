import AxvisorTools.Text.Basic

/-!
# Regular expressions by backtracking

`Regex.run r s` lists the places a backtracking matcher reaches from `s`, the preferred one first:
an alternative prefers its left side, a greedy repetition the longer run. `search` takes the first
place that has a match and the preferred match there, as `re.search` and `grep` do.
-/

namespace Regex

/-- A place in a text: what lies before it, nearest character first, what lies after it, and the
groups captured on the way. -/
structure Pos where
  before : Text
  after : Text
  groups : List (Nat × Text)
  deriving DecidableEq, Repr

/-- The place `n` characters further on. -/
def Pos.move (s : Pos) (n : Nat) : Pos :=
  { s with before := (s.after.take n).reverse ++ s.before, after := s.after.drop n }

/-- Regular expressions; `look` tests the characters on both sides without consuming one. -/
inductive Re
  | eps
  | one (p : Char → Bool)
  | seq (a b : Re)
  | alt (a b : Re)
  | star (greedy : Bool) (a : Re)
  | look (p : Option Char → Option Char → Bool)
  | group (n : Nat) (a : Re)

/-- Up to `n` more rounds of `f`, each consuming something; a greedy repetition prefers the longer
runs. -/
def rounds (greedy : Bool) (f : Pos → List Pos) : Nat → Pos → List Pos
  | 0, s => [s]
  | n + 1, s =>
    let more := ((f s).filter fun t => t.after.length < s.after.length).flatMap (rounds greedy f n)
    if greedy then more ++ [s] else s :: more

/-- The places a match of `r` that starts at `s` can end at, in the order they are tried. -/
def run : Re → Pos → List Pos
  | .eps, s => [s]
  | .one p, s =>
    match s.after with
    | [] => []
    | c :: _ => if p c then [s.move 1] else []
  | .seq a b, s => (run a s).flatMap (run b)
  | .alt a b, s => run a s ++ run b s
  | .star greedy a, s => rounds greedy (run a) s.after.length s
  | .look p, s => if p s.before.head? s.after.head? then [s] else []
  | .group n a, s => (run a s).map fun t =>
      { t with groups := (n, (t.before.take (t.before.length - s.before.length)).reverse) ::
        t.groups }

/-- The first match at or after a place: the text before it and the place where it ends. -/
def searchFrom (r : Re) : Text → Text → Option (Text × Pos)
  | before, after =>
    match (run r ⟨before, after, []⟩).head? with
    | some e => some (before.reverse, e)
    | none =>
      match after with
      | [] => none
      | c :: t => searchFrom r (c :: before) t
  termination_by structural _ after => after

def search (r : Re) (text : Text) : Option (Text × Pos) := searchFrom r [] text

/-- `r` matches somewhere in `text`. -/
def found (r : Re) (text : Text) : Bool := (search r text).isSome

/-- `Matches r b x y g`: the expression can take the text `x` between `b`, given in reverse, and `y`,
capturing the groups `g`. It says what the matcher looks for and not in which order. -/
inductive Matches : Re → Text → Text → Text → List (Nat × Text) → Prop
  | eps (b y : Text) : Matches .eps b [] y []
  | one {p : Char → Bool} {c : Char} (b y : Text) (h : p c = true) : Matches (.one p) b [c] y []
  | seq {r r' : Re} {b x x' y : Text} {g g' : List (Nat × Text)} (h : Matches r b x (x' ++ y) g)
      (h' : Matches r' (x.reverse ++ b) x' y g') : Matches (.seq r r') b (x ++ x') y (g' ++ g)
  | altLeft {r r' : Re} {b x y : Text} {g : List (Nat × Text)} (h : Matches r b x y g) :
      Matches (.alt r r') b x y g
  | altRight {r r' : Re} {b x y : Text} {g : List (Nat × Text)} (h : Matches r' b x y g) :
      Matches (.alt r r') b x y g
  | starNil (greedy : Bool) (r : Re) (b y : Text) : Matches (.star greedy r) b [] y []
  | starCons {greedy : Bool} {r : Re} {b x x' y : Text} {g g' : List (Nat × Text)} (hx : x ≠ [])
      (h : Matches r b x (x' ++ y) g) (h' : Matches (.star greedy r) (x.reverse ++ b) x' y g') :
      Matches (.star greedy r) b (x ++ x') y (g' ++ g)
  | look {p : Option Char → Option Char → Bool} {b y : Text} (h : p b.head? y.head? = true) :
      Matches (.look p) b [] y []
  | group {n : Nat} {r : Re} {b x y : Text} {g : List (Nat × Text)} (h : Matches r b x y g) :
      Matches (.group n r) b x y ((n, x) :: g)

/-! ## Expressions in common use -/

/-- The text `t` itself. -/
def lit : Text → Re
  | [] => .eps
  | c :: t => .seq (.one (· == c)) (lit t)

/-- `.`: any character but a newline. -/
def dot : Re := .one (· != '\n')

/-- `^` of a line. -/
def bol : Re := .look fun prev _ => prev.all (· == '\n')

/-- `$` of a line. -/
def eol : Re := .look fun _ next => next.all (· == '\n')

end Regex
