import AxvisorTools.Lex.Code

/-!
# The functions of public traits

`traitFns` are the `fn` items of a Rust text that stand directly in the body of a `pub trait`. They are
found among the tokens of its code by the brackets around them: a function in a default body, in an
`impl` or in the arguments of a macro stands in other brackets than those of the trait.
-/

namespace Lex

inductive Token
  | word (t : Text)
  | symbol (c : Char)
  deriving DecidableEq, Repr

/-- The white space of Rust. -/
def isBlank (c : Char) : Bool :=
  let n := c.toNat
  (9 ≤ n && n ≤ 13) || n == 32 || n == 0x85 || n == 0x200e || n == 0x200f || n == 0x2028 ||
    n == 0x2029

/-- The word that ends before place `i`, given with its last character first. -/
def wordAt (i : Nat) (cur : Text) : List (Token × Nat) :=
  if cur = [] then [] else [(.word cur.reverse, i - cur.length)]

/-- The tokens from place `i` on, each with its place. -/
def tokensFrom (i : Nat) (cur : Text) : List (Char × Bool) → List (Token × Nat)
  | [] => wordAt i cur
  | (c, code) :: t =>
    if code ∧ isIdent c ∧ ¬ isBlank c then tokensFrom (i + 1) (c :: cur) t
    else wordAt i cur ++ (if code ∧ ¬ isBlank c then [(.symbol c, i)] else []) ++
      tokensFrom (i + 1) [] t

/-- The tokens of the code of a text. -/
def tokens (lang : Lang) (t : Text) : List (Token × Nat) := tokensFrom 0 [] (t.zip (codeMask lang t))

/-- The name that the tokens start with, which may be a raw one. -/
def nameOf : List (Token × Nat) → Option Text
  | (.word w, _) :: (.symbol '#', _) :: (.word v, _) :: _ =>
    some (if w = ['r'] then w ++ '#' :: v else w)
  | (.word w, _) :: _ => some w
  | _ => none

/-- A trait whose body has not started: the open `<` of its header, and how deep it stands. -/
structure Header where
  name : Text
  angles : Nat
  depth : Nat
  deriving DecidableEq, Repr

/-- The open brackets, the innermost first, each with the public trait whose body it starts. -/
structure Scope where
  brackets : List (Option Text)
  header : Option Header
  deriving DecidableEq, Repr

def Scope.symbol (s : Scope) (c : Char) : Scope :=
  match c with
  | '(' | '[' => { s with brackets := none :: s.brackets }
  | ')' | ']' | '\x7d' => { s with brackets := s.brackets.tail }
  | '\x7b' =>
    match s.header with
    | some h =>
      if h.angles = 0 ∧ h.depth = s.brackets.length then ⟨some h.name :: s.brackets, none⟩
      else { s with brackets := none :: s.brackets }
    | none => { s with brackets := none :: s.brackets }
  | '<' => { s with header := s.header.map fun h => { h with angles := h.angles + 1 } }
  | '>' => { s with header := s.header.map fun h => { h with angles := h.angles - 1 } }
  | ';' => { s with header := s.header.filter fun h => h.depth ≠ s.brackets.length }
  | _ => s

/-- Each function with its trait, its name and the place of its `fn`. -/
def traitFnsFrom (s : Scope) : List (Token × Nat) → List (Text × Text × Nat)
  | [] => []
  | (.symbol '-', _) :: (.symbol '>', _) :: t => traitFnsFrom s t
  | (.symbol c, _) :: t => traitFnsFrom (s.symbol c) t
  | (.word w, i) :: t =>
    if w = "fn" then
      match s.brackets.head?.join, nameOf t with
      | some trait, some name => (trait, name, i) :: traitFnsFrom s t
      | _, _ => traitFnsFrom s t
    else if w = "pub" ∧ t.head?.map Prod.fst = some (.word "trait") then
      let header := (nameOf t.tail).map fun name => ⟨name, 0, s.brackets.length⟩
      traitFnsFrom { s with header } t
    else traitFnsFrom s t

def traitFns (t : Text) : List (Text × Text × Nat) := traitFnsFrom ⟨[], none⟩ (tokens .rust t)

/-- A generic method, one with a function in its body, and a method of an `impl`. -/
example : (traitFns "pub trait A<T> \x7b fn a<U>(); fn b() \x7b fn c() \x7b\x7d \x7d \x7d
    impl A<u8> for B \x7b fn a() \x7b\x7d \x7d".toList).map (fun f => (f.1, f.2.1)) =
    [("A".toList, "a".toList), ("A".toList, "b".toList)] := by decide +kernel

end Lex
