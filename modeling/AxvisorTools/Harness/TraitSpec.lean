import AxvisorTools.Harness.ScanSpec
import AxvisorTools.Lex.TraitFns

/-!
# What the catalogue of interface methods is for

`trueMethods` are the `fn` items directly in the body of a `pub trait` of `axvisor_api`, by the lexical
rules and the brackets of Rust. `Caught` are the lines that the scan takes for such items: a line that
shows `fn name(` while the last `pub trait` shown has not been followed by a line with nothing but a
closing brace.
-/

namespace Harness.StaticScan

open Shell Py Regex

def apiFiles (tree : Tree) : List Text := sourceFiles tree [crateSrc "axvisor_api"]

/-- The line of a place in a text, as `splitlines` counts lines. -/
def lineAt (text : Text) (i : Nat) : Nat := (universalNewlines (text.take i)).countP isLineBreak + 1

/-- The methods of the public traits of a file. -/
def trueFns (tree : Tree) (path : Text) : List TraitMethod :=
  let text := (tree.files.lookup path).getD []
  if langOf path = .rust then
    (Lex.traitFns text).map fun f => ⟨f.1, f.2.1, path, lineAt text f.2.2⟩
  else []

def trueMethods (tree : Tree) : List TraitMethod := (apiFiles tree).flatMap (trueFns tree)

/-- No two methods start on one line. -/
def FnPerLine (tree : Tree) (path : Text) : Prop := ((trueFns tree path).map (·.line)).Nodup

/-! ## What the scan sees -/

/-- The name after `pub trait`. -/
def shownTrait (l : Text) : Option Text :=
  (search traitPattern (stripLineForScan l)).map fun m => Re.groupText m.1 m.2 1

/-- The first name between `fn` and a bracket, on a line that does not start with `pub fn`. -/
def shownMethod (l : Text) : Option Text :=
  if "pub fn".toList.isPrefixOf ((stripLineForScan l).dropWhile Re.isWhite) then none
  else (search methodPattern (stripLineForScan l)).map fun m => Re.groupText m.1 m.2 1

/-- A closing brace and nothing else. -/
def loneBrace (l : Text) : Bool := strip (stripLineForScan l) = ['\x7d']

/-- The trait is the last one shown on these lines, and no lone brace has followed. -/
def Open (ls : List Text) (trait : Text) : Prop :=
  ∃ a l b, ls = a ++ l :: b ∧ shownTrait l = some trait ∧ (∀ k ∈ b, shownTrait k = none) ∧
    ∀ k ∈ l :: b, loneBrace k = false

/-- The trait that a line after these belongs to. -/
def Under (ls : List Text) (l trait : Text) : Prop :=
  shownTrait l = some trait ∨ shownTrait l = none ∧ Open ls trait

/-- Line `n` shows a method while the trait is open. -/
def Caught (ls : List Text) (n : Nat) (trait method : Text) : Prop :=
  ∃ a l b, ls = a ++ l :: b ∧ n = a.length + 1 ∧ shownMethod l = some method ∧ Under a l trait

end Harness.StaticScan
