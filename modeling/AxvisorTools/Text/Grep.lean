import AxvisorTools.Text.Lines
import AxvisorTools.Text.Regex

/-!
# Searching files for lines

`grep r t` is the exit status of `grep -q`: some line of the file has a match. Patterns are
regular expressions of the tree type `Regex.Re`, basic and extended ones alike.
-/

/-- The lines of a file: a last line without a newline counts, an empty one does not. -/
def fileLines (t : Text) : List Text :=
  if (lines t).getLast? = some [] then (lines t).dropLast else lines t

/-- `grep -q`. -/
def grep (r : Regex.Re) (t : Text) : Bool := (fileLines t).any (Regex.found r)

/-- How `grep` treats what is no text. It reads a file in buffers and prints no line from the one with
the first NUL on, so only `ahead` of the lines before the NUL count, and it passes over the lines that
are `broken` in its locale. -/
structure BinaryRule where
  ahead : Text → Nat
  broken : Text → Bool

/-- One buffer holds the file, and every line is text. -/
def BinaryRule.oneBuffer : BinaryRule := ⟨fun _ => 0, fun _ => false⟩

/-- The lines that `grep` prints if they match. -/
def BinaryRule.printable (rule : BinaryRule) (t : Text) : List Text :=
  let searched := if '\x00' ∈ t then
      ((lines (t.takeWhile (· ≠ '\x00'))).dropLast).take (rule.ahead t)
    else fileLines t
  searched.filter fun l => !rule.broken l

/-- What `grep` prints: the lines with a match. That a binary file matches is said on the standard
error (before release 3.5, on the standard output). -/
def grepLines (rule : BinaryRule) (r : Regex.Re) (t : Text) : Text :=
  above ((rule.printable t).filter (Regex.found r))

/-- What `grep -v` prints: the lines without one. -/
def grepOtherLines (r : Regex.Re) (t : Text) : Text :=
  above ((fileLines t).filter fun l => !Regex.found r l)

namespace Regex

/-- `^t$`. -/
def whole (t : Text) : Re := .seq bol (.seq (lit t) eol)

/-- `.*`. -/
def gap : Re := .star true dot

/-- `a|b|…`. -/
def alts : Re → List Re → Re
  | a, [] => a
  | a, b :: rs => .alt a (alts b rs)

/-- The pattern of `grep -F`: every line of it is one. -/
def fixed (t : Text) : Re :=
  match lines t with
  | [] => lit []
  | l :: ls => alts (lit l) (ls.map lit)

end Regex
