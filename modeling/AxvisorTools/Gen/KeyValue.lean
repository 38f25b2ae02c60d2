import AxvisorTools.Gen.KernelKey
import AxvisorTools.Toml.Read

/-!
# The string a rewriting writes

`written` is the line that a rewriting of a kernel key puts into the config, with the text around it,
and `stringFor` the string a TOML reader finds in such a line.
-/

namespace Gen.KernelKey

open Regex Py.Re

/-- A replacement template with the text of each group put in; the pattern has `ngroups` groups. -/
def expand (ngroups : Nat) (groups : Nat → Text) (template : Text) : Option Text := do
  let pieces ← parseTemplate (template.length + 1) template
  guard (pieces.all (Piece.refersTo ngroups))
  return pieces.flatMap (Piece.text groups)

/-- The first match of the after pattern, if there is an `after_key`. -/
def searchAfter (text : Text) (afterKey : Option Text) : Option (Text × Pos) :=
  afterKey.bind fun k => search (afterPattern k) text

/-- The text before the written line, the line, and the text after it. -/
def written (text key value : Text) (afterKey : Option Text) : Option (Text × Text × Text) :=
  let line := keyLine key value
  match search (keyPattern key) text with
  | some (start, e) => (expand 0 (groupText start e) line).map fun l => (start, l, e.after)
  | none =>
    match searchAfter text afterKey with
    | some (start, e) => (expand 1 (groupText start e) line).map fun l =>
        (e.before.reverse ++ ['\n'], l, e.after)
    | none => (search kernelSection text).map fun r =>
        (r.2.before.reverse ++ ['\n'], line, r.2.after)

/-- The line is put below the header of the table, without a template. -/
def belowHeader (text key : Text) (afterKey : Option Text) : Bool :=
  (search (keyPattern key) text).isNone && (searchAfter text afterKey).isNone

/-- The string of a line `key = "…"`. -/
def stringFor (key line : Text) : Option Text :=
  if (key ++ " = \"".toList) <+: line then
    match Toml.readBasic (line.drop (key ++ " = \"".toList).length) with
    | some (s, []) => some s
    | _ => none
  else none

end Gen.KernelKey
