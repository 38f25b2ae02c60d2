import AxvisorTools.Gen.StaticConfig
import AxvisorTools.Toml.Document
import AxvisorTools.Toml.Proof.Read

/-!
# When the static config carries its own number

`build_static_config` edits the config line by line and takes the number of the VM from the first line
`id = …` that it finds below `[base]`, up to a line that starts with a bracket. `KeyEdit.InOrder` says
that a line comes into the config without harm, and `IdInBase` that the line of the number belongs to
`[base]`.
-/

namespace Gen.StaticConfig

open KernelKey Py

/-! ## The edits -/

/-- The value can stand in a string, and a line that is inserted lands outside every value and defines
nothing a second time. -/
def KeyEdit.InOrder (e : KeyEdit) (ls : List Text) : Prop :=
  Toml.IsStringText e.value ∧ ∀ pre post, editSite e.key e.afterKey ls = some (.insert pre post) →
    (Toml.start.after pre).nest = [] ∧
      ∀ i ∈ Toml.items [] (Toml.readings ls), ¬i.conflicts (Toml.itemBelow pre e.key)

/-! ## The line of the number -/

/-- The line is `id = ` and digits, with any blanks. -/
def isIdLine (l : Text) : Bool :=
  "id".toList.isPrefixOf l &&
    match (l.drop 2).dropWhile Re.isWhite with
    | '=' :: t =>
      let number := t.dropWhile Re.isWhite
      number.head?.any isDecimal && (number.dropWhile isDecimal).all Re.isWhite
    | _ => false

/-- The first line of the number, up to a line that starts with a bracket. The pattern for the section
takes all blanks after the header, so the first line that is not blank may be indented; `fresh` says
that it is still to come. -/
def firstId (fresh : Bool) : List Toml.Reading → Option Toml.Reading
  | [] => none
  | r :: rs =>
    if r.line.head? = some '[' then none
    else if isIdLine (if fresh then r.line.dropWhile Re.isWhite else r.line) then some r
    else firstId (fresh && isWhiteLine r.line) rs

/-- The line that starts with the header of the base table. -/
def isBaseLine (l : Text) : Bool := "[base]".toList.isPrefixOf l

/-- The line the number is taken from. -/
def idReading : List Toml.Reading → Option Toml.Reading
  | [] => none
  | r :: rs =>
    if isBaseLine r.line then firstId (isWhiteLine (r.line.drop "[base]".toList.length)) rs
    else idReading rs

def baseTable : List Text := ["base".toList]

/-- The line of the number belongs to `[base]`, or `[base]` happens to have the same number. -/
def IdInBase (ls : List Text) : Prop :=
  ∀ r, idReading (Toml.readings ls) = some r → r.table = baseTable ∨
    ∃ r' ∈ Toml.readings ls, r'.isPair baseTable "id" = true ∧
      Toml.intValue r'.line = Toml.intValue r.line

end Gen.StaticConfig
