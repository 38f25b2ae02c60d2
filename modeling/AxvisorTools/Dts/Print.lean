import AxvisorTools.Dts.Tree
import AxvisorTools.Text.Lines

/-!
# Printing a device tree

`dtc -I dtb -O dts`: the types of the values are not known, so each value is printed as strings when
all of its bytes allow it, else as 32-bit cells when its length does, else byte by byte. The strings of
a list are printed as release 1.7.0 of `dtc` prints them, each between its own quotes; the releases from
1.4.7 to 1.6.1 print one literal for the list, with `\0` between the strings.
-/

namespace Dts

/-! ## Values -/

/-- `isstring`: a printable character, a NUL or one of the characters from bell to carriage return. -/
def isStringByte (b : UInt8) : Bool := (32 ≤ b && b ≤ 126) || b == 0 || (7 ≤ b && b ≤ 13)

/-- The value is printed as strings: it ends with a NUL and is not mostly NULs. -/
def isStrings (v : Bytes) : Bool :=
  v.getLast? == some 0 && v.all isStringByte && v.count 0 ≤ v.length - v.count 0

/-- The strings of a value, without their NULs. -/
def strings (v : Bytes) : List Bytes := v.dropLast.splitOn 0

/-- A character of a string. -/
def escapeByte (b : UInt8) : Text :=
  if b = 7 then ['\\', 'a']
  else if b = 8 then ['\\', 'b']
  else if b = 9 then ['\\', 't']
  else if b = 10 then ['\\', 'n']
  else if b = 11 then ['\\', 'v']
  else if b = 12 then ['\\', 'f']
  else if b = 13 then ['\\', 'r']
  else if b = 92 then ['\\', '\\']
  else if b = 34 then ['\\', '"']
  else [Char.ofNat b.toNat]

def stringText (s : Bytes) : Text := '"' :: (s.flatMap escapeByte ++ ['"'])

/-- `%02x`. -/
def hex02 (n : Nat) : Text := (Nat.toDigits 16 n).leftpad 2 '0'

/-- The cells of a value whose length is a multiple of four. -/
def cells : Bytes → List Nat
  | a :: b :: c :: d :: t =>
    (a.toNat * 2 ^ 24 + b.toNat * 2 ^ 16 + c.toNat * 2 ^ 8 + d.toNat) :: cells t
  | _ => []

/-- Words with single blanks between them. -/
def spaced (ws : List Text) : Text := [' '].intercalate ws

def cellText (n : Nat) : Text := '0' :: 'x' :: hex02 n

/-- The text of a value that is not empty. -/
def valueText (v : Bytes) : Text :=
  if isStrings v then [',', ' '].intercalate ((strings v).map stringText)
  else if v.length % 4 = 0 then '<' :: (spaced ((cells v).map cellText) ++ ['>'])
  else '[' :: (spaced (v.map fun b => hex02 b.toNat) ++ [']'])

def Property.text (p : Property) : Text :=
  if p.value = [] then p.name ++ [';'] else p.name ++ ' ' :: '=' :: ' ' :: valueText p.value ++ [';']

/-! ## Nodes -/

def tabs (level : Nat) : Text := List.replicate level '\t'

def openLine (level : Nat) (name : Text) : Text := tabs level ++ name ++ " \x7b"

def propertyLine (level : Nat) (p : Property) : Text := tabs level ++ p.text

def closeLine (level : Nat) : Text := tabs level ++ "\x7d;"

mutual

/-- `write_tree_source_node`. -/
def Node.lines (level : Nat) : Node → List Text
  | .mk name props children =>
    openLine level name :: (props.map (propertyLine (level + 1)) ++
      (childLines (level + 1) children ++ [closeLine level]))

/-- The children, each with a blank line before it. -/
def childLines (level : Nat) : List Node → List Text
  | [] => []
  | n :: ns => [] :: (n.lines level ++ childLines level ns)

end

/-- `%016x`. -/
def hex016 (n : Nat) : Text := (Nat.toDigits 16 n).leftpad 16 '0'

def reserveLine (address size : Nat) : Text :=
  reserveTag ++ '\t' :: '0' :: 'x' :: hex016 address ++
    ' ' :: '0' :: 'x' :: hex016 size ++ [';']

def Reserve.line (r : Reserve) : Text := reserveLine r.address.val r.size.val

/-- The lines before the root. -/
def Document.head (d : Document) : List Text :=
  (versionTag ++ [';']) :: [] :: d.reserved.map Reserve.line

/-- `dt_to_source`. -/
def Document.text (d : Document) : Text := above (d.head ++ d.root.lines 0)

end Dts
