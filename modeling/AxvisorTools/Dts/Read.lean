import AxvisorTools.Dts.Tree
import AxvisorTools.Py.Int

/-!
# Reading a device tree

`Dts.read` reads the part of the source language that `dtc` prints: a version line, reserved ranges,
and nodes with properties whose values are strings, 32-bit cells and bytes. Blanks and line breaks
stand anywhere between two tokens. It goes through the text character by character, so that what it
does on two texts one after the other follows from what it does on each.
-/

namespace Dts

/-! ## Values -/

inductive Token
  | word (t : Text)
  | str (b : Bytes)
  | sym (c : Char)
  deriving DecidableEq, Repr

/-- A hexadecimal literal. -/
def literal : Text → Option Nat
  | '0' :: 'x' :: c :: t =>
    if (c :: t).all fun d => (Py.digit? 16 d).isSome then some (Py.ofDigits 16 0 (c :: t)) else none
  | _ => none

/-- The four bytes of a cell, of a number in 32 bits. -/
def cellBytes (n : Nat) : Bytes :=
  [UInt8.ofNat (n / 2 ^ 24), UInt8.ofNat (n / 2 ^ 16), UInt8.ofNat (n / 2 ^ 8), UInt8.ofNat n]

/-- The compiler takes a number for a cell that fits in 32 bits, or is the sign extension of one. -/
def cell (n : Nat) : Option Nat :=
  if n < 2 ^ 32 ∨ (2 ^ 64 - 2 ^ 32 ≤ n ∧ n < 2 ^ 64) then some (n % 2 ^ 32) else none

/-- The cell that a word stands for. -/
def wordCell (w : Text) : Option Nat := (literal w).bind cell

/-- The bytes of a word between brackets, two digits each. -/
def byteWord : Text → Option Bytes
  | [] => some []
  | [_] => none
  | a :: b :: t => do
    let high ← Py.digit? 16 a
    let low ← Py.digit? 16 b
    let rest ← byteWord t
    return UInt8.ofNat (high * 16 + low) :: rest

/-- Where the reader of a value is. -/
inductive Place
  | value
  | cells
  | bytes
  | done
  deriving DecidableEq, Repr

/-- One token of a value, after some bytes. -/
def valueStep : Place × Bytes → Token → Option (Place × Bytes)
  | (.value, b), .str s => some (.done, b ++ s ++ [0])
  | (.value, b), .sym '<' => some (.cells, b)
  | (.value, b), .sym '[' => some (.bytes, b)
  | (.cells, b), .word w => (wordCell w).map fun c => (.cells, b ++ cellBytes c)
  | (.cells, b), .sym '>' => some (.done, b)
  | (.bytes, b), .word w => (byteWord w).map fun s => (.bytes, b ++ s)
  | (.bytes, b), .sym ']' => some (.done, b)
  | (.done, b), .sym ',' => some (.value, b)
  | _, _ => none

/-- The bytes of a list of values. -/
def readValues (ts : List Token) : Option Bytes :=
  match ts.foldlM valueStep (.value, []) with
  | some (.done, b) => some b
  | _ => none

/-! ## Statements -/

/-- What the reader is in the middle of. -/
inductive Mode
  | blank
  | word (t : Text)
  | str (b : Bytes)
  | escape (b : Bytes)
  deriving DecidableEq, Repr

structure Reader where
  mode : Mode
  /-- The tokens of the statement so far. -/
  pending : List Token
  version : Bool
  reserved : List (Nat × Nat)
  /-- The open nodes, the innermost first. -/
  nodes : List Partial

/-- The end of a statement that was read as an event. -/
def Reader.event (r : Reader) (e : Event) : Option Reader :=
  if r.version then (build r.nodes e).map fun ns => { r with pending := [], nodes := ns } else none

/-- No node has been read or opened. -/
def Reader.atHead (r : Reader) : Bool :=
  match r.nodes with
  | [⟨[], [], []⟩] => true
  | _ => false

/-- A statement that ends with a semicolon. -/
def Reader.statement (r : Reader) : Option Reader :=
  match r.pending with
  | [.sym '\x7d'] => r.event .closes
  | [.word n] =>
    if n = versionTag then
      if r.version = false ∧ r.atHead = true then some { r with pending := [], version := true }
      else none
    else r.event (.prop ⟨n, []⟩)
  | [.word n, .word a, .word b] =>
    if n = reserveTag ∧ r.version = true ∧ r.atHead = true then do
      let address ← literal a
      let size ← literal b
      return { r with pending := [], reserved := r.reserved ++ [(address, size)] }
    else none
  | .word n :: .sym '=' :: ts => (readValues ts).bind fun v => r.event (.prop ⟨n, v⟩)
  | _ => none

/-- A token in the middle of a statement. -/
def Reader.push (r : Reader) (t : Token) : Reader := { r with pending := r.pending ++ [t] }

/-- One token. -/
def Reader.feed (r : Reader) : Token → Option Reader
  | .sym '\x7b' =>
    match r.pending with
    | [.word n] => r.event (.opens n)
    | _ => none
  | .sym ';' => r.statement
  | t => some (r.push t)

/-! ## Characters -/

def isBlank (c : Char) : Bool := c == ' ' || c == '\t' || c == '\n' || c == '\r'

/-- The characters that are always tokens of their own. -/
def symbols : List Char := ['\x7b', '\x7d', ';', '=', '<', '>', '[', ']']

/-- A comma belongs to a name until the statement has its first token. -/
def Reader.isSymbol (r : Reader) (c : Char) : Bool :=
  c ∈ symbols || (c == ',' && r.pending ≠ [])

/-- The character ends a word. -/
def Reader.isStop (r : Reader) (c : Char) : Bool := isBlank c || c == '"' || r.isSymbol c

/-- The character after a backslash. The numeric escapes are not among what is printed. -/
def unescape (c : Char) : Option UInt8 :=
  if c = 'a' then some 7
  else if c = 'b' then some 8
  else if c = 't' then some 9
  else if c = 'n' then some 10
  else if c = 'v' then some 11
  else if c = 'f' then some 12
  else if c = 'r' then some 13
  else if c = '\\' ∨ c = '"' then some (UInt8.ofNat c.toNat)
  else none

/-- A character between two tokens. -/
def Reader.start (r : Reader) (c : Char) : Option Reader :=
  if isBlank c then some r
  else if c = '"' then some { r with mode := .str [] }
  else if r.isSymbol c then r.feed (.sym c)
  else some { r with mode := .word [c] }

/-- One character. -/
def Reader.step (r : Reader) (c : Char) : Option Reader :=
  match r.mode with
  | .blank => r.start c
  | .word w =>
    if r.isStop c then
      ({ r with mode := .blank }.feed (.word w)).bind (·.start c)
    else some { r with mode := .word (w ++ [c]) }
  | .str b =>
    if c = '"' then { r with mode := .blank }.feed (.str b)
    else if c = '\\' then some { r with mode := .escape b }
    else some { r with mode := .str (b ++ String.utf8EncodeChar c) }
  | .escape b => (unescape c).map fun x => { r with mode := .str (b ++ [x]) }

/-- A text. -/
def Reader.run (r : Reader) (t : Text) : Option Reader := t.foldlM step r

def Reader.initial : Reader := ⟨.blank, [], false, [], [outside]⟩

/-- The root, when nothing else has been read. -/
def onlyRoot : List Partial → Option Node
  | [⟨_, _, [root]⟩] => some root
  | _ => none

/-- What has been read, if the text ends here. -/
def Reader.result (r : Reader) : Option (List (Nat × Nat) × Node) :=
  if r.mode = .blank ∧ r.pending = [] then (onlyRoot r.nodes).map (r.reserved, ·) else none

/-- The reserved ranges and the root node of a text. -/
def read (t : Text) : Option (List (Nat × Nat) × Node) := (Reader.initial.run t).bind Reader.result

end Dts
