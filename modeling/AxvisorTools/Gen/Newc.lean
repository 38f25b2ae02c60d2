import AxvisorTools.Py.Bytes
import AxvisorTools.Py.Int

/-!
# The initramfs reader of the config generator

`extract_newc_member` of `tools/gen-axvisor-linux-vm-configs-static.py`: the `while` loop over the
entries of a newc cpio archive is `extractFrom`, one pass through its body `extractStep`. Offsets
are Python integers (the size fields go through `int(b, 16)`, which also reads a sign), so the
loop is bounded by a fuel argument here and `none` is a run that is still going.

The SVR4 format itself is `Entry`: thirteen header fields of eight hexadecimal digits, of which
the seventh and the twelfth are the sizes of the data and of the name with its NUL.
-/

namespace Gen.Newc

/-! ## The generator's code -/

/-- `align4`: `(value + 3) & ~3`. -/
def align4 (value : Int) : Int := value + 3 - (value + 3) % 4

/-- The ways `extract_newc_member` raises. -/
inductive Error where
  /-- `unsupported initramfs cpio header magic at offset {offset}: {magic!r}` -/
  | badMagic (offset : Int) (magic : Bytes)
  /-- The `ValueError` of `int(header[pos : pos + 8], 16)`. -/
  | badField
  /-- `truncated initramfs cpio entry name` -/
  | truncatedName
  /-- `truncated initramfs cpio entry data for {name}` -/
  | truncatedData (name : Text)
  deriving DecidableEq, Repr

/-- One pass through the loop: the function returns or raises, or goes on at an offset. -/
inductive Step where
  | done (r : Except Error (Option Bytes))
  | next (offset : Int)

/-- The bytes of an ASCII text. -/
def ascii (t : Text) : Bytes := t.map fun c => UInt8.ofNat c.toNat

/-- The magic numbers of the two newc variants. -/
def magics : List Bytes := [ascii "070701", ascii "070702"]

/-- `range(6, 110, 8)`: where the thirteen fields of a header start. -/
def fieldStarts : List Nat := (List.range 13).map fun i => 6 + 8 * i

/-- The thirteen fields of a header, `none` when one of them is no number. -/
def headerFields (header : Bytes) : Option (List Int) :=
  fieldStarts.mapM fun (pos : Nat) => Py.intBytes 16 (Py.slice header pos (pos + 8))

/-- The name that ends an archive. -/
def trailer : Text := "TRAILER!!!"

/-- The body of the loop. -/
def extractStep (data : Bytes) (member : Text) (offset : Int) : Step :=
  let header := Py.slice data offset (offset + 110)
  let magic := header.take 6
  if magic ∉ magics then .done (.error (.badMagic offset magic))
  else
    match headerFields header with
    | none => .done (.error .badField)
    | some fields =>
      let fileSize := fields.getD 6 0
      let nameSize := fields.getD 11 0
      let nameStart := offset + 110
      let nameEnd := nameStart + nameSize
      if nameEnd > data.length then .done (.error .truncatedName)
      else
        let rawName := Py.slice data nameStart nameEnd
        let name := Py.decodeReplace rawName.dropLast
        let dataStart := align4 nameEnd
        let dataEnd := dataStart + fileSize
        if dataEnd > data.length then .done (.error (.truncatedData name))
        else if name = trailer then .done (.ok none)
        else if name = member then .done (.ok (some (Py.slice data dataStart dataEnd)))
        else .next (align4 dataEnd)

/-- The loop from `offset` on; `none` when `fuel` passes do not end it. -/
def extractFrom (data : Bytes) (member : Text) : Nat → Int → Option (Except Error (Option Bytes))
  | 0, _ => none
  | fuel + 1, offset =>
    if offset + 110 ≤ data.length then
      match extractStep data member offset with
      | .done r => some r
      | .next offset => extractFrom data member fuel offset
    else some (.ok none)

/-- `extract_newc_member(data, member)` for at most `fuel` passes. -/
def extractNewcMember (fuel : Nat) (data : Bytes) (member : Text) :
    Option (Except Error (Option Bytes)) := extractFrom data member fuel 0

/-- The data size and the name size in the header at an offset. -/
def headerSizes (data : Bytes) (offset : Int) : Option (Int × Int) :=
  (headerFields (Py.slice data offset (offset + 110))).map fun fields =>
    (fields.getD 6 0, fields.getD 11 0)

/-- The loop goes from one offset on to another. -/
def Passes (data : Bytes) (member : Text) (offset offset' : Int) : Prop :=
  offset + 110 ≤ data.length ∧ extractStep data member offset = .next offset'

/-- The offsets of the loop. -/
inductive Visits (data : Bytes) (member : Text) : Int → Prop
  | start : Visits data member 0
  | pass {offset offset' : Int} (h : Visits data member offset)
      (hpass : Passes data member offset offset') : Visits data member offset'

/-! ## The archive format -/

/-- A hexadecimal digit, of either case. -/
def isHexDigit (b : UInt8) : Bool := (Py.digit? 16 (Char.ofNat b.toNat)).isSome

/-- The number a string of hexadecimal digits stands for. -/
def hexValue (l : Bytes) : Nat :=
  l.foldl (fun n b => n * 16 + (Py.digit? 16 (Char.ofNat b.toNat)).getD 0) 0

/-- A header field: eight hexadecimal digits. -/
structure Field where
  text : Bytes
  length_eq : text.length = 8
  hex : ∀ b ∈ text, isHexDigit b = true

/-- The number in a field. -/
def Field.value (f : Field) : Nat := hexValue f.text

/-- An entry of a newc archive. The sizes in its header are those of its data and of its name
with the NUL; the other eleven fields are free. -/
structure Entry where
  crc : Bool
  fields : Fin 13 → Field
  name : Bytes
  data : Bytes
  fileSize_eq : (fields 6).value = data.length
  nameSize_eq : (fields 11).value = name.length + 1

/-- The NULs that bring `n` bytes to a multiple of four. -/
def padding (n : Nat) : Bytes := List.replicate ((4 - n % 4) % 4) 0

/-- The header of an entry: the magic number and the fields. -/
def Entry.header (e : Entry) : Bytes :=
  ascii (if e.crc then "070702" else "070701") ++ (List.ofFn fun i => (e.fields i).text).flatten

/-- The bytes of an entry: header, NUL-terminated name and data, each part padded. -/
def Entry.encode (e : Entry) : Bytes :=
  e.header ++ e.name ++ [0] ++ padding (110 + e.name.length + 1) ++ e.data ++ padding e.data.length

/-- The bytes of a list of entries. -/
def archive (es : List Entry) : Bytes := es.flatMap Entry.encode

/-- A name that an archive member can have: ASCII, NUL-free and not the trailer's. -/
def IsMemberName (name : Bytes) : Prop := (∀ b ∈ name, b < 0x80 ∧ b ≠ 0) ∧ name ≠ ascii trailer

instance (name : Bytes) : Decidable (IsMemberName name) :=
  @instDecidableAnd _ _ (List.decidableBAll _ _) inferInstance

end Gen.Newc
