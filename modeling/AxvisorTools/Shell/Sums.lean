import AxvisorTools.Shell.Script
import AxvisorTools.Text.Lines

/-!
# Checksum manifests

`find . -type f ! -name SHA256SUMS -print0 | sort -z | xargs -0 sha256sum > SHA256SUMS` and
`sha256sum -c SHA256SUMS`, for any digest function that prints 64 hexadecimal digits. `sha256sum`
marks a line by a backslash when it had to escape the name.
-/

namespace Shell

def isHex (c : Char) : Bool := c.isDigit || ('a' ≤ c && c ≤ 'f')

/-- What `sha256sum` prints for a content. -/
structure Digest where
  digest : Text → Text
  length : ∀ c, (digest c).length = 64
  hex : ∀ c, (digest c).all isHex = true

/-- A digest that tells nothing. -/
def zeroDigest : Digest := ⟨fun _ => List.replicate 64 '0', fun _ => rfl, fun _ => by decide⟩

/-- The manifest at the top of the tree. -/
def sumsPath : Text := "SHA256SUMS"

/-! ## Writing -/

def escapeNameChar (c : Char) : Text :=
  if c = '\\' then ['\\', '\\'] else if c = '\n' then ['\\', 'n']
  else if c = '\r' then ['\\', 'r'] else [c]

/-- A name that `sha256sum` cannot print as it is. -/
def needsEscape (name : Text) : Bool := name.any fun c => c == '\\' || c == '\n' || c == '\r'

/-- The line of a file, without its newline. -/
def sumLine (digest name : Text) : Text :=
  if needsEscape name then '\\' :: digest ++ [' ', ' '] ++ name.flatMap escapeNameChar
  else digest ++ [' ', ' '] ++ name

/-- The files of a tree. -/
def pairs (fs : Files) : List (Text × Text) := fs.entries.map fun e => (e.1, e.2)

/-- `find . -type f ! -name SHA256SUMS`, sorted. -/
def listed (fs : Files) : List (Text × Text) :=
  ((pairs fs).filter fun e => basename e.1 != sumsPath).mergeSort fun a b => decide (a.1 ≤ b.1)

/-- How `find .` prints a path. -/
def dotName (path : Text) : Text := '.' :: '/' :: path

/-- The content of the manifest of a tree. -/
def manifest (d : Digest) (fs : Files) : Text :=
  (listed fs).flatMap fun e => sumLine (d.digest e.2) (dotName e.1) ++ ['\n']

/-! ## Reading -/

def unescapeName : Text → Option Text
  | [] => some []
  | '\\' :: c :: t =>
    if c = '\\' then (unescapeName t).map ('\\' :: ·)
    else if c = 'n' then (unescapeName t).map ('\n' :: ·)
    else if c = 'r' then (unescapeName t).map ('\r' :: ·)
    else none
  | '\\' :: [] => none
  | c :: t => (unescapeName t).map (c :: ·)

/-- The name and the digest on a line, after the mark of an escaped name. -/
def readSum (escaped : Bool) (l : Text) : Option (Text × Text) :=
  let digest := l.take 64
  if digest.length = 64 ∧ digest.all isHex = true then
    match l.drop 64 with
    | ' ' :: m :: name =>
      if m = ' ' ∨ m = '*' then
        (if escaped then unescapeName name else some name).map fun n => (n, digest)
      else none
    | _ => none
  else none

def readSumLine : Text → Option (Text × Text)
  | '\\' :: l => readSum true l
  | l => readSum false l

/-- The entries of a manifest; lines of another form are passed over. -/
def entries (m : Text) : List (Text × Text) := (lines m).filterMap readSumLine

/-- `sha256sum -c`: every entry names a file that has the digest. -/
def verifies (d : Digest) (fs : Files) (m : Text) : Bool :=
  entries m != [] && (entries m).all fun e =>
    match e.1 with
    | '.' :: '/' :: path => (fs.lookup path).map d.digest == some e.2
    | _ => false

/-- One entry for each file of the tree but the manifest at the top, with the digest of its
content. -/
def described (d : Digest) (fs : Files) : List (Text × Text) :=
  ((pairs fs).filter fun e => e.1 != sumsPath).map fun e => (dotName e.1, d.digest e.2)

/-- The manifest at the top has exactly the entries that describe the tree. -/
def Exact (d : Digest) (fs : Files) : Prop :=
  ∃ m, fs.lookup sumsPath = some m ∧ (entries m).Perm (described d fs)

/-- A file below the top has the name of the manifest. -/
def NestedSums (fs : Files) : Prop := ∃ p ∈ fs.keys, p ≠ sumsPath ∧ basename p = sumsPath

end Shell
