import AxvisorTools.Text.Basic

/-!
# Rust raw string literals

`rust_raw_string` of `tools/gen-axvisor-linux-vm-configs-static.py`, and the reader it writes for:
Rust's lexer of raw strings.
-/

namespace Gen

/-- `"#" * hashes`. -/
def marks (hashes : Nat) : Text := List.replicate hashes '#'

/-- The literal `r{marks}"{value}"{marks}`. -/
def rawLiteral (hashes : Nat) (value : Text) : Text :=
  'r' :: (marks hashes ++ '"' :: (value ++ '"' :: marks hashes))

/-- `rust_raw_string(value)`: the literal with the fewest hashes, below 16, that `value` does not
close; otherwise the `ValueError`. -/
def rustRawString (value : Text) : Except String Text :=
  match (List.range 16).find? fun hashes => ¬ ('"' :: marks hashes) <:+: value with
  | some hashes => .ok (rawLiteral hashes value)
  | none => .error "unable to encode Rust raw string literal"

/-! ## The Rust lexer -/

/-- The content of a raw string up to the first quote followed by `hashes` hashes, and the text
after it. A carriage return is an error. -/
def lexRawBody (hashes : Nat) : Text → Option (Text × Text)
  | [] => none
  | c :: t =>
    if c = '"' ∧ marks hashes <+: t then some ([], t.drop hashes)
    else if c = '\r' then none
    else (lexRawBody hashes t).map fun (body, rest) => (c :: body, rest)

/-- The number of hashes a text starts with. -/
def leadingHashes (t : Text) : Nat := (t.takeWhile (· = '#')).length

/-- Rust's raw string lexer: `r`, at most 255 hashes, a quote and the body. -/
def lexRawString : Text → Option (Text × Text)
  | 'r' :: t =>
    if leadingHashes t ≤ 255 then
      match t.drop (leadingHashes t) with
      | '"' :: body => lexRawBody (leadingHashes t) body
      | _ => none
    else none
  | _ => none

end Gen
