import AxvisorTools.Gen.Proof.RawString
import AxvisorTools.Gen.Rust

/-!
# Lexing a text piece by piece

`Reads t ts`: the tokens of `t` are `ts`, whatever follows. Pieces can be put together
(`Reads.append`), and the tokens of a fixed piece are found by evaluation (`reads_of_spell`), as
long as it has no string in it and its last token is complete.
-/

namespace Gen.Rust

open Lex (isBlank isIdent)

variable {t u : Text} {c : Char} {o : Option Token} {ts : List Token}

/-! ## Steps of the lexer -/

/-- The tokens of `t` are `ts`, whatever follows. -/
def Reads (t : Text) (ts : List Token) : Prop := ∀ rest, lex (t ++ rest) = (lex rest).map (ts ++ ·)

theorem Reads.append {us : List Token} (ht : Reads t ts) (hu : Reads u us) :
    Reads (t ++ u) (ts ++ us) := by
  intro rest
  rw [List.append_assoc, ht, hu, Option.map_map]
  refine congrArg (Option.map · _) (funext fun vs => ?_)
  exact (List.append_assoc ts us vs).symm

section Append

variable {p : Char → Bool} {t : Text} (h : t.dropWhile p ≠ []) (rest : Text)
include h

end Append

end Gen.Rust
