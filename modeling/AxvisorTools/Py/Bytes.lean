import AxvisorTools.Text.Basic

/-!
# Python byte strings

`Py.slice` is `data[a:b]`; `Py.decodeReplace` is `bytes.decode("utf-8", errors="replace")`: every
maximal ill-formed part of the input becomes one U+FFFD.
-/

namespace Py

/-- A slice bound: a negative one counts from the end, and both ends are clamped. -/
def clamp (len : Nat) (i : Int) : Nat := min (if i < 0 then i + len else i).toNat len

/-- `data[a:b]`. -/
def slice {α : Type} (l : List α) (a b : Int) : List α :=
  (l.drop (clamp l.length a)).take (clamp l.length b - clamp l.length a)

/-- A continuation byte. -/
def isCont (b : UInt8) : Bool := 0x80 ≤ b && b ≤ 0xbf

/-- The second bytes that may follow the lead byte `b` of a sequence of three or four. -/
def secondOk (b c : UInt8) : Bool :=
  if b = 0xe0 then 0xa0 ≤ c && c ≤ 0xbf
  else if b = 0xed then 0x80 ≤ c && c ≤ 0x9f
  else if b = 0xf0 then 0x90 ≤ c && c ≤ 0xbf
  else if b = 0xf4 then 0x80 ≤ c && c ≤ 0x8f
  else isCont c

/-- The length of the sequence a lead byte starts; 0 for a byte that starts none. -/
def seqLen (b : UInt8) : Nat :=
  if b < 0x80 then 1
  else if 0xc2 ≤ b && b ≤ 0xdf then 2
  else if 0xe0 ≤ b && b ≤ 0xef then 3
  else if 0xf0 ≤ b && b ≤ 0xf4 then 4
  else 0

/-- The code point of a lead byte's payload followed by continuation bytes. -/
def codePoint (lead : Nat) (conts : Bytes) : Char :=
  Char.ofNat (conts.foldl (fun n c => n * 64 + (c.toNat - 0x80)) lead)

/-- U+FFFD. -/
def replacement : Char := '�'

/-- `b.decode("utf-8", errors="replace")`. -/
def decodeReplace : Bytes → Text
  | [] => []
  | b :: t =>
    match seqLen b with
    | 1 => Char.ofNat b.toNat :: decodeReplace t
    | 2 =>
      match t with
      | c :: t => if isCont c then codePoint (b.toNat - 0xc0) [c] :: decodeReplace t
        else replacement :: decodeReplace (c :: t)
      | [] => [replacement]
    | 3 =>
      match t with
      | c :: d :: t =>
        if secondOk b c then
          if isCont d then codePoint (b.toNat - 0xe0) [c, d] :: decodeReplace t
          else replacement :: decodeReplace (d :: t)
        else replacement :: decodeReplace (c :: d :: t)
      | [c] => if secondOk b c then [replacement] else replacement :: decodeReplace [c]
      | [] => [replacement]
    | 4 =>
      match t with
      | c :: d :: e :: t =>
        if secondOk b c then
          if isCont d then
            if isCont e then codePoint (b.toNat - 0xf0) [c, d, e] :: decodeReplace t
            else replacement :: decodeReplace (e :: t)
          else replacement :: decodeReplace (d :: e :: t)
        else replacement :: decodeReplace (c :: d :: e :: t)
      | [c, d] =>
        if secondOk b c then
          if isCont d then [replacement] else replacement :: decodeReplace [d]
        else replacement :: decodeReplace [c, d]
      | [c] => if secondOk b c then [replacement] else replacement :: decodeReplace [c]
      | [] => [replacement]
    | _ => replacement :: decodeReplace t

end Py
