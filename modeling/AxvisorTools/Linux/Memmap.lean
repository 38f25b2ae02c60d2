import AxvisorTools.Py.Int
import Mathlib.Data.Set.Defs

/-!
# The `memmap=` argument of the kernel

`memparse` reads an unsigned 64-bit number as C writes it, with one letter for a power of 1024, and
`memmap=SIZE$BASE` reserves a range of physical addresses. What follows the base is not looked at:
the range is reserved by then.
-/

namespace Linux

open Py

/-- `_parse_integer_fixup_radix` for base 0: the radix, and the text of the digits. -/
def radix : Text → Nat × Text
  | '0' :: x :: c :: t =>
    if (x = 'x' ∨ x = 'X') ∧ (digit? 16 c).isSome then (16, c :: t) else (8, '0' :: x :: c :: t)
  | '0' :: t => (8, '0' :: t)
  | t => (10, t)

/-- `_parse_integer`: the number of the digits so far, without its carry, and the text after them. -/
def parseInteger (base : Nat) : Nat → Text → Nat × Text
  | acc, [] => (acc, [])
  | acc, c :: t =>
    match digit? base c with
    | some d => parseInteger base ((acc * base + d) % 2 ^ 64) t
    | none => (acc, c :: t)

/-- `simple_strtoull` for base 0. -/
def strtoull (t : Text) : Nat × Text := parseInteger (radix t).1 0 (radix t).2

/-- The power of two a letter stands for. -/
def suffixShift (c : Char) : Option Nat :=
  if c = 'K' ∨ c = 'k' then some 10
  else if c = 'M' ∨ c = 'm' then some 20
  else if c = 'G' ∨ c = 'g' then some 30
  else if c = 'T' ∨ c = 't' then some 40
  else if c = 'P' ∨ c = 'p' then some 50
  else if c = 'E' ∨ c = 'e' then some 60
  else none

/-- The letter after a number, if there is one. -/
def shifted (n : Nat) : Text → Nat × Text
  | [] => (n, [])
  | c :: t =>
    match suffixShift c with
    | some k => (n * 2 ^ k % 2 ^ 64, t)
    | none => (n, c :: t)

/-- `memparse`. -/
def memparse (t : Text) : Nat × Text := shifted (strtoull t).1 (strtoull t).2

/-- A range of physical addresses. -/
structure Range where
  base : Nat
  size : Nat
  deriving DecidableEq, Repr

def Range.addresses (r : Range) : Set Nat := {a | r.base ≤ a ∧ a < r.base + r.size}

/-- `parse_memmap_one`, as far as it reserves: the range a value of `memmap=` gives. -/
def memmapRange (value : Text) : Option Range :=
  if (memparse value).2 = value then none
  else
    match (memparse value).2 with
    | '$' :: t => some ⟨(memparse t).1, (memparse value).1⟩
    | _ => none

/-- The addresses a value of `memmap=` reserves. -/
def reserved (value : Text) : Set Nat :=
  match memmapRange value with
  | some r => r.addresses
  | none => ∅

example : memmapRange "0x10K$0x40000000" = some ⟨0x40000000, 0x4000⟩ := by decide

end Linux
