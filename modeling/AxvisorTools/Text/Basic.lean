import Mathlib.Algebra.GroupWithZero.Nat
import Mathlib.Data.Char
import Mathlib.Data.List.Basic
import Mathlib.Data.List.Infix
import Mathlib.Data.List.Lex

/-!
# Texts and byte strings

A file, a shell word or a Python `str` is a `Text`, a list of characters; raw file contents that
are never decoded as a whole are `Bytes`. String literals are texts by coercion.
-/

/-- The characters of a file, a shell word or a Python `str`. -/
abbrev Text := List Char

/-- Python `bytes`. -/
abbrev Bytes := List UInt8

instance : Coe String Text := ⟨String.toList⟩

instance lawfulBEqText : LawfulBEq (List Char) := inferInstance

/-- A property of the characters of a text is decided by going through the text; there is also an
instance that goes through all characters. -/
instance (priority := 2000) decidableForallMemText (t : List Char) (p : Char → Prop)
    [DecidablePred p] : Decidable (∀ c ∈ t, p c) := List.decidableBAll p t

/-- The code of the character with a valid code. -/
theorem toNat_ofNat_of_valid {n : Nat} (h : n.isValidChar) : (Char.ofNat n).toNat = n := by
  unfold Char.ofNat
  rw [dif_pos h]
  rfl

theorem isUpper_range {c : Char} (h : c.isUpper = true) : 65 ≤ c.toNat ∧ c.toNat ≤ 90 :=
  of_decide_eq_true h

theorem isAlphanum_range {c : Char} (h : c.isAlphanum = true) :
    (48 ≤ c.toNat ∧ c.toNat ≤ 57) ∨ (65 ≤ c.toNat ∧ c.toNat ≤ 90) ∨
      (97 ≤ c.toNat ∧ c.toNat ≤ 122) := by
  have hcases : ((c.isUpper || c.isLower) || c.isDigit) = true := h
  rw [Bool.or_eq_true, Bool.or_eq_true] at hcases
  rcases hcases with (hc | hc) | hc
  · exact .inr (.inl (isUpper_range hc))
  · have hrange : (decide (97 ≤ c.toNat) && decide (c.toNat ≤ 122)) = true := hc
    exact .inr (.inr (by simpa using hrange))
  · have hrange : (decide (48 ≤ c.toNat) && decide (c.toNat ≤ 57)) = true := hc
    exact .inl (by simpa using hrange)

/-! ## Results and lists -/

theorem bind_eq_ok {ε α β : Type} {m : Except ε α} {f : α → Except ε β} {b : β}
    (h : m >>= f = .ok b) : ∃ a, m = .ok a ∧ f a = .ok b := by
  cases m with
  | error e => cases h
  | ok a => exact ⟨a, rfl, h⟩

/-- A property of all bytes can be checked number by number. -/
theorem forall_byte {P : UInt8 → Prop} (h : ∀ n < 256, P (UInt8.ofNat n)) (b : UInt8) : P b := by
  have hb := h b.toNat b.toNat_lt
  rwa [UInt8.ofNat_toNat] at hb

theorem mapM_some {α β : Type} {f : α → Option β} {g : α → β} :
    ∀ {l : List α}, (∀ x ∈ l, f x = some (g x)) → l.mapM f = some (l.map g)
  | [], _ => rfl
  | x :: l, h => by
    rw [List.mapM_cons, h x List.mem_cons_self,
      mapM_some fun y hy => h y (List.mem_cons_of_mem _ hy)]
    rfl

theorem mapM_none {α β : Type} {f : α → Option β} :
    ∀ {l : List α}, (∃ x ∈ l, f x = none) → l.mapM f = none
  | [], ⟨_, hx, _⟩ => absurd hx List.not_mem_nil
  | x :: l, ⟨y, hy, h⟩ => by
    rw [List.mapM_cons]
    rcases List.mem_cons.1 hy with rfl | hy
    · rw [h]
      rfl
    · rw [mapM_none ⟨y, hy, h⟩]
      cases f x <;> rfl

theorem isSome_of_mapM {α β : Type} {f : α → Option β} : ∀ {l : List α} {r : List β},
    l.mapM f = some r → ∀ x ∈ l, (f x).isSome = true
  | [], _, _, _, hx => absurd hx List.not_mem_nil
  | a :: l, r, h, x, hx => by
    rw [List.mapM_cons] at h
    obtain ⟨b, hb, h⟩ := Option.bind_eq_some_iff.1 h
    obtain ⟨bs, hbs, -⟩ := Option.bind_eq_some_iff.1 h
    rcases List.mem_cons.1 hx with rfl | hx
    · rw [hb]
      rfl
    · exact isSome_of_mapM hbs x hx

theorem mapM_flatten_cons {α β : Type} (f : α → Option (List β)) (x : α) (l : List α) :
    ((x :: l).mapM f).map List.flatten =
      (f x).bind fun b => ((l.mapM f).map List.flatten).map (b ++ ·) := by
  rw [List.mapM_cons]
  cases f x with
  | none => rfl
  | some b => cases l.mapM f <;> rfl

/-- A text splits in one way at the first place of a character. -/
theorem append_cons_inj {c : Char} : ∀ {a b u v : Text}, c ∉ a → c ∉ b →
    a ++ c :: u = b ++ c :: v → a = b ∧ u = v
  | [], [], _, _, _, _, h => ⟨rfl, (List.cons.inj h).2⟩
  | [], d :: b, _, _, _, hb, h => absurd ((List.cons.inj h).1 ▸ List.mem_cons_self) hb
  | d :: a, [], _, _, ha, _, h => absurd ((List.cons.inj h).1 ▸ List.mem_cons_self) ha
  | d :: a, e :: b, _, _, ha, hb, h => by
    obtain ⟨rfl, htail⟩ := List.cons.inj h
    obtain ⟨rfl, rfl⟩ := append_cons_inj (List.not_mem_of_not_mem_cons ha)
      (List.not_mem_of_not_mem_cons hb) htail
    exact ⟨rfl, rfl⟩
