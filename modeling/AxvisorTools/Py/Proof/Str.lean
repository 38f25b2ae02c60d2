import AxvisorTools.Py.Str
import AxvisorTools.Py.Proof.Json
import AxvisorTools.Text.Lines

/-!
# Lines of printed JSON

`json.dumps` escapes every character outside `' '..'~'`, so that `splitlines` gives back lines of
it exactly (`splitlines_above`, `printable_render`), whatever the strings in it were.
-/

namespace Py

open Json

variable {t : Text}

/-- The characters `json.dumps` prints inside a line. -/
def Printable (t : Text) : Prop := ∀ c ∈ t, ' ' ≤ c ∧ c ≤ '~'

instance (t : Text) : Decidable (Printable t) := List.decidableBAll _ _

theorem Printable.append {a b : Text} (ha : Printable a) (hb : Printable b) :
    Printable (a ++ b) := fun c hc => (List.mem_append.1 hc).elim (ha c) (hb c)

theorem Printable.cons {c : Char} (hc : ' ' ≤ c ∧ c ≤ '~') (ht : Printable t) :
    Printable (c :: t) := fun d hd => (List.mem_cons.1 hd).elim (fun h => h ▸ hc) (ht d)

theorem isLineBreak_of_printable {c : Char} (h : ' ' ≤ c ∧ c ≤ '~') : isLineBreak c = false := by
  have h1 : 32 ≤ c.toNat := h.1
  have h2 : c.toNat ≤ 126 := h.2
  simp only [isLineBreak, Bool.or_eq_false_iff, Bool.and_eq_false_iff, decide_eq_false_iff_not,
    beq_eq_false_iff_ne]
  omega

theorem splitlinesFrom_line {l : Text} (hl : ∀ c ∈ l, isLineBreak c = false) (cur t : Text) :
    splitlinesFrom false cur (l ++ '\n' :: t) =
      (cur.reverse ++ l) :: splitlinesFrom false [] t := by
  induction l generalizing cur with
  | nil => simp [splitlinesFrom, isLineBreak]
  | cons c l ih =>
    have hc := hl c List.mem_cons_self
    rw [List.cons_append, splitlinesFrom, if_neg (by simp), if_neg (by simp [hc]),
      ih (fun d hd => hl d (List.mem_cons_of_mem _ hd))]
    simp

theorem isLineBreak_of_mem_splitlinesFrom {l : Text} : ∀ {t cur : Text} {cr : Bool},
    (∀ c ∈ cur, isLineBreak c = false) → l ∈ splitlinesFrom cr cur t →
      ∀ c ∈ l, isLineBreak c = false := by
  intro t
  induction t with
  | nil =>
    intro cur cr hcur hl
    rw [splitlinesFrom] at hl
    split at hl
    · cases hl
    · rw [List.mem_singleton] at hl
      rw [hl]
      exact fun c hc => hcur c (List.mem_reverse.1 hc)
  | cons d t ih =>
    intro cur cr hcur hl
    rw [splitlinesFrom] at hl
    split at hl
    · exact ih hcur hl
    · split at hl
      · rcases List.mem_cons.1 hl with rfl | hl
        · exact fun c hc => hcur c (List.mem_reverse.1 hc)
        · exact ih (fun _ hc => by cases hc) hl
      · next hd =>
        refine ih (List.forall_mem_cons.2 ⟨?_, hcur⟩) hl
        simpa using hd

theorem newline_not_mem_of_mem_splitlines {l : Text} (h : l ∈ splitlines t) : '\n' ∉ l := by
  intro hl
  have hbreak := isLineBreak_of_mem_splitlinesFrom (fun _ hc => by cases hc) h '\n' hl
  exact absurd hbreak (by decide)

theorem splitlines_above {ls : List Text} (h : ∀ l ∈ ls, Printable l) :
    splitlines (above ls) = ls := by
  induction ls with
  | nil => rfl
  | cons l ls ih =>
    rw [above_cons, splitlines,
      splitlinesFrom_line fun c hc => isLineBreak_of_printable (h l List.mem_cons_self c hc)]
    exact congrArg (l :: ·) (ih fun k hk => h k (List.mem_cons_of_mem _ hk))

theorem universalNewlines_of_not_mem (h : '\r' ∉ t) : universalNewlines t = t := by
  induction t with
  | nil => rfl
  | cons c t ih =>
    rw [List.mem_cons, not_or] at h
    rw [universalNewlines, if_neg (Ne.symm h.1), ih h.2]
    rintro t' rfl
    exact absurd rfl h.1

theorem universalNewlines_cons {c : Char} (h : c = '\r' → ∀ u, t ≠ '\n' :: u) :
    universalNewlines (c :: t) = (if c = '\r' then '\n' else c) :: universalNewlines t := by
  rw [universalNewlines]
  rintro u rfl rfl
  exact h rfl u rfl

theorem universalNewlines_above {ls : List Text} (h : ∀ l ∈ ls, Printable l) :
    universalNewlines (above ls) = above ls := by
  refine universalNewlines_of_not_mem fun hm => ?_
  obtain ⟨l, hl, hc⟩ := List.mem_flatMap.1 hm
  rcases List.mem_append.1 hc with hc | hc
  · exact absurd (h l hl _ hc) (by decide)
  · exact absurd hc (by decide)

/-! ## Printed values -/

theorem printable_unicodeEscape (n : Nat) : Printable (unicodeEscape n) := by
  have hd : ∀ m < 16, ' ' ≤ Nat.digitChar m ∧ Nat.digitChar m ≤ '~' := by decide
  have hm : ∀ k : Nat, ' ' ≤ Nat.digitChar (k % 16) ∧ Nat.digitChar (k % 16) ≤ '~' :=
    fun k => hd _ (Nat.mod_lt _ (by decide))
  exact .cons (by decide) (.cons (by decide) (.cons (hm _) (.cons (hm _) (.cons (hm _)
    (.cons (hm _) (by simp [Printable]))))))

theorem printable_escapeChar (c : Char) : Printable (escapeChar c) := by
  have two : ∀ d : Char, ' ' ≤ d ∧ d ≤ '~' → Printable ['\\', d] := fun d hd =>
    .cons (by decide) (.cons hd (by simp [Printable]))
  unfold escapeChar
  repeat' split
  · exact two _ (by decide)
  · exact two _ (by decide)
  · exact two _ (by decide)
  · exact two _ (by decide)
  · exact two _ (by decide)
  · exact two _ (by decide)
  · exact two _ (by decide)
  · next h => exact .cons h (by simp [Printable])
  · exact printable_unicodeEscape _
  · exact (printable_unicodeEscape _).append (printable_unicodeEscape _)

theorem printable_escape (t : Text) : Printable (escape t) := by
  intro d hd
  obtain ⟨c, -, hc⟩ := List.mem_flatMap.1 hd
  exact printable_escapeChar c d hc

theorem printable_quote (t : Text) : Printable (quote t) :=
  .cons (by decide) ((printable_escape t).append (.cons (by decide) (by simp [Printable])))

theorem printable_digits (n : Nat) : Printable (Nat.toDigits 10 n) := by
  intro c hc
  have h := Nat.isDigit_of_mem_toDigits (by decide) (by decide) hc
  simp only [Char.isDigit, Bool.and_eq_true, decide_eq_true_eq] at h
  have h1 : 48 ≤ c.toNat := h.1
  have h2 : c.toNat ≤ 57 := h.2
  exact ⟨show 32 ≤ c.toNat by omega, show c.toNat ≤ 126 by omega⟩

/-- The layout puts all on one line. -/
def Layout.Inline (l : Layout) : Prop :=
  ∀ k, Printable (l.opening k) ∧ Printable (l.closing k) ∧ Printable (l.comma k) ∧
    Printable (l.colon k)

variable {l : Layout}

theorem Printable.nil : Printable [] := fun _ h => absurd h List.not_mem_nil

theorem Printable.field (hl : Layout.Inline l) (key : Text) (ht : Printable t) (k : Nat) :
    Printable (quote key ++ ':' :: l.colon k ++ t) :=
  ((printable_quote key).append (.cons (by decide) (hl k).2.2.2)).append ht

mutual

theorem printable_render (hl : Layout.Inline l) : ∀ (j : Json) (k : Nat), Printable (render l k j)
  | .null, k => by rw [render]; decide
  | .bool b, k => by rw [render]; cases b <;> decide
  | .num n, k => by rw [render]; exact printable_digits n
  | .str t, k => by rw [render]; exact printable_quote t
  | .arr [], k => by rw [render]; decide
  | .arr (x :: xs), k => by
    rw [render]
    exact ((((Printable.cons (by decide) (hl k).1).append (printable_render hl x (k + 1))).append
      (printable_renderItems hl xs k)).append (hl k).2.1).append (.cons (by decide) .nil)
  | .obj [], k => by rw [render]; decide
  | .obj ((key, x) :: fs), k => by
    rw [render]
    exact ((((Printable.cons (by decide) (hl k).1).append (.field hl key
      (printable_render hl x (k + 1)) k)).append (printable_renderFields hl fs k)).append
      (hl k).2.1).append (.cons (by decide) .nil)

theorem printable_renderItems (hl : Layout.Inline l) : ∀ (xs : List Json) (k : Nat),
    Printable (renderItems l k xs)
  | [], k => by rw [renderItems]; exact .nil
  | x :: xs, k => by
    rw [renderItems]
    exact ((Printable.cons (by decide) (hl k).2.2.1).append (printable_render hl x (k + 1))).append
      (printable_renderItems hl xs k)

theorem printable_renderFields (hl : Layout.Inline l) : ∀ (fs : List (Text × Json)) (k : Nat),
    Printable (renderFields l k fs)
  | [], k => by rw [renderFields]; exact .nil
  | (key, x) :: fs, k => by
    rw [renderFields]
    exact ((Printable.cons (by decide) (hl k).2.2.1).append (.field hl key
      (printable_render hl x (k + 1)) k)).append (printable_renderFields hl fs k)

end

end Py
