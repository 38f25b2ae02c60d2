import AxvisorTools.Py.Proof.Str
import AxvisorTools.Text.Grep
import Mathlib.Data.List.Forall2

/-!
# The lines of `splitlines` and the lines of a file

`path.read_text().splitlines()` gives the lines of the file, but for the line break of a line that
ends in another character than a newline, exactly if there is none inside of a line
(`splitlines_length_iff`, `splitlines_fileLines`).
-/

/-- The character in front of the first line. -/
def consHead (c : Char) : List Text → List Text
  | [] => [[c]]
  | l :: ls => (c :: l) :: ls

theorem fileLines_newline (t : Text) : fileLines ('\n' :: t) = [] :: fileLines t := by
  obtain ⟨l, ls, h⟩ := List.exists_cons_of_ne_nil (lines_ne_nil t)
  rw [fileLines, fileLines, lines_newline, h, List.getLast?_cons_cons, List.dropLast_cons_cons]
  split <;> rfl

theorem fileLines_cons (hc : c ≠ '\n') (t : Text) :
    fileLines (c :: t) = consHead c (fileLines t) := by
  obtain ⟨l, ls, h⟩ := List.exists_cons_of_ne_nil (lines_ne_nil t)
  rw [fileLines, fileLines, lines_cons hc h, h]
  cases ls with
  | nil =>
    cases l with
    | nil => rfl
    | cons d l => rfl
  | cons k ks =>
    rw [List.getLast?_cons_cons, List.getLast?_cons_cons, List.dropLast_cons_cons,
      List.dropLast_cons_cons]
    split <;> rfl

theorem fileLines_ne_nil {t : Text} (h : t ≠ []) : fileLines t ≠ [] := by
  obtain ⟨c, t, rfl⟩ := List.exists_cons_of_ne_nil h
  by_cases hc : c = '\n'
  · rw [hc, fileLines_newline]
    exact List.cons_ne_nil _ _
  · rw [fileLines_cons hc]
    cases fileLines t <;> exact List.cons_ne_nil _ _

namespace Py

variable {c : Char}

/-! ## One character -/

/-- A text in front of the first line. -/
def prependHead (u : Text) : List Text → List Text
  | [] => if u = [] then [] else [u]
  | l :: ls => (u ++ l) :: ls

theorem splitlinesFrom_prepend (cr : Bool) (cur t : Text) :
    splitlinesFrom cr cur t = prependHead cur.reverse (splitlinesFrom cr [] t) := by
  induction t generalizing cr cur with
  | nil => simp [splitlinesFrom, prependHead]
  | cons c t ih =>
    rw [splitlinesFrom, splitlinesFrom]
    split
    · exact ih false cur
    · split
      · simp [prependHead]
      · rw [ih false (c :: cur), ih false [c]]
        cases splitlinesFrom false [] t with
        | nil => simp [prependHead]
        | cons l ls => simp [prependHead]

theorem splitlines_break (hc : isLineBreak c = true) (hcr : c ≠ '\r') (t : Text) :
    splitlines (c :: t) = [] :: splitlines t := by
  rw [splitlines, splitlinesFrom, if_neg (by simp), if_pos hc, beq_eq_false_iff_ne.2 hcr]
  rfl

theorem splitlines_cons (hc : isLineBreak c = false) (t : Text) :
    splitlines (c :: t) = consHead c (splitlines t) := by
  rw [splitlines, splitlinesFrom, if_neg (by simp), if_neg (by simp [hc]), splitlinesFrom_prepend,
    splitlines]
  cases splitlinesFrom false [] t <;> rfl

theorem otherBreak_cons {t : Text} : OtherBreak (c :: t) ↔
    (t ≠ [] ∧ isLineBreak c = true ∧ c ≠ '\n' ∧ ¬ (c = '\r' ∧ t.head? = some '\n')) ∨
      OtherBreak t := by
  constructor
  · rintro ⟨a, d, y, h, hd⟩
    cases a with
    | nil =>
      cases h
      exact .inl hd
    | cons e a =>
      cases h
      exact .inr ⟨a, d, y, rfl, hd⟩
  · rintro (h | ⟨a, d, y, rfl, hd⟩)
    · exact ⟨[], c, t, rfl, h⟩
    · exact ⟨c :: a, d, y, rfl, hd⟩

/-! ## Lines -/

/-- The line, or the line and a blank after it. -/
def Trails (l l' : Text) : Prop := l' = l ∨ ∃ w, Re.isWhite w = true ∧ l' = l ++ [w]

theorem Trails.cons {l l' : Text} (c : Char) : Trails l l' → Trails (c :: l) (c :: l')
  | .inl h => .inl (by rw [h])
  | .inr ⟨w, hw, h⟩ => .inr ⟨w, hw, by rw [h, List.cons_append]⟩

theorem forall₂_consHead {ls ls' : List Text} (c : Char) (h : List.Forall₂ Trails ls ls') :
    List.Forall₂ Trails (consHead c ls) (consHead c ls') := by
  cases h with
  | nil => exact .cons (.inl rfl) .nil
  | cons hl hls => exact .cons (hl.cons c) hls

theorem length_consHead_of_ne_nil {ls : List Text} (c : Char) (h : ls ≠ []) :
    (consHead c ls).length = ls.length := by
  obtain ⟨l, ls, rfl⟩ := List.exists_cons_of_ne_nil h
  rfl

theorem isWhite_of_isLineBreak (h : isLineBreak c = true) : Re.isWhite c = true := by
  simp only [isLineBreak, Re.isWhite, Bool.or_eq_true, Bool.and_eq_true, decide_eq_true_eq,
    beq_iff_eq] at h ⊢
  omega

theorem splitlines_universalNewlines_cons {t : Text} (h : c = '\r' → ∀ u, t ≠ '\n' :: u) :
    splitlines (universalNewlines (c :: t)) =
      if isLineBreak c then [] :: splitlines (universalNewlines t)
      else consHead c (splitlines (universalNewlines t)) := by
  rw [universalNewlines_cons h]
  by_cases hcr : c = '\r'
  · subst hcr
    exact splitlines_break rfl (by decide) _
  · rw [if_neg hcr]
    cases hc : isLineBreak c with
    | true => exact splitlines_break hc hcr _
    | false => exact splitlines_cons hc _

theorem splitlines_universalNewlines (t : Text) : splitlines (universalNewlines t) = splitlines t := by
  induction t using universalNewlines.induct with
  | case1 => rfl
  | case2 t ih =>
    rw [universalNewlines, splitlines_break rfl (by decide), ih]
    rfl
  | case3 c t hc ih =>
    rw [splitlines_universalNewlines_cons fun hr u hu => hc u hr hu, ih]
    by_cases hcr : c = '\r'
    · subst hcr
      cases t with
      | nil => rfl
      | cons d t =>
        have hd : d ≠ '\n' := fun h => hc t rfl (h ▸ rfl)
        simp [splitlines, splitlinesFrom, hd, isLineBreak]
    · cases hbreak : isLineBreak c with
      | true => exact (splitlines_break hbreak hcr t).symm
      | false => exact (splitlines_cons hbreak t).symm

/-- Either there are more lines than the file has, or they are the same but for a last blank. -/
theorem splitlines_fileLines (t : Text) :
    (OtherBreak t → (fileLines t).length < (splitlines (universalNewlines t)).length) ∧
      (¬ OtherBreak t → List.Forall₂ Trails (splitlines (universalNewlines t)) (fileLines t)) := by
  induction t using universalNewlines.induct with
  | case1 => exact ⟨fun ⟨a, c, y, h, _⟩ => by simp at h, fun _ => .nil⟩
  | case2 t ih =>
    have hbreak : OtherBreak ('\r' :: '\n' :: t) ↔ OtherBreak t := by
      simp [otherBreak_cons]
    rw [hbreak, universalNewlines, splitlines_break rfl (by decide), fileLines_cons (by decide),
      fileLines_newline]
    exact ⟨fun h => Nat.succ_lt_succ (ih.1 h), fun h => .cons (.inr ⟨'\r', rfl, rfl⟩) (ih.2 h)⟩
  | case3 c t hc ih =>
    have hnot : c = '\r' → ∀ u, t ≠ '\n' :: u := fun hr u hu => hc u hr hu
    have hle : (fileLines t).length ≤ (splitlines (universalNewlines t)).length := by
      by_cases h : OtherBreak t
      · exact (ih.1 h).le
      · exact (ih.2 h).length_eq.ge
    rw [splitlines_universalNewlines_cons hnot, otherBreak_cons]
    by_cases hnl : c = '\n'
    · subst hnl
      have hnewline : isLineBreak '\n' = true := rfl
      rw [if_pos hnewline, fileLines_newline]
      refine ⟨?_, fun h => .cons (.inl rfl) (ih.2 (not_or.1 h).2)⟩
      rintro (⟨-, -, h, -⟩ | h)
      · exact absurd rfl h
      · exact Nat.succ_lt_succ (ih.1 h)
    rw [fileLines_cons hnl]
    cases hbreak : isLineBreak c with
    | true =>
      rw [if_pos rfl]
      by_cases ht : t = []
      · -- the break ends the text, and the line with it
        subst ht
        refine ⟨?_, fun _ => .cons (.inr ⟨c, isWhite_of_isLineBreak hbreak, rfl⟩) .nil⟩
        rintro (⟨h, -⟩ | ⟨a, d, y, h, -⟩)
        · exact absurd rfl h
        · simp at h
      · have hother : ¬ (c = '\r' ∧ t.head? = some '\n') := by
          rintro ⟨hr, hn⟩
          obtain ⟨u, hu⟩ := List.head?_eq_some_iff.1 hn
          exact hnot hr u hu
        refine ⟨fun _ => ?_, fun h => absurd (.inl ⟨ht, rfl, hnl, hother⟩) h⟩
        rw [length_consHead_of_ne_nil c (fileLines_ne_nil ht)]
        exact Nat.lt_succ_of_le hle
    | false =>
      rw [if_neg Bool.false_ne_true]
      refine ⟨?_, fun h => forall₂_consHead c (ih.2 (not_or.1 h).2)⟩
      rintro (⟨-, h, -⟩ | h)
      · cases h
      · have ht : t ≠ [] := by
          rintro rfl
          obtain ⟨a, d, y, h, -⟩ := h
          simp at h
        have hlt := ih.1 h
        rw [length_consHead_of_ne_nil c (fileLines_ne_nil ht), length_consHead_of_ne_nil c]
        · exact hlt
        · exact List.ne_nil_of_length_pos (Nat.zero_lt_of_lt hlt)

/-- There are as many lines as the file has if it has no other break. -/
theorem splitlines_length_iff (t : Text) :
    (splitlines (universalNewlines t)).length = (fileLines t).length ↔ ¬ OtherBreak t := by
  refine ⟨fun h hbreak => ?_, fun h => ((splitlines_fileLines t).2 h).length_eq⟩
  exact absurd h ((splitlines_fileLines t).1 hbreak).ne'

theorem strip_of_trails {l l' : Text} (h : Trails l l') : strip l' = strip l := by
  rcases h with rfl | ⟨w, hw, rfl⟩
  · rfl
  rw [strip, List.dropWhile_append]
  split
  · next h =>
    rw [strip, List.isEmpty_iff.1 h, List.dropWhile_cons_of_pos hw]
    rfl
  · exact List.rdropWhile_concat_pos _ _ _ hw

end Py
