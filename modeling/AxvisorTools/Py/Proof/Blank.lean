import AxvisorTools.Py.Re
import AxvisorTools.Text.Lines

/-!
# Looking past blanks

The expressions here start with a line break and `\s*`, which goes over any number of blank lines.
`Starts q t`: after blanks, `t` has the property `q`. A line that holds a word decides whether
anything starts at the line break before it, and so `not_starts`: nothing starts before the end of
lines that all fail.
-/

namespace Py

variable {ls : List Text}

/-- A text splits in one way into characters with a property and a rest that starts without it. -/
theorem span_unique {p : Char → Bool} {u u' v v' : Text} (hu : ∀ c ∈ u, p c = true)
    (hu' : ∀ c ∈ u', p c = true) (hv : ∀ c ∈ v.head?, p c = false)
    (hv' : ∀ c ∈ v'.head?, p c = false) (h : u ++ v = u' ++ v') : u = u' ∧ v = v' := by
  have hspan : ∀ {u v : Text}, (∀ c ∈ u, p c = true) → (∀ c ∈ v.head?, p c = false) →
      (u ++ v).takeWhile p = u := by
    intro u v hu hv
    rw [List.takeWhile_append_of_pos hu]
    cases v with
    | nil => simp
    | cons c v => simp [hv c rfl]
  have heq : u = u' := by rw [← hspan hu hv, h, hspan hu' hv']
  subst heq
  exact ⟨rfl, List.append_cancel_left h⟩

/-- After blanks and line breaks, the text has a property. -/
def Starts (q : Text → Prop) (t : Text) : Prop :=
  ∃ u v, (∀ c ∈ u, Re.isWhite c = true) ∧ t = u ++ v ∧ q v

/-- A property that only a text with a character other than a blank at its start has. -/
def Solid (q : Text → Prop) : Prop := ∀ t, q t → ∃ c v, t = c :: v ∧ Re.isWhite c = false

/-- A text that starts below the line starts after it. -/
def Skips (q : Text → Prop) (l : Text) : Prop := ∀ t, Starts q (l ++ '\n' :: t) → Starts q t

/-- No text starts in the line or, without a word in between, after it. -/
def Blocks (q : Text → Prop) (l : Text) : Prop := ∀ t, ¬ Starts q (l ++ '\n' :: t)

section Starts

variable {q : Text → Prop}

theorem starts_iff (hq : Solid q) {u v : Text} {c : Char} (hu : ∀ d ∈ u, Re.isWhite d = true)
    (hc : Re.isWhite c = false) : Starts q (u ++ c :: v) ↔ q (c :: v) := by
  constructor
  · intro h
    obtain ⟨u', v', hu', heq, hv'⟩ := h
    obtain ⟨d, w, rfl, hd⟩ := hq v' hv'
    obtain ⟨-, h⟩ := span_unique hu hu' (fun x hx => by cases hx; exact hc)
      (fun x hx => by cases hx; exact hd) heq
    rwa [h]
  · intro h
    exact ⟨u, c :: v, hu, rfl, h⟩

theorem Blocks.skips {l : Text} (h : Blocks q l) : Skips q l := fun t ht => absurd ht (h t)

theorem skips_nil (hq : Solid q) : Skips q [] := by
  intro t ht
  obtain ⟨u, v, hu, heq, hv⟩ := ht
  obtain ⟨c, w, rfl, hc⟩ := hq v hv
  cases u with
  | nil =>
    cases heq
    cases hc
  | cons d u =>
    exact ⟨u, c :: w, fun x hx => hu x (List.mem_cons_of_mem _ hx), (List.cons.inj heq).2, hv⟩

theorem blocks_of_solid (hq : Solid q) {u v : Text} {c : Char} (hu : ∀ d ∈ u, Re.isWhite d = true)
    (hc : Re.isWhite c = false) (h : ∀ t, ¬ q (c :: (v ++ '\n' :: t))) : Blocks q (u ++ c :: v) := by
  intro t ht
  rw [List.append_assoc, List.cons_append, starts_iff hq hu hc] at ht
  exact h t ht

theorem starts_above (h : ∀ l ∈ ls, Skips q l) {t : Text} :
    Starts q (above ls ++ t) → Starts q t := by
  induction ls with
  | nil => exact id
  | cons l ls ih =>
    intro ht
    rw [above_cons, List.append_assoc, List.cons_append] at ht
    exact ih (fun k hk => h k (List.mem_cons_of_mem _ hk)) (h l List.mem_cons_self _ ht)

theorem above_split {l a b : Text} (hls : Unbroken ls) (hl : '\n' ∉ l)
    (h : above ls ++ l = a ++ '\n' :: b) : ∃ ls₁ ls₂, ls = ls₁ ++ ls₂ ∧ b = above ls₂ ++ l := by
  induction ls generalizing a with
  | nil =>
    rw [above_nil, List.nil_append] at h
    exact absurd (h ▸ List.mem_append_right _ List.mem_cons_self) hl
  | cons k ls ih =>
    rw [above_cons, List.append_assoc, List.cons_append] at h
    have hk : '\n' ∉ k := hls k List.mem_cons_self
    rcases List.append_eq_append_iff.1 h with ⟨c, ha, hc⟩ | ⟨c, hc, hb⟩
    · cases c with
      | nil => exact ⟨[k], ls, rfl, (List.cons.inj hc).2.symm⟩
      | cons d c =>
        obtain ⟨ls₁, ls₂, rfl, hb⟩ := ih (fun x hx => hls x (List.mem_cons_of_mem _ hx))
          (List.cons.inj hc).2
        exact ⟨k :: ls₁, ls₂, rfl, hb⟩
    · cases c with
      | nil => exact ⟨[k], ls, rfl, (List.cons.inj hb).2⟩
      | cons d c =>
        have hd : '\n' = d := (List.cons.inj hb).1
        rw [hc] at hk
        exact absurd (List.mem_append_right _ (hd ▸ List.mem_cons_self)) hk

theorem not_starts {l a b t : Text} (hls : Unbroken ls) (hl : '\n' ∉ l)
    (hskip : ∀ k ∈ ls, Skips q k) (hblock : Blocks q l) (h : above ls ++ l = a ++ '\n' :: b) :
    ¬ Starts q (b ++ '\n' :: t) := by
  intro ht
  obtain ⟨ls₁, ls₂, rfl, rfl⟩ := above_split hls hl h
  rw [List.append_assoc] at ht
  exact hblock t (starts_above (fun k hk => hskip k (List.mem_append_right _ hk)) ht)

end Starts

end Py
