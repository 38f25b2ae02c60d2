import AxvisorTools.Py.Proof.Str
import AxvisorTools.Text.Proof.Grep

/-!
# Searching printed JSON for a field

`infix_render_iff`: the text `"key": "value"` occurs in a printed value exactly when some object in
it has that field, whatever the strings in it are: a quote inside a string is always escaped, and
only the quote after a key is followed by a colon.
-/

namespace Py.Json

variable {a t w : Text} {c : Char} {x : Json}

mutual

/-- The fields with a string value, in all objects of a value. -/
def stringFields : Json → List (Text × Text)
  | .arr xs => stringFieldsItems xs
  | .obj fs => stringFieldsFields fs
  | _ => []

def stringFieldsItems : List Json → List (Text × Text)
  | [] => []
  | x :: xs => stringFields x ++ stringFieldsItems xs

def stringFieldsFields : List (Text × Json) → List (Text × Text)
  | [] => []
  | (key, .str t) :: fs => (key, t) :: stringFieldsFields fs
  | (_, x) :: fs => stringFields x ++ stringFieldsFields fs

end

mutual

/-- The keys of all objects of a value. -/
def keys : Json → List Text
  | .arr xs => keysItems xs
  | .obj fs => keysFields fs
  | _ => []

def keysItems : List Json → List Text
  | [] => []
  | x :: xs => keys x ++ keysItems xs

def keysFields : List (Text × Json) → List Text
  | [] => []
  | (key, x) :: fs => key :: keys x ++ keysFields fs

end

/-- Words that are printed as they are and hold no punctuation of JSON. -/
def IsWord (t : Text) : Prop := t ≠ [] ∧ ∀ c ∈ t, c.isAlphanum ∨ c = '-' ∨ c = '_'

instance (t : Text) : Decidable (IsWord t) :=
  @instDecidableAnd _ _ inferInstance (List.decidableBAll _ _)

/-- Words and the empty text: every character is printed as it is. -/
def Plain (t : Text) : Prop := ∀ c ∈ t, c.isAlphanum ∨ c = '-' ∨ c = '_'

instance (t : Text) : Decidable (Plain t) := List.decidableBAll _ _

/-- A field as it is printed. -/
def fieldText (colon key value : Text) : Text := quote key ++ ':' :: colon ++ quote value

/-! ## Quotes -/

/-- Every quote in the text is escaped. -/
def Guarded (a : Text) : Prop := ∀ x y, a = x ++ '"' :: y → ∃ z, x = z ++ ['\\']

theorem guarded_of_not_mem (h : '"' ∉ a) : Guarded a := by
  rintro x y rfl
  exact absurd (by simp) h

theorem Guarded.append {b : Text} (ha : Guarded a) (hb : Guarded b) : Guarded (a ++ b) := by
  intro x y h
  rcases List.append_eq_append_iff.1 h with ⟨z, rfl, hz⟩ | ⟨z, rfl, hz⟩
  · obtain ⟨w, rfl⟩ := hb z y hz
    exact ⟨a ++ w, by simp⟩
  · cases z with
    | nil =>
      obtain ⟨w, hw⟩ := hb [] y hz.symm
      simp at hw
    | cons c z =>
      obtain ⟨rfl, rfl⟩ := List.cons.inj hz
      exact ha x z rfl

theorem quote_not_mem_unicodeEscape (n : Nat) : '"' ∉ unicodeEscape n := by
  have hd : ∀ m < 16, '"' ≠ Nat.digitChar m := by decide
  have hm : ∀ k : Nat, '"' ≠ Nat.digitChar (k % 16) := fun k => hd _ (Nat.mod_lt _ (by decide))
  simp only [unicodeEscape, List.mem_cons, not_or, List.not_mem_nil, not_false_iff]
  exact ⟨by decide, by decide, hm _, hm _, hm _, hm _, trivial⟩

theorem quote_not_mem_escapeChar (h : c ≠ '"') : '"' ∉ escapeChar c := by
  unfold escapeChar
  repeat' split
  all_goals first
    | exact absurd ‹_› h
    | exact quote_not_mem_unicodeEscape _
    | exact fun hm => (List.mem_append.1 hm).elim (quote_not_mem_unicodeEscape _)
        (quote_not_mem_unicodeEscape _)
    | simp [Ne.symm h]

theorem guarded_escape (s : Text) : Guarded (escape s) := by
  induction s with
  | nil => exact guarded_of_not_mem (by simp [escape])
  | cons c s ih =>
    refine Guarded.append ?_ ih
    by_cases h : c = '"'
    · subst h
      intro x y hxy
      rcases x with _ | ⟨d, _ | ⟨e, x⟩⟩
      · simp [escapeChar] at hxy
      · obtain ⟨rfl, -⟩ := List.cons.inj hxy
        exact ⟨[], rfl⟩
      · simp [escapeChar] at hxy
    · exact guarded_of_not_mem (quote_not_mem_escapeChar h)

theorem quote_not_mem_escape {s : Text} (h : '"' ∉ s) : '"' ∉ escape s := by
  intro hm
  obtain ⟨c, hc, hq⟩ := List.mem_flatMap.1 hm
  exact quote_not_mem_escapeChar (fun e => h (e ▸ hc)) hq

/-- No quote after `c` is followed by a colon. -/
def Clear (c : Char) (t : Text) : Prop := ¬[c, '"', ':'] <:+: t

theorem Clear.guarded (hc : c ≠ '\\') (ha : Guarded a) (ht : Clear c t) (hq : ¬['"', ':'] <+: t) :
    Clear c (a ++ t) := by
  rintro ⟨x, y, h⟩
  rw [List.append_assoc] at h
  rcases List.append_eq_append_iff.1 h with ⟨z, rfl, hz⟩ | ⟨z, rfl, hz⟩
  · rcases z with _ | ⟨d, _ | ⟨e, z⟩⟩
    · exact ht ⟨[], y, by simpa using hz⟩
    · obtain ⟨rfl, hz⟩ := List.cons.inj hz
      exact hq ⟨y, by simpa using hz⟩
    · obtain ⟨hd, hz'⟩ := List.cons.inj hz
      have he : '"' = e := (List.cons.inj hz').1
      subst hd he
      obtain ⟨w, hw⟩ := ha (x ++ [c]) z (by simp)
      exact hc (List.cons.inj (List.append_inj_right' hw rfl)).1
  · exact ht ⟨z, y, by rw [hz]; simp⟩

theorem Clear.cons {d : Char} (ht : Clear c t) (hd : d ≠ c) : Clear c (d :: t) := by
  rintro ⟨x, y, h⟩
  cases x with
  | nil => exact hd (List.cons.inj h).1.symm
  | cons e x => exact ht ⟨x, y, (List.cons.inj h).2⟩

theorem Clear.append (ha : c ∉ a) (ht : Clear c t) : Clear c (a ++ t) := by
  induction a with
  | nil => exact ht
  | cons d a ih =>
    rw [List.mem_cons, not_or] at ha
    exact (ih ha.2).cons (Ne.symm ha.1)

theorem Clear.quote (hc : c ≠ '\\') (hq : c ≠ '"') (s : Text) (ht : Clear c t)
    (hh : t.head? ≠ some ':') : Clear c (quote s ++ t) := by
  have : Json.quote s ++ t = '"' :: (escape s ++ '"' :: t) := by simp [Json.quote]
  rw [this]
  refine Clear.cons (Clear.guarded hc (guarded_escape s) (ht.cons hq.symm) ?_) hq.symm
  rintro ⟨y, h⟩
  exact hh (by rw [← (List.cons.inj h).2]; rfl)

theorem clear_of_not_mem (h : ':' ∉ t) : Clear c t := by
  rintro ⟨x, y, rfl⟩
  exact h (by simp)

/-! ## One field -/

theorem escape_inj {s : Text} (h : escape s = escape t) : s = t := by
  have hs := readString_escape s []
  rw [h, readString_escape] at hs
  exact ((Prod.mk.inj (Option.some.inj hs)).1).symm

theorem printable_of_isAlphanum (h : c.isAlphanum = true) : ' ' ≤ c ∧ c ≤ '~' := by
  have hrange := isAlphanum_range h
  have hr : 32 ≤ c.toNat ∧ c.toNat ≤ 126 := by omega
  exact hr

theorem escape_of_plain (h : Plain t) : escape t = t := by
  have hc : ∀ c ∈ t, escapeChar c = [c] := by
    intro c hc
    have hne : ∀ d : Char, d.isAlphanum = false → d ≠ '-' → d ≠ '_' → c ≠ d := by
      rintro d h0 h1 h2 rfl
      rcases h c hc with h | h | h
      · rw [h0] at h
        cases h
      · exact h1 h
      · exact h2 h
    have hr : ' ' ≤ c ∧ c ≤ '~' := by
      rcases h c hc with h | rfl | rfl
      · exact printable_of_isAlphanum h
      · decide
      · decide
    unfold escapeChar
    rw [if_neg (hne _ (by decide) (by decide) (by decide)),
      if_neg (hne _ (by decide) (by decide) (by decide)),
      if_neg (hne _ (by decide) (by decide) (by decide)),
      if_neg (hne _ (by decide) (by decide) (by decide)),
      if_neg (hne _ (by decide) (by decide) (by decide)),
      if_neg (hne _ (by decide) (by decide) (by decide)),
      if_neg (hne _ (by decide) (by decide) (by decide)), if_pos hr]
  clear h
  induction t with
  | nil => rfl
  | cons c t ih =>
    rw [escape, List.flatMap_cons, hc c List.mem_cons_self]
    exact congrArg (c :: ·) (ih fun d hd => hc d (List.mem_cons_of_mem _ hd))

theorem escape_of_word (h : IsWord t) : escape t = t := escape_of_plain h.2

theorem Plain.not_mem (h : Plain t) (hc : c.isAlphanum = false) (h1 : c ≠ '-') (h2 : c ≠ '_') :
    c ∉ t := fun hm => by
  rcases h c hm with h | h | h
  · rw [hc] at h
    cases h
  · exact h1 h
  · exact h2 h

theorem IsWord.not_mem (h : IsWord t) (hc : c.isAlphanum = false) (h1 : c ≠ '-') (h2 : c ≠ '_') :
    c ∉ t := Plain.not_mem h.2 hc h1 h2

variable {colon key value : Text}

theorem infix_field_iff (hkey : IsWord key) {k : Text} (hk : '"' ∉ k) (hw : w.all isWhite = true)
    (ht : ∀ c ∈ key, Clear c t) :
    fieldText colon key value <:+: w ++ (quote k ++ ':' :: t) ↔
      k = key ∧ colon ++ quote value <+: t := by
  have hqw : '"' ∉ w := fun h => absurd (List.all_eq_true.1 hw _ h) (by decide)
  have hqk : '"' ∉ escape k := quote_not_mem_escape hk
  have hqkey : '"' ∉ key := hkey.not_mem (by decide) (by decide) (by decide)
  have hn : fieldText colon key value = ('"' :: key) ++ '"' :: ':' :: (colon ++ quote value) := by
    simp [fieldText, quote, escape_of_word hkey]
  have htext : w ++ (quote k ++ ':' :: t) = (w ++ '"' :: escape k) ++ '"' :: ':' :: t := by
    simp [quote]
  rw [hn, htext]
  constructor
  · rintro ⟨x, y, h⟩
    have h : (x ++ '"' :: key) ++ '"' :: ':' :: (colon ++ quote value ++ y) =
        (w ++ '"' :: escape k) ++ '"' :: ':' :: t := by simpa using h
    rcases List.append_eq_append_iff.1 h with ⟨z, hz, hz'⟩ | ⟨z, hz, hz'⟩
    · cases z with
      | nil =>
        rw [List.append_nil] at hz
        obtain ⟨-, -, he⟩ := (List.append_cons_inj_of_notMem hqw hqk).1 hz
        have := escape_inj (he.trans (escape_of_word hkey).symm)
        exact ⟨this, y, by simpa using hz'⟩
      | cons d z =>
        -- a second quote before the closing one of the key
        obtain ⟨rfl, -⟩ := List.cons.inj hz'
        have := congrArg (List.count '"') hz
        simp [List.count_eq_zero_of_not_mem hqw, List.count_eq_zero_of_not_mem hqk] at this
        omega
    · rcases z with _ | ⟨d, _ | ⟨e, z⟩⟩
      · rw [List.append_nil] at hz
        obtain ⟨-, -, he⟩ := (List.append_cons_inj_of_notMem hqw hqk).1 hz.symm
        have := escape_inj (he.trans (escape_of_word hkey).symm)
        exact ⟨this, y, by simpa using hz'.symm⟩
      · have := (List.cons.inj (List.cons.inj hz').2).1
        exact absurd this (by decide)
      · -- a quote and a colon after it in the value
        obtain ⟨-, hz'⟩ := List.cons.inj hz'
        obtain ⟨he, hz'⟩ := List.cons.inj hz'
        obtain ⟨key', c, hc⟩ := (List.eq_nil_or_concat' key).resolve_left hkey.1
        have hck : c ∈ key := by simp [hc]
        rcases List.eq_nil_or_concat' z with rfl | ⟨z', e', rfl⟩
        · have hlast : (x ++ '"' :: key') ++ [c] = (w ++ '"' :: escape k ++ [d]) ++ [e] := by
            simpa [hc] using hz
          have hcol : c = e := (List.cons.inj (List.append_inj_right' hlast rfl)).1
          exact absurd (hkey.2 c hck) (by rw [hcol, ← he]; decide)
        · have hlast : (x ++ '"' :: key') ++ [c] =
              (w ++ '"' :: escape k ++ d :: e :: z') ++ [e'] := by simpa [hc] using hz
          have hce : c = e' := (List.cons.inj (List.append_inj_right' hlast rfl)).1
          have hz' : t = (z' ++ [e']) ++ '"' :: ':' :: (colon ++ quote value ++ y) := hz'
          exact (ht c hck ⟨z', colon ++ quote value ++ y, by rw [hz', hce]; simp⟩).elim
  · rintro ⟨rfl, y, rfl⟩
    exact ⟨w, y, by simp [escape_of_word hkey]⟩

theorem quote_prefix_iff {s : Text} : quote value <+: quote s ++ w ↔ s = value := by
  constructor
  · rintro ⟨r, h⟩
    have h : escape value ++ '"' :: r = escape s ++ '"' :: w := by
      simpa [quote] using h
    have := readString_escape s w
    rw [← h, readString_escape] at this
    exact ((Prod.mk.inj (Option.some.inj this)).1).symm
  · rintro rfl
    exact List.prefix_append _ _

/-! ## Whole values -/

/-- The characters that stand between the values of printed JSON. -/
def separators : Text := [',', '[', ']', '\x7b', '\x7d']

theorem separators_ne : ∀ c ∈ separators,
    c.isAlphanum = false ∧ c ≠ '-' ∧ c ≠ '_' ∧ c ≠ '"' ∧ c ≠ ':' ∧ isWhite c = false := by
  simp only [separators, List.forall_mem_cons, List.not_mem_nil, false_implies, implies_true,
    and_true]
  decide

theorem sep_not_mem_fieldText (hkey : IsWord key) (hv : Plain value)
    (hcolon : colon.all isWhite = true) (hc : c ∈ separators) : c ∉ fieldText colon key value := by
  obtain ⟨h0, h1, h2, h3, h4, h5⟩ := separators_ne c hc
  have hcol : c ∉ colon := fun h => by
    rw [List.all_eq_true.1 hcolon c h] at h5
    cases h5
  simp only [fieldText, quote, escape_of_word hkey, escape_of_plain hv]
  simp [hkey.not_mem h0 h1 h2, hv.not_mem h0 h1 h2, hcol, h3, h4]

theorem not_infix_of_clear (hkey : IsWord key) (ht : ∀ c ∈ key, Clear c t) :
    ¬fieldText colon key value <:+: t := by
  obtain ⟨key', c, hc⟩ := (List.eq_nil_or_concat' key).resolve_left hkey.1
  intro h
  refine ht c (by simp [hc]) (List.IsInfix.trans ?_ h)
  refine ⟨'"' :: key', colon ++ quote value, ?_⟩
  have hq : quote key = '"' :: key ++ ['"'] := by rw [quote, escape_of_word hkey]
  rw [fieldText, hq, hc]
  simp

theorem colon_not_mem_white (hw : w.all isWhite = true) : ':' ∉ w :=
  fun h => absurd (List.all_eq_true.1 hw _ h) (by decide)

variable {l : Layout}

theorem white_colon (hl : ∀ k, l.colon k = colon) : colon.all isWhite = true :=
  hl 0 ▸ (l.white_each 0).2.2.2

/-- A value that is printed without a separator has no field. -/
def IsAtom : Json → Prop
  | .arr _ | .obj _ => False
  | _ => True

theorem clear_atom (hkey : IsWord key) (hx : IsAtom x) (k : Nat) (ha : a.all isWhite = true)
    (hw : w.all isWhite = true) : ∀ c ∈ key, Clear c (a ++ (render l k x ++ w)) := by
  intro c hc
  have hcw := colon_not_mem_white hw
  have hca := colon_not_mem_white ha
  have hplain : ':' ∉ render l k x → Clear c (a ++ (render l k x ++ w)) := fun h =>
    clear_of_not_mem (by simp [hca, hcw, h])
  cases x with
  | null => exact hplain (by rw [render]; decide)
  | bool b => exact hplain (by cases b <;> (rw [render]; decide))
  | num n =>
    refine hplain fun h => ?_
    rw [render] at h
    exact absurd (Nat.isDigit_of_mem_toDigits (by decide) (by decide) h) (by decide)
  | str t =>
    rw [render]
    have hne : ∀ d : Char, d.isAlphanum = false → d ≠ '-' → d ≠ '_' → c ≠ d := by
      rintro d h0 h1 h2 rfl
      exact hkey.not_mem h0 h1 h2 hc
    have hcb := hne '\\' (by decide) (by decide) (by decide)
    have hcq := hne '"' (by decide) (by decide) (by decide)
    refine Clear.append (fun h => ?_) (Clear.quote hcb hcq t (clear_of_not_mem hcw) ?_)
    · have := List.all_eq_true.1 ha _ h
      simp only [isWhite, Bool.or_eq_true, beq_iff_eq] at this
      rcases this with ((h | h) | h) | h
      all_goals exact hne _ (by decide) (by decide) (by decide) h
    · intro h
      cases w with
      | nil => cases h
      | cons d w =>
        obtain rfl := Option.some.inj h
        exact hcw List.mem_cons_self
  | arr xs => cases hx
  | obj fs => cases hx

/-- What the search finds around an atom, as an item or as the value of a field. -/
theorem not_infix_atom (hkey : IsWord key) (hx : IsAtom x) (k : Nat) (ha : a.all isWhite = true)
    (hw : w.all isWhite = true) : ¬fieldText colon key value <:+: a ++ (render l k x ++ w) :=
  not_infix_of_clear hkey (clear_atom hkey hx k ha hw)

theorem infix_field_atom_iff (hl : ∀ k, l.colon k = colon) (hkey : IsWord key) {name : Text}
    (hname : '"' ∉ name) (hx : IsAtom x) (k : Nat) (ha : a.all isWhite = true)
    (hw : w.all isWhite = true) :
    fieldText colon key value <:+: a ++ (quote name ++ ':' :: (colon ++ (render l k x ++ w))) ↔
      (key, value) ∈ stringFieldsFields [(name, x)] := by
  have hcolon := white_colon hl
  rw [infix_field_iff hkey hname ha (clear_atom hkey hx k hcolon hw), List.prefix_append_right_inj]
  have hno : ∀ u : Text, u.head? ≠ some '"' → ¬quote value <+: u := by
    rintro u hu ⟨r, rfl⟩
    exact hu rfl
  cases x with
  | str t =>
    rw [render, quote_prefix_iff]
    simp [stringFieldsFields, eq_comm]
  | null =>
    simp only [stringFieldsFields, stringFields, List.append_nil, List.not_mem_nil, iff_false]
    exact fun h => hno _ (by rw [render]; simp) h.2
  | bool b =>
    simp only [stringFieldsFields, stringFields, List.append_nil, List.not_mem_nil, iff_false]
    exact fun h => hno _ (by cases b <;> (rw [render]; simp)) h.2
  | num n =>
    simp only [stringFieldsFields, stringFields, List.append_nil, List.not_mem_nil, iff_false]
    obtain ⟨c, u, hcu, hc⟩ := toDigits_cons n
    refine fun h => hno _ ?_ h.2
    rw [render, hcu]
    rintro h
    obtain rfl := Option.some.inj h
    exact absurd hc (by decide)
  | arr xs => cases hx
  | obj fs => cases hx

/-! ## Arrays and objects -/

theorem not_infix_white (hkey : IsWord key) (hw : w.all isWhite = true) :
    ¬fieldText colon key value <:+: w :=
  not_infix_of_clear hkey fun _ _ => clear_of_not_mem (colon_not_mem_white hw)

theorem infix_bracket_iff (hkey : IsWord key) (hv : Plain value) (hcolon : colon.all isWhite = true)
    {body : Text} {o e : Char} (ho : o ∈ separators) (he : e ∈ separators)
    (ha : ¬fieldText colon key value <:+: a) (hw : w.all isWhite = true) :
    fieldText colon key value <:+: a ++ (o :: body ++ [e] ++ w) ↔
      fieldText colon key value <:+: body := by
  have h : a ++ (o :: body ++ [e] ++ w) = a ++ o :: (body ++ e :: w) := by simp
  rw [h, infix_append_sep (sep_not_mem_fieldText hkey hv hcolon ho),
    infix_append_sep (sep_not_mem_fieldText hkey hv hcolon he)]
  simp [ha, not_infix_white hkey hw]

/-- The search in a value, by itself between white space and as the value of a field. -/
def Finds (l : Layout) (colon key value : Text) (x : Json) : Prop :=
  (∀ name ∈ keys x, '"' ∉ name) → ∀ (k : Nat) {a w : Text}, a.all isWhite = true →
    w.all isWhite = true →
    (fieldText colon key value <:+: a ++ (render l k x ++ w) ↔ (key, value) ∈ stringFields x) ∧
    ∀ {name : Text}, '"' ∉ name →
      (fieldText colon key value <:+: a ++ (quote name ++ ':' :: (colon ++ (render l k x ++ w))) ↔
        (key, value) ∈ stringFieldsFields [(name, x)])

theorem finds_atom (hl : ∀ k, l.colon k = colon) (hkey : IsWord key) (hx : IsAtom x) :
    Finds l colon key value x := by
  intro _ k a w ha hw
  refine ⟨?_, fun hname => infix_field_atom_iff hl hkey hname hx k ha hw⟩
  have : stringFields x = [] := by cases x <;> first | rfl | cases hx
  simp [this, not_infix_atom hkey hx k ha hw]

theorem stringFieldsFields_cons (name : Text) (x : Json) (fs : List (Text × Json)) :
    stringFieldsFields ((name, x) :: fs) =
      stringFieldsFields [(name, x)] ++ stringFieldsFields fs := by
  cases x <;> simp [stringFieldsFields]

section Search

variable (hl : ∀ k, l.colon k = colon) (hkey : IsWord key) (hv : Plain value)
include hl hkey hv

/-- A value in brackets is searched in the same way in both places. -/
theorem finds_bracket (o e : Char) (body : Nat → Text) (ho : o ∈ separators) (he : e ∈ separators)
    (hr : ∀ k, render l k x = o :: body k ++ [e])
    (hf : ∀ name, stringFieldsFields [(name, x)] = stringFields x)
    (hb : (∀ name ∈ keys x, '"' ∉ name) → ∀ k,
      (fieldText colon key value <:+: body k ↔ (key, value) ∈ stringFields x)) :
    Finds l colon key value x := by
  have hcolon := white_colon hl
  intro hk k a w ha hw
  refine ⟨?_, fun {name} hname => ?_⟩
  · rw [hr, infix_bracket_iff hkey hv hcolon ho he (not_infix_white hkey ha) hw, hb hk]
  · have hno : ¬fieldText colon key value <:+: a ++ (quote name ++ ':' :: colon) := by
      rw [infix_field_iff hkey hname ha fun _ _ => clear_of_not_mem (colon_not_mem_white hcolon)]
      rintro ⟨-, h⟩
      have := h.length_le
      simp only [quote, List.length_append, List.length_cons] at this
      omega
    have h : a ++ (quote name ++ ':' :: (colon ++ (render l k x ++ w))) =
        (a ++ (quote name ++ ':' :: colon)) ++ (o :: body k ++ [e] ++ w) := by rw [hr]; simp
    rw [h, infix_bracket_iff hkey hv hcolon ho he hno hw, hb hk, hf]

theorem infix_items_iff (k : Nat) (hw : w.all isWhite = true) :
    ∀ (xs : List Json) (x : Json) {a : Text}, a.all isWhite = true →
      (∀ y ∈ x :: xs, Finds l colon key value y) → (∀ name ∈ keysItems (x :: xs), '"' ∉ name) →
      (fieldText colon key value <:+: a ++ (render l (k + 1) x ++ (renderItems l k xs ++ w)) ↔
        (key, value) ∈ stringFieldsItems (x :: xs))
  | [], x, a, ha, hx, hk => by
    have h := (hx x List.mem_cons_self (fun n hn => hk n (by simp [keysItems, hn])) (k + 1) ha hw).1
    simpa [renderItems, stringFieldsItems] using h
  | y :: ys, x, a, ha, hx, hk => by
    have hcolon := white_colon hl
    have hnil : ([] : Text).all isWhite = true := rfl
    have h := (hx x List.mem_cons_self (fun n hn => hk n (by simp [keysItems, hn])) (k + 1) ha
      hnil).1
    have ih := infix_items_iff k hw ys y (l.white_each k).2.2.1
      (fun z hz => hx z (List.mem_cons_of_mem _ hz))
      (fun n hn => hk n (by rw [keysItems]; exact List.mem_append_right _ hn))
    have ht : a ++ (render l (k + 1) x ++ (renderItems l k (y :: ys) ++ w)) =
        (a ++ (render l (k + 1) x ++ [])) ++ ',' ::
          (l.comma k ++ (render l (k + 1) y ++ (renderItems l k ys ++ w))) := by
      simp [renderItems]
    rw [ht, infix_append_sep (sep_not_mem_fieldText hkey hv hcolon (by decide)), h, ih,
      ← List.mem_append]
    rfl

theorem infix_fields_iff (k : Nat) (hw : w.all isWhite = true) :
    ∀ (fs : List (Text × Json)) (name : Text) (x : Json) {a : Text}, a.all isWhite = true →
      (∀ f ∈ (name, x) :: fs, Finds l colon key value f.2) →
      (∀ n ∈ keysFields ((name, x) :: fs), '"' ∉ n) →
      (fieldText colon key value <:+: a ++ (quote name ++ ':' :: (colon ++
        (render l (k + 1) x ++ (renderFields l k fs ++ w)))) ↔
        (key, value) ∈ stringFieldsFields ((name, x) :: fs))
  | [], name, x, a, ha, hx, hk => by
    have h := (hx _ List.mem_cons_self (fun n hn => hk n (by simp [keysFields, hn])) (k + 1) ha
      hw).2 (hk name (by simp [keysFields]))
    simpa [renderFields] using h
  | (name', y) :: fs, name, x, a, ha, hx, hk => by
    have hcolon := white_colon hl
    have hnil : ([] : Text).all isWhite = true := rfl
    have h := (hx _ List.mem_cons_self (fun n hn => hk n (by simp [keysFields, hn])) (k + 1) ha
      hnil).2 (hk name (by simp [keysFields]))
    have ih := infix_fields_iff k hw fs name' y (l.white_each k).2.2.1
      (fun z hz => hx z (List.mem_cons_of_mem _ hz))
      (fun n hn => hk n (by rw [keysFields]; exact List.mem_append_right _ hn))
    have ht : a ++ (quote name ++ ':' :: (colon ++ (render l (k + 1) x ++
        (renderFields l k ((name', y) :: fs) ++ w)))) =
        (a ++ (quote name ++ ':' :: (colon ++ (render l (k + 1) x ++ [])))) ++ ',' ::
          (l.comma k ++ (quote name' ++ ':' :: (colon ++
            (render l (k + 1) y ++ (renderFields l k fs ++ w))))) := by
      simp [renderFields, hl]
    rw [ht, infix_append_sep (sep_not_mem_fieldText hkey hv hcolon (by decide)), h, ih,
      ← List.mem_append, ← stringFieldsFields_cons]

theorem finds_empty (o e : Char) (ho : o ∈ separators) (he : e ∈ separators)
    (hr : ∀ k, render l k x = [o, e]) (hs : stringFields x = [])
    (hf : ∀ name, stringFieldsFields [(name, x)] = stringFields x) : Finds l colon key value x := by
  refine finds_bracket hl hkey hv o e (fun _ => []) ho he hr hf fun _ _ => ?_
  rw [hs]
  exact iff_of_false (not_infix_white hkey rfl) List.not_mem_nil

end Search

mutual

theorem finds (hl : ∀ k, l.colon k = colon) (hkey : IsWord key) (hv : Plain value) :
    ∀ x : Json, Finds l colon key value x
  | .null => finds_atom hl hkey trivial
  | .bool _ => finds_atom hl hkey trivial
  | .num _ => finds_atom hl hkey trivial
  | .str _ => finds_atom hl hkey trivial
  | .arr [] => finds_empty hl hkey hv '[' ']' (by decide) (by decide) (fun k => by rw [render]; rfl)
      rfl fun _ => by simp [stringFieldsFields]
  | .arr (y :: ys) => by
    refine finds_bracket hl hkey hv '[' ']'
      (fun k => l.opening k ++ (render l (k + 1) y ++ (renderItems l k ys ++ l.closing k)))
      (by decide) (by decide) (fun k => by rw [render]; simp)
      (fun _ => by simp [stringFieldsFields]) fun hk k => ?_
    exact infix_items_iff hl hkey hv k (l.white_each k).2.1 ys y (l.white_each k).1
      (finds_items hl hkey hv (y :: ys)) hk
  | .obj [] => finds_empty hl hkey hv '\x7b' '\x7d' (by decide) (by decide)
      (fun k => by rw [render]; rfl) rfl fun _ => by simp [stringFieldsFields]
  | .obj ((name, y) :: fs) => by
    refine finds_bracket hl hkey hv '\x7b' '\x7d'
      (fun k => l.opening k ++ (quote name ++ ':' :: (colon ++
        (render l (k + 1) y ++ (renderFields l k fs ++ l.closing k)))))
      (by decide) (by decide) (fun k => by rw [render]; simp [hl])
      (fun _ => by simp [stringFieldsFields]) fun hk k => ?_
    exact infix_fields_iff hl hkey hv k (l.white_each k).2.1 fs name y (l.white_each k).1
      (finds_fields hl hkey hv ((name, y) :: fs)) hk

theorem finds_items (hl : ∀ k, l.colon k = colon) (hkey : IsWord key) (hv : Plain value) :
    ∀ (xs : List Json), ∀ y ∈ xs, Finds l colon key value y
  | [] => fun _ h => absurd h List.not_mem_nil
  | x :: xs => List.forall_mem_cons.2 ⟨finds hl hkey hv x, finds_items hl hkey hv xs⟩

theorem finds_fields (hl : ∀ k, l.colon k = colon) (hkey : IsWord key) (hv : Plain value) :
    ∀ (fs : List (Text × Json)), ∀ f ∈ fs, Finds l colon key value f.2
  | [] => fun _ h => absurd h List.not_mem_nil
  | (_, x) :: fs => List.forall_mem_cons.2 ⟨finds hl hkey hv x, finds_fields hl hkey hv fs⟩

end

/-- **A field is found in printed JSON exactly when some object has it.** -/
theorem infix_render_iff (hl : ∀ k, l.colon k = colon) (hkey : IsWord key) (hv : Plain value)
    (hx : ∀ name ∈ keys x, '"' ∉ name) (k : Nat) (hw : w.all isWhite = true) :
    fieldText colon key value <:+: render l k x ++ w ↔ (key, value) ∈ stringFields x :=
  (finds hl hkey hv x hx k (a := []) rfl hw).1

end Py.Json
