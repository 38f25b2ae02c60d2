import AxvisorTools.Py.Json
import Mathlib.Data.List.TakeWhile

/-!
# Reading JSON back

`loads_render`: whatever white space a printer puts between the tokens, `loads` returns the value
that was printed.
-/

namespace Py.Json

/-! ## Strings -/

theorem hexDigit_digitChar : ∀ n < 16, hexDigit (Nat.digitChar n) = some n := by decide

theorem hex4_digits {n : Nat} (h : n < 65536) :
    hex4 (Nat.digitChar (n / 4096 % 16)) (Nat.digitChar (n / 256 % 16))
      (Nat.digitChar (n / 16 % 16)) (Nat.digitChar (n % 16)) = some n := by
  have hmod : ∀ m : Nat, hexDigit (Nat.digitChar (m % 16)) = some (m % 16) :=
    fun m => hexDigit_digitChar _ (Nat.mod_lt _ (by decide))
  simp only [hex4, hmod, Option.bind_eq_bind, Option.bind_some, Option.pure_def, Option.some.injEq]
  omega

theorem toNat_cases (c : Char) : c.toNat < 0xd800 ∨ (0xe000 ≤ c.toNat ∧ c.toNat < 0x110000) := by
  have h : c.toNat.isValidChar := c.valid
  rcases h with h | ⟨h1, h2⟩
  · exact .inl h
  · exact .inr ⟨by omega, h2⟩

theorem readString_unicode {n : Nat} (h : n < 65536) (hs : n < 0xd800 ∨ 0xe000 ≤ n) (t : Text) :
    readString (unicodeEscape n ++ t) = push (Char.ofNat n) (readString t) := by
  rw [unicodeEscape, List.cons_append, List.cons_append, List.cons_append, List.cons_append,
    List.cons_append, List.cons_append, List.nil_append, readString.eq_def]
  simp only [hex4_digits h]
  rw [if_neg (by decide), if_pos trivial, if_neg (by omega), if_neg (by omega)]

theorem readString_pair {n : Nat} (h : n < 0x100000) (t : Text) :
    readString (unicodeEscape (0xd800 + n / 1024) ++ unicodeEscape (0xdc00 + n % 1024) ++ t) =
      push (Char.ofNat (0x10000 + n)) (readString t) := by
  have h1 : hex4 _ _ _ _ = _ := hex4_digits (n := 0xd800 + n / 1024) (by omega)
  have h2 : hex4 _ _ _ _ = _ := hex4_digits (n := 0xdc00 + n % 1024) (by omega)
  have hsum : 0x10000 + (0xd800 + n / 1024 - 0xd800) * 1024 + (0xdc00 + n % 1024 - 0xdc00) =
      0x10000 + n := by omega
  rw [unicodeEscape, unicodeEscape]
  simp only [List.cons_append, List.nil_append]
  rw [readString.eq_def]
  simp only [h1, h2]
  rw [if_neg (by decide), if_pos trivial, if_pos (by omega), if_pos (by omega), hsum]

theorem readString_escapeChar (c : Char) (t : Text) :
    readString (escapeChar c ++ t) = push c (readString t) := by
  unfold escapeChar
  -- the escapes of one letter
  iterate 7
    split
    · next h => subst h; rw [readString.eq_def]; rfl
  split
  · next hq hb _ _ _ _ _ hp =>
    have hlow : ¬c.toNat < 0x20 := by
      have : (' ' : Char).toNat ≤ c.toNat := hp.1
      exact Nat.not_lt.2 this
    rw [List.singleton_append, readString.eq_def]
    simp only [if_neg hq, if_neg hb, if_neg hlow]
  split
  · next hlt =>
    rw [readString_unicode hlt (by have := toNat_cases c; omega), Char.ofNat_toNat]
  · next hlt =>
    have hc := toNat_cases c
    have hn : 0x10000 + (c.toNat - 0x10000) = c.toNat := by omega
    rw [readString_pair (n := c.toNat - 0x10000) (by omega), hn, Char.ofNat_toNat]

theorem readString_escape (s t : Text) : readString (escape s ++ '"' :: t) = some (s, t) := by
  induction s with
  | nil => rw [escape, List.flatMap_nil, List.nil_append, readString.eq_def]; rfl
  | cons c s ih =>
    rw [escape, List.flatMap_cons, List.append_assoc, readString_escapeChar]
    rw [escape] at ih
    rw [ih]
    rfl

/-! ## White space and numbers -/

theorem skipWhite_append {w : Text} (hw : w.all isWhite = true) (t : Text) :
    skipWhite (w ++ t) = skipWhite t := by
  rw [skipWhite, List.dropWhile_append_of_pos (List.all_eq_true.1 hw)]
  rfl

theorem skipWhite_cons {c : Char} (hc : isWhite c = false) (t : Text) :
    skipWhite (c :: t) = c :: t := by
  simp [skipWhite, hc]

theorem Layout.white_each (l : Layout) (k : Nat) :
    (l.opening k).all isWhite = true ∧ (l.closing k).all isWhite = true ∧
      (l.comma k).all isWhite = true ∧ (l.colon k).all isWhite = true := by
  have h := l.white k
  simp only [List.all_append, Bool.and_eq_true] at h
  exact ⟨h.1.1.1, h.1.1.2, h.1.2, h.2⟩

/-- What follows a number does not go on with digits. -/
def NoDigit (t : Text) : Prop := ∀ c ∈ t.head?, c.isDigit = false

theorem toDigits_head (n : Nat) : (Nat.toDigits 10 n).head? = some '0' → n = 0 := by
  induction n using Nat.strong_induction_on with
  | _ n ih =>
    intro h
    by_cases hn : n < 10
    · rw [Nat.toDigits_of_lt_base hn, List.head?_cons, Option.some.injEq,
        Nat.digitChar_eq_zero] at h
      exact h
    · rw [Nat.toDigits_of_base_le (by decide) (by omega),
        List.head?_append_of_ne_nil _ Nat.toDigits_ne_nil] at h
      have := ih (n / 10) (by omega) h
      omega

theorem isDigit_ne {c : Char} (h : c.isDigit = true) :
    isWhite c = false ∧ c ≠ ']' ∧ c ≠ '"' ∧ c ≠ '[' ∧ c ≠ '\x7b' ∧ c ≠ 'n' ∧ c ≠ 't' ∧ c ≠ 'f' := by
  have hne : ∀ d : Char, d.isDigit = false → c ≠ d := fun d hd hcd => by
    rw [hcd, hd] at h
    cases h
  refine ⟨?_, hne _ (by decide), hne _ (by decide), hne _ (by decide), hne _ (by decide),
    hne _ (by decide), hne _ (by decide), hne _ (by decide)⟩
  simp [isWhite, hne ' ' (by decide), hne '\t' (by decide), hne '\n' (by decide),
    hne '\r' (by decide)]

theorem toDigits_cons (n : Nat) : ∃ c t, Nat.toDigits 10 n = c :: t ∧ c.isDigit = true := by
  obtain ⟨c, t, h⟩ := List.exists_cons_of_ne_nil (Nat.toDigits_ne_nil (n := n) (b := 10))
  exact ⟨c, t, h, Nat.isDigit_of_mem_toDigits (by decide) (by decide) (h ▸ List.mem_cons_self)⟩

theorem readNumber_digits (n : Nat) {t : Text} (ht : NoDigit t) :
    readNumber (Nat.toDigits 10 n ++ t) = some (.num n, t) := by
  obtain ⟨c, ds, hds, hc⟩ := toDigits_cons n
  have hall : ∀ d ∈ Nat.toDigits 10 n, d.isDigit = true := fun d hd =>
    Nat.isDigit_of_mem_toDigits (by decide) (by decide) hd
  by_cases h0 : c = '0'
  · have hn : n = 0 := toDigits_head n (by rw [hds, h0]; rfl)
    subst hn
    rfl
  · have htake : (Nat.toDigits 10 n ++ t).takeWhile Char.isDigit = Nat.toDigits 10 n := by
      rw [List.takeWhile_append_of_pos hall]
      cases t with
      | nil => simp
      | cons d t => simp [ht d rfl]
    have hdrop : (Nat.toDigits 10 n ++ t).dropWhile Char.isDigit = t := by
      rw [List.dropWhile_append_of_pos hall]
      cases t with
      | nil => simp
      | cons d t => simp [ht d rfl]
    unfold readNumber
    split
    · rename_i h
      rw [hds] at h
      exact absurd (List.cons.inj h).1 h0
    · simp only [htake, hdrop, if_neg Nat.toDigits_ne_nil, Nat.ofDigitChars_ten_toDigits]

/-! ## Values -/

theorem render_head (l : Layout) (k : Nat) (j : Json) :
    ∃ c t, render l k j = c :: t ∧ isWhite c = false ∧ c ≠ ']' := by
  cases j with
  | null => exact ⟨'n', _, by rw [render]; rfl, by decide, by decide⟩
  | bool b =>
    cases b with
    | true => exact ⟨'t', _, by rw [render]; rfl, by decide, by decide⟩
    | false => exact ⟨'f', _, by rw [render]; rfl, by decide, by decide⟩
  | num n =>
    obtain ⟨c, t, h, hc⟩ := toDigits_cons n
    exact ⟨c, t, by rw [render, h], (isDigit_ne hc).1, (isDigit_ne hc).2.1⟩
  | str t => exact ⟨'"', _, by rw [render]; rfl, by decide, by decide⟩
  | arr xs =>
    cases xs with
    | nil => exact ⟨'[', _, by rw [render]; rfl, by decide, by decide⟩
    | cons x xs => exact ⟨'[', _, by rw [render]; rfl, by decide, by decide⟩
  | obj fs =>
    cases fs with
    | nil => exact ⟨'\x7b', _, by rw [render]; rfl, by decide, by decide⟩
    | cons f fs => exact ⟨'\x7b', _, by rw [render]; rfl, by decide, by decide⟩

theorem skipWhite_render (l : Layout) (k : Nat) (j : Json) (t : Text) :
    skipWhite (render l k j ++ t) = render l k j ++ t := by
  obtain ⟨c, u, h, hc, -⟩ := render_head l k j
  rw [h]
  exact skipWhite_cons hc _

theorem noDigit_white {w : Text} (hw : w.all isWhite = true) {c : Char} (hc : c.isDigit = false)
    (t : Text) : NoDigit (w ++ c :: t) := by
  intro d hd
  cases w with
  | nil =>
    cases hd
    exact hc
  | cons e w =>
    cases hd
    cases hdig : d.isDigit with
    | false => rfl
    | true =>
      rw [List.all_cons, (isDigit_ne hdig).1] at hw
      cases hw

theorem noDigit_items (l : Layout) (k : Nat) (xs : List Json) (t : Text) :
    NoDigit (renderItems l k xs ++ (l.closing k ++ ']' :: t)) := by
  cases xs with
  | nil =>
    rw [renderItems, List.nil_append]
    exact noDigit_white (l.white_each k).2.1 (by decide) t
  | cons x xs =>
    rw [renderItems]
    exact noDigit_white (w := []) rfl (by decide) _

theorem noDigit_fields (l : Layout) (k : Nat) (fs : List (Text × Json)) (t : Text) :
    NoDigit (renderFields l k fs ++ (l.closing k ++ '\x7d' :: t)) := by
  cases fs with
  | nil =>
    rw [renderFields, List.nil_append]
    exact noDigit_white (l.white_each k).2.1 (by decide) t
  | cons f fs =>
    obtain ⟨key, x⟩ := f
    rw [renderFields]
    exact noDigit_white (w := []) rfl (by decide) _

/-- The printed value is read back, whatever follows it. -/
def ReadBack (l : Layout) (j : Json) : Prop :=
  ∀ (k fuel : Nat) (t : Text), (render l k j).length ≤ fuel → NoDigit t →
    readValue fuel (render l k j ++ t) = some (j, t)

theorem readString_quote (s t : Text) : readString ((quote s).tail ++ t) = some (s, t) := by
  rw [quote, List.cons_append, List.tail_cons, List.append_assoc]
  exact readString_escape s t

theorem readValue_cons (fuel : Nat) (c : Char) (u : Text) :
    readValue (fuel + 1) (c :: u) =
      if c = '"' then (readString u).map fun (s, t) => (.str s, t)
      else if c = '[' then
        match skipWhite u with
        | ']' :: t => some (.arr [], t)
        | t => (readItems fuel t).map fun (xs, t) => (.arr xs, t)
      else if c = '\x7b' then
        match skipWhite u with
        | '\x7d' :: t => some (.obj [], t)
        | t => (readFields fuel t).map fun (fs, t) => (.obj fs, t)
      else if c = 'n' then readName "null" .null (c :: u)
      else if c = 't' then readName "true" (.bool true) (c :: u)
      else if c = 'f' then readName "false" (.bool false) (c :: u)
      else readNumber (c :: u) := rfl

theorem readItems_step {l : Layout} {x : Json} (hx : ReadBack l x) (k fuel : Nat) (t : Text)
    (hlen : (render l (k + 1) x).length ≤ fuel) (ht : NoDigit t) :
    readItems (fuel + 1) (render l (k + 1) x ++ t) =
      match skipWhite t with
      | ',' :: t => (readItems fuel (skipWhite t)).map fun (xs, t) => (x :: xs, t)
      | ']' :: t => some ([x], t)
      | _ => none := by
  rw [readItems, hx (k + 1) fuel t hlen ht]
  rfl

/-- What the text behind a field makes of it. -/
def nextField (key : Text) (x : Json) (fuel : Nat) : Text → Option (List (Text × Json) × Text)
  | ',' :: t => (readFields fuel (skipWhite t)).map fun (fs, t) => ((key, x) :: fs, t)
  | '\x7d' :: t => some ([(key, x)], t)
  | _ => none

theorem readFields_step {l : Layout} {x : Json} (hx : ReadBack l x) (key : Text) (k fuel : Nat)
    (t : Text) (hlen : (render l (k + 1) x).length ≤ fuel) (ht : NoDigit t) :
    readFields (fuel + 1) (quote key ++ ':' :: l.colon k ++ render l (k + 1) x ++ t) =
      nextField key x fuel (skipWhite t) := by
  have hquote : quote key ++ ':' :: l.colon k ++ render l (k + 1) x ++ t =
      '"' :: ((quote key).tail ++ (':' :: (l.colon k ++ (render l (k + 1) x ++ t)))) := by
    simp [quote]
  have hcolon : skipWhite (':' :: (l.colon k ++ (render l (k + 1) x ++ t))) =
      ':' :: (l.colon k ++ (render l (k + 1) x ++ t)) := skipWhite_cons (by decide) _
  rw [hquote, readFields, readString_quote]
  simp only [Option.bind_eq_bind, Option.bind_some, hcolon,
    skipWhite_append (l.white_each k).2.2.2, skipWhite_render, hx (k + 1) fuel t hlen ht]
  rfl

mutual

theorem readBack_render (l : Layout) : ∀ j : Json, ReadBack l j
  | j, k, 0, t, hlen, _ => by
    obtain ⟨c, u, hc, -⟩ := render_head l k j
    simp [hc] at hlen
  | .null, k, fuel + 1, t, hlen, _ => by
    rw [render] at hlen ⊢
    change readValue (fuel + 1) ('n' :: ("ull" ++ t)) = _
    rw [readValue_cons]
    simp [readName]
  | .bool b, k, fuel + 1, t, hlen, _ => by
    rw [render] at hlen ⊢
    cases b with
    | true =>
      change readValue (fuel + 1) ('t' :: ("rue" ++ t)) = _
      rw [readValue_cons]
      simp [readName]
    | false =>
      change readValue (fuel + 1) ('f' :: ("alse" ++ t)) = _
      rw [readValue_cons]
      simp [readName]
  | .num n, k, fuel + 1, t, hlen, ht => by
    obtain ⟨c, ds, hds, hc⟩ := toDigits_cons n
    obtain ⟨-, -, h1, h2, h3, h4, h5, h6⟩ := isDigit_ne hc
    rw [render] at hlen ⊢
    rw [hds, List.cons_append, readValue_cons]
    simp only [if_neg h1, if_neg h2, if_neg h3, if_neg h4, if_neg h5, if_neg h6]
    rw [← List.cons_append, ← hds, readNumber_digits n ht]
  | .str s, k, fuel + 1, t, hlen, _ => by
    rw [render] at hlen ⊢
    have hs : quote s ++ t = '"' :: ((quote s).tail ++ t) := rfl
    rw [hs, readValue_cons]
    simp [readString_quote]
  | .arr [], k, fuel + 1, t, hlen, _ => by
    rw [render] at hlen ⊢
    change readValue (fuel + 1) ('[' :: ']' :: t) = _
    rw [readValue_cons]
    rfl
  | .arr (x :: xs), k, fuel + 1, t, hlen, _ => by
    rw [render] at hlen ⊢
    have hitems := readBack_items l xs x (readBack_render l x) k fuel t
      (by simp at hlen ⊢; omega)
    obtain ⟨c, u, hc, hw, hb⟩ := render_head l (k + 1) x
    have hskip : skipWhite (l.opening k ++ (render l (k + 1) x ++ renderItems l k xs ++
        (l.closing k ++ ']' :: t))) = c :: (u ++ renderItems l k xs ++ (l.closing k ++ ']' :: t)) := by
      rw [skipWhite_append (l.white_each k).1, hc]
      exact skipWhite_cons hw _
    have htext : '[' :: l.opening k ++ render l (k + 1) x ++ renderItems l k xs ++ l.closing k ++
        [']'] ++ t = '[' :: (l.opening k ++ (render l (k + 1) x ++ renderItems l k xs ++
          (l.closing k ++ ']' :: t))) := by simp
    rw [htext, readValue_cons]
    simp only [hskip]
    rw [if_neg (by decide), if_pos trivial]
    split
    · rename_i h
      exact absurd (List.cons.inj h).1 hb
    · rw [hc] at hitems
      simp only [List.cons_append] at hitems
      rw [hitems]
      rfl
  | .obj [], k, fuel + 1, t, hlen, _ => by
    rw [render] at hlen ⊢
    change readValue (fuel + 1) ('\x7b' :: '\x7d' :: t) = _
    rw [readValue_cons]
    rfl
  | .obj ((key, x) :: fs), k, fuel + 1, t, hlen, _ => by
    rw [render] at hlen ⊢
    have hfields := readBack_fields l fs key x (readBack_render l x) k fuel t
      (by simp at hlen ⊢; omega)
    have hskip : skipWhite (l.opening k ++ (quote key ++ ':' :: l.colon k ++ render l (k + 1) x ++
        renderFields l k fs ++ (l.closing k ++ '\x7d' :: t))) =
          quote key ++ ':' :: l.colon k ++ render l (k + 1) x ++
            renderFields l k fs ++ (l.closing k ++ '\x7d' :: t) := by
      rw [skipWhite_append (l.white_each k).1]
      exact skipWhite_cons (by decide) _
    have htext : '\x7b' :: l.opening k ++ (quote key ++ ':' :: l.colon k ++ render l (k + 1) x) ++
        renderFields l k fs ++ l.closing k ++ ['\x7d'] ++ t =
          '\x7b' :: (l.opening k ++ (quote key ++ ':' :: l.colon k ++ render l (k + 1) x ++
            renderFields l k fs ++ (l.closing k ++ '\x7d' :: t))) := by simp
    rw [htext, readValue_cons]
    simp only [hskip]
    rw [if_neg (by decide), if_neg (by decide), if_pos trivial]
    split
    · rename_i h
      rw [quote] at h
      exact absurd (List.cons.inj h).1 (by decide)
    · rw [hfields]
      rfl

theorem readBack_items (l : Layout) : ∀ (xs : List Json) (x : Json), ReadBack l x →
    ∀ (k fuel : Nat) (t : Text),
    (render l (k + 1) x).length + (renderItems l k xs).length + 1 ≤ fuel →
    readItems fuel (render l (k + 1) x ++ renderItems l k xs ++ (l.closing k ++ ']' :: t)) =
      some (x :: xs, t)
  | _, _, _, _, 0, _, hlen => absurd hlen (by omega)
  | [], x, hx, k, fuel + 1, t, hlen => by
    have hno := noDigit_items l k [] t
    rw [renderItems, List.nil_append] at hno
    rw [renderItems, List.append_nil, readItems_step hx k fuel _ (by omega) hno,
      skipWhite_append (l.white_each k).2.1, skipWhite_cons (by decide)]
    rfl
  | y :: ys, x, hx, k, fuel + 1, t, hlen => by
    have hno := noDigit_items l k (y :: ys) t
    have ih := readBack_items l ys y (readBack_render l y) k fuel t
      (by rw [renderItems] at hlen; simp at hlen; omega)
    have htext : renderItems l k (y :: ys) ++ (l.closing k ++ ']' :: t) =
        ',' :: (l.comma k ++ (render l (k + 1) y ++ renderItems l k ys ++
          (l.closing k ++ ']' :: t))) := by
      rw [renderItems]
      simp
    rw [List.append_assoc, readItems_step hx k fuel _ (by omega) hno, htext,
      skipWhite_cons (by decide)]
    simp only
    rw [skipWhite_append (l.white_each k).2.2.1, List.append_assoc, skipWhite_render,
      ← List.append_assoc, ih]
    rfl

theorem readBack_fields (l : Layout) : ∀ (fs : List (Text × Json)) (key : Text) (x : Json),
    ReadBack l x → ∀ (k fuel : Nat) (t : Text),
    (quote key).length + (render l (k + 1) x).length + (renderFields l k fs).length + 1 ≤ fuel →
    readFields fuel (quote key ++ ':' :: l.colon k ++ render l (k + 1) x ++ renderFields l k fs ++
      (l.closing k ++ '\x7d' :: t)) = some ((key, x) :: fs, t)
  | _, _, _, _, _, 0, _, hlen => absurd hlen (by omega)
  | [], key, x, hx, k, fuel + 1, t, hlen => by
    have hno := noDigit_fields l k [] t
    rw [renderFields, List.nil_append] at hno
    rw [renderFields, List.append_nil, readFields_step hx key k fuel _ (by omega) hno,
      skipWhite_append (l.white_each k).2.1, skipWhite_cons (by decide)]
    rfl
  | (key', y) :: fs, key, x, hx, k, fuel + 1, t, hlen => by
    have hno := noDigit_fields l k ((key', y) :: fs) t
    have ih := readBack_fields l fs key' y (readBack_render l y) k fuel t
      (by rw [renderFields] at hlen; simp at hlen; omega)
    have htext : renderFields l k ((key', y) :: fs) ++ (l.closing k ++ '\x7d' :: t) =
        ',' :: (l.comma k ++ (quote key' ++ ':' :: l.colon k ++ render l (k + 1) y ++
          renderFields l k fs ++ (l.closing k ++ '\x7d' :: t))) := by
      rw [renderFields]
      simp
    have hskip : skipWhite (quote key' ++ ':' :: l.colon k ++ render l (k + 1) y ++
        renderFields l k fs ++ (l.closing k ++ '\x7d' :: t)) =
          quote key' ++ ':' :: l.colon k ++ render l (k + 1) y ++ renderFields l k fs ++
            (l.closing k ++ '\x7d' :: t) := skipWhite_cons (by decide) _
    rw [List.append_assoc, readFields_step hx key k fuel _ (by omega) hno, htext,
      skipWhite_cons (by decide), nextField, skipWhite_append (l.white_each k).2.2.1, hskip, ih]
    rfl

end

/-- **A printed value is read back**, whatever the layout. -/
theorem loads_render (l : Layout) (j : Json) {w : Text} (hw : w.all isWhite = true) :
    loads (render l 0 j ++ w) = some j := by
  have hno : NoDigit w := by
    have := noDigit_white hw (c := ' ') (by decide) []
    cases w with
    | nil => intro c hc; cases hc
    | cons d w => exact fun c hc => this c hc
  have hread := readBack_render l j 0 ((render l 0 j ++ w).length + 1) w (by simp; omega) hno
  have hrest : skipWhite w = [] := by
    have := skipWhite_append hw []
    rw [List.append_nil] at this
    rw [this]
    rfl
  rw [loads, skipWhite_render, hread]
  simp [hrest]

end Py.Json
