import AxvisorTools.Py.Proof.Basic
import AxvisorTools.Toml.Read
import Mathlib.Data.List.DropRight
import Mathlib.Order.Basic

/-!
# Facts about the TOML reader

`readLine_pair` reads a line `key = "…` with a bare key, `bare_of_entry` says that only a bare key
can be read back from such a line. `spells_of_readBasic` bounds a string by the text it is read from.
-/

namespace Toml

variable {c : Char} {key : Text}

/-- A key that needs no quotes. -/
def IsBareKey (key : Text) : Prop := key ≠ [] ∧ key.all isBareChar = true

/-- A text that can stand between double quotes as it is, quotes and backslashes apart. -/
def IsStringText (t : Text) : Prop := t.all isTextChar = true

instance (key : Text) : Decidable (IsBareKey key) := inferInstanceAs (Decidable (_ ∧ _))

instance (t : Text) : Decidable (IsStringText t) := inferInstanceAs (Decidable (_ = _))

/-! ## Keys and strings -/

theorem isBareChar_ne (h : isBareChar c = true) :
    c ≠ ' ' ∧ c ≠ '\t' ∧ c ≠ '"' ∧ c ≠ '\'' ∧ c ≠ '[' ∧ c ≠ '#' := by
  refine ⟨?_, ?_, ?_, ?_, ?_, ?_⟩ <;> (rintro rfl; revert h; decide)

theorem isBlank_bare (h : isBareChar c = true) : isBlank c = false := by
  obtain ⟨h1, h2, -⟩ := isBareChar_ne h
  simp [isBlank, h1, h2]

theorem skipBlanks_cons (h : isBlank c = false) (t : Text) : skipBlanks (c :: t) = c :: t := by
  simp [skipBlanks, h]

theorem readBasic_text : ∀ {v : Text}, '"' ∉ v → '\\' ∉ v → IsStringText v → ∀ t : Text,
    readBasic (v ++ '"' :: t) = some (v, t)
  | [], _, _, _, t => by
    rw [List.nil_append, readBasic.eq_def]
    rfl
  | c :: v, hq, hb, hv, t => by
    simp only [IsStringText, List.all_cons, Bool.and_eq_true] at hv
    have ih := readBasic_text (fun h => hq (List.mem_cons_of_mem _ h))
      (fun h => hb (List.mem_cons_of_mem _ h)) hv.2 t
    have hc : c ≠ '"' := fun h => hq (by simp [h])
    have hc' : c ≠ '\\' := fun h => hb (by simp [h])
    rw [List.cons_append, readBasic.eq_def]
    simp [hc, hc', hv.1, ih]

theorem text_of_readBasic : ∀ {v : Text}, '"' ∉ v → '\\' ∉ v → ∀ {t : Text} {r : Text × Text},
    readBasic (v ++ t) = some r → IsStringText v
  | [], _, _, t, r, _ => rfl
  | c :: v, hq, hb, t, r, h => by
    have hc : c ≠ '"' := fun h => hq (by simp [h])
    have hc' : c ≠ '\\' := fun h => hb (by simp [h])
    rw [List.cons_append, readBasic.eq_def] at h
    simp only [if_neg hc, if_neg hc'] at h
    split at h
    · rename_i htext
      obtain ⟨r', hr', -⟩ := Option.bind_eq_some_iff.1 h
      have ih := text_of_readBasic (fun h => hq (List.mem_cons_of_mem _ h))
        (fun h => hb (List.mem_cons_of_mem _ h)) hr'
      simp only [IsStringText, List.all_cons, Bool.and_eq_true]
      exact ⟨htext, ih⟩
    · cases h

theorem readLiteral_no_quote : ∀ {t : Text} {r : Text × Text}, readLiteral t = some r → '\'' ∉ r.1
  | [], r, h => by simp [readLiteral] at h
  | c :: t, r, h => by
    rw [readLiteral] at h
    split at h
    · cases h
      simp
    · rename_i hc
      split at h
      · obtain ⟨r', hr', h⟩ := Option.bind_eq_some_iff.1 h
        cases h
        simp only [List.mem_cons, not_or]
        exact ⟨fun h => hc h.symm, readLiteral_no_quote hr'⟩
      · cases h

theorem readKey_cases {t : Text} {k r : Text} (h : readKey t = some (k, r)) :
    t.head? = some '"' ∨ (t.head? = some '\'' ∧ '\'' ∉ k) ∨ IsBareKey k := by
  unfold readKey at h
  split at h
  · exact .inl rfl
  · exact .inr (.inl ⟨rfl, readLiteral_no_quote h⟩)
  · refine .inr (.inr ?_)
    simp only at h
    split at h
    · cases h
    · rename_i hk
      cases h
      refine ⟨hk, ?_⟩
      rw [List.all_eq_true]
      exact fun c hc => List.mem_takeWhile_imp hc

theorem readKey_of_readPath {n : Nat} {t r : Text} {k : Text} {ks : List Text}
    (h : readPath n t = some (k :: ks, r)) : ∃ r', readKey (skipBlanks t) = some (k, r') := by
  cases n with
  | zero => simp [readPath] at h
  | succ n =>
    rw [readPath] at h
    obtain ⟨⟨k', t'⟩, hk, h⟩ := Option.bind_eq_some_iff.1 h
    simp only at h
    split at h
    · obtain ⟨⟨ks', t''⟩, -, h⟩ := Option.bind_eq_some_iff.1 h
      cases h
      exact ⟨t', hk⟩
    · cases h
      exact ⟨t', hk⟩

theorem readEntry_cases {t : Text} {path : List Text} {r : Value × List Bracket}
    (h : readEntry t = some (path, r)) : ∃ v, readPath t.length t = some (path, '=' :: v) := by
  unfold readEntry at h
  split at h
  · rename_i p v hp
    obtain ⟨r', -, h⟩ := Option.map_eq_some_iff.1 h
    cases h
    exact ⟨v, hp⟩
  · cases h

theorem readLine_entry_cases {s : State} {l : Text} {path : List Text} {v : Value}
    (h : (readLine s l).1 = .entry path v) :
    s.nest = [] ∧ (skipBlanks (chomp l)).head? ≠ some '[' ∧
      ∃ n w, readPath n (skipBlanks (chomp l)) = some (path, '=' :: w) := by
  unfold readLine at h
  split at h
  · split at h <;> cases h
  · rename_i hn
    refine ⟨not_not.1 hn, ?_⟩
    split at h
    · cases h
    · cases h
    · split at h <;> cases h
    · rename_i t hnil hhash hbr
      split at h
      · rename_i p w nest he
        cases h
        obtain ⟨u, hu⟩ := readEntry_cases he
        refine ⟨fun hh => ?_, _, u, hu⟩
        obtain ⟨t', ht⟩ : ∃ t', skipBlanks (chomp l) = '[' :: t' := by
          cases hs : skipBlanks (chomp l) with
          | nil => simp [hs] at hh
          | cons c t' =>
            rw [hs] at hh
            cases hh
            exact ⟨t', rfl⟩
        exact hbr t' ht
      · cases h

theorem skipBlanks_key (key rest : Text) :
    (∃ c t, skipBlanks (key ++ rest) = c :: (t ++ rest) ∧ c ∈ key) ∨
      skipBlanks (key ++ rest) = skipBlanks rest := by
  induction key with
  | nil => exact .inr rfl
  | cons c t ih =>
    by_cases hc : isBlank c = true
    · have : skipBlanks ((c :: t) ++ rest) = skipBlanks (t ++ rest) := by
        simp [skipBlanks, hc]
      rw [this]
      rcases ih with ⟨d, t', h, hd⟩ | h
      · exact .inl ⟨d, t', h, List.mem_cons_of_mem _ hd⟩
      · exact .inr h
    · exact .inl ⟨c, t, skipBlanks_cons (by simpa using hc) _, List.mem_cons_self⟩

/-- Only a bare key is read back from the front of a line that starts with the key itself. -/
theorem bare_of_entry {s : State} {rest : Text} {ks : List Text} {v : Value} (hq : '"' ∉ key)
    (hl : chomp (key ++ " =" ++ rest) = key ++ " =" ++ rest)
    (h : (readLine s (key ++ " =" ++ rest)).1 = .entry (key :: ks) v) :
    s.nest = [] ∧ IsBareKey key := by
  obtain ⟨hn, -, n, w, hp⟩ := readLine_entry_cases h
  refine ⟨hn, ?_⟩
  obtain ⟨r, hk⟩ := readKey_of_readPath hp
  have hskip : ∀ t : Text, skipBlanks (skipBlanks t) = skipBlanks t := fun t => by
    simp only [skipBlanks, List.dropWhile_idempotent]
  rw [hl, hskip, List.append_assoc] at hk
  rcases skipBlanks_key key (" =" ++ rest) with ⟨c, t, ht, hc⟩ | ht
  · rw [ht] at hk
    rcases readKey_cases hk with h' | ⟨h', hnot⟩ | h'
    · cases h'
      exact absurd hc hq
    · cases h'
      exact absurd hc hnot
    · exact h'
  · rw [ht] at hk
    rcases readKey_cases hk with h' | ⟨h', -⟩ | h'
    · simp [skipBlanks, isBlank] at h'
    · simp [skipBlanks, isBlank] at h'
    · exact h'

/-! ## Lines that give a key a string -/

theorem takeWhile_bare (hk : IsBareKey key) (hc : isBareChar c = false) (t : Text) :
    (key ++ c :: t).takeWhile isBareChar = key ∧
      (key ++ c :: t).dropWhile isBareChar = c :: t := by
  have hall : ∀ d ∈ key, isBareChar d = true := List.all_eq_true.1 hk.2
  exact ⟨by rw [List.takeWhile_append_of_pos hall, List.takeWhile_cons, hc]; simp,
    by rw [List.dropWhile_append_of_pos hall, List.dropWhile_cons, hc]; simp⟩

theorem readKey_bare (hk : IsBareKey key) (hc : isBareChar c = false) (t : Text) :
    readKey (key ++ c :: t) = some (key, c :: t) := by
  obtain ⟨d, k, rfl⟩ := List.exists_cons_of_ne_nil hk.1
  have hd : isBareChar d = true := List.all_eq_true.1 hk.2 d List.mem_cons_self
  obtain ⟨-, -, hq, hq', -⟩ := isBareChar_ne hd
  obtain ⟨ht, hr⟩ := takeWhile_bare hk hc t
  unfold readKey
  split
  · rename_i h
    exact absurd (List.cons.inj h).1 hq
  · rename_i h
    exact absurd (List.cons.inj h).1 hq'
  · simp only [ht, hr]
    rfl

theorem readPath_bare (hk : IsBareKey key) (n : Nat) (t : Text) :
    readPath (n + 1) (key ++ " =" ++ t) = some ([key], '=' :: t) := by
  obtain ⟨d, k, rfl⟩ := List.exists_cons_of_ne_nil hk.1
  have hd : isBareChar d = true := List.all_eq_true.1 hk.2 d List.mem_cons_self
  have hkey : readKey (d :: k ++ " =" ++ t) = some (d :: k, ' ' :: '=' :: t) := by
    have h := readKey_bare hk (c := ' ') (by decide) ('=' :: t)
    simpa using h
  have hskip : skipBlanks (d :: k ++ " =" ++ t) = d :: k ++ " =" ++ t :=
    skipBlanks_cons (isBlank_bare hd) _
  rw [readPath, hskip, hkey]
  rfl

theorem readLine_key {s : State} (hs : s.nest = []) {key : Text} (hk : IsBareKey key) (r : Text)
    (hl : chomp (key ++ " =" ++ r) = key ++ " =" ++ r) :
    readLine s (key ++ " =" ++ r) =
      match readValue r with
      | some (v, nest) => (.entry [key] v, { s with nest })
      | none => (.bad, s) := by
  obtain ⟨d, k, hdk⟩ := List.exists_cons_of_ne_nil hk.1
  have hd : isBareChar d = true := List.all_eq_true.1 hk.2 d (by simp [hdk])
  obtain ⟨-, -, -, -, hb, hh⟩ := isBareChar_ne hd
  have hskip : skipBlanks (key ++ " =" ++ r) = key ++ " =" ++ r := by
    rw [hdk]
    exact skipBlanks_cons (isBlank_bare hd) _
  have hpath : readPath (key ++ " =" ++ r).length (key ++ " =" ++ r) =
      some ([key], '=' :: r) := by
    obtain ⟨n, hn⟩ : ∃ n, (key ++ " =" ++ r).length = n + 1 := by
      rw [hdk]
      exact ⟨_, rfl⟩
    rw [hn, readPath_bare hk]
  have hentry : readEntry (key ++ " =" ++ r) = (readValue r).map fun p => ([key], p) := by
    rw [readEntry, hpath]
    rfl
  rw [readLine, if_neg (by simp [hs]), hl, hskip]
  split
  · rename_i h
    simp [hdk] at h
  · rename_i h
    rw [hdk] at h
    exact absurd (List.cons.inj h).1 hh
  · rename_i h
    rw [hdk] at h
    exact absurd (List.cons.inj h).1 hb
  · rw [hentry]
    cases readValue r <;> rfl

theorem readLine_pair {s : State} (hs : s.nest = []) (hk : IsBareKey key) (r : Text)
    (hl : chomp (key ++ " = \"" ++ r) = key ++ " = \"" ++ r) :
    readLine s (key ++ " = \"" ++ r) =
      match endString (readBasic r) with
      | some (v, nest) => (.entry [key] v, { s with nest })
      | none => (.bad, s) := by
  have hline : key ++ " = \"" ++ r = key ++ " =" ++ (' ' :: '"' :: r) := by simp
  rw [hline] at hl ⊢
  exact readLine_key hs hk _ hl

/-! ## What a string is read from -/

theorem equals_not_mem_hex {ds : Text} (h : hexChar ds = some c) : '=' ∉ ds := by
  obtain ⟨ns, hns, -⟩ := Option.bind_eq_some_iff.1 h
  intro hmem
  exact Py.equals_ne_digit (isSome_of_mapM hns _ hmem) rfl

/-- How the text `t` spells the string `s` before `r`: escapes are longer than what they stand for,
and none of them takes an `=`. -/
structure Spells (t s r : Text) : Prop where
  equals : t.count '=' ≤ s.count '=' + r.count '='
  length : s.length + 1 + r.length ≤ t.length
  plain : s.length + 1 + r.length = t.length →
    t = s ++ '"' :: r ∧ '"' ∉ s ∧ '\\' ∉ s ∧ IsStringText s

namespace Spells

variable {t s r : Text}

theorem close (r : Text) : Spells ('"' :: r) [] r := by
  refine ⟨?_, ?_, fun _ => ⟨rfl, List.not_mem_nil, List.not_mem_nil, rfl⟩⟩
  · rw [List.count_cons_of_ne (by decide)]
    exact Nat.le_add_left _ _
  · simp only [List.length_nil, List.length_cons]
    omega

theorem char {c : Char} (hq : c ≠ '"') (hb : c ≠ '\\') (hc : isTextChar c = true)
    (h : Spells t s r) : Spells (c :: t) (c :: s) r := by
  obtain ⟨hequals, hlength, hplain⟩ := h
  refine ⟨?_, ?_, fun hsame => ?_⟩
  · rw [List.count_cons, List.count_cons]
    omega
  · simp only [List.length_cons]
    omega
  · simp only [List.length_cons] at hsame
    obtain ⟨rfl, hquote, hback, htext⟩ := hplain (by omega)
    refine ⟨rfl, ?_, ?_, ?_⟩
    · simp [hq.symm, hquote]
    · simp [hb.symm, hback]
    · rw [IsStringText, List.all_cons, hc, htext]
      rfl

theorem escape {esc : Text} (hesc : '=' ∉ esc) (hlen : 2 ≤ esc.length) (c : Char)
    (h : Spells t s r) : Spells (esc ++ t) (c :: s) r := by
  obtain ⟨hequals, hlength, -⟩ := h
  refine ⟨?_, ?_, fun hsame => ?_⟩
  · rw [List.count_append, List.count_eq_zero_of_not_mem hesc, List.count_cons]
    omega
  · simp only [List.length_append, List.length_cons]
    omega
  · simp only [List.length_append, List.length_cons] at hsame
    omega

end Spells

theorem spells_of_readBasic (t : Text) : ∀ {s r : Text}, readBasic t = some (s, r) → Spells t s r := by
  induction t using readBasic.induct with
  | case1 =>
    intro s r h
    rw [readBasic] at h
    cases h
  | case2 t =>
    intro s r h
    rw [readBasic.eq_def] at h
    cases h
    exact .close t
  | case3 d1 d2 d3 d4 t _ ih =>
    intro s r h
    rw [readBasic.eq_def] at h
    obtain ⟨c, hc, h⟩ := Option.bind_eq_some_iff.1 h
    obtain ⟨⟨s', r'⟩, hread, h⟩ := Option.bind_eq_some_iff.1 h
    cases h
    have hesc : '=' ∉ ['\\', 'u', d1, d2, d3, d4] := by
      simpa using equals_not_mem_hex hc
    exact (ih hread).escape hesc (by simp) c
  | case4 d1 d2 d3 d4 d5 d6 d7 d8 t _ ih =>
    intro s r h
    rw [readBasic.eq_def] at h
    obtain ⟨c, hc, h⟩ := Option.bind_eq_some_iff.1 h
    obtain ⟨⟨s', r'⟩, hread, h⟩ := Option.bind_eq_some_iff.1 h
    cases h
    have hesc : '=' ∉ ['\\', 'U', d1, d2, d3, d4, d5, d6, d7, d8] := by
      simpa using equals_not_mem_hex hc
    exact (ih hread).escape hesc (by simp) c
  | case5 e t hu hU _ ih =>
    intro s r h
    rw [readBasic.eq_def] at h
    simp only [if_neg (by decide : ¬ '\\' = '"'), if_true] at h
    obtain ⟨c, hc, h⟩ := Option.bind_eq_some_iff.1 h
    obtain ⟨⟨s', r'⟩, hread, h⟩ := Option.bind_eq_some_iff.1 h
    cases h
    have hesc : '=' ∉ ['\\', e] := by
      simp only [List.mem_cons, List.not_mem_nil, or_false, not_or]
      refine ⟨by decide, ?_⟩
      rintro rfl
      cases hc
    exact (ih hread).escape hesc le_rfl c
  | case6 =>
    intro s r h
    rw [readBasic.eq_def] at h
    cases h
  | case7 c t hq hb hc ih =>
    intro s r h
    rw [readBasic.eq_def] at h
    simp only [if_neg hq, if_neg hb, if_pos hc] at h
    obtain ⟨⟨s', r'⟩, hread, h⟩ := Option.bind_eq_some_iff.1 h
    cases h
    exact (ih hread).char hq hb hc
  | case8 c t hq hb hc =>
    intro s r h
    rw [readBasic.eq_def] at h
    simp only [if_neg hq, if_neg hb, if_neg hc] at h
    cases h

end Toml
