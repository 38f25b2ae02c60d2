import AxvisorTools.Harness.ScanSpec
import AxvisorTools.Text.Proof.Matches

/-!
# What is left of a line

`strip_line_for_scan` cuts a line at its first `//` and empties its strings. `sub_quoted` takes the
substitution apart, and `found_stripLine_iff` says which symbols are left.
-/

namespace Harness.StaticScan

open Py Regex

variable {c : Char} {body t rest b x l : Text} {g : List (Nat × Text)} {r : Re}

/-! ## Strings -/

/-- The text between the quotes of a string. -/
inductive Body : Text → Prop
  | nil : Body []
  | escape {c : Char} {t : Text} (hc : c ≠ '\n') (h : Body t) : Body ('\\' :: c :: t)
  | char {c : Char} {t : Text} (hc : c ≠ '"' ∧ c ≠ '\\') (h : Body t) : Body (c :: t)

theorem closeQuote_char (hc : c ≠ '"' ∧ c ≠ '\\') (t : Text) :
    closeQuote (c :: t) = (closeQuote t).map fun r => (c :: r.1, r.2) := by
  rw [closeQuote.eq_def]
  split
  · next h => cases h
  · next h => exact absurd (List.cons.inj h).1 hc.1
  · next h => exact absurd (List.cons.inj h).1 hc.2
  · next h => exact absurd (List.cons.inj h).1 hc.2
  · next h =>
    obtain ⟨rfl, rfl⟩ := List.cons.inj h
    rfl

theorem closeQuote_body (h : Body body) (rest : Text) :
    closeQuote (body ++ '"' :: rest) = some (body, rest) := by
  induction h with
  | nil => rfl
  | escape hc _ ih => rw [List.cons_append, List.cons_append, closeQuote, if_neg hc, ih]; rfl
  | char hc _ ih => rw [List.cons_append, closeQuote_char hc, ih]; rfl

theorem body_of_closeQuote : ∀ {t body rest : Text}, closeQuote t = some (body, rest) →
    Body body ∧ t = body ++ '"' :: rest := by
  intro t
  fun_induction closeQuote t with
  | case1 => exact fun h => nomatch h
  | case2 t =>
    intro body rest h
    cases h
    exact ⟨.nil, rfl⟩
  | case3 => exact fun h => nomatch h
  | case4 => exact fun h => nomatch h
  | case5 c t hc ih =>
    intro body rest h
    obtain ⟨r, hr, he⟩ := Option.map_eq_some_iff.1 h
    cases he
    obtain ⟨hbody, rfl⟩ := ih hr
    exact ⟨.escape hc hbody, rfl⟩
  | case6 c t h1 h2 h3 ih =>
    intro body rest h
    obtain ⟨r, hr, he⟩ := Option.map_eq_some_iff.1 h
    cases he
    have hslash : c ≠ '\\' := by
      intro hc
      cases t with
      | nil => exact h2 hc rfl
      | cons d t => exact h3 d t hc rfl
    obtain ⟨hbody, rfl⟩ := ih hr
    exact ⟨.char ⟨h1, hslash⟩ hbody, rfl⟩

theorem closeQuote_iff :
    closeQuote t = some (body, rest) ↔ Body body ∧ t = body ++ '"' :: rest := by
  constructor
  · exact body_of_closeQuote
  · rintro ⟨hbody, rfl⟩
    exact closeQuote_body hbody rest

theorem matches_quotedChar_iff {y : Text} :
    Matches (.alt (.seq (lit ['\\']) dot) (.one fun c => c != '"' && c != '\\')) b x y g ↔
      g = [] ∧ ((∃ c, c ≠ '\n' ∧ x = ['\\', c]) ∨ ∃ c, (c ≠ '"' ∧ c ≠ '\\') ∧ x = [c]) := by
  simp only [matches_alt_iff, matches_seq_iff, matches_lit_iff, dot, matches_one_iff, bne_iff_ne,
    Bool.and_eq_true]
  constructor
  · rintro (⟨_, _, _, _, rfl, rfl, ⟨rfl, rfl⟩, c, hc, rfl, rfl⟩ | ⟨c, hc, rfl, rfl⟩)
    · exact ⟨rfl, .inl ⟨c, hc, rfl⟩⟩
    · exact ⟨rfl, .inr ⟨c, hc, rfl⟩⟩
  · rintro ⟨rfl, ⟨c, hc, rfl⟩ | ⟨c, hc, rfl⟩⟩
    · exact .inl ⟨_, _, [], [], rfl, rfl, ⟨rfl, rfl⟩, c, hc, rfl, rfl⟩
    · exact .inr ⟨c, hc, rfl, rfl⟩

theorem matches_body_iff {y : Text} :
    Matches (.star true (.alt (.seq (lit ['\\']) dot) (.one fun c => c != '"' && c != '\\'))) b x y g ↔
      g = [] ∧ Body x := by
  constructor
  · intro h
    generalize hn : x.length = n
    induction n using Nat.strong_induction_on generalizing b x g with
    | _ n ih =>
      rcases matches_star_iff.1 h with ⟨rfl, rfl⟩ | ⟨u, v, gu, gv, hu, rfl, rfl, hhead, htail⟩
      · exact ⟨rfl, .nil⟩
      · have hlen : v.length < n := by
          have := List.length_pos_of_ne_nil hu
          rw [← hn, List.length_append]
          omega
        obtain ⟨rfl, hv⟩ := ih v.length hlen htail rfl
        obtain ⟨rfl, ⟨c, hc, rfl⟩ | ⟨c, hc, rfl⟩⟩ := matches_quotedChar_iff.1 hhead
        · exact ⟨rfl, .escape hc hv⟩
        · exact ⟨rfl, .char hc hv⟩
  · rintro ⟨rfl, h⟩
    induction h generalizing b with
    | nil => exact .starNil ..
    | @escape c t hc _ ih =>
      exact .starCons (x := ['\\', c]) (g := []) (List.cons_ne_nil _ _)
        (matches_quotedChar_iff.2 ⟨rfl, .inl ⟨c, hc, rfl⟩⟩) ih
    | @char c t hc _ ih =>
      exact .starCons (x := [c]) (g := []) (List.cons_ne_nil _ _)
        (matches_quotedChar_iff.2 ⟨rfl, .inr ⟨c, hc, rfl⟩⟩) ih

theorem matches_quoted_iff {y : Text} :
    Matches quoted b x y g ↔ g = [] ∧ ∃ body, Body body ∧ x = '"' :: (body ++ ['"']) := by
  simp only [quoted, matches_seq_iff, matches_lit_iff, matches_body_iff]
  constructor
  · rintro ⟨_, _, _, _, rfl, rfl, ⟨rfl, rfl⟩, body, _, _, _, rfl, rfl, ⟨rfl, hbody⟩, rfl, rfl⟩
    exact ⟨rfl, body, hbody, rfl⟩
  · rintro ⟨rfl, body, hbody, rfl⟩
    exact ⟨_, _, [], [], rfl, rfl, ⟨rfl, rfl⟩, body, _, [], [], rfl, rfl, ⟨rfl, hbody⟩, rfl, rfl⟩

theorem mem_run_quoted {after : Text} {e : Pos} (h : e ∈ run quoted ⟨b, after, []⟩) :
    ∃ t body rest, after = '"' :: t ∧ closeQuote t = some (body, rest) ∧
      e = ⟨('"' :: (body ++ ['"'])).reverse ++ b, rest, []⟩ := by
  obtain ⟨x, rest, g, hafter, hm, rfl⟩ := (mem_run_iff quoted _ e).1 h
  obtain ⟨rfl, body, hbody, rfl⟩ := matches_quoted_iff.1 hm
  have hafter : after = '"' :: (body ++ ['"']) ++ rest := hafter
  rw [hafter]
  exact ⟨body ++ '"' :: rest, body, rest, by simp, closeQuote_body hbody rest, rfl⟩

theorem searchFrom_quoted_nil (b : Text) : searchFrom quoted b [] = none := by
  have hrun : run quoted ⟨b, [], []⟩ = [] := by
    refine List.eq_nil_iff_forall_not_mem.2 fun e he => ?_
    obtain ⟨t, _, _, ht, -⟩ := mem_run_quoted he
    cases ht
  exact searchFrom_end hrun

theorem searchFrom_quoted_char (b : Text) (hc : c = '"' → closeQuote t = none) :
    searchFrom quoted b (c :: t) = searchFrom quoted (c :: b) t := by
  have hrun : run quoted ⟨b, c :: t, []⟩ = [] := by
    refine List.eq_nil_iff_forall_not_mem.2 fun e he => ?_
    obtain ⟨t', _, _, ht, hq, -⟩ := mem_run_quoted he
    obtain ⟨rfl, rfl⟩ := List.cons.inj ht
    rw [hc rfl] at hq
    cases hq
  exact searchFrom_next hrun

theorem searchFrom_quoted_pair (b : Text) (hq : closeQuote t = some (body, rest)) :
    searchFrom quoted b ('"' :: t) =
      some (b.reverse, ⟨('"' :: (body ++ ['"'])).reverse ++ b, rest, []⟩) := by
  have hall : ∀ e ∈ run quoted ⟨b, '"' :: t, []⟩,
      e = ⟨('"' :: (body ++ ['"'])).reverse ++ b, rest, []⟩ := by
    intro e he
    obtain ⟨t', body', rest', ht, hq', rfl⟩ := mem_run_quoted he
    obtain ⟨-, rfl⟩ := List.cons.inj ht
    rw [hq] at hq'
    cases hq'
    rfl
  have hmem : ⟨('"' :: (body ++ ['"'])).reverse ++ b, rest, []⟩ ∈ run quoted ⟨b, '"' :: t, []⟩ := by
    obtain ⟨hbody, rfl⟩ := closeQuote_iff.1 hq
    exact (mem_run_iff quoted _ _).2 ⟨'"' :: (body ++ ['"']), rest, [], by simp,
      matches_quoted_iff.2 ⟨rfl, body, hbody, rfl⟩, rfl⟩
  exact searchFrom_here (head?_of_forall_eq hall hmem)

/-- The line with its strings emptied. -/
def emptied : Text → Text
  | [] => []
  | c :: t =>
    if c = '"' then
      match _h : closeQuote t with
      | some (_, rest) => '"' :: '"' :: emptied rest
      | none => c :: emptied t
    else c :: emptied t
  termination_by t => t.length
  decreasing_by
    · obtain ⟨-, ht⟩ := closeQuote_iff.1 _h
      simp [ht]
      omega
    all_goals simp

theorem emptied_char (hc : c = '"' → closeQuote t = none) : emptied (c :: t) = c :: emptied t := by
  rw [emptied]
  split
  · next h =>
    split
    · next hq => rw [hc h] at hq; cases hq
    · rfl
  · rfl

theorem emptied_pair (hq : closeQuote t = some (body, rest)) :
    emptied ('"' :: t) = '"' :: '"' :: emptied rest := by
  rw [emptied, if_pos rfl]
  split
  · next hq' =>
    rw [hq] at hq'
    cases hq'
    rfl
  · next hq' =>
    rw [hq] at hq'
    cases hq'

theorem quote_cases (c : Char) (t : Text) :
    (c = '"' ∧ ∃ body rest, closeQuote t = some (body, rest)) ∨ (c = '"' → closeQuote t = none) := by
  cases hq : closeQuote t with
  | none => exact .inr fun _ => rfl
  | some r =>
    by_cases hc : c = '"'
    · exact .inl ⟨hc, r.1, r.2, rfl⟩
    · exact .inr fun h => absurd h hc

/-- Induction along the strings of a line. -/
theorem emptied_induction {P : Text → Prop} (nil : P [])
    (char : ∀ c t, (c = '"' → closeQuote t = none) → P t → P (c :: t))
    (pair : ∀ t body rest, closeQuote t = some (body, rest) → P rest → P ('"' :: t)) :
    ∀ t, P t := by
  intro t
  generalize hk : t.length = k
  induction k using Nat.strong_induction_on generalizing t with
  | _ k ih =>
    cases t with
    | nil => exact nil
    | cons c t =>
      rw [List.length_cons] at hk
      rcases quote_cases c t with ⟨rfl, body, rest, hq⟩ | hc
      · have hrest : rest.length < k := by
          obtain ⟨-, rfl⟩ := closeQuote_iff.1 hq
          simp only [List.length_append, List.length_cons] at hk
          omega
        exact pair t body rest hq (ih rest.length hrest rest rfl)
      · exact char c t hc (ih t.length (by omega) t rfl)

theorem subFrom_next {repl before : Text} (fuel : Nat)
    (h : searchFrom r before (c :: t) = searchFrom r (c :: before) t) :
    Re.subFrom r repl (fuel + 1) before (c :: t) = c :: Re.subFrom r repl (fuel + 1) (c :: before) t := by
  rw [Re.subFrom, Re.subFrom, h]
  cases hs : searchFrom r (c :: before) t with
  | none => rfl
  | some p =>
    obtain ⟨start, e⟩ := p
    obtain ⟨u, a, rfl, rfl, -⟩ := searchFrom_some hs
    have hcopied : ((c :: before).reverse ++ u).drop (c :: before).length = u :=
      List.drop_left' List.length_reverse
    have hnow : ((c :: before).reverse ++ u).drop before.length = c :: u := by
      rw [List.reverse_cons, List.append_assoc]
      exact List.drop_left' List.length_reverse
    simp only [hcopied, hnow, List.cons_append]

theorem subFrom_quoted (t : Text) : ∀ (n : Nat) (b : Text), t.length < n →
    Re.subFrom quoted ['"', '"'] n b t = emptied t := by
  induction t using emptied_induction with
  | nil =>
    intro n b hn
    obtain ⟨n, rfl⟩ := Nat.exists_eq_succ_of_ne_zero (Nat.ne_zero_of_lt hn)
    rw [Re.subFrom, searchFrom_quoted_nil, emptied]
  | char c t hc ih =>
    intro n b hn
    rw [List.length_cons] at hn
    obtain ⟨n, rfl⟩ := Nat.exists_eq_succ_of_ne_zero (Nat.ne_zero_of_lt hn)
    rw [emptied_char hc, subFrom_next n (searchFrom_quoted_char b hc), ih (n + 1) _ (by omega)]
  | pair t body rest hq ih =>
    intro n b hn
    obtain ⟨n, rfl⟩ := Nat.exists_eq_succ_of_ne_zero (Nat.ne_zero_of_lt hn)
    have hrest : rest.length < n := by
      obtain ⟨-, rfl⟩ := closeQuote_iff.1 hq
      simp only [List.length_append, List.length_cons] at hn
      omega
    have hlen : (('"' :: (body ++ ['"'])).reverse ++ b).length ≠ b.reverse.length := by
      simp only [List.length_append, List.length_reverse, List.length_cons]
      omega
    rw [emptied_pair hq, Re.subFrom, searchFrom_quoted_pair b hq]
    simp only [if_neg hlen, ih n _ hrest]
    simp

theorem sub_quoted (t : Text) : Re.sub quoted ['"', '"'] t = emptied t :=
  subFrom_quoted t (t.length + 1) [] (Nat.lt_succ_self _)

/-! ## What stays -/

theorem Outside.cons (hc : c = '"' → closeQuote l = none) (h : Outside l t) :
    Outside (c :: l) t := by
  induction h with
  | start => exact .char .start hc
  | char _ hd ih => exact .char ih hd
  | pair _ hq ih => exact .pair ih hq

theorem Outside.append (hq : closeQuote l = some (body, rest)) (h : Outside rest t) :
    Outside ('"' :: l) t := by
  induction h with
  | start => exact .pair .start hq
  | char _ hd ih => exact .char ih hd
  | pair _ hq' ih => exact .pair ih hq'

theorem head?_emptied (t : Text) : (emptied t).head? = t.head? := by
  cases t with
  | nil => rw [emptied]
  | cons c t =>
    rcases quote_cases c t with ⟨rfl, body, rest, hq⟩ | hc
    · rw [emptied_pair hq]
      rfl
    · rw [emptied_char hc]
      rfl

theorem emptied_append (hx : '"' ∉ x) (y : Text) : emptied (x ++ y) = x ++ emptied y := by
  induction x with
  | nil => rfl
  | cons c x ih =>
    rw [List.mem_cons, not_or] at hx
    rw [List.cons_append, emptied_char fun h => absurd h.symm hx.1, ih hx.2, List.cons_append]

/-- What is left without quotes stands in the line as it is. -/
theorem exists_of_emptied (hx : '"' ∉ x) : ∀ {t z : Text}, emptied t = x ++ z →
    ∃ y, t = x ++ y ∧ emptied y = z := by
  induction x with
  | nil => exact fun h => ⟨_, rfl, h⟩
  | cons d x ih =>
    intro t z h
    rw [List.mem_cons, not_or] at hx
    cases t with
    | nil =>
      rw [emptied] at h
      cases h
    | cons c t =>
      rcases quote_cases c t with ⟨rfl, body, rest, hq⟩ | hc
      · rw [emptied_pair hq] at h
        exact absurd (List.cons.inj h).1 hx.1
      · rw [emptied_char hc] at h
        obtain ⟨rfl, htail⟩ := List.cons.inj h
        obtain ⟨y, rfl, hy⟩ := ih hx.2 htail
        exact ⟨y, rfl, hy⟩

/-- A place outside of the strings: `t` stands behind `a` in the line, and what is left of it behind
`b`, after the same character. -/
structure Aligned (l a b t : Text) : Prop where
  outside : Outside l t
  line : l = a ++ t
  left : emptied l = b ++ emptied t
  last : a.getLast? = b.getLast?

theorem Outside.aligned (h : Outside l t) : ∃ a b, Aligned l a b t := by
  induction h with
  | start => exact ⟨[], [], .start, rfl, rfl, rfl⟩
  | @char c t h hc ih =>
    obtain ⟨a, b, -, ha, hb, -⟩ := ih
    exact ⟨a ++ [c], b ++ [c], .char h hc, by rw [ha]; simp, by rw [hb, emptied_char hc]; simp,
      by simp⟩
  | @pair t body rest h hq ih =>
    obtain ⟨a, b, -, ha, hb, -⟩ := ih
    refine ⟨a ++ '"' :: body ++ ['"'], b ++ ['"'] ++ ['"'], .pair h hq, ?_, ?_, ?_⟩
    · obtain ⟨-, rfl⟩ := closeQuote_iff.1 hq
      rw [ha]
      simp
    · rw [hb, emptied_pair hq]
      simp
    · rw [List.getLast?_concat, List.getLast?_concat]

theorem aligned_of_emptied (hx : '"' ∉ x) (hne : x ≠ []) (l : Text) :
    ∀ {b z : Text}, emptied l = b ++ (x ++ z) → ∃ a t, Aligned l a b t ∧ emptied t = x ++ z := by
  obtain ⟨d, x', rfl⟩ := List.exists_cons_of_ne_nil hne
  have hd : d ≠ '"' := fun h => hx (h ▸ List.mem_cons_self)
  induction l using emptied_induction with
  | nil =>
    intro b z h
    rw [emptied] at h
    simp at h
  | char c t hc ih =>
    intro b z h
    cases b with
    | nil => exact ⟨[], c :: t, ⟨.start, rfl, rfl, rfl⟩, h⟩
    | cons e b =>
      rw [emptied_char hc] at h
      obtain ⟨rfl, htail⟩ := List.cons.inj h
      obtain ⟨a, u, ⟨ho, hline, hleft, hlast⟩, hu⟩ := ih htail
      refine ⟨c :: a, u, ⟨ho.cons hc, by rw [hline]; rfl, by rw [emptied_char hc, hleft]; rfl, ?_⟩, hu⟩
      rw [List.getLast?_cons, List.getLast?_cons, hlast]
  | pair t body rest hq ih =>
    intro b z h
    rw [emptied_pair hq] at h
    match b, h with
    | [], h => exact absurd (List.cons.inj h).1.symm hd
    | [_], h => exact absurd (List.cons.inj (List.cons.inj h).2).1.symm hd
    | _ :: _ :: b, h =>
      obtain ⟨rfl, htail⟩ := List.cons.inj h
      obtain ⟨rfl, hrest⟩ := List.cons.inj htail
      obtain ⟨a, u, ⟨ho, hline, hleft, hlast⟩, hu⟩ := ih hrest
      have hpair := hq
      obtain ⟨-, rfl⟩ := closeQuote_iff.1 hq
      refine ⟨'"' :: (body ++ '"' :: a), u, ⟨ho.append hpair, by rw [hline]; simp, ?_, ?_⟩, hu⟩
      · rw [emptied_pair hpair, hleft]
        rfl
      · simp [List.getLast?_cons, List.getLast?_append, hlast]

theorem Aligned.matches_iff {a : Text} (h : Aligned l a b t) (hquote : Avoids '"' r) :
    (∃ z g, emptied t = x ++ z ∧ Matches r b.reverse x z g) ↔
      ∃ y g, t = x ++ y ∧ Matches r a.reverse x y g := by
  have hhead : a.reverse.head? = b.reverse.head? := by
    rw [List.head?_reverse, List.head?_reverse, h.last]
  constructor
  · rintro ⟨z, g, ht, hm⟩
    obtain ⟨y, hy, rfl⟩ := exists_of_emptied (hm.not_mem hquote) ht
    exact ⟨y, g, hy, hm.congr (fun _ => rfl) (blind_eq r) hhead.symm (head?_emptied y)⟩
  · rintro ⟨y, g, ht, hm⟩
    refine ⟨emptied y, g, by rw [ht, emptied_append (hm.not_mem hquote)], ?_⟩
    exact hm.congr (fun _ => rfl) (blind_eq r) hhead (head?_emptied y).symm

/-- **What a search finds in the emptied line**: a match that starts outside of the strings. -/
theorem found_emptied_iff (hquote : Avoids '"' r) (hne : Holds (fun _ => True) r) (l : Text) :
    found r (emptied l) = true ↔
      ∃ a x y g, l = a ++ (x ++ y) ∧ Matches r a.reverse x y g ∧ Outside l (x ++ y) := by
  rw [found_iff_matches]
  constructor
  · rintro ⟨b, x, z, g, hl, hm⟩
    have hx : x ≠ [] := by
      obtain ⟨c, hc, -⟩ := hne.exists_mem hm
      exact List.ne_nil_of_mem hc
    obtain ⟨a, t, hp, ht⟩ := aligned_of_emptied (hm.not_mem hquote) hx l hl
    obtain ⟨y, g, rfl, hm⟩ := (hp.matches_iff hquote).1 ⟨z, g, ht, hm⟩
    exact ⟨a, x, y, g, hp.line, hm, hp.outside⟩
  · rintro ⟨a, x, y, g, hal, hm, ho⟩
    obtain ⟨a', b, hp⟩ := ho.aligned
    obtain rfl : a' = a := List.append_cancel_right (hp.line.symm.trans hal)
    obtain ⟨z, g, hz, hm⟩ := (hp.matches_iff hquote).2 ⟨y, g, rfl, hm⟩
    exact ⟨b, x, z, g, by rw [hp.left, hz], hm⟩

/-! ## Comments -/

theorem cutComment_append (l : Text) :
    ∃ z, l = cutComment l ++ z ∧ (z.head? = none ∨ z.head? = some '/') := by
  fun_induction cutComment l with
  | case1 => exact ⟨[], rfl, .inl rfl⟩
  | case2 t => exact ⟨'/' :: '/' :: t, rfl, .inr rfl⟩
  | case3 c t _ ih =>
    obtain ⟨z, hz, hhead⟩ := ih
    exact ⟨z, congrArg (c :: ·) hz, hhead⟩

/-- Neighbours of a match that a word boundary treats alike: the end of the text is no word
character, and neither is the slash of a comment. -/
def SameEdge (o o' : Option Char) : Prop :=
  o = o' ∨ (o = none ∨ o = some '/') ∧ (o' = none ∨ o' = some '/')

/-- What the scan relies on: the symbols have no quotes and are not blank, and their boundaries do
not care about slashes. -/
structure Symbol (r : Re) : Prop where
  avoids : Avoids '"' r
  blind : Blind SameEdge r
  solid : Holds (fun c => Re.isWhite c = false) r

theorem sameEdge_append {y z : Text} (hz : z.head? = none ∨ z.head? = some '/') :
    SameEdge y.head? (y ++ z).head? := by
  cases y with
  | nil => exact .inr ⟨.inl rfl, hz⟩
  | cons c y => exact .inl rfl

theorem SameEdge.symm {o o' : Option Char} (h : SameEdge o o') : SameEdge o' o :=
  h.imp Eq.symm And.symm

theorem not_found_nil (h : Symbol r) : found r [] = false := by
  rw [Bool.eq_false_iff]
  intro hfound
  obtain ⟨a, x, y, g, hnil, hm⟩ := (found_iff_matches r []).1 hfound
  obtain ⟨c, hc, -⟩ := h.solid.exists_mem hm
  have hmem : c ∈ a ++ (x ++ y) := List.mem_append_right a (List.mem_append_left y hc)
  rw [← hnil] at hmem
  cases hmem

/-- A visible match is one in front of the comment. -/
theorem visibleAt_iff (h : Symbol r) {a : Text} :
    VisibleAt r l a x ↔ isCommentLine l = false ∧ ∃ y g, cutComment l = a ++ (x ++ y) ∧
      Matches r a.reverse x y g ∧ Outside (cutComment l) (x ++ y) := by
  obtain ⟨z, hz, hhead⟩ := cutComment_append l
  refine and_congr_right fun _ => ?_
  constructor
  · rintro ⟨y, g, hal, hm, ⟨y', hcut⟩, ho⟩
    rw [List.append_assoc] at hcut
    rw [← hcut, List.drop_left] at ho
    have hy : y = y' ++ z := by
      rw [hz, ← hcut, List.append_assoc, List.append_assoc] at hal
      exact (List.append_cancel_left (List.append_cancel_left hal)).symm
    refine ⟨y', g, hcut.symm, ?_, hcut ▸ ho⟩
    rw [hy] at hm
    exact hm.congr (fun _ => .inl rfl) h.blind (.inl rfl) (sameEdge_append hhead).symm
  · rintro ⟨y, g, hcut, hm, ho⟩
    refine ⟨y ++ z, g, by rw [hz, hcut]; simp, ?_, ⟨y, by rw [hcut]; simp⟩, ?_⟩
    · exact hm.congr (fun _ => .inl rfl) h.blind (.inl rfl) (sameEdge_append hhead)
    · rw [hcut] at ho ⊢
      rwa [List.drop_left]

theorem visible_iff : Visible r l ↔ ∃ a x, VisibleAt r l a x := by
  constructor
  · rintro ⟨hcomment, a, x, y, g, h⟩
    exact ⟨a, x, hcomment, y, g, h⟩
  · rintro ⟨a, x, hcomment, y, g, h⟩
    exact ⟨hcomment, a, x, y, g, h⟩

theorem stripLine_eq (hl : '\n' ∉ l) :
    stripLineForScan l = if isCommentLine l then [] else emptied (cutComment l) := by
  have hraw : l.rdropWhile (· == '\n') = l := by
    refine List.rdropWhile_eq_self_iff.2 fun hne hlast => hl ?_
    rw [← beq_iff_eq.1 hlast]
    exact List.getLast_mem hne
  rw [stripLineForScan, hraw, sub_quoted]

/-- **The symbols left in a line are the visible ones.** -/
theorem found_stripLine_iff (h : Symbol r) (hl : '\n' ∉ l) :
    found r (stripLineForScan l) = true ↔ Visible r l := by
  have hne : Holds (fun _ => True) r :=
    ⟨fun hm => (h.solid.exists_mem hm).imp fun _ hc => ⟨hc.1, trivial⟩⟩
  simp only [stripLine_eq hl, visible_iff, visibleAt_iff h]
  cases isCommentLine l with
  | true => simp [not_found_nil h]
  | false => simp [found_emptied_iff h.avoids hne]

end Harness.StaticScan
