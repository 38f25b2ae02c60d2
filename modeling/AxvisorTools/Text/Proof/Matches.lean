import AxvisorTools.Text.Proof.Grep

/-!
# The matcher and the matching relation

`mem_run_iff`: the places `run` lists are exactly the ends of the matches that `Matches` admits. By
`Matches.congr` a match stays one when the texts around it change out of its sight; `Matches.not_mem`
and `Holds` tell what characters it has; `search_append` gives the first match of a search.
-/

namespace Regex

variable {y b t : Text} {r : Re} {greedy : Bool} {p : Char → Bool} {c : Char}
  {g : List (Nat × Text)} {e : Pos}

/-- The end of a match of `x` that starts at `s`. -/
def Pos.past (s : Pos) (x y : Text) (g : List (Nat × Text)) : Pos :=
  ⟨x.reverse ++ s.before, y, g ++ s.groups⟩

theorem Pos.past_past (s : Pos) (x x' y z : Text) (g g' : List (Nat × Text)) :
    (s.past x z g).past x' y g' = s.past (x ++ x') y (g' ++ g) := by
  simp [Pos.past]

theorem Pos.past_nil {s : Pos} (h : s.after = y) : s.past [] y [] = s := by
  subst h
  rfl

/-- What it takes for the places of an expression to be the ends of its matches. -/
def Exact (r : Re) : Prop :=
  ∀ s e, e ∈ run r s ↔ ∃ x y g, s.after = x ++ y ∧ Matches r s.before x y g ∧ e = s.past x y g

theorem exact_one (p : Char → Bool) : Exact (.one p) := by
  intro ⟨b, a, g⟩ e
  constructor
  · intro he
    cases a with
    | nil => simp [run] at he
    | cons c a =>
      by_cases hc : p c
      · have : e = Pos.move ⟨b, c :: a, g⟩ 1 := by simpa [run, hc] using he
        exact ⟨[c], a, [], rfl, .one b a hc, this⟩
      · simp [run, hc] at he
  · rintro ⟨x, y, g', ha, hm, rfl⟩
    cases hm with
    | one _ _ hc =>
      cases ha
      simp [run, hc, Pos.move, Pos.past]

theorem exact_seq {r' : Re} (h : Exact r) (h' : Exact r') : Exact (.seq r r') := by
  intro s e
  simp only [run, List.mem_flatMap]
  constructor
  · rintro ⟨t, ht, he⟩
    obtain ⟨x, z, g, ha, hm, rfl⟩ := (h s t).1 ht
    obtain ⟨x', y, g', hz, hm', rfl⟩ := (h' _ e).1 he
    have hz : z = x' ++ y := hz
    subst hz
    exact ⟨x ++ x', y, g' ++ g, by rw [ha, List.append_assoc], .seq hm hm', s.past_past ..⟩
  · rintro ⟨_, y, _, ha, hm, rfl⟩
    cases hm with
    | @seq _ _ _ x x' _ g g' hm hm' =>
      refine ⟨s.past x (x' ++ y) g, (h s _).2 ⟨x, _, g, by rw [ha, List.append_assoc], hm, rfl⟩, ?_⟩
      exact (h' _ _).2 ⟨x', y, g', rfl, hm', (s.past_past ..).symm⟩

theorem mem_rounds_iff (h : Exact r) (n : Nat) :
    ∀ s : Pos, s.after.length ≤ n → ∀ e, e ∈ rounds greedy (run r) n s ↔
      ∃ x y g, s.after = x ++ y ∧ Matches (.star greedy r) s.before x y g ∧ e = s.past x y g := by
  induction n with
  | zero =>
    intro s hn e
    have hs : s.after = [] := List.length_eq_zero_iff.1 (Nat.le_zero.1 hn)
    rw [rounds, List.mem_singleton, hs]
    constructor
    · intro he
      exact ⟨[], [], [], rfl, .starNil .., he.trans (Pos.past_nil hs).symm⟩
    · rintro ⟨x, y, g, hxy, hm, rfl⟩
      obtain ⟨rfl, rfl⟩ := List.append_eq_nil_iff.1 hxy.symm
      generalize hx : ([] : Text) = x at hm
      cases hm with
      | starNil => exact Pos.past_nil hs
      | starCons hne _ _ => exact absurd (List.append_eq_nil_iff.1 hx.symm).1 hne
  | succ n ih =>
    intro s hn e
    -- the last round ends here, or one more round moves on
    have hmore : e ∈ rounds greedy (run r) (n + 1) s ↔ e = s ∨ ∃ t ∈ run r s,
        t.after.length < s.after.length ∧ e ∈ rounds greedy (run r) n t := by
      rw [rounds]
      cases greedy <;> simp [List.mem_flatMap, and_assoc, or_comm]
    rw [hmore]
    constructor
    · rintro (rfl | ⟨t, ht, hlt, he⟩)
      · exact ⟨[], e.after, [], rfl, .starNil .., rfl⟩
      · obtain ⟨x, z, g, ha, hm, rfl⟩ := (h s t).1 ht
        obtain ⟨x', y, g', hz, hm', rfl⟩ := (ih _ (by omega) e).1 he
        have hx : x ≠ [] := by
          rintro rfl
          rw [ha] at hlt
          exact absurd hlt (Nat.lt_irrefl _)
        have hz : z = x' ++ y := hz
        subst hz
        exact ⟨x ++ x', y, g' ++ g, by rw [ha, List.append_assoc], .starCons hx hm hm',
          s.past_past ..⟩
    · rintro ⟨_, y, _, ha, hm, rfl⟩
      cases hm with
      | starNil => exact .inl (Pos.past_nil ha)
      | @starCons _ _ _ x x' _ g g' hx hm hm' =>
        have ha' : s.after = x ++ (x' ++ y) := by rw [ha, List.append_assoc]
        have hlt : (s.past x (x' ++ y) g).after.length < s.after.length := by
          rw [ha']
          simpa [Pos.past] using List.length_pos_of_ne_nil hx
        refine .inr ⟨s.past x (x' ++ y) g, (h s _).2 ⟨x, _, g, ha', hm, rfl⟩, hlt, ?_⟩
        exact (ih _ (by omega) _).2 ⟨x', y, g', rfl, hm', (s.past_past ..).symm⟩

/-- **The places that `run` lists are the ends of the matches.** -/
theorem mem_run_iff : ∀ r : Re, Exact r
  | .eps, s, e => by
    rw [run, List.mem_singleton]
    constructor
    · rintro rfl
      exact ⟨[], e.after, [], rfl, .eps .., rfl⟩
    · rintro ⟨x, y, g, ha, hm, rfl⟩
      cases hm
      exact Pos.past_nil ha
  | .one p, s, e => exact_one p s e
  | .seq r r', s, e => exact_seq (mem_run_iff r) (mem_run_iff r') s e
  | .alt r r', s, e => by
    rw [run, List.mem_append, mem_run_iff r, mem_run_iff r']
    constructor
    · rintro (⟨x, y, g, ha, hm, he⟩ | ⟨x, y, g, ha, hm, he⟩)
      · exact ⟨x, y, g, ha, .altLeft hm, he⟩
      · exact ⟨x, y, g, ha, .altRight hm, he⟩
    · rintro ⟨x, y, g, ha, hm, he⟩
      cases hm with
      | altLeft hm => exact .inl ⟨x, y, g, ha, hm, he⟩
      | altRight hm => exact .inr ⟨x, y, g, ha, hm, he⟩
  | .star greedy r, s, e => by
    rw [run]
    exact mem_rounds_iff (mem_run_iff r) _ s le_rfl e
  | .look p, s, e => by
    rw [run]
    constructor
    · intro he
      split at he
      · rename_i hp
        rw [List.mem_singleton] at he
        exact ⟨[], s.after, [], rfl, .look hp, he⟩
      · cases he
    · rintro ⟨x, y, g, ha, hm, rfl⟩
      cases hm with
      | look hp =>
        have ha : s.after = y := ha
        rw [ha, if_pos hp, List.mem_singleton]
        exact Pos.past_nil ha
  | .group n r, s, e => by
    simp only [run, List.mem_map]
    constructor
    · rintro ⟨t, ht, rfl⟩
      obtain ⟨x, y, g, ha, hm, rfl⟩ := (mem_run_iff r s t).1 ht
      exact ⟨x, y, (n, x) :: g, ha, .group hm, by simp [Pos.past]⟩
    · rintro ⟨x, y, g, ha, hm, rfl⟩
      cases hm with
      | @group _ _ _ _ _ g hm =>
        exact ⟨s.past x y g, (mem_run_iff r s _).2 ⟨x, y, g, ha, hm, rfl⟩, by simp [Pos.past]⟩

/-! ## Matches of single expressions -/

section

variable {b x y : Text} {g : List (Nat × Text)}

theorem matches_eps_iff : Matches .eps b x y g ↔ x = [] ∧ g = [] := by
  constructor
  · intro h
    cases h
    exact ⟨rfl, rfl⟩
  · rintro ⟨rfl, rfl⟩
    exact .eps b y

theorem matches_one_iff : Matches (.one p) b x y g ↔ ∃ c, p c = true ∧ x = [c] ∧ g = [] := by
  constructor
  · intro h
    cases h with
    | one _ _ hc => exact ⟨_, hc, rfl, rfl⟩
  · rintro ⟨c, hc, rfl, rfl⟩
    exact .one b y hc

theorem matches_seq_iff {r' : Re} : Matches (.seq r r') b x y g ↔
    ∃ u v gu gv, x = u ++ v ∧ g = gv ++ gu ∧ Matches r b u (v ++ y) gu ∧
      Matches r' (u.reverse ++ b) v y gv := by
  constructor
  · intro h
    cases h with
    | seq h h' => exact ⟨_, _, _, _, rfl, rfl, h, h'⟩
  · rintro ⟨u, v, gu, gv, rfl, rfl, h, h'⟩
    exact .seq h h'

theorem matches_alt_iff {r' : Re} :
    Matches (.alt r r') b x y g ↔ Matches r b x y g ∨ Matches r' b x y g := by
  constructor
  · intro h
    cases h with
    | altLeft h => exact .inl h
    | altRight h => exact .inr h
  · rintro (h | h)
    · exact .altLeft h
    · exact .altRight h

theorem matches_look_iff {p : Option Char → Option Char → Bool} :
    Matches (.look p) b x y g ↔ p b.head? y.head? = true ∧ x = [] ∧ g = [] := by
  constructor
  · intro h
    cases h with
    | look h => exact ⟨h, rfl, rfl⟩
  · rintro ⟨h, rfl, rfl⟩
    exact .look h

theorem matches_group_iff {n : Nat} :
    Matches (.group n r) b x y g ↔ ∃ g', g = (n, x) :: g' ∧ Matches r b x y g' := by
  constructor
  · intro h
    cases h with
    | group h => exact ⟨_, rfl, h⟩
  · rintro ⟨g', rfl, h⟩
    exact .group h

theorem matches_lit_iff (t : Text) : Matches (lit t) b x y g ↔ x = t ∧ g = [] := by
  induction t generalizing b x g with
  | nil => exact matches_eps_iff
  | cons c t ih =>
    simp only [lit, matches_seq_iff, matches_one_iff, ih, beq_iff_eq]
    constructor
    · rintro ⟨_, _, _, _, rfl, rfl, ⟨_, rfl, rfl, rfl⟩, rfl, rfl⟩
      exact ⟨rfl, rfl⟩
    · rintro ⟨rfl, rfl⟩
      exact ⟨[c], t, [], [], rfl, rfl, ⟨c, rfl, rfl, rfl⟩, rfl, rfl⟩

theorem matches_star_one_iff :
    Matches (.star greedy (.one p)) b x y g ↔ (∀ c ∈ x, p c = true) ∧ g = [] := by
  constructor
  · intro h
    generalize hr : Re.star greedy (.one p) = r at h
    induction h with
    | starNil => exact ⟨by simp, rfl⟩
    | starCons _ h _ _ ih =>
      cases hr
      obtain ⟨hx, rfl⟩ := ih rfl
      obtain ⟨c, hc, rfl, rfl⟩ := matches_one_iff.1 h
      exact ⟨List.forall_mem_cons.2 ⟨hc, hx⟩, rfl⟩
    | _ => cases hr
  · rintro ⟨h, rfl⟩
    induction x generalizing b with
    | nil => exact .starNil ..
    | cons c x ih =>
      obtain ⟨hc, hx⟩ := List.forall_mem_cons.1 h
      exact .starCons (x := [c]) (List.cons_ne_nil c []) (.one b _ hc) (ih hx)

theorem matches_star_iff : Matches (.star greedy r) b x y g ↔
    (x = [] ∧ g = []) ∨ ∃ u v gu gv, u ≠ [] ∧ x = u ++ v ∧ g = gv ++ gu ∧
      Matches r b u (v ++ y) gu ∧ Matches (.star greedy r) (u.reverse ++ b) v y gv := by
  constructor
  · intro h
    cases h with
    | starNil => exact .inl ⟨rfl, rfl⟩
    | starCons hu h h' => exact .inr ⟨_, _, _, _, hu, rfl, rfl, h, h'⟩
  · rintro (⟨rfl, rfl⟩ | ⟨u, v, gu, gv, hu, rfl, rfl, h, h'⟩)
    · exact .starNil ..
    · exact .starCons hu h h'

end

/-! ## The characters of a match -/

/-- No part of the expression takes the character. -/
def Avoids (c : Char) : Re → Prop
  | .one p => p c = false
  | .seq r r' | .alt r r' => Avoids c r ∧ Avoids c r'
  | .star _ r | .group _ r => Avoids c r
  | .eps | .look _ => True

theorem Matches.not_mem {x : Text} (h : Matches r b x y g) (hr : Avoids c r) : c ∉ x := by
  induction h with
  | eps => exact List.not_mem_nil
  | one _ _ hd =>
    rw [List.mem_singleton]
    rintro rfl
    rw [hr] at hd
    cases hd
  | seq _ _ ih ih' => exact fun hc => (List.mem_append.1 hc).elim (ih hr.1) (ih' hr.2)
  | altLeft _ ih => exact ih hr.1
  | altRight _ ih => exact ih hr.2
  | starNil => exact List.not_mem_nil
  | starCons _ _ _ ih ih' => exact fun hc => (List.mem_append.1 hc).elim (ih hr) (ih' hr)
  | look => exact List.not_mem_nil
  | group _ ih => exact ih hr

theorem avoids_lit (h : c ∉ t) : Avoids c (lit t) := by
  induction t with
  | nil => trivial
  | cons d t ih =>
    rw [List.mem_cons, not_or] at h
    exact ⟨beq_false_of_ne h.1, ih h.2⟩

/-- Every match has a character with the property. -/
structure Holds (q : Char → Prop) (r : Re) : Prop where
  exists_mem : ∀ {b x y g}, Matches r b x y g → ∃ c ∈ x, q c

namespace Holds

variable {q : Char → Prop} {r r' : Re}

theorem one (h : ∀ c, p c = true → q c) : Holds q (.one p) := by
  refine ⟨fun hm => ?_⟩
  obtain ⟨c, hc, rfl, -⟩ := matches_one_iff.1 hm
  exact ⟨c, List.mem_singleton_self c, h c hc⟩

theorem left (h : Holds q r) : Holds q (.seq r r') := by
  refine ⟨fun hm => ?_⟩
  obtain ⟨u, v, _, _, rfl, -, hu, -⟩ := matches_seq_iff.1 hm
  obtain ⟨c, hc, hq⟩ := h.exists_mem hu
  exact ⟨c, List.mem_append_left v hc, hq⟩

theorem right (h : Holds q r') : Holds q (.seq r r') := by
  refine ⟨fun hm => ?_⟩
  obtain ⟨u, v, _, _, rfl, -, -, hv⟩ := matches_seq_iff.1 hm
  obtain ⟨c, hc, hq⟩ := h.exists_mem hv
  exact ⟨c, List.mem_append_right u hc, hq⟩

theorem alt (h : Holds q r) (h' : Holds q r') : Holds q (.alt r r') :=
  ⟨fun hm => (matches_alt_iff.1 hm).elim h.exists_mem h'.exists_mem⟩

theorem group {n : Nat} (h : Holds q r) : Holds q (.group n r) := by
  refine ⟨fun hm => ?_⟩
  obtain ⟨_, -, hm⟩ := matches_group_iff.1 hm
  exact h.exists_mem hm

theorem lit (h : q c) : Holds q (Regex.lit (c :: t)) :=
  left (one fun _ hd => (beq_iff_eq.1 hd) ▸ h)

end Holds

/-! ## The texts around a match -/

/-- The tests of the expression cannot tell apart what `E` relates. -/
def Blind (E : Option Char → Option Char → Prop) : Re → Prop
  | .seq r r' | .alt r r' => Blind E r ∧ Blind E r'
  | .star _ r | .group _ r => Blind E r
  | .look p => ∀ o o' n n', E o o' → E n n' → p o n = p o' n'
  | _ => True

theorem blind_eq : ∀ r : Re, Blind Eq r
  | .eps | .one _ => trivial
  | .seq r r' | .alt r r' => ⟨blind_eq r, blind_eq r'⟩
  | .star _ r | .group _ r => blind_eq r
  | .look _ => fun _ _ _ _ ho hn => by rw [ho, hn]

theorem blind_lit (E : Option Char → Option Char → Prop) (t : Text) : Blind E (lit t) := by
  induction t with
  | nil => trivial
  | cons _ _ ih => exact ⟨trivial, ih⟩

theorem head?_append_congr {E : Option Char → Option Char → Prop} (hE : ∀ o, E o o) (x : Text)
    {y' : Text} (h : E y.head? y'.head?) : E (x ++ y).head? (x ++ y').head? := by
  cases x with
  | nil => exact h
  | cons c x => exact hE _

theorem Matches.congr {E : Option Char → Option Char → Prop} (hE : ∀ o, E o o) {x : Text}
    (h : Matches r b x y g) (hr : Blind E r) :
    ∀ {b' y' : Text}, E b.head? b'.head? → E y.head? y'.head? → Matches r b' x y' g := by
  induction h with
  | eps => exact fun _ _ => .eps ..
  | one _ _ hc => exact fun _ _ => .one _ _ hc
  | seq _ _ ih ih' =>
    intro b' y' hb hy
    exact .seq (ih hr.1 hb (head?_append_congr hE _ hy)) (ih' hr.2 (head?_append_congr hE _ hb) hy)
  | altLeft _ ih => exact fun hb hy => .altLeft (ih hr.1 hb hy)
  | altRight _ ih => exact fun hb hy => .altRight (ih hr.2 hb hy)
  | starNil => exact fun _ _ => .starNil ..
  | starCons hx _ _ ih ih' =>
    intro b' y' hb hy
    exact .starCons hx (ih hr hb (head?_append_congr hE _ hy))
      (ih' hr (head?_append_congr hE _ hb) hy)
  | look hp => exact fun hb hy => .look ((hr _ _ _ _ hb hy).symm.trans hp)
  | group _ ih => exact fun hb hy => .group (ih hr hb hy)

/-! ## Searching -/

theorem run_ne_nil_iff (r : Re) (s : Pos) :
    run r s ≠ [] ↔ ∃ x y g, s.after = x ++ y ∧ Matches r s.before x y g := by
  rw [List.ne_nil_iff_exists_cons]
  constructor
  · rintro ⟨e, es, he⟩
    obtain ⟨x, y, g, ha, hm, -⟩ := (mem_run_iff r s e).1 (he ▸ List.mem_cons_self)
    exact ⟨x, y, g, ha, hm⟩
  · rintro ⟨x, y, g, ha, hm⟩
    exact List.exists_cons_of_ne_nil
      (List.ne_nil_of_mem ((mem_run_iff r s _).2 ⟨x, y, g, ha, hm, rfl⟩))

theorem found_iff_matches (r : Re) (t : Text) :
    found r t = true ↔ ∃ a x y g, t = a ++ (x ++ y) ∧ Matches r a.reverse x y g := by
  simp only [found_iff, run_ne_nil_iff]
  constructor
  · rintro ⟨a, _, rfl, x, y, g, rfl, hm⟩
    exact ⟨a, x, y, g, rfl, hm⟩
  · rintro ⟨a, x, y, g, rfl, hm⟩
    exact ⟨a, x ++ y, rfl, x, y, g, rfl, hm⟩

theorem searchFrom_here {before after : Text} (h : (run r ⟨before, after, []⟩).head? = some e) :
    searchFrom r before after = some (before.reverse, e) := by
  rw [searchFrom.eq_def]
  simp only [h]

theorem searchFrom_next {before : Text} (h : run r ⟨before, c :: t, []⟩ = []) :
    searchFrom r before (c :: t) = searchFrom r (c :: before) t := by
  rw [searchFrom.eq_def]
  simp only [h, List.head?_nil]

theorem searchFrom_end {before : Text} (h : run r ⟨before, [], []⟩ = []) :
    searchFrom r before [] = none := by
  rw [searchFrom.eq_def]
  simp only [h, List.head?_nil]

/-- A search passes over some text and returns a match behind it. -/
theorem searchFrom_some {start : Text} : ∀ {after before : Text},
    searchFrom r before after = some (start, e) →
      ∃ u a, after = u ++ a ∧ start = before.reverse ++ u ∧ e ∈ run r ⟨u.reverse ++ before, a, []⟩ := by
  intro after
  induction after with
  | nil =>
    intro before h
    cases hr : run r ⟨before, [], []⟩ with
    | nil =>
      rw [searchFrom_end hr] at h
      cases h
    | cons e' es =>
      rw [searchFrom_here (by rw [hr, List.head?_cons])] at h
      cases h
      exact ⟨[], [], rfl, (List.append_nil _).symm, hr.symm ▸ List.mem_cons_self⟩
  | cons c t ih =>
    intro before h
    cases hr : run r ⟨before, c :: t, []⟩ with
    | nil =>
      rw [searchFrom_next hr] at h
      obtain ⟨u, a, rfl, rfl, he⟩ := ih h
      exact ⟨c :: u, a, rfl, by simp, by simpa using he⟩
    | cons e' es =>
      rw [searchFrom_here (by rw [hr, List.head?_cons])] at h
      cases h
      exact ⟨[], c :: t, rfl, (List.append_nil _).symm, hr.symm ▸ List.mem_cons_self⟩

theorem search_some {start : Text} (h : search r t = some (start, e)) :
    ∃ x y g, t = start ++ (x ++ y) ∧ Matches r start.reverse x y g ∧
      e = ⟨x.reverse ++ start.reverse, y, g⟩ := by
  obtain ⟨u, a, rfl, rfl, he⟩ := searchFrom_some h
  obtain ⟨x, y, g, rfl, hm, rfl⟩ := (mem_run_iff _ _ _).1 he
  exact ⟨x, y, g, rfl, by simpa using hm, by simp [Pos.past]⟩

theorem searchFrom_first {r : Re} {e : Pos} {a b c : Text} : ∀ {before : Text},
    searchFrom r before (a ++ b ++ c) = some (before.reverse ++ (a ++ b), e) → b ≠ [] →
      run r ⟨a.reverse ++ before, b ++ c, []⟩ = [] := by
  induction a with
  | nil =>
    intro before h hb
    cases hr : run r ⟨before, b ++ c, []⟩ with
    | nil => exact hr
    | cons e' es =>
      rw [List.nil_append, searchFrom_here (by rw [hr]; rfl)] at h
      have heq : before.reverse = before.reverse ++ b := (Prod.mk.inj (Option.some.inj h)).1
      exact absurd (List.self_eq_append_right.1 heq) hb
  | cons d a ih =>
    intro before h hb
    cases hr : run r ⟨before, d :: (a ++ b ++ c), []⟩ with
    | nil =>
      rw [List.cons_append, List.cons_append, searchFrom_next hr] at h
      have := @ih (d :: before) (by simpa using h) hb
      simpa using this
    | cons e' es =>
      rw [List.cons_append, List.cons_append, searchFrom_here (by rw [hr]; rfl)] at h
      have heq : before.reverse = before.reverse ++ (d :: a ++ b) :=
        (Prod.mk.inj (Option.some.inj h)).1
      cases List.self_eq_append_right.1 heq

theorem search_first {a c : Text} (h : search r (a ++ b ++ c) = some (a ++ b, e)) (hb : b ≠ [])
    {x : Text} (hxy : b ++ c = x ++ y) : ¬ Matches r a.reverse x y g := by
  intro hm
  refine (run_ne_nil_iff r ⟨a.reverse, b ++ c, []⟩).2 ⟨x, y, g, hxy, hm⟩ ?_
  have := @searchFrom_first r e a b c [] h hb
  rwa [List.append_nil] at this

theorem searchFrom_append : ∀ {pre before : Text},
    (∀ a b, pre = a ++ b → b ≠ [] → run r ⟨a.reverse ++ before, b ++ t, []⟩ = []) →
    (run r ⟨pre.reverse ++ before, t, []⟩).head? = some e →
    searchFrom r before (pre ++ t) = some (before.reverse ++ pre, e)
  | [], before, _, he => by
    rw [List.nil_append, List.append_nil]
    exact searchFrom_here he
  | c :: pre, before, hpre, he => by
    have hc : run r ⟨before, c :: (pre ++ t), []⟩ = [] := hpre [] (c :: pre) rfl (by simp)
    have ih : searchFrom r (c :: before) (pre ++ t) = some ((c :: before).reverse ++ pre, e) :=
      searchFrom_append (fun a b hab hb => by simpa using hpre (c :: a) b (by rw [hab]; rfl) hb)
        (by simpa using he)
    rw [List.cons_append, searchFrom_next hc, ih]
    simp

/-- The first match of a search, when no match starts before it. -/
theorem search_append {pre : Text}
    (hpre : ∀ a b, pre = a ++ b → b ≠ [] → run r ⟨a.reverse, b ++ t, []⟩ = [])
    (he : (run r ⟨pre.reverse, t, []⟩).head? = some e) : search r (pre ++ t) = some (pre, e) :=
  searchFrom_append (by simpa using hpre) (by simpa using he)

/-! ## Lazy repetitions -/

theorem rounds_any {n : Nat} {s : Pos} (hn : s.after.length = n) :
    rounds false (run (.one fun _ => true)) n s = (List.range (n + 1)).map s.move := by
  induction n generalizing s with
  | zero => rfl
  | succ n ih =>
    have hone : run (.one fun _ => true) s = [s.move 1] := by
      cases hs : s.after with
      | nil => rw [hs] at hn; cases hn
      | cons c t => simp [run, hs]
    have hmove : (s.move 1).after.length = n := by simp [Pos.move, hn]
    have hmore : [s.move 1].filter (fun t => t.after.length < s.after.length) = [s.move 1] :=
      List.filter_cons_of_pos (decide_eq_true (by omega))
    have htail : (List.range (n + 1)).map (s.move 1).move =
        (List.range (n + 1)).map (s.move ∘ Nat.succ) := by
      refine List.map_congr_left fun k _ => ?_
      rw [Pos.move_move, Nat.add_comm]
      rfl
    rw [rounds, hone, List.range_succ_eq_map, List.map_cons, List.map_map, ← htail]
    simp only [hmore, List.flatMap_cons, List.flatMap_nil, List.append_nil, ih hmove]
    rfl

theorem head?_flatMap_append {α β : Type} {f : α → List β} {l₁ l₂ : List α} {x : α} {e : β}
    (hl : ∀ y ∈ l₁, f y = []) (hx : (f x).head? = some e) :
    ((l₁ ++ x :: l₂).flatMap f).head? = some e := by
  rw [List.flatMap_append, List.flatMap_eq_nil_iff.2 hl, List.nil_append, List.flatMap_cons,
    List.head?_append, hx]
  rfl

/-- A lazy group of any characters ends at the first place where the rest of the expression matches. -/
theorem head?_lazy {n : Nat} {p q : Text}
    (hmiss : ∀ u v, p = u ++ v → v ≠ [] → ∀ x y g', v ++ q = x ++ y →
      ¬ Matches r (u.reverse ++ b) x y g')
    (he : (run r ⟨p.reverse ++ b, q, (n, p) :: g⟩).head? = some e) :
    (run (.seq (.group n (.star false (.one fun _ => true))) r) ⟨b, p ++ q, g⟩).head? = some e := by
  have hlen : (p ++ q).length + 1 = p.length + (q.length + 1) := by simp; omega
  rw [run, run, run, rounds_any rfl, hlen, List.range_add, List.range_succ_eq_map]
  simp only [List.map_append, List.map_cons, List.map_map]
  refine head?_flatMap_append (fun y hy => ?_) ?_
  · obtain ⟨k, hk, rfl⟩ := List.mem_map.1 hy
    by_contra hne
    obtain ⟨x, z, g', hxz, hm⟩ := (run_ne_nil_iff _ _).1 hne
    have hk : k < p.length := List.mem_range.1 hk
    have htake : (p ++ q).take k = p.take k := List.take_append_of_le_length (by omega)
    refine hmiss (p.take k) (p.drop k) (List.take_append_drop k p).symm ?_ x z g' ?_ ?_
    · intro hnil
      have := List.drop_eq_nil_iff.1 hnil
      omega
    · rw [← hxz]
      exact (List.drop_append_of_le_length (by omega)).symm
    · rw [← htake]
      exact hm
  · have hmove : Pos.move ⟨b, p ++ q, g⟩ (p.length + 0) = ⟨p.reverse ++ b, q, g⟩ :=
      Pos.move_length _ p q rfl
    simp only [hmove]
    have htake : (p.reverse ++ b).take ((p.reverse ++ b).length - b.length) = p.reverse :=
      take_consumed _ _
    rw [htake, List.reverse_reverse]
    exact he

/-- An expression that can match in one way only, before another one. -/
theorem head?_seq {r' : Re} {s t : Pos} (h : ∀ e, e ∈ run r s ↔ e = t) :
    (run (.seq r r') s).head? = (run r' t).head? := by
  have hall : ∀ e ∈ run r s, e = t := fun e he => (h e).1 he
  have ht : t ∈ run r s := (h t).2 rfl
  rw [run]
  generalize run r s = es at hall ht
  induction es with
  | nil => cases ht
  | cons e es ih =>
    obtain rfl := hall e List.mem_cons_self
    rw [List.flatMap_cons, List.head?_append]
    cases hrun : run r' e with
    | nil =>
      have hnil : es.flatMap (run r') = [] := List.flatMap_eq_nil_iff.2 fun x hx => by
        rw [hall x (List.mem_cons_of_mem _ hx), hrun]
      rw [hnil]
      rfl
    | cons x xs => rfl

/-! ## The preferred match, step by step -/

theorem run_lit_seq (p : Text) (r : Re) (b t : Text) (g : List (Nat × Text)) :
    run (.seq (lit p) r) ⟨b, p ++ t, g⟩ = run r ⟨p.reverse ++ b, t, g⟩ := by
  rw [run_seq_lit, if_pos (List.prefix_append _ _), Pos.move_length _ p t rfl]

theorem run_one_seq (hc : p c = true) (r : Re) (b t : Text) (g : List (Nat × Text)) :
    run (.seq (.one p) r) ⟨b, c :: t, g⟩ = run r ⟨c :: b, t, g⟩ := by
  have hone : run (.one p) ⟨b, c :: t, g⟩ = [⟨c :: b, t, g⟩] := if_pos hc
  rw [run, hone, List.flatMap_cons, List.flatMap_nil, List.append_nil]

/-- A greedy repetition goes as far as it can when the rest matches there. -/
theorem head?_greedy {u v : Text} (hu : ∀ c ∈ u, p c = true) (hv : ∀ c ∈ v.head?, p c = false)
    (he : (run r ⟨u.reverse ++ b, v, g⟩).head? = some e) :
    (run (.seq (.star true (.one p)) r) ⟨b, u ++ v, g⟩).head? = some e := by
  have htake : (u ++ v).takeWhile p = u := by
    rw [List.takeWhile_append_of_pos hu]
    cases v with
    | nil => simp
    | cons c v => simp [hv c rfl]
  rw [run, run_star_one, htake, List.range_succ, List.reverse_append, List.map_append,
    List.flatMap_append, List.head?_append]
  simp only [List.reverse_singleton, List.map_cons, List.map_nil, List.flatMap_cons,
    List.flatMap_nil, List.append_nil, Pos.move_length ⟨b, u ++ v, g⟩ u v rfl, he, Option.some_or]

/-! ## The text before the match -/

/-- The expression does not look at the characters around it. -/
def lookFree : Re → Bool
  | .seq r r' | .alt r r' => lookFree r && lookFree r'
  | .star _ r | .group _ r => lookFree r
  | .look _ => false
  | .eps | .one _ => true

/-- The place with more text before it. -/
def Pos.shift (c : Text) (s : Pos) : Pos := { s with before := s.before ++ c }

theorem before_length_le {s : Pos} (h : e ∈ run r s) : s.before.length ≤ e.before.length := by
  obtain ⟨x, y, g, -, -, rfl⟩ := (mem_run_iff r s e).1 h
  simp [Pos.past]

theorem rounds_shift {f : Pos → List Pos} {c : Text}
    (hf : ∀ s, f (s.shift c) = (f s).map (Pos.shift c)) (n : Nat) (s : Pos) :
    rounds greedy f n (s.shift c) = (rounds greedy f n s).map (Pos.shift c) := by
  induction n generalizing s with
  | zero => rfl
  | succ n ih =>
    have hmore : ((f (s.shift c)).filter fun t => t.after.length < (s.shift c).after.length).flatMap
        (rounds greedy f n) =
        (((f s).filter fun t => t.after.length < s.after.length).flatMap (rounds greedy f n)).map
          (Pos.shift c) := by
      rw [hf, List.filter_map, List.flatMap_map, List.map_flatMap]
      exact List.flatMap_congr fun t _ => ih t
    simp only [rounds, hmore]
    split <;> simp

/-- A match does not depend on the text before it. -/
theorem run_shift (c : Text) : ∀ r : Re, lookFree r = true →
    ∀ s, run r (s.shift c) = (run r s).map (Pos.shift c)
  | .eps, _, s => rfl
  | .one p, _, ⟨b, a, g⟩ => by
    cases a with
    | nil => rfl
    | cons d t =>
      simp only [run, Pos.shift]
      split <;> simp [Pos.move, Pos.shift]
  | .seq r r', h, s => by
    rw [lookFree, Bool.and_eq_true] at h
    rw [run, run, run_shift c _ h.1 s, List.flatMap_map, List.map_flatMap]
    exact List.flatMap_congr fun t _ => run_shift c _ h.2 t
  | .alt r r', h, s => by
    rw [lookFree, Bool.and_eq_true] at h
    rw [run, run, run_shift c _ h.1 s, run_shift c _ h.2 s, List.map_append]
  | .star greedy r, h, s => rounds_shift (fun t => run_shift c r h t) _ s
  | .group n r, h, s => by
    rw [run, run, run_shift c r h s, List.map_map, List.map_map]
    refine List.map_congr_left fun t ht => ?_
    have hle := before_length_le ht
    have htake : (t.before ++ c).take ((t.before ++ c).length - (s.before ++ c).length) =
        t.before.take (t.before.length - s.before.length) := by
      rw [List.length_append, List.length_append, Nat.add_sub_add_right,
        List.take_append_of_le_length (by omega)]
    simp only [Function.comp_apply, Pos.shift, htake]

end Regex
