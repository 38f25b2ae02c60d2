import AxvisorTools.Text.Lines
import AxvisorTools.Text.Regex
import Mathlib.Data.List.TakeWhile
import Mathlib.Data.List.Range

/-!
# Facts about the backtracking matcher

`run_lit` and `run_star_one` give all matches of a text and of a repeated character class;
`searchFrom_miss` and `searchFrom_hit` walk an expression that starts with `^` over the lines of
a text, so that `search_bol` finds the first line on which its body matches.
-/

namespace Regex

variable {b l : Text} {body : Re} {e : Pos} {ls : List Text} {g : List (Nat × Text)}

/-! ## Places -/

@[simp] theorem Pos.move_zero (s : Pos) : s.move 0 = s := rfl

theorem Pos.move_move (s : Pos) (m n : Nat) : (s.move m).move n = s.move (m + n) := by
  simp [Pos.move, List.take_add]

theorem Pos.move_length (s : Pos) (t r : Text) (h : s.after = t ++ r) :
    s.move t.length = ⟨t.reverse ++ s.before, r, s.groups⟩ := by
  simp [Pos.move, h]

/-! ## Matches of single expressions -/

theorem run_lit (t : Text) (s : Pos) :
    run (lit t) s = if t <+: s.after then [s.move t.length] else [] := by
  induction t generalizing s with
  | nil => simp [lit, run]
  | cons c t ih =>
    obtain ⟨b, a, g⟩ := s
    cases a with
    | nil => simp [lit, run]
    | cons d a =>
      by_cases hc : d = c
      · subst hc
        simp only [lit, run, beq_self_eq_true, if_true, List.flatMap_cons, List.flatMap_nil,
          List.append_nil, ih, List.cons_prefix_cons, true_and, Pos.move_move]
        rw [List.length_cons, Nat.add_comm t.length 1]
        simp [Pos.move]
      · have hc' : c ≠ d := fun h => hc h.symm
        simp [lit, run, hc, hc', List.cons_prefix_cons]

theorem rounds_one (p : Char → Bool) (s : Pos) (n : Nat) (hn : s.after.length ≤ n) :
    rounds true (run (.one p)) n s =
      (List.range ((s.after.takeWhile p).length + 1)).reverse.map s.move := by
  induction n generalizing s with
  | zero =>
    have : s.after = [] := List.length_eq_zero_iff.1 (by omega)
    simp [rounds, this]
  | succ n ih =>
    obtain ⟨b, a, g⟩ := s
    cases a with
    | nil => simp [rounds, run]
    | cons c a =>
      by_cases hc : p c
      · have hmove : (Pos.move ⟨b, c :: a, g⟩ 1).move = fun i => Pos.move ⟨b, c :: a, g⟩ i.succ :=
          funext fun i => by rw [Pos.move_move, Nat.add_comm]
        have hlt : (Pos.move ⟨b, c :: a, g⟩ 1).after.length < (c :: a).length := by simp [Pos.move]
        have hafter : (Pos.move ⟨b, c :: a, g⟩ 1).after = a := rfl
        have hrange : List.range ((a.takeWhile p).length + 1 + 1) =
            0 :: (List.range ((a.takeWhile p).length + 1)).map Nat.succ := List.range_succ_eq_map
        have hone : run (.one p) ⟨b, c :: a, g⟩ = [Pos.move ⟨b, c :: a, g⟩ 1] := by simp [run, hc]
        simp only [rounds, hone, if_true, List.filter_cons, hlt, decide_true, List.filter_nil,
          List.flatMap_cons, List.flatMap_nil, List.append_nil]
        rw [ih _ (by simpa [Pos.move] using hn), hafter, List.takeWhile_cons, if_pos hc,
          List.length_cons, hrange, List.reverse_cons,
          List.map_append, List.map_reverse, List.map_reverse, List.map_map]
        simp only [Function.comp_def, hmove, List.map_cons, List.map_nil, Pos.move_zero]
      · simp [rounds, run, hc]

/-- The matches of a repeated character class, the longest first. -/
theorem run_star_one (p : Char → Bool) (s : Pos) :
    run (.star true (.one p)) s =
      (List.range ((s.after.takeWhile p).length + 1)).reverse.map s.move := by
  rw [run, rounds_one p s _ le_rfl]

theorem mem_run_star_one {p : Char → Bool} {s t : Pos} :
    t ∈ run (.star true (.one p)) s ↔ ∃ k ≤ (s.after.takeWhile p).length, t = s.move k := by
  simp only [run_star_one, List.mem_map, List.mem_reverse, List.mem_range, Nat.lt_succ_iff]
  exact ⟨fun ⟨k, hk, h⟩ => ⟨k, hk, h.symm⟩, fun ⟨k, hk, h⟩ => ⟨k, hk, h.symm⟩⟩

/-! ## Searching line by line -/

/-- A place where a line starts. -/
def AtLine (before : Text) : Prop := before.head?.all (· == '\n')

theorem atLine_nil : AtLine [] := rfl

theorem atLine_newline (b : Text) : AtLine ('\n' :: b) := rfl

theorem run_bol_of_atLine (hb : AtLine b) (a : Text) (body : Re) :
    run (.seq bol body) ⟨b, a, []⟩ = run body ⟨b, a, []⟩ := by
  have hb : b.head?.all (· == '\n') = true := hb
  simp [run, bol, hb]

theorem searchFrom_hit {a : Text} (hb : AtLine b) (h : (run body ⟨b, a, []⟩).head? = some e) :
    searchFrom (.seq bol body) b a = some (b.reverse, e) := by
  rw [searchFrom.eq_def]
  simp only [run_bol_of_atLine hb, h]

theorem searchFrom_inside {rest : Text} :
    ∀ {l : Text} {c : Char} {b : Text}, c ≠ '\n' → '\n' ∉ l →
    searchFrom (.seq bol body) (c :: b) (l ++ '\n' :: rest) =
      searchFrom (.seq bol body) ('\n' :: (l.reverse ++ c :: b)) rest
  | [], c, b, hc, _ => by
    have hno : run (.seq bol body) ⟨c :: b, '\n' :: rest, []⟩ = [] := by simp [run, bol, hc]
    rw [List.nil_append, searchFrom, hno]
    rfl
  | d :: l, c, b, hc, hl => by
    have hno : run (.seq bol body) ⟨c :: b, d :: (l ++ '\n' :: rest), []⟩ = [] := by
      simp [run, bol, hc]
    have hd : d ≠ '\n' := fun h => hl (by simp [h])
    rw [List.cons_append, searchFrom, hno]
    simp only [List.head?_nil]
    rw [searchFrom_inside hd fun h => hl (List.mem_cons_of_mem _ h)]
    simp

theorem searchFrom_inside_last :
    ∀ {l : Text} {c : Char} {b : Text}, c ≠ '\n' → '\n' ∉ l →
    searchFrom (.seq bol body) (c :: b) l = none
  | [], c, b, hc, _ => by
    have hno : run (.seq bol body) ⟨c :: b, [], []⟩ = [] := by simp [run, bol, hc]
    rw [searchFrom, hno]
    rfl
  | d :: l, c, b, hc, hl => by
    have hno : run (.seq bol body) ⟨c :: b, d :: l, []⟩ = [] := by simp [run, bol, hc]
    have hd : d ≠ '\n' := fun h => hl (by simp [h])
    rw [searchFrom, hno]
    exact searchFrom_inside_last hd fun h => hl (List.mem_cons_of_mem _ h)

/-- A line on which the body has no match is passed over. -/
theorem searchFrom_miss {rest : Text} (hb : AtLine b) (hl : '\n' ∉ l)
    (h : run body ⟨b, l ++ '\n' :: rest, []⟩ = []) :
    searchFrom (.seq bol body) b (l ++ '\n' :: rest) =
      searchFrom (.seq bol body) ('\n' :: (l.reverse ++ b)) rest := by
  cases l with
  | nil =>
    rw [List.nil_append, searchFrom, run_bol_of_atLine hb, ← List.nil_append ('\n' :: rest), h]
    rfl
  | cons c l =>
    rw [List.cons_append, searchFrom, run_bol_of_atLine hb, ← List.cons_append, h]
    simp only [List.head?_nil]
    rw [searchFrom_inside (fun h => hl (by simp [h])) fun h => hl (List.mem_cons_of_mem _ h)]
    simp

theorem searchFrom_miss_last (hb : AtLine b) (hl : '\n' ∉ l) (h : run body ⟨b, l, []⟩ = []) :
    searchFrom (.seq bol body) b l = none := by
  cases l with
  | nil =>
    rw [searchFrom, run_bol_of_atLine hb, h]
    rfl
  | cons c l =>
    rw [searchFrom, run_bol_of_atLine hb, h]
    exact searchFrom_inside_last (fun h => hl (by simp [h])) fun h => hl (List.mem_cons_of_mem _ h)

/-- The body has no match on a line `l`, whatever stands around the line. -/
def MissesLine (body : Re) (l : Text) : Prop :=
  ∀ b ls, run body ⟨b, l ++ below ls, []⟩ = []

theorem search_bol_from {post : List Text} :
    ∀ {pre : List Text} {b : Text}, AtLine b → Unbroken pre → (∀ k ∈ pre, MissesLine body k) →
    (run body ⟨(above pre).reverse ++ b, l ++ below post, []⟩).head? = some e →
    searchFrom (.seq bol body) b (above pre ++ l ++ below post) =
      some (b.reverse ++ above pre, e)
  | [], b, hb, _, _, he => by
    rw [above_nil, List.append_nil, List.nil_append, searchFrom_hit hb (by simpa using he)]
  | k :: pre, b, hb, hpre, hmiss, he => by
    have hk := hmiss k List.mem_cons_self b (pre ++ l :: post)
    have htext : above (k :: pre) ++ l ++ below post = k ++ '\n' :: (above pre ++ l ++ below post) := by
      simp
    have hbelow : below (pre ++ l :: post) = '\n' :: (above pre ++ l ++ below post) := by
      have h := unlines_insert l post pre
      cases pre with
      | nil => simp
      | cons k' pre => simpa [unlines] using h
    rw [hbelow] at hk
    rw [htext, searchFrom_miss hb (hpre k List.mem_cons_self) hk,
      search_bol_from (atLine_newline _) (fun x hx => hpre x (List.mem_cons_of_mem _ hx))
        (fun x hx => hmiss x (List.mem_cons_of_mem _ hx)) (by simpa using he)]
    simp

/-- **The first line that matches**: an expression that starts with `^` is found on the first
line on which its body matches. -/
theorem search_bol {pre post : List Text} (hpre : Unbroken pre)
    (hmiss : ∀ k ∈ pre, MissesLine body k)
    (he : (run body ⟨(above pre).reverse, l ++ below post, []⟩).head? = some e) :
    search (.seq bol body) (unlines (pre ++ l :: post)) = some (above pre, e) := by
  rw [unlines_insert, search, search_bol_from atLine_nil hpre hmiss (by simpa using he)]
  rfl

theorem searchFrom_bol_none : ∀ {ls : List Text} {b : Text}, AtLine b → Unbroken ls →
    ls ≠ [] → (∀ k ∈ ls, MissesLine body k) → searchFrom (.seq bol body) b (unlines ls) = none
  | [l], b, hb, hls, _, hmiss => by
    have hl := hmiss l List.mem_cons_self b []
    rw [below_nil, List.append_nil] at hl
    rw [unlines, below_nil, List.append_nil,
      searchFrom_miss_last hb (hls l List.mem_cons_self) hl]
  | l :: k :: ls, b, hb, hls, _, hmiss => by
    have hl : run body ⟨b, l ++ '\n' :: (k ++ below ls), []⟩ = [] :=
      hmiss l List.mem_cons_self b (k :: ls)
    rw [unlines, below_cons, List.cons_append, searchFrom_miss hb (hls l List.mem_cons_self) hl]
    exact searchFrom_bol_none (atLine_newline _) (fun x hx => hls x (List.mem_cons_of_mem _ hx))
      (List.cons_ne_nil _ _) fun x hx => hmiss x (List.mem_cons_of_mem _ hx)

theorem search_bol_none (hls : Unbroken ls) (hne : ls ≠ []) (hmiss : ∀ k ∈ ls, MissesLine body k) :
    search (.seq bol body) (unlines ls) = none :=
  searchFrom_bol_none atLine_nil hls hne hmiss

/-- The search for an expression that starts with `^`, when a property `p` of a line tells whether
the body matches there and `e` is where its preferred match ends. -/
theorem search_bol_eq {p : Text → Bool} {e : Text → Text → List Text → Pos}
    (hit : ∀ b l ls, '\n' ∉ l → Unbroken ls → p l = true →
      (run body ⟨b, l ++ below ls, []⟩).head? = some (e b l ls))
    (miss : ∀ l, '\n' ∉ l → p l = false → MissesLine body l) (hls : Unbroken ls) (hne : ls ≠ []) :
    search (.seq bol body) (unlines ls) = (splitAtFirst p ls).map fun (pre, l, post) =>
      (above pre, e (above pre).reverse l post) := by
  cases h : splitAtFirst p ls with
  | none => exact search_bol_none hls hne fun k hk => miss k (hls k hk) (splitAtFirst_none h k hk)
  | some r =>
    obtain ⟨pre, l, post⟩ := r
    obtain ⟨rfl, hl, hpre⟩ := splitAtFirst_some h
    have hmem : ∀ k ∈ pre, k ∈ pre ++ l :: post := fun k hk => List.mem_append_left _ hk
    exact search_bol (fun k hk => hls k (hmem k hk))
      (fun k hk => miss k (hls k (hmem k hk)) (hpre k hk))
      (hit _ _ _ (hls l (by simp)) (fun k hk => hls k (by simp [hk])) hl)

/-! ## Bodies that stay on a line -/

theorem prefix_append_below {p : Text} (hp : '\n' ∉ p) : p <+: l ++ below ls ↔ p <+: l := by
  refine ⟨fun h => ?_, fun h => h.trans (List.prefix_append l _)⟩
  rcases Nat.le_total p.length l.length with hlen | hlen
  · exact List.prefix_of_prefix_length_le h (List.prefix_append l _) hlen
  · obtain ⟨m, rfl⟩ := List.prefix_of_prefix_length_le (List.prefix_append l _) h hlen
    cases ls with
    | nil => simpa using h
    | cons k ls =>
      cases m with
      | nil => simp
      | cons c m =>
        rw [List.prefix_append_right_inj, below_cons, List.cons_append, List.cons_prefix_cons] at h
        exact absurd (by simp [h.1]) hp

theorem takeWhile_line (hl : '\n' ∉ l) (ls : List Text) :
    (l ++ below ls).takeWhile (· != '\n') = l := by
  have hall : ∀ c ∈ l, (c != '\n') = true := fun c hc => by
    have : c ≠ '\n' := fun h => hl (h ▸ hc)
    simpa using this
  rw [List.takeWhile_append_of_pos hall]
  cases ls <;> simp

theorem run_seq_lit (p : Text) (r : Re) (s : Pos) :
    run (.seq (lit p) r) s = if p <+: s.after then run r (s.move p.length) else [] := by
  rw [run, run_lit]
  split <;> simp

theorem mem_run_star_dot (hl : '\n' ∉ l) {t : Pos} :
    t ∈ run (.star true dot) ⟨b, l ++ below ls, g⟩ ↔
      ∃ u v, l = u ++ v ∧ t = ⟨u.reverse ++ b, v ++ below ls, g⟩ := by
  rw [dot, mem_run_star_one]
  simp only [takeWhile_line hl]
  constructor
  · rintro ⟨k, hk, rfl⟩
    refine ⟨l.take k, l.drop k, (List.take_append_drop k l).symm, ?_⟩
    simp [Pos.move, List.take_append_of_le_length hk, List.drop_append_of_le_length hk]
  · rintro ⟨u, v, rfl, rfl⟩
    refine ⟨u.length, by simp, ?_⟩
    rw [Pos.move_length _ u (v ++ below ls) (List.append_assoc _ _ _)]

theorem mem_run_dots {r : Re} (hl : '\n' ∉ l) :
    e ∈ run (.seq (.star true dot) r) ⟨b, l ++ below ls, g⟩ ↔
      ∃ u v, l = u ++ v ∧ e ∈ run r ⟨u.reverse ++ b, v ++ below ls, g⟩ := by
  rw [run, List.mem_flatMap]
  constructor
  · rintro ⟨t, ht, he⟩
    obtain ⟨u, v, h, rfl⟩ := (mem_run_star_dot hl).1 ht
    exact ⟨u, v, h, he⟩
  · rintro ⟨u, v, h, he⟩
    exact ⟨_, (mem_run_star_dot hl).2 ⟨u, v, h, rfl⟩, he⟩

theorem take_consumed (x b : Text) : (x ++ b).take ((x ++ b).length - b.length) = x := by
  simp

theorem mem_run_group {n : Nat} {a : Re} :
    e ∈ run (.group n a) ⟨b, l, g⟩ ↔ ∃ t ∈ run a ⟨b, l, g⟩,
      e = ⟨t.before, t.after, (n, (t.before.take (t.before.length - b.length)).reverse) ::
        t.groups⟩ := by
  rw [run, List.mem_map]
  exact ⟨fun ⟨t, ht, h⟩ => ⟨t, ht, h.symm⟩, fun ⟨t, ht, h⟩ => ⟨t, ht, h.symm⟩⟩

theorem run_eol {v : Text} (hv : '\n' ∉ v) (ls : List Text) (g : List (Nat × Text)) :
    run eol ⟨b, v ++ below ls, g⟩ = if v = [] then [⟨b, below ls, g⟩] else [] := by
  cases v with
  | nil => cases ls <;> simp [run, eol]
  | cons c v =>
    have hc : c ≠ '\n' := fun h => hv (by simp [h])
    simp [run, eol, hc]

theorem head?_of_forall_eq {α : Type} {l : List α} {x : α} (h : ∀ y ∈ l, y = x) (hx : x ∈ l) :
    l.head? = some x := by
  cases l with
  | nil => simp at hx
  | cons y l => rw [List.head?_cons, h y List.mem_cons_self]

/-- The last place of a greedy run where `$` holds is the one the search settles on. -/
theorem head?_run_eol {s : Pos} {k : Nat} (hk : run eol (s.move k) = [s.move k]) :
    ∀ {n : Nat}, k ≤ n → (∀ i, k < i → i ≤ n → run eol (s.move i) = []) →
    (((List.range (n + 1)).reverse.map s.move).flatMap (run eol)).head? = some (s.move k)
  | n, hkn, hno => by
    rw [List.range_succ, List.reverse_append, List.reverse_singleton, List.singleton_append,
      List.map_cons, List.flatMap_cons]
    rcases Nat.lt_or_eq_of_le hkn with hlt | rfl
    · obtain ⟨m, rfl⟩ : ∃ m, n = m + 1 := ⟨n - 1, by omega⟩
      rw [hno _ hlt le_rfl, List.nil_append]
      exact head?_run_eol hk (by omega) fun i h1 h2 => hno i h1 (by omega)
    · rw [hk]
      rfl

end Regex
