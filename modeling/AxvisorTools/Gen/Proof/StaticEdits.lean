import AxvisorTools.Gen.Proof.KernelKey
import AxvisorTools.Gen.StaticSpec
import AxvisorTools.Toml.Proof.Document

/-!
# The edits of the static config

Each of the calls of `replace_or_insert_kernel_key` puts one line `key = "…"` into the config. Such a
line changes neither how the other lines are read nor where a later call for another key puts its line
(`site_pairLine`), so that the result is accepted exactly when each edit is in order for the config as it
was (`accepted_edits`), and the number of the VM stands where it stood (`idReading_edits`).
-/

namespace Gen.StaticConfig

open KernelKey

variable {key k l x : Text} {e : KeyEdit} {ls ls' : List Text}

/-! ## Keys, blanks and lines -/

theorem plain_of_bare (hk : Toml.IsBareKey key) : Plain key := by
  have hno : ∀ c, Toml.isBareChar c = false → c ∉ key := by
    intro c hc hmem
    rw [List.all_eq_true.1 hk.2 c hmem] at hc
    cases hc
  exact ⟨hno _ (by decide), hno _ (by decide), hno _ (by decide)⟩

theorem isPairLine_keyLine (key value : Text) : Toml.IsPairLine key (keyLine key value) :=
  ⟨value, rfl⟩

theorem bare_unique {k' u v : Text} (hk : Toml.IsBareKey k) (hk' : Toml.IsBareKey k')
    (h : k ++ ' ' :: u = k' ++ ' ' :: v) : k = k' := by
  rw [← (Toml.takeWhile_bare hk (c := ' ') (by decide) u).1, h,
    (Toml.takeWhile_bare hk' (c := ' ') (by decide) v).1]

theorem isKeyLine_pairLine {k' : Text} (hk : Toml.IsBareKey k) (hk' : Toml.IsBareKey k')
    (hne : k ≠ k') (hl : Toml.IsPairLine k l) : isKeyLine k' l = false := by
  rw [Bool.eq_false_iff, Ne, isKeyLine_iff]
  obtain ⟨m, rfl⟩ := hl
  rintro ⟨m', h⟩
  refine hne (bare_unique hk hk' (u := '=' :: ' ' :: '"' :: (m ++ ['"']))
    (v := '=' :: ' ' :: '"' :: (m' ++ ['"'])) ?_)
  simpa [Toml.stringPair] using h

theorem isAfterLine_pairLine {k' : Text} (hk : Toml.IsBareKey k) (hk' : Toml.IsBareKey k')
    (hne : k ≠ k') (hl : Toml.IsPairLine k l) : isAfterLine k' l = false := by
  rw [Bool.eq_false_iff, Ne, isAfterLine, List.isPrefixOf_iff_prefix]
  obtain ⟨m, rfl⟩ := hl
  rintro ⟨w, h⟩
  refine hne (bare_unique hk hk' (u := '=' :: ' ' :: '"' :: (m ++ ['"'])) (v := '=' :: ' ' :: w) ?_)
  simpa [Toml.stringPair] using h.symm

theorem head_pairLine (hk : Toml.IsBareKey k) (hl : Toml.IsPairLine k l) :
    ∃ c t, l = c :: t ∧ Toml.isBareChar c = true := by
  obtain ⟨m, rfl⟩ := hl
  obtain ⟨c, k, rfl⟩ := List.exists_cons_of_ne_nil hk.1
  exact ⟨c, _, rfl, List.all_eq_true.1 hk.2 c List.mem_cons_self⟩

theorem isWhite_bare {c : Char} (h : Toml.isBareChar c = true) : Py.Re.isWhite c = false := by
  have hrange : (48 ≤ c.toNat ∧ c.toNat ≤ 122) ∨ c.toNat = 45 := by
    simp only [Toml.isBareChar, Bool.or_eq_true, beq_iff_eq] at h
    rcases h with (h | rfl) | rfl
    · have := isAlphanum_range h
      omega
    · exact .inl (by decide)
    · exact .inr (by decide)
  simp only [Py.Re.isWhite, Bool.or_eq_false_iff, Bool.and_eq_false_iff, decide_eq_false_iff_not,
    beq_eq_false_iff_ne]
  omega

theorem not_bare_white {c : Char} (h : Py.Re.isWhite c = true) : Toml.isBareChar c = false := by
  rw [Bool.eq_false_iff]
  intro hb
  rw [isWhite_bare hb] at h
  cases h

theorem isInert_white {c : Char} (h : Py.Re.isWhite c = true) : Toml.isInert c = true := by
  by_contra hno
  simp only [Toml.isInert, decide_eq_true_eq, not_not] at hno
  have hall : ∀ d ∈ ['#', '"', '\'', '[', '{', ']', '}', '='], Py.Re.isWhite d = false := by decide
  rw [hall c hno] at h
  cases h

theorem readLine_white {s : Toml.State} (hs : s.nest = []) {t : Text} {c : Char}
    (h : Toml.skipBlanks (Toml.chomp l) = c :: t) (hc : Py.Re.isWhite c = true) :
    Toml.readLine s l = (.bad, s) := by
  refine Toml.readLine_odd hs h (fun hmem => ?_) (not_bare_white hc)
  have hall : ∀ d ∈ ['#', '[', '"', '\''], Py.Re.isWhite d = false := by decide
  rw [hall c hmem] at hc
  cases hc

theorem passes_white {s : Toml.State} (hhead : s.nest.head? ≠ some .curly)
    (hl : isWhiteLine l = true) : Toml.Passes s l := by
  have hchomp : ∀ c ∈ Toml.chomp l, Py.Re.isWhite c = true :=
    fun c hc => List.all_eq_true.1 hl c (Toml.mem_chomp hc)
  by_cases hs : s.nest = []
  · cases hskip : Toml.skipBlanks (Toml.chomp l) with
    | nil =>
      rw [Toml.Passes, Toml.readLine, if_neg (not_not.2 hs), hskip]
      exact ⟨rfl, fun _ _ => Toml.Role.noConfusion⟩
    | cons c t =>
      have hc : Py.Re.isWhite c = true := by
        refine hchomp c ((List.dropWhile_sublist Toml.isBlank).subset ?_)
        rw [← Toml.skipBlanks, hskip]
        exact List.mem_cons_self
      rw [Toml.Passes, readLine_white hs hskip hc]
      exact ⟨rfl, fun _ _ => Toml.Role.noConfusion⟩
  · have hscan : Toml.scan .plain s.nest (Toml.chomp l) = some s.nest := by
      rw [← List.append_nil (Toml.chomp l), Toml.scan_inert fun c hc => isInert_white (hchomp c hc)]
      exact if_neg hhead
    rw [Toml.Passes, Toml.readLine, if_pos hs, hscan]
    exact ⟨rfl, fun _ _ => Toml.Role.noConfusion⟩

/-! ## Where the line goes -/

/-- The place of an inserted line. -/
def siteSpot : Edit → Option (Toml.State × List (List Text))
  | .replace _ _ _ => none
  | .insert pre _ => some (Toml.spot pre)

theorem spot_white {ws : List Text} (h : ∀ w ∈ ws, isWhiteLine w = true) (pre : List Text) :
    Toml.spot (pre ++ ws) = Toml.spot pre :=
  Toml.spot_passes (fun _ hs w hw => passes_white hs (h w hw)) pre

theorem sectionSite_pairLine (hk : Toml.IsBareKey k) (hx : Toml.IsPairLine k x) (a b : List Text) :
    (sectionSite (a ++ x :: b)).map siteSpot = (sectionSite (a ++ b)).map siteSpot := by
  have hno : isSectionLine x = false := by
    obtain ⟨c, t, rfl, hc⟩ := head_pairLine hk hx
    have hne : c ≠ '[' := (Toml.isBareChar_ne hc).2.2.2.2.1
    simp [isSectionLine, hne.symm]
  have hpass := Toml.passes_pairLine (Toml.start_after_head a) hk hx
  have hheader : ∀ (pre : List Text) (l : Text) (ls : List Text),
      Toml.spot (pre ++ l :: ls.takeWhile isWhiteLine) = Toml.spot (pre ++ [l]) := by
    intro pre l ls
    rw [← List.singleton_append, ← List.append_assoc]
    exact spot_white (fun w hw => List.mem_takeWhile_imp hw) _
  rcases splitAtFirst_skip hno a b with ⟨hwith, hwithout⟩ | ⟨pre, l, post, hwith, hwithout⟩ |
    ⟨pre, l, post, hwith, hwithout⟩
  · rw [sectionSite, sectionSite, hwith, hwithout]
  · rw [sectionSite, sectionSite, hwith, hwithout]
    simp only [Option.map_some, siteSpot, hheader]
  · rw [sectionSite, sectionSite, hwith, hwithout]
    simp only [Option.map_some, siteSpot, List.append_assoc, List.cons_append, Toml.spot_pass hpass]

/-- **A line of another key** does not move the place of an edit. -/
theorem site_pairLine {afterKey : Option Text} (hk : Toml.IsBareKey k) (hx : Toml.IsPairLine k x)
    (hkey : Toml.IsBareKey key) (hne : k ≠ key)
    (hafter : ∀ k' ∈ afterKey, Toml.IsBareKey k' ∧ k ≠ k') (a b : List Text) :
    (editSite key afterKey (a ++ x :: b)).map siteSpot =
      (editSite key afterKey (a ++ b)).map siteSpot := by
  have hpass := Toml.passes_pairLine (Toml.start_after_head a) hk hx
  have hsection := sectionSite_pairLine hk hx a b
  unfold editSite
  rcases splitAtFirst_skip (isKeyLine_pairLine hk hkey hne hx) a b with ⟨hwith, hwithout⟩ |
    ⟨pre, l, post, hwith, hwithout⟩ | ⟨pre, l, post, hwith, hwithout⟩
  · rw [hwith, hwithout]
    cases afterKey with
    | none => exact hsection
    | some k' =>
      obtain ⟨hk', hne'⟩ := hafter k' rfl
      simp only [Option.bind_some]
      rcases splitAtFirst_skip (isAfterLine_pairLine hk hk' hne' hx) a b with ⟨hwith, hwithout⟩ |
        ⟨pre, l, post, hwith, hwithout⟩ | ⟨pre, l, post, hwith, hwithout⟩
      · rw [hwith, hwithout]
        exact hsection
      · rw [hwith, hwithout]
        rfl
      · rw [hwith, hwithout]
        simp only [Option.map_some, siteSpot, List.append_assoc, List.cons_append,
          Toml.spot_pass hpass]
  · rw [hwith, hwithout]
    rfl
  · rw [hwith, hwithout]
    rfl

/-! ## One edit -/

/-- The keys and the value of the edit stand for themselves in TOML and in a pattern. -/
structure KeyEdit.Proper (e : KeyEdit) : Prop where
  key : Toml.IsBareKey e.key
  value : Plain e.value
  afterKey : ∀ k ∈ e.afterKey, Toml.IsBareKey k

/-- The edit on the lines of the config. -/
def KeyEdit.onLines (e : KeyEdit) (ls : List Text) : Option (List Text) :=
  (editSite e.key e.afterKey ls).map (·.apply (keyLine e.key e.value))

theorem KeyEdit.Proper.lines_run (he : e.Proper) {text result : Text} (h : e.run text = .ok result) :
    e.onLines (lines text) = some (lines result) := by
  rw [KeyEdit.run, replaceOrInsertKernelKey] at h
  cases hrun : rewriteKernelKey "VM config does not contain a [kernel] section" text e.key e.value
      e.afterKey with
  | error err =>
    rw [hrun] at h
    cases h
  | ok out =>
    rw [hrun] at h
    cases h
    obtain ⟨site, hsite, hlines⟩ := lines_rewriteKernelKey (plain_of_bare he.key) he.value
      (fun k hk => (plain_of_bare (he.afterKey k hk)).newline) hrun
    rw [KeyEdit.onLines, hsite, hlines]
    rfl

/-- The lines that the edit may exchange can be read. -/
def ReadsPairs (key : Text) (ls : List Text) : Prop :=
  ∀ r ∈ Toml.readings ls, Toml.IsPairLine key r.line → r.role ≠ .bad

/-- The edited config is accepted exactly when the config was and the edit is in order. -/
theorem KeyEdit.Proper.accepted_onLines (he : e.Proper) (h : e.onLines ls = some ls')
    (hpairs : ReadsPairs e.key ls) : Toml.Accepted ls' ↔ Toml.Accepted ls ∧ e.InOrder ls := by
  obtain ⟨site, hsite, rfl⟩ := Option.map_eq_some_iff.1 h
  rcases editSite_cases hsite with ⟨pre, old, post, rfl, rfl, hold⟩ | ⟨pre, post, rfl, rfl, -⟩
  · have hread : (Toml.readLine (Toml.start.after pre) old).1 ≠ .bad :=
      hpairs (Toml.readingAt pre old) (by rw [Toml.readings_around]; simp) hold
    refine (Toml.accepted_replace_iff he.key he.value.quote he.value.backslash hold hread).trans ?_
    refine and_congr_right fun _ => ⟨fun hv => ⟨hv, fun pre' post' hins => ?_⟩, fun hin => hin.1⟩
    rw [hsite] at hins
    cases hins
  · refine (Toml.accepted_insert_iff he.key he.value.quote he.value.backslash).trans ?_
    refine and_congr_right fun _ => ⟨?_, ?_⟩
    · rintro ⟨hs, hv, hfree⟩
      refine ⟨hv, fun pre' post' hins => ?_⟩
      rw [hsite] at hins
      cases hins
      exact ⟨hs, hfree⟩
    · rintro ⟨hv, hins⟩
      obtain ⟨hs, hfree⟩ := hins pre post hsite
      exact ⟨hs, hv, hfree⟩

/-! ## Lines of other keys -/

theorem readings_pairLine (hk : Toml.IsBareKey k) (hx : Toml.IsPairLine k x) (a b : List Text) :
    Toml.readings (a ++ x :: b) = Toml.readings a ++ Toml.readingAt a x ::
      Toml.readLines (Toml.start.after a) b := by
  have hpass := Toml.passes_pairLine (Toml.start_after_head a) hk hx
  rw [Toml.readings_around, hpass.1]

theorem readsPairs_pairLine (hk : Toml.IsBareKey k) (hx : Toml.IsPairLine k x)
    (hkey : Toml.IsBareKey key) (hne : k ≠ key) (a b : List Text) :
    ReadsPairs key (a ++ x :: b) ↔ ReadsPairs key (a ++ b) := by
  have hno : ¬Toml.IsPairLine key x := by
    rw [← isKeyLine_iff, isKeyLine_pairLine hk hkey hne hx]
    exact Bool.false_ne_true
  have hsplit : Toml.readings (a ++ b) = Toml.readings a ++ Toml.readLines (Toml.start.after a) b :=
    Toml.readLines_append _ _ _
  rw [ReadsPairs, ReadsPairs, readings_pairLine hk hx, hsplit]
  simp only [List.mem_append, List.mem_cons]
  constructor
  · exact fun h r hr => h r (hr.imp_right .inr)
  · rintro h r (hr | rfl | hr)
    · exact h r (.inl hr)
    · exact fun hpair => absurd hpair hno
    · exact h r (.inr hr)

/-- In an accepted config, an edit is in order whether or not a line of another key is there. -/
theorem KeyEdit.Proper.inOrder_pairLine (he : e.Proper) (hk : Toml.IsBareKey k)
    (hx : Toml.IsPairLine k x) (hne : k ≠ e.key) (hafter : e.afterKey ≠ some k) {a b : List Text}
    (haccepted : Toml.Accepted (a ++ x :: b)) : e.InOrder (a ++ x :: b) ↔ e.InOrder (a ++ b) := by
  have hsite := site_pairLine hk hx he.key hne
    (fun k' hk' => ⟨he.afterKey k' hk', fun h => hafter (h ▸ hk')⟩) a b
  -- the line `x` is read, so it defines something that nothing else does
  obtain ⟨w, hread⟩ : ∃ w, Toml.readLine (Toml.start.after a) x =
      (.entry [k] (.string w), Toml.start.after a) := by
    rcases Toml.readLine_pairLine_cases (Toml.start_after_head a) hk hx with hbad | ⟨-, h⟩
    · exact absurd haccepted (Toml.not_accepted_of_bad (by rw [hbad]))
    · exact h
  have hfree := ((Toml.accepted_around hread).1 haccepted).2
  have hmem : ∀ i, i ∈ Toml.items [] (Toml.readings (a ++ x :: b)) ↔
      i = Toml.itemBelow a k ∨ i ∈ Toml.items [] (Toml.readings (a ++ b)) := by
    intro i
    rw [Toml.items_around hread, Toml.items_apart, List.mem_append, List.mem_cons, List.mem_append]
    exact or_left_comm
  refine and_congr_right fun _ => ⟨fun h pre post hins => ?_, fun h pre post hins => ?_⟩
  · rw [hins] at hsite
    obtain ⟨site, hsite', hspot⟩ := Option.map_eq_some_iff.1 hsite
    cases site with
    | replace => cases hspot
    | insert pre' post' =>
      have hspot := Option.some.inj hspot
      obtain ⟨hs, hnew⟩ := h pre' post' hsite'
      rw [Toml.itemBelow_congr hspot] at hnew
      exact ⟨congrArg (·.1.nest) hspot ▸ hs, fun i hi => hnew i ((hmem i).2 (.inr hi))⟩
  · rw [hins] at hsite
    obtain ⟨site, hsite', hspot⟩ := Option.map_eq_some_iff.1 hsite.symm
    cases site with
    | replace => cases hspot
    | insert pre' post' =>
      have hspot := Option.some.inj hspot
      obtain ⟨hs, hnew⟩ := h pre' post' hsite'
      have hother : ¬(Toml.itemBelow a k).conflicts (Toml.itemBelow pre' e.key) := by
        rcases editSite_cases hsite' with ⟨_, _, _, hno, -⟩ | ⟨_, _, heq, hls, -⟩
        · cases hno
        · cases heq
          exact Toml.itemBelow_not_conflicts hne hls hfree hnew
      rw [Toml.itemBelow_congr hspot] at hnew hother
      refine ⟨congrArg (·.1.nest) hspot ▸ hs, fun i hi => ?_⟩
      rcases (hmem i).1 hi with rfl | hi
      · exact hother
      · exact hnew i hi

/-! ## All edits -/

theorem KeyEdit.onLines_cases (h : e.onLines ls = some ls') :
    ∃ a b, ls' = a ++ keyLine e.key e.value :: b ∧
      (ls = a ++ b ∨ ∃ old, Toml.IsPairLine e.key old ∧ ls = a ++ old :: b) := by
  obtain ⟨site, hsite, rfl⟩ := Option.map_eq_some_iff.1 h
  rcases editSite_cases hsite with ⟨pre, old, post, rfl, hls, hold⟩ | ⟨pre, post, rfl, hls, -⟩
  · exact ⟨pre, post, rfl, .inr ⟨old, hold, hls⟩⟩
  · exact ⟨pre, post, rfl, .inl hls⟩

/-- The edits have keys of their own, and none goes after the line of an earlier one. -/
def Independent (es : List KeyEdit) : Prop :=
  es.Pairwise fun e e' => e.key ≠ e'.key ∧ e'.afterKey ≠ some e.key

/-- A property that does not see the lines of the edited key is kept. -/
theorem KeyEdit.onLines_iff (h : e.onLines ls = some ls') {P : List Text → Prop}
    (hP : ∀ x, Toml.IsPairLine e.key x → ∀ a b, P (a ++ x :: b) ↔ P (a ++ b)) : P ls' ↔ P ls := by
  obtain ⟨a, b, rfl, hls⟩ := e.onLines_cases h
  rw [hP _ (isPairLine_keyLine e.key e.value)]
  rcases hls with rfl | ⟨old, hold, rfl⟩
  · exact Iff.rfl
  · exact (hP old hold a b).symm

theorem readsPairs_onLines {es : List KeyEdit} (he : e.Proper) (h : e.onLines ls = some ls')
    (hes : ∀ e' ∈ es, Toml.IsBareKey e'.key) (hne : ∀ e' ∈ es, e.key ≠ e'.key)
    (hpairs : ∀ e' ∈ es, ReadsPairs e'.key ls) : ∀ e' ∈ es, ReadsPairs e'.key ls' := fun e' he' =>
  (e.onLines_iff h fun _ hx a b =>
    readsPairs_pairLine he.key hx (hes e' he') (hne e' he') a b).2 (hpairs e' he')

/-- **The edited config is accepted** exactly when each edit is in order for the config itself. -/
theorem accepted_edits {es : List KeyEdit} (hes : ∀ e ∈ es, e.Proper) (hind : Independent es)
    (h : es.foldlM (fun ls e => e.onLines ls) ls = some ls')
    (hpairs : ∀ e ∈ es, ReadsPairs e.key ls) :
    Toml.Accepted ls' ↔ Toml.Accepted ls ∧ ∀ e ∈ es, e.InOrder ls := by
  induction es generalizing ls with
  | nil =>
    cases h
    simp
  | cons e es ih =>
    rw [List.foldlM_cons] at h
    obtain ⟨ls₁, hstep, hrest⟩ := Option.bind_eq_some_iff.1 h
    obtain ⟨he, hes⟩ := List.forall_mem_cons.1 hes
    obtain ⟨hfirst, hind⟩ := List.pairwise_cons.1 hind
    obtain ⟨hpair, hpairs⟩ := List.forall_mem_cons.1 hpairs
    have haccepted := he.accepted_onLines hstep hpair
    have hpairs₁ := readsPairs_onLines he hstep (fun e' he' => (hes e' he').key)
      (fun e' he' => (hfirst e' he').1) hpairs
    obtain ⟨a, b, rfl, hls⟩ := e.onLines_cases hstep
    have hx := isPairLine_keyLine e.key e.value
    rw [ih hes hind hrest hpairs₁, haccepted, List.forall_mem_cons, and_assoc]
    refine and_congr_right fun hacc => and_congr_right fun hin => forall₂_congr fun e' he' => ?_
    rw [(hes e' he').inOrder_pairLine he.key hx (hfirst e' he').1 (hfirst e' he').2
      (haccepted.2 ⟨hacc, hin⟩)]
    rcases hls with rfl | ⟨old, hold, rfl⟩
    · exact Iff.rfl
    · exact ((hes e' he').inOrder_pairLine he.key hold (hfirst e' he').1 (hfirst e' he').2 hacc).symm

/-! ## The line of the number -/

/-- The line is neither a header nor blank nor a line of the number. -/
structure Neutral (l : Text) : Prop where
  header : l.head? ≠ some '['
  white : isWhiteLine l = false
  number : isIdLine l = false
  indented : isIdLine (l.dropWhile Py.Re.isWhite) = false

theorem isBaseLine_head (h : isBaseLine l = true) : l.head? = some '[' := by
  obtain ⟨t, rfl⟩ := List.isPrefixOf_iff_prefix.1 h
  rfl

theorem isBaseLine_white (h : isWhiteLine l = true) : isBaseLine l = false := by
  by_contra hbase
  obtain ⟨t, rfl⟩ := List.isPrefixOf_iff_prefix.1 (show isBaseLine l = true by simpa using hbase)
  rw [isWhiteLine, List.all_append] at h
  cases h

theorem key_of_isIdLine (h : isIdLine l = true) :
    ∃ c t, Toml.isBareChar c = false ∧ l = "id" ++ c :: t := by
  rw [isIdLine, Bool.and_eq_true, List.isPrefixOf_iff_prefix] at h
  obtain ⟨⟨rest, rfl⟩, h⟩ := h
  have hdrop : ("id" ++ rest).drop 2 = rest := rfl
  rw [hdrop] at h
  cases rest with
  | nil => cases h
  | cons c t =>
    refine ⟨c, t, ?_, rfl⟩
    by_contra hc
    have hwhite := isWhite_bare (by simpa using hc)
    rw [List.dropWhile_cons, hwhite] at h
    split at h
    · rename_i heq
      have hcons : c :: t = '=' :: _ := heq
      rw [(List.cons.inj hcons).1] at hc
      exact hc rfl
    · cases h

theorem neutral_pairLine (hk : Toml.IsBareKey k) (hid : k ≠ "id") (hl : Toml.IsPairLine k l) :
    Neutral l := by
  have hnumber : isIdLine l = false := by
    by_contra h
    obtain ⟨c, t, hc, heq⟩ := key_of_isIdLine (show isIdLine l = true by simpa using h)
    obtain ⟨m, rfl⟩ := hl
    have hline : Toml.stringPair k m = k ++ ' ' :: ("= \"" ++ m ++ ['"']) := by
      simp [Toml.stringPair]
    have hkey := (Toml.takeWhile_bare hk (c := ' ') (by decide) ("= \"" ++ m ++ ['"'])).1
    have hid' : Toml.IsBareKey "id" := by decide
    have hother := (Toml.takeWhile_bare hid' hc t).1
    rw [← heq, hline, hkey] at hother
    exact hid hother
  obtain ⟨c, t, rfl, hc⟩ := head_pairLine hk hl
  have hwhite := isWhite_bare hc
  have hopen : c ≠ '[' := (Toml.isBareChar_ne hc).2.2.2.2.1
  refine ⟨?_, ?_, hnumber, ?_⟩
  · simpa using hopen
  · simp [isWhiteLine, hwhite]
  · rwa [List.dropWhile_cons, hwhite]

theorem firstId_neutral {x : Toml.Reading} (hx : Neutral x.line) (fresh : Bool)
    (rs : List Toml.Reading) : firstId fresh (x :: rs) = firstId false rs := by
  have hno : isIdLine (if fresh = true then x.line.dropWhile Py.Re.isWhite else x.line) = false := by
    split
    · exact hx.indented
    · exact hx.number
  rw [firstId, if_neg hx.header, hno, if_neg Bool.false_ne_true, hx.white, Bool.and_false]

theorem firstId_insert {x : Toml.Reading} (hx : Neutral x.line) {fresh : Bool}
    {rs : List Toml.Reading} (h : fresh = false ∨ ∃ r ∈ rs, isWhiteLine r.line = false)
    (rs' : List Toml.Reading) : firstId fresh (rs ++ x :: rs') = firstId fresh (rs ++ rs') := by
  induction rs generalizing fresh with
  | nil =>
    rcases h with rfl | ⟨r, hr, -⟩
    · exact firstId_neutral hx false rs'
    · cases hr
  | cons r rs ih =>
    have hnext : (fresh && isWhiteLine r.line) = false ∨ ∃ r ∈ rs, isWhiteLine r.line = false := by
      rcases h with rfl | ⟨r', hr', hwhite⟩
      · exact .inl rfl
      · rcases List.mem_cons.1 hr' with rfl | hr'
        · exact .inl (by rw [hwhite, Bool.and_false])
        · exact .inr ⟨r', hr', hwhite⟩
    rw [List.cons_append, List.cons_append, firstId, firstId, ih hnext]

theorem firstId_exchange {x y : Toml.Reading} (hx : Neutral x.line) (hy : Neutral y.line)
    (fresh : Bool) (rs rs' : List Toml.Reading) :
    firstId fresh (rs ++ x :: rs') = firstId fresh (rs ++ y :: rs') := by
  induction rs generalizing fresh with
  | nil => rw [List.nil_append, List.nil_append, firstId_neutral hx, firstId_neutral hy]
  | cons r rs ih => rw [List.cons_append, List.cons_append, firstId, firstId, ih]

theorem isBaseLine_neutral (h : Neutral l) : isBaseLine l = false := by
  by_contra hbase
  exact h.header (isBaseLine_head (by simpa using hbase))

theorem idReading_append {rs : List Toml.Reading} (h : ∀ r ∈ rs, isBaseLine r.line = false)
    (rs' : List Toml.Reading) : idReading (rs ++ rs') = idReading rs' := by
  induction rs with
  | nil => rfl
  | cons r rs ih =>
    obtain ⟨hr, h⟩ := List.forall_mem_cons.1 h
    rw [List.cons_append, idReading, hr, if_neg Bool.false_ne_true, ih h]

theorem idReading_neutral {x : Toml.Reading} (hx : Neutral x.line) (rs : List Toml.Reading) :
    idReading (x :: rs) = idReading rs := by
  rw [idReading, isBaseLine_neutral hx, if_neg Bool.false_ne_true]

theorem idReading_exchange {x y : Toml.Reading} (hx : Neutral x.line) (hy : Neutral y.line)
    (rs rs' : List Toml.Reading) : idReading (rs ++ x :: rs') = idReading (rs ++ y :: rs') := by
  induction rs with
  | nil => rw [List.nil_append, List.nil_append, idReading_neutral hx, idReading_neutral hy]
  | cons r rs ih =>
    rw [List.cons_append, List.cons_append, idReading, idReading, firstId_exchange hx hy, ih]

theorem idReading_insert {x r : Toml.Reading} (hx : Neutral x.line) (hwhite : isWhiteLine r.line = false)
    (hbase : isBaseLine r.line = false) {ws : List Toml.Reading}
    (hws : ∀ w ∈ ws, isWhiteLine w.line = true) (rs rs' : List Toml.Reading) :
    idReading (rs ++ r :: (ws ++ x :: rs')) = idReading (rs ++ r :: (ws ++ rs')) := by
  have hskip : ∀ r' ∈ r :: ws, isBaseLine r'.line = false :=
    List.forall_mem_cons.2 ⟨hbase, fun w hw => isBaseLine_white (hws w hw)⟩
  induction rs with
  | nil =>
    simp only [List.nil_append, ← List.cons_append]
    rw [idReading_append hskip, idReading_append hskip, idReading_neutral hx]
  | cons b rs ih =>
    have hfirst : ∀ fresh, firstId fresh (rs ++ r :: (ws ++ x :: rs')) =
        firstId fresh (rs ++ r :: (ws ++ rs')) := by
      intro fresh
      have h := @firstId_insert x hx fresh (rs ++ r :: ws)
        (.inr ⟨r, List.mem_append_right _ List.mem_cons_self, hwhite⟩) rs'
      simpa using h
    rw [List.cons_append, List.cons_append, idReading, idReading, hfirst, ih]

theorem editSite_insert {afterKey : Option Text} {pre post : List Text}
    (h : editSite key afterKey ls = some (.insert pre post)) :
    ∃ p l ws, pre = p ++ l :: ws ∧ (∀ w ∈ ws, isWhiteLine w = true) ∧
      (isSectionLine l = true ∨ ∃ k ∈ afterKey, isAfterLine k l = true) := by
  rw [editSite] at h
  split at h
  · cases h
  · split at h
    · rename_i p l q hafter
      cases h
      obtain ⟨k, hk, hsplit⟩ := Option.bind_eq_some_iff.1 hafter
      exact ⟨p, l, [], rfl, List.forall_mem_nil _, .inr ⟨k, hk, (splitAtFirst_some hsplit).2.1⟩⟩
    · obtain ⟨⟨p, l, q⟩, hsec, he⟩ := Option.map_eq_some_iff.1 h
      cases he
      exact ⟨p, l, _, rfl, fun w hw => List.mem_takeWhile_imp hw, .inl (splitAtFirst_some hsec).2.1⟩

theorem not_white_site (h : isSectionLine l = true) :
    isWhiteLine l = false ∧ isBaseLine l = false := by
  rw [isSectionLine, Bool.and_eq_true, List.isPrefixOf_iff_prefix] at h
  obtain ⟨⟨t, rfl⟩, -⟩ := h
  exact ⟨rfl, rfl⟩

theorem not_white_afterLine (hk : Toml.IsBareKey k) (h : isAfterLine k l = true) :
    isWhiteLine l = false ∧ isBaseLine l = false := by
  obtain ⟨t, rfl⟩ := List.isPrefixOf_iff_prefix.1 h
  obtain ⟨c, k, rfl⟩ := List.exists_cons_of_ne_nil hk.1
  have hc : Toml.isBareChar c = true := List.all_eq_true.1 hk.2 c List.mem_cons_self
  have hopen : c ≠ '[' := (Toml.isBareChar_ne hc).2.2.2.2.1
  refine ⟨by simp [isWhiteLine, isWhite_bare hc], ?_⟩
  rw [Bool.eq_false_iff]
  intro hbase
  exact hopen (Option.some.inj (isBaseLine_head hbase))

/-- **The line of the number stays** where it is under an edit. -/
theorem KeyEdit.Proper.idReading_onLines (he : e.Proper) (hid : e.key ≠ "id")
    (h : e.onLines ls = some ls') :
    idReading (Toml.readings ls') = idReading (Toml.readings ls) := by
  obtain ⟨site, hsite, rfl⟩ := Option.map_eq_some_iff.1 h
  have hline := isPairLine_keyLine e.key e.value
  have hneutral := neutral_pairLine he.key hid hline
  rcases editSite_cases hsite with ⟨pre, old, post, rfl, rfl, hold⟩ | ⟨pre, post, rfl, rfl, -⟩
  · rw [Edit.apply, readings_pairLine he.key hline, readings_pairLine he.key hold]
    exact idReading_exchange hneutral (neutral_pairLine he.key hid hold) _ _
  · obtain ⟨p, l, ws, rfl, hws, hl⟩ := editSite_insert hsite
    have hl' : isWhiteLine l = false ∧ isBaseLine l = false := by
      rcases hl with hl | ⟨k, hk, hl⟩
      · exact not_white_site hl
      · exact not_white_afterLine (he.afterKey k hk) hl
    have hpre : Toml.readings (p ++ l :: ws) = Toml.readings p ++ Toml.readingAt p l ::
        Toml.readLines (Toml.readLine (Toml.start.after p) l).2 ws := Toml.readings_around _ _ _
    have hwhite : ∀ w ∈ Toml.readLines (Toml.readLine (Toml.start.after p) l).2 ws,
        isWhiteLine w.line = true := by
      intro w hw
      refine hws _ ?_
      rw [← Toml.map_line_readLines (Toml.readLine (Toml.start.after p) l).2 ws]
      exact List.mem_map_of_mem hw
    have hsplit : Toml.readings (p ++ l :: ws ++ post) = Toml.readings (p ++ l :: ws) ++
        Toml.readLines (Toml.start.after (p ++ l :: ws)) post := Toml.readLines_append _ _ _
    rw [Edit.apply, readings_pairLine he.key hline, hsplit, hpre]
    simp only [List.append_assoc, List.cons_append]
    exact idReading_insert hneutral hl'.1 hl'.2 hwhite _ _

theorem not_isPair_pairLine (hk : Toml.IsBareKey k) (hx : Toml.IsPairLine k x) (hne : k ≠ key)
    (a : List Text) : (Toml.readingAt a x).role.isPair key = false := by
  rcases Toml.readLine_pairLine_cases (Toml.start_after_head a) hk hx with hbad | ⟨-, w, hw⟩
  · rw [Toml.readingAt, hbad]
    rfl
  · rw [Toml.readingAt, hw]
    simpa [Toml.Role.isPair] using hne

theorem KeyEdit.Proper.mem_onLines (he : e.Proper) (hne : e.key ≠ key) (h : e.onLines ls = some ls')
    {r : Toml.Reading} (hr : r.role.isPair key = true) :
    r ∈ Toml.readings ls' ↔ r ∈ Toml.readings ls := by
  have haround : ∀ {x : Text}, Toml.IsPairLine e.key x → ∀ a b : List Text,
      r ∈ Toml.readings (a ++ x :: b) ↔ r ∈ Toml.readings (a ++ b) := by
    intro x hx a b
    have hsplit : Toml.readings (a ++ b) = Toml.readings a ++ Toml.readLines (Toml.start.after a) b :=
      Toml.readLines_append _ _ _
    have hother : r ≠ Toml.readingAt a x := by
      rintro rfl
      rw [not_isPair_pairLine he.key hx hne] at hr
      cases hr
    rw [readings_pairLine he.key hx, hsplit, List.mem_append, List.mem_append, List.mem_cons]
    exact or_congr_right (or_iff_right hother)
  obtain ⟨a, b, rfl, hls⟩ := e.onLines_cases h
  rw [haround (isPairLine_keyLine e.key e.value)]
  rcases hls with rfl | ⟨old, hold, rfl⟩
  · exact Iff.rfl
  · exact (haround hold a b).symm

/-- The edits of other keys keep the pairs `id = …` and the line the number is taken from. -/
theorem idReading_edits {es : List KeyEdit} (hes : ∀ e ∈ es, e.Proper ∧ e.key ≠ "id")
    (h : es.foldlM (fun ls e => e.onLines ls) ls = some ls') :
    idReading (Toml.readings ls') = idReading (Toml.readings ls) ∧
      ∀ r : Toml.Reading, r.role.isPair "id" = true →
        (r ∈ Toml.readings ls' ↔ r ∈ Toml.readings ls) := by
  induction es generalizing ls with
  | nil =>
    cases h
    exact ⟨rfl, fun _ _ => Iff.rfl⟩
  | cons e es ih =>
    rw [List.foldlM_cons] at h
    obtain ⟨ls₁, hstep, hrest⟩ := Option.bind_eq_some_iff.1 h
    obtain ⟨⟨he, hid⟩, hes⟩ := List.forall_mem_cons.1 hes
    obtain ⟨hfirst, hmem⟩ := ih hes hrest
    exact ⟨hfirst.trans (he.idReading_onLines hid hstep),
      fun r hr => (hmem r hr).trans (he.mem_onLines hid hstep hr)⟩

end Gen.StaticConfig
