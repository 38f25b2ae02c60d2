import AxvisorTools.Gen.Proof.KernelKey
import AxvisorTools.Text.Proof.Matches

/-!
# Writing a kernel key twice

`rewriteKernelKey_site`: where a rewriting edits a text does not depend on the value it writes, for
any `after_key`. So the line of the first write is the line the second one replaces.
-/

namespace Gen.KernelKey

open Regex

theorem kernelSection_ends_line {b x y : Text} {g : List (Nat × Text)}
    (h : Matches kernelSection b x y g) : y.head?.all (· == '\n') = true := by
  obtain ⟨_, _, _, _, -, -, -, hlit⟩ := matches_seq_iff.1 h
  obtain ⟨_, _, _, _, -, -, -, hspace⟩ := matches_seq_iff.1 hlit
  obtain ⟨_, _, _, _, -, -, -, heol⟩ := matches_seq_iff.1 hspace
  exact (matches_look_iff.1 heol).1

theorem afterPattern_ends_line {k b x y : Text} {g : List (Nat × Text)}
    (h : Matches (afterPattern k) b x y g) :
    y.head?.all (· == '\n') = true ∧ g.lookup 1 = some x := by
  obtain ⟨u, v, gu, gv, rfl, rfl, hbol, hbody⟩ := matches_seq_iff.1 h
  obtain ⟨-, rfl, rfl⟩ := matches_look_iff.1 hbol
  obtain ⟨u, w, gu, gw, rfl, rfl, hgroup, heol⟩ := matches_seq_iff.1 hbody
  obtain ⟨hy, rfl, rfl⟩ := matches_look_iff.1 heol
  obtain ⟨g', rfl, -⟩ := matches_group_iff.1 hgroup
  exact ⟨hy, by simp⟩

section

variable (message : String) (text : Text) {key : Text} (hk : '\n' ∉ key) (hkb : '\\' ∉ key)
include hk hkb

theorem rewriteKernelKey_replaces {pre post : List Text} {old : Text}
    (hsite : splitAtFirst (isKeyLine key) (lines text) = some (pre, old, post)) {value : Text}
    (hvb : '\\' ∉ value) (afterKey : Option Text) :
    rewriteKernelKey message text key value afterKey =
      .ok (unlines (pre ++ keyLine key value :: post)) := by
  have hb : '\\' ∉ keyLine key value := by simp [keyLine, hkb, hvb]
  have hkey := search_keyPattern hk (unbroken_lines text) (lines_ne_nil text)
  rw [unlines_lines, hsite] at hkey
  unfold rewriteKernelKey
  simp only [Py.Re.subn1_plain _ hb, hkey, Option.map_some]
  rw [unlines_insert]

/-- Both insertions put the line at the end of another one. -/
theorem rewriteKernelKey_inserts (hsite : splitAtFirst (isKeyLine key) (lines text) = none)
    (afterKey : Option Text) :
    (∀ value, '\\' ∉ value →
      rewriteKernelKey message text key value afterKey = .error (.systemExit message)) ∨
    ∃ a y, text = a ++ y ∧ y.head?.all (· == '\n') = true ∧ ∀ value, '\\' ∉ value →
      rewriteKernelKey message text key value afterKey =
        .ok (a ++ '\n' :: (keyLine key value ++ y)) := by
  have hkey := search_keyPattern hk (unbroken_lines text) (lines_ne_nil text)
  rw [unlines_lines, hsite] at hkey
  have hb : ∀ value, '\\' ∉ value → '\\' ∉ keyLine key value := fun value hvb => by
    simp [keyLine, hkb, hvb]
  cases hafter : afterKey.bind fun k => search (afterPattern k) text with
  | some r =>
    obtain ⟨start, e⟩ := r
    obtain ⟨k, rfl, hsearch⟩ := Option.bind_eq_some_iff.1 hafter
    obtain ⟨x, y, g, htext, hm, rfl⟩ := search_some hsearch
    obtain ⟨hy, hgroup⟩ := afterPattern_ends_line hm
    refine .inr ⟨start ++ x, y, by rw [htext, List.append_assoc], hy, fun value hvb => ?_⟩
    unfold rewriteKernelKey
    simp only [Py.Re.subn1_plain _ (hb value hvb), hkey, Option.map_none,
      Py.Re.subn1_group _ (hb value hvb), hsearch, Option.map_some]
    simp [Py.Re.groupText, hgroup]
  | none =>
    have heq : ∀ value, '\\' ∉ value → rewriteKernelKey message text key value afterKey =
        insertInSection message text (keyLine key value) := by
      intro value hvb
      unfold rewriteKernelKey
      cases afterKey with
      | none => simp only [Py.Re.subn1_plain _ (hb value hvb), hkey, Option.map_none]
      | some k =>
        rw [Option.bind_some] at hafter
        simp only [Py.Re.subn1_plain _ (hb value hvb), hkey, Option.map_none,
          Py.Re.subn1_group _ (hb value hvb), hafter]
    cases hsection : search kernelSection text with
    | none =>
      refine .inl fun value hvb => ?_
      rw [heq value hvb, insertInSection, hsection]
    | some r =>
      obtain ⟨start, e⟩ := r
      obtain ⟨x, y, g, htext, hm, rfl⟩ := search_some hsection
      refine .inr ⟨start ++ x, y, by rw [htext, List.append_assoc], kernelSection_ends_line hm, ?_⟩
      intro value hvb
      rw [heq value hvb, insertInSection, hsection]
      simp

/-- **Where a rewriting lands**: nowhere, or on a line that does not depend on the value. Before that
line there is no other for the key. -/
theorem rewriteKernelKey_site (afterKey : Option Text) :
    (∀ value, '\\' ∉ value →
      rewriteKernelKey message text key value afterKey = .error (.systemExit message)) ∨
    ∃ pre post, (∀ l ∈ pre, isKeyLine key l = false) ∧ ∀ value, '\\' ∉ value → '\n' ∉ value →
      ∃ result, rewriteKernelKey message text key value afterKey = .ok result ∧
        lines result = pre ++ keyLine key value :: post := by
  have hline : ∀ value, '\n' ∉ value → '\n' ∉ keyLine key value := fun value hv => by
    simp [keyLine, hk, hv]
  cases hsite : splitAtFirst (isKeyLine key) (lines text) with
  | some r =>
    obtain ⟨pre, old, post⟩ := r
    obtain ⟨htext, -, hpre⟩ := splitAtFirst_some hsite
    refine .inr ⟨pre, post, hpre, fun value hvb hv => ⟨_,
      rewriteKernelKey_replaces message text hk hkb hsite hvb afterKey, lines_unlines ?_ (by simp)⟩⟩
    have hbroken := unbroken_lines text
    rw [htext] at hbroken
    intro l hl
    rcases List.mem_append.1 hl with hl | hl
    · exact hbroken l (List.mem_append_left _ hl)
    · rcases List.mem_cons.1 hl with rfl | hl
      · exact hline value hv
      · exact hbroken l (List.mem_append_right _ (List.mem_cons_of_mem _ hl))
  | none =>
    rcases rewriteKernelKey_inserts message text hk hkb hsite afterKey with
      herror | ⟨a, y, htext, hy, hresult⟩
    · exact .inl herror
    · obtain ⟨post, hlines, hinsert⟩ := lines_at_eol (a := a) hy
      rw [← htext] at hlines
      refine .inr ⟨lines a, post, fun l hl => ?_, fun value hvb hv => ⟨_, hresult value hvb, ?_⟩⟩
      · exact splitAtFirst_none hsite l (hlines ▸ List.mem_append_left _ hl)
      · exact hinsert _ (hline value hv)

end

/-- **The last write of a key wins**: writing `value₂` over `value₁` gives the text that writing only
`value₂` gives. -/
theorem replaceOrInsertKernelKey_twice {text key value₁ value₂ result : Text} {afterKey : Option Text}
    (hk : '\n' ∉ key ∧ '\\' ∉ key) (hv₁ : '\n' ∉ value₁ ∧ '\\' ∉ value₁)
    (hv₂ : '\n' ∉ value₂ ∧ '\\' ∉ value₂)
    (h : replaceOrInsertKernelKey text key value₁ afterKey = .ok result) :
    replaceOrInsertKernelKey result key value₂ afterKey =
      replaceOrInsertKernelKey text key value₂ afterKey := by
  unfold replaceOrInsertKernelKey at h ⊢
  rcases rewriteKernelKey_site _ text hk.1 hk.2 afterKey with herror | ⟨pre, post, hpre, hsite⟩
  · rw [herror value₁ hv₁.2] at h
    cases h
  · obtain ⟨result₁, h₁, hlines₁⟩ := hsite value₁ hv₁.2 hv₁.1
    obtain ⟨result₂, h₂, hlines₂⟩ := hsite value₂ hv₂.2 hv₂.1
    rw [h₁] at h
    cases h
    -- the line of the first write is the first one for the key
    have hfirst : splitAtFirst (isKeyLine key) (lines result) =
        some (pre, keyLine key value₁, post) := by
      rw [hlines₁]
      exact splitAtFirst_append hpre (isKeyLine_keyLine key value₁)
    rw [rewriteKernelKey_replaces _ result hk.1 hk.2 hfirst hv₂.2 afterKey, h₂, ← hlines₂,
      unlines_lines]

/-- Twice the path of a kernel, in a config that has none. -/
theorem replaceOrInsertKernelKey_twice_kernelPath :
    replaceOrInsertKernelKey "[kernel]\n\nkernel_path = \"b\"" "kernel_path"
        "a" none =
      replaceOrInsertKernelKey "[kernel]\n" "kernel_path" "a" none :=
  @replaceOrInsertKernelKey_twice _ _ "b" _ _ _ (by decide) (by decide) (by decide) (by decide)

end Gen.KernelKey
