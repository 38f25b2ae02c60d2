import AxvisorTools.Py.Proof.Basic
import AxvisorTools.Py.Str
import Mathlib.Data.Nat.Digits.Defs
import Mathlib.Tactic.Positivity
import Mathlib.Tactic.Ring

/-!
# Numbers in a radix

`ofDigits` reads back what `Nat.toDigits` writes, with any number of zeros before it
(`ofDigits_leftpad`). `leftpad_prefix_iff` says when the digits of a number start those of another, and
`intOfDigits_eq` that `int` reads ASCII digits so.
-/

namespace Py

variable {base : Nat}

theorem digitValue_digitChar : ∀ n < 16, digitValue (Nat.digitChar n) = some n := by decide

theorem digit?_digitChar (hb : base ≤ 16) {n : Nat} (hn : n < base) :
    digit? base (Nat.digitChar n) = some n := by
  rw [digit?, digitValue_digitChar n (by omega)]
  exact Option.filter_some_pos (by simpa using hn)

theorem ofDigits_append (acc : Nat) (s t : Text) :
    ofDigits base acc (s ++ t) = ofDigits base (ofDigits base acc s) t := List.foldl_append

theorem ofDigits_toDigits (hb : 1 < base) (hb' : base ≤ 16) (n : Nat) :
    ofDigits base 0 (Nat.toDigits base n) = n := by
  induction n using Nat.strongRecOn with
  | ind n ih =>
    by_cases hn : n < base
    · rw [Nat.toDigits_of_lt_base hn]
      simp [ofDigits, digit?_digitChar hb' hn]
    · have hmod : n % base < base := Nat.mod_lt n (by omega)
      have hdiv : n / base < n := Nat.div_lt_self (by omega) hb
      rw [Nat.toDigits_of_base_le hb (by omega), ofDigits_append, ih _ hdiv]
      simp only [ofDigits, List.foldl_cons, List.foldl_nil, digit?_digitChar hb' hmod,
        Option.getD_some]
      exact Nat.div_add_mod' n base

theorem digit_of_mem_toDigits (hb : 1 < base) (hb' : base ≤ 16) (n : Nat) :
    ∀ c ∈ Nat.toDigits base n, (digit? base c).isSome = true := by
  induction n using Nat.strongRecOn with
  | ind n ih =>
    intro c hc
    by_cases hn : n < base
    · rw [Nat.toDigits_of_lt_base hn, List.mem_singleton] at hc
      rw [hc, digit?_digitChar hb' hn]
      rfl
    · have hmod : n % base < base := Nat.mod_lt n (by omega)
      rw [Nat.toDigits_of_base_le hb (by omega)] at hc
      rcases List.mem_append.1 hc with hc | hc
      · exact ih _ (Nat.div_lt_self (by omega) hb) c hc
      · rw [List.mem_singleton.1 hc, digit?_digitChar hb' hmod]
        rfl

theorem digit?_zero (hb : 0 < base) : digit? base '0' = some 0 :=
  Option.filter_some_pos (by simpa using hb)

theorem ofDigits_zeros (hb : 0 < base) (k : Nat) (t : Text) :
    ofDigits base 0 (List.replicate k '0' ++ t) = ofDigits base 0 t := by
  induction k with
  | zero => rfl
  | succ k ih =>
    rw [List.replicate_succ, List.cons_append]
    simp only [ofDigits, List.foldl_cons, digit?_zero hb, Option.getD_some] at ih ⊢
    simpa using ih

theorem ofDigits_leftpad (hb : 1 < base) (hb' : base ≤ 16) (k n : Nat) :
    ofDigits base 0 ((Nat.toDigits base n).leftpad k '0') = n := by
  rw [List.leftpad, ofDigits_zeros (by omega), ofDigits_toDigits hb hb']

theorem digit_of_mem_leftpad (hb : 1 < base) (hb' : base ≤ 16) (k n : Nat) :
    ∀ c ∈ (Nat.toDigits base n).leftpad k '0', (digit? base c).isSome = true := by
  intro c hc
  rcases List.mem_append.1 hc with hc | hc
  · rw [List.eq_of_mem_replicate hc, digit?_zero (by omega)]
    rfl
  · exact digit_of_mem_toDigits hb hb' n c hc

theorem hexDigit_of_mem_leftpad (k n : Nat) :
    ∀ c ∈ (Nat.toDigits 16 n).leftpad k '0', (digit? 16 c).isSome = true :=
  digit_of_mem_leftpad (by decide) (by decide) k n

theorem leftpad_ne_nil (k n : Nat) : (Nat.toDigits base n).leftpad k '0' ≠ [] := by
  intro h
  exact Nat.toDigits_ne_nil (List.append_eq_nil_iff.1 h).2

/-! ## Formatting -/

theorem formatHex_natCast (width n : Nat) :
    formatHex width (n : Int) = (Nat.toDigits 16 n).leftpad width '0' := by
  rw [formatHex, if_neg (by omega)]
  rfl

theorem mem_formatHex {width : Nat} {n : Int} {c : Char} (h : c ∈ formatHex width n) :
    c = '-' ∨ (digit? 16 c).isSome = true := by
  unfold formatHex at h
  split at h
  · rcases List.mem_cons.1 h with h | h
    · exact .inl h
    · exact .inr (hexDigit_of_mem_leftpad _ _ c h)
  · exact .inr (hexDigit_of_mem_leftpad _ _ c h)

theorem str_ne_nil (n : Int) : str n ≠ [] := by
  unfold str
  split
  · exact List.cons_ne_nil _ _
  · exact Nat.toDigits_ne_nil

theorem formatHex_ne_nil (width : Nat) (n : Int) : formatHex width n ≠ [] := by
  unfold formatHex
  split
  · exact List.cons_ne_nil _ _
  · exact leftpad_ne_nil _ _

/-! ## Prefixes -/

theorem ofDigits_acc (t : Text) (acc : Nat) :
    ofDigits base acc t = acc * base ^ t.length + ofDigits base 0 t := by
  induction t generalizing acc with
  | nil => simp [ofDigits]
  | cons c t ih =>
    have hcons : ∀ n, ofDigits base n (c :: t) =
        ofDigits base (n * base + (digit? base c).getD 0) t := fun _ => rfl
    rw [hcons, hcons, ih, ih (0 * base + _), List.length_cons, Nat.pow_succ]
    ring

theorem ofDigits_lt {t : Text} (h : ∀ c ∈ t, (digit? base c).isSome = true) :
    ofDigits base 0 t < base ^ t.length := by
  induction t with
  | nil => exact Nat.one_pos
  | cons c t ih =>
    obtain ⟨d, hd⟩ := Option.isSome_iff_exists.1 (h c List.mem_cons_self)
    have hlt : d < base := (digitValue_of_digit? hd).2
    have ht := ih fun e he => h e (List.mem_cons_of_mem _ he)
    have hcons : ofDigits base 0 (c :: t) = ofDigits base d t := by simp [ofDigits, hd]
    rw [hcons, ofDigits_acc, List.length_cons, Nat.pow_succ]
    calc d * base ^ t.length + ofDigits base 0 t
        < d * base ^ t.length + base ^ t.length := Nat.add_lt_add_left ht _
      _ = (d + 1) * base ^ t.length := by ring
      _ ≤ base * base ^ t.length := Nat.mul_le_mul_right _ hlt
      _ = base ^ t.length * base := Nat.mul_comm _ _

theorem ofDigits_div {t : Text} (h : ∀ c ∈ t, (digit? base c).isSome = true) (acc : Nat) :
    ofDigits base acc t / base ^ t.length = acc := by
  have hlt := ofDigits_lt h
  have hpos : 0 < base ^ t.length := by omega
  rw [ofDigits_acc, Nat.mul_comm, Nat.mul_add_div hpos, Nat.div_eq_of_lt hlt, Nat.add_zero]

theorem toDigits_append (hb : 1 < base) {n k : Nat} (h : 0 < n / base ^ k) :
    ∃ t, Nat.toDigits base n = Nat.toDigits base (n / base ^ k) ++ t ∧ t.length = k := by
  induction k with
  | zero => exact ⟨[], by simp, rfl⟩
  | succ k ih =>
    have hdiv : n / base ^ (k + 1) = n / base ^ k / base := by
      rw [Nat.pow_succ, Nat.div_div_eq_div_mul]
    rw [hdiv] at h
    have hle : base ≤ n / base ^ k := by
      by_contra hlt
      rw [Nat.div_eq_of_lt (by omega)] at h
      cases h
    obtain ⟨t, ht, hlen⟩ := ih (by omega)
    refine ⟨Nat.digitChar (n / base ^ k % base) :: t, ?_, by simp [hlen]⟩
    rw [ht, Nat.toDigits_of_base_le hb hle, hdiv, List.append_assoc]
    rfl

theorem le_length_toDigits {n k : Nat} (h : 16 ^ k ≤ n) : k < (Nat.toDigits 16 n).length := by
  have hlt := ofDigits_lt (digit_of_mem_toDigits (by decide : 1 < 16) (by decide) n)
  rw [ofDigits_toDigits (by decide) (by decide)] at hlt
  exact (Nat.pow_lt_pow_iff_right (by decide)).1 (Nat.lt_of_le_of_lt h hlt)

theorem leftpad_prefix_iff (w v n : Nat) :
    (Nat.toDigits 16 v).leftpad (w + 1) '0' <+: (Nat.toDigits 16 n).leftpad (w + 1) '0' ↔
      v = n ∨ 16 ^ w ≤ v ∧ ∃ k, 0 < k ∧ n / 16 ^ k = v := by
  constructor
  · intro ⟨t, ht⟩
    have hdigits : ∀ c ∈ t, (digit? 16 c).isSome = true := fun c hc =>
      hexDigit_of_mem_leftpad (w + 1) n c (ht ▸ List.mem_append_right _ hc)
    have hn : ofDigits 16 v t = n := by
      rw [← ofDigits_leftpad (by decide : 1 < 16) (by decide) (w + 1) n, ← ht, ofDigits_append,
        ofDigits_leftpad (by decide) (by decide)]
    have hdiv : n / 16 ^ t.length = v := hn ▸ ofDigits_div hdigits v
    rcases Nat.eq_zero_or_pos t.length with hzero | hpos
    · left
      rw [hzero, Nat.pow_zero, Nat.div_one] at hdiv
      exact hdiv.symm
    · right
      refine ⟨?_, t.length, hpos, hdiv⟩
      have hlen := congrArg List.length ht
      rw [List.length_append, List.length_leftpad, List.length_leftpad] at hlen
      have hbound : 16 ^ (w + t.length) ≤ n := by
        by_contra hlt
        have hle := Nat.toDigits_length 16 n (w + t.length) (by omega) (by omega)
        omega
      rw [← hdiv, Nat.le_div_iff_mul_le (by positivity), ← Nat.pow_add]
      exact hbound
  · intro h
    rcases h with rfl | ⟨hle, k, hk, rfl⟩
    · exact List.prefix_rfl
    · obtain ⟨t, ht, -⟩ := toDigits_append (by decide : 1 < 16) (n := n) (k := k)
        (Nat.lt_of_lt_of_le (by positivity) hle)
      have hlen := le_length_toDigits hle
      have hfull : ∀ m, w < (Nat.toDigits 16 m).length →
          (Nat.toDigits 16 m).leftpad (w + 1) '0' = Nat.toDigits 16 m := by
        intro m hm
        rw [List.leftpad, Nat.sub_eq_zero_of_le hm]
        rfl
      rw [hfull _ hlen, hfull n, ht]
      · exact List.prefix_append _ _
      · rw [ht, List.length_append]
        omega

/-! ## The class `\d` -/

theorem decimal?_of_isDigit {c : Char} (h : c.isDigit = true) :
    decimal? c = some (c.toNat - '0'.toNat) := by
  have h48 : 48 ≤ c.toNat ∧ c.toNat < 48 + 10 := by
    simp only [Char.isDigit, Bool.and_eq_true, decide_eq_true_eq, UInt32.le_iff_toNat_le] at h
    exact ⟨h.1, Nat.lt_succ_of_le h.2⟩
  rw [decimal?, decimalZeros, List.find?_cons_of_pos (by simpa using h48)]
  rfl

theorem decimal?_of_digit? {c : Char} {d : Nat} (h : digit? 10 c = some d) : decimal? c = some d := by
  obtain ⟨hvalue, hlt⟩ := digitValue_of_digit? h
  unfold digitValue at hvalue
  split at hvalue
  · rename_i hc
    cases hvalue
    have hdigit : (decide ('0'.val ≤ c.val) && decide (c.val ≤ '9'.val)) = true := by
      rw [Bool.and_eq_true, decide_eq_true_eq, decide_eq_true_eq]
      exact hc
    exact decimal?_of_isDigit hdigit
  · split at hvalue
    · cases hvalue
      omega
    · split at hvalue
      · cases hvalue
        omega
      · cases hvalue

theorem intOfDigits_eq {t : Text} (h : ∀ c ∈ t, (digit? 10 c).isSome = true) {n : Nat}
    (hn : intOfDigits t = some n) : n = ofDigits 10 0 t := by
  have hmap : t.mapM decimal? = some (t.map fun c => (digit? 10 c).getD 0) := by
    refine mapM_some fun c hc => ?_
    obtain ⟨d, hd⟩ := Option.isSome_iff_exists.1 (h c hc)
    rw [decimal?_of_digit? hd, hd]
    rfl
  obtain ⟨-, hn⟩ := Option.ite_none_right_eq_some.1 hn
  rw [hmap, Option.map_some, List.foldl_map] at hn
  exact (Option.some.inj hn).symm

theorem decimal?_white {c : Char} (h : (decimal? c).isSome = true) : Re.isWhite c = false := by
  have hzeros : ∀ z ∈ decimalZeros, ∀ i < 10, Re.isWhite (Char.ofNat (z + i)) = false := by
    decide +kernel
  rw [decimal?, Option.isSome_map, List.find?_isSome] at h
  obtain ⟨z, hz, hrange⟩ := h
  rw [decide_eq_true_eq] at hrange
  have hc : c = Char.ofNat (z + (c.toNat - z)) := by
    rw [Nat.add_sub_cancel' hrange.1, Char.ofNat_toNat]
  rw [hc]
  exact hzeros z hz _ (by omega)

end Py
