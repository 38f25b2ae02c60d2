import AxvisorTools.Dts.Print
import AxvisorTools.Dts.Read
import AxvisorTools.Py.Proof.Number

/-!
# Reading back a printed value

`Lexes t ts`: within a statement, the reader takes the text `t` for the tokens `ts`. The text of a
value lexes as its tokens (`lexes_valueText`), and their bytes are the value
(`readValues_valueTokens`).
-/

namespace Dts

open Py

variable {w : Text} {c : Char} {ws : List Text} {ss : List Bytes}

namespace Reader

variable {r : Reader}

theorem run_append (r : Reader) (s t : Text) : r.run (s ++ t) = (r.run s).bind (·.run t) :=
  List.foldlM_append

theorem run_cons (r : Reader) (c : Char) (t : Text) : r.run (c :: t) = (r.step c).bind (·.run t) :=
  List.foldlM_cons

@[simp] theorem run_nil (r : Reader) : r.run [] = some r := rfl

theorem run_singleton (r : Reader) (c : Char) : r.run [c] = r.step c := by
  rw [run_cons]
  cases r.step c <;> rfl

/-! ## Tokens -/

theorem run_blanks (hr : r.mode = .blank) {t : Text} (ht : ∀ c ∈ t, isBlank c = true) :
    r.run t = some r := by
  induction t with
  | nil => rfl
  | cons c t ih =>
    have hstep : r.step c = some r := by
      rw [step, hr]
      exact if_pos (ht c List.mem_cons_self)
    rw [run_cons, hstep]
    exact ih fun d hd => ht d (List.mem_cons_of_mem _ hd)

theorem run_word_from {u : Text} (hw : ∀ c ∈ w, r.isStop c = false) (hr : r.mode = .word u) :
    r.run w = some { r with mode := .word (u ++ w) } := by
  induction w generalizing r u with
  | nil =>
    rw [run_nil, List.append_nil, ← hr]
  | cons c w ih =>
    have hstep : r.step c = some { r with mode := .word (u ++ [c]) } := by
      rw [step, hr]
      exact if_neg (by rw [hw c List.mem_cons_self]; decide)
    rw [run_cons, hstep, Option.bind_some,
      ih (r := { r with mode := .word (u ++ [c]) }) (u := u ++ [c])
        (fun d hd => hw d (List.mem_cons_of_mem _ hd)) rfl]
    simp

theorem run_word (hr : r.mode = .blank) (hne : w ≠ []) (hw : ∀ c ∈ w, r.isStop c = false) :
    r.run w = some { r with mode := .word w } := by
  obtain ⟨c, w, rfl⟩ := List.exists_cons_of_ne_nil hne
  have hc := hw c List.mem_cons_self
  rw [isStop, Bool.or_eq_false_iff, Bool.or_eq_false_iff, beq_eq_false_iff_ne] at hc
  obtain ⟨⟨hblank, hquote⟩, hsymbol⟩ := hc
  have hstep : r.step c = some { r with mode := .word [c] } := by
    rw [step, hr]
    simp [start, hblank, hquote, hsymbol]
  rw [run_cons, hstep, Option.bind_some,
    run_word_from (r := { r with mode := .word [c] }) (u := [c])
      (fun d hd => hw d (List.mem_cons_of_mem _ hd)) rfl]
  rfl

theorem run_word_stop (hr : r.mode = .blank) (hne : w ≠ []) (hw : ∀ c ∈ w, r.isStop c = false)
    (hc : r.isStop c = true) : r.run (w ++ [c]) = (r.push (.word w)).start c := by
  have hword : ({ r with mode := .word w } : Reader).isStop c = true := hc
  rw [run_append, run_word hr hne hw, Option.bind_some, run_singleton, step]
  simp only [hword, if_true]
  rw [show ({ r with mode := .blank } : Reader) = r by rw [← hr]]
  rfl

theorem isSymbol_of_mem (hc : c ∈ symbols) (r : Reader) : r.isSymbol c = true := by
  rw [isSymbol, decide_eq_true hc, Bool.true_or]

theorem start_symbol (hc : c ∈ symbols) (r : Reader) : r.start c = r.feed (.sym c) := by
  have hne : isBlank c = false ∧ c ≠ '"' := by
    revert c
    decide
  rw [start, hne.1, if_neg (by decide), if_neg hne.2, if_pos (isSymbol_of_mem hc r)]

theorem run_symbol (hr : r.mode = .blank) (hc : c ∈ symbols) : r.run [c] = r.feed (.sym c) := by
  rw [run_singleton, step, hr, start_symbol hc]

theorem run_word_blank (hr : r.mode = .blank) (hne : w ≠ []) (hw : ∀ c ∈ w, r.isStop c = false) :
    r.run (w ++ [' ']) = some (r.push (.word w)) := by
  rw [run_word_stop hr hne hw rfl]
  rfl

theorem run_word_symbol (hr : r.mode = .blank) (hne : w ≠ []) (hw : ∀ c ∈ w, r.isStop c = false)
    (hc : c ∈ symbols) : r.run (w ++ [c]) = (r.push (.word w)).feed (.sym c) := by
  rw [run_word_stop hr hne hw (by rw [isStop, isSymbol_of_mem hc, Bool.or_true]), start_symbol hc]

/-- Several tokens in the middle of a statement. -/
def pushes (r : Reader) (ts : List Token) : Reader := { r with pending := r.pending ++ ts }

end Reader

/-- A word that no character before its end stops. -/
def IsWord (w : Text) : Prop :=
  w ≠ [] ∧ ∀ c ∈ w, isBlank c = false ∧ c ≠ '"' ∧ c ≠ ',' ∧ c ∉ symbols

theorem IsWord.not_stop (h : IsWord w) (r : Reader) : ∀ c ∈ w, r.isStop c = false := by
  intro c hc
  obtain ⟨hblank, hquote, hcomma, hsymbol⟩ := h.2 c hc
  simp [Reader.isStop, Reader.isSymbol, hblank, hquote, hcomma, hsymbol]

/-- In the value of a property, the text `t` stands for the tokens `ts`. -/
def Lexes (t : Text) (ts : List Token) : Prop :=
  ∀ r : Reader, r.mode = .blank → r.pending ≠ [] → r.run t = some (r.pushes ts)

namespace Lexes

variable {s t : Text} {ts us : List Token}

theorem append (hs : Lexes s ts) (ht : Lexes t us) : Lexes (s ++ t) (ts ++ us) := by
  intro r hmode hpending
  have hne : (r.pushes ts).pending ≠ [] := List.append_ne_nil_of_left_ne_nil hpending _
  rw [Reader.run_append, hs r hmode hpending, Option.bind_some, ht (r.pushes ts) hmode hne]
  simp [Reader.pushes]

theorem symbol (hc : c ∈ symbols) (hopen : c ≠ '\x7b') (hend : c ≠ ';') : Lexes [c] [.sym c] := by
  intro r hmode _
  rw [Reader.run_symbol hmode hc, Reader.feed]
  · rfl
  · exact fun h => hopen (Token.sym.inj h)
  · exact fun h => hend (Token.sym.inj h)

theorem comma : Lexes [',', ' '] [.sym ','] := by
  intro r hmode hpending
  have hsymbol : r.isSymbol ',' = true := by simp [Reader.isSymbol, hpending]
  have hstep : r.step ',' = some (r.pushes [.sym ',']) := by
    rw [Reader.step, hmode]
    simp only [Reader.start, hsymbol]
    rfl
  have hmode' : (r.pushes [.sym ',']).mode = .blank := hmode
  have hblank := Reader.run_blanks (t := [' ']) hmode' (by decide)
  rw [Reader.run_cons, hstep, Option.bind_some, hblank]

theorem word_blank (h : IsWord w) : Lexes (w ++ [' ']) [.word w] :=
  fun r hmode _ => Reader.run_word_blank hmode h.1 (h.not_stop r)

theorem word_symbol (h : IsWord w) (hc : c ∈ symbols) (hopen : c ≠ '\x7b') (hend : c ≠ ';') :
    Lexes (w ++ [c]) [.word w, .sym c] := by
  intro r hmode _
  rw [Reader.run_word_symbol hmode h.1 (h.not_stop r) hc, Reader.feed]
  · simp [Reader.push, Reader.pushes]
  · exact fun h => hopen (Token.sym.inj h)
  · exact fun h => hend (Token.sym.inj h)

theorem words (h : ∀ w ∈ ws, IsWord w) (hc : c ∈ symbols) (hopen : c ≠ '\x7b') (hend : c ≠ ';') :
    Lexes (spaced ws ++ [c]) (ws.map .word ++ [.sym c]) := by
  induction ws with
  | nil => exact symbol hc hopen hend
  | cons w ws ih =>
    have hw := h w List.mem_cons_self
    cases ws with
    | nil => simpa [spaced] using word_symbol hw hc hopen hend
    | cons w' ws =>
      have hrest := ih fun v hv => h v (List.mem_cons_of_mem _ hv)
      have htext : spaced (w :: w' :: ws) ++ [c] = (w ++ [' ']) ++ (spaced (w' :: ws) ++ [c]) := by
        simp [spaced, List.intercalate]
      rw [htext]
      exact (word_blank hw).append hrest

end Lexes

/-! ## Strings -/

/-- What the printer makes of a byte is read as the byte. -/
def escapesTo (b : UInt8) : Text → Bool
  | [a, c] => a == '\\' && unescape c == some b
  | [c] => c != '"' && c != '\\' && String.utf8EncodeChar c == [b]
  | _ => false

theorem escapesTo_escapeByte (b : UInt8) :
    isStringByte b = true → b ≠ 0 → escapesTo b (escapeByte b) = true := by
  revert b
  refine forall_byte ?_
  decide +kernel

theorem run_escapeByte {r : Reader} {u : Bytes} {b : UInt8} (hr : r.mode = .str u)
    (hb : isStringByte b = true) (hzero : b ≠ 0) :
    r.run (escapeByte b) = some { r with mode := .str (u ++ [b]) } := by
  have h := escapesTo_escapeByte b hb hzero
  revert h
  generalize escapeByte b = t
  intro h
  unfold escapesTo at h
  split at h
  · rename_i a c
    rw [Bool.and_eq_true, beq_iff_eq, beq_iff_eq] at h
    obtain ⟨rfl, hun⟩ := h
    have hfirst : r.step '\\' = some { r with mode := .escape u } := by
      rw [Reader.step, hr]
      rfl
    rw [Reader.run_cons, hfirst, Option.bind_some, Reader.run_singleton, Reader.step]
    simp [hun]
  · rename_i c
    simp only [Bool.and_eq_true, bne_iff_ne, beq_iff_eq] at h
    obtain ⟨⟨hquote, hback⟩, henc⟩ := h
    rw [Reader.run_singleton, Reader.step, hr]
    simp [hquote, hback, henc]
  · cases h

/-- The bytes of a string that the printer writes. -/
def IsStringText (s : Bytes) : Prop := ∀ b ∈ s, isStringByte b = true ∧ b ≠ 0

theorem run_string_from {r : Reader} {u s : Bytes} (hs : IsStringText s) (hr : r.mode = .str u) :
    r.run (s.flatMap escapeByte) = some { r with mode := .str (u ++ s) } := by
  induction s generalizing r u with
  | nil =>
    rw [List.append_nil, ← hr]
    rfl
  | cons b s ih =>
    have hbyte := run_escapeByte hr (hs b List.mem_cons_self).1 (hs b List.mem_cons_self).2
    rw [List.flatMap_cons, Reader.run_append, hbyte, Option.bind_some,
      ih (r := { r with mode := .str (u ++ [b]) }) (u := u ++ [b])
        (fun d hd => hs d (List.mem_cons_of_mem _ hd)) rfl]
    simp

theorem lexes_string {s : Bytes} (hs : IsStringText s) : Lexes (stringText s) [.str s] := by
  intro r hmode _
  have hquote : r.step '"' = some { r with mode := .str [] } := by
    rw [Reader.step, hmode]
    rfl
  rw [stringText, Reader.run_cons, hquote, Option.bind_some, Reader.run_append,
    run_string_from (r := { r with mode := .str [] }) (u := []) hs rfl, Option.bind_some,
    Reader.run_singleton, Reader.step]
  simp only [if_true, List.nil_append]
  rw [show ({ r with mode := .blank } : Reader) = r by rw [← hmode]]
  rfl

/-- The tokens of a list of strings. -/
def stringTokens : List Bytes → List Token
  | [] => []
  | [s] => [.str s]
  | s :: ss => .str s :: .sym ',' :: stringTokens ss

theorem lexes_strings (h : ∀ s ∈ ss, IsStringText s) :
    Lexes ([',', ' '].intercalate (ss.map stringText)) (stringTokens ss) := by
  induction ss with
  | nil => exact fun r _ _ => by simp [Reader.pushes, stringTokens, List.intercalate]
  | cons s ss ih =>
    have hs := lexes_string (h s List.mem_cons_self)
    cases ss with
    | nil => simpa [stringTokens] using hs
    | cons s' ss =>
      have hrest := ih fun x hx => h x (List.mem_cons_of_mem _ hx)
      have htext : [',', ' '].intercalate ((s :: s' :: ss).map stringText) =
          stringText s ++ ([',', ' '] ++ [',', ' '].intercalate ((s' :: ss).map stringText)) := by
        simp [List.intercalate]
      rw [htext]
      exact hs.append (Lexes.comma.append hrest)

theorem foldlM_step {s s' : Place × Bytes} {t : Token} (h : valueStep s t = some s')
    (ts : List Token) : (t :: ts).foldlM valueStep s = ts.foldlM valueStep s' := by
  rw [List.foldlM_cons, h]
  rfl

theorem foldlM_stuck {s : Place × Bytes} {t : Token} (h : valueStep s t = none) (ts : List Token) :
    (t :: ts).foldlM valueStep s = none := by
  rw [List.foldlM_cons, h]
  rfl

theorem foldlM_stringTokens (hne : ss ≠ []) (b : Bytes) :
    (stringTokens ss).foldlM valueStep (.value, b) = some (.done, b ++ ss.flatMap (· ++ [0])) := by
  induction ss generalizing b with
  | nil => exact absurd rfl hne
  | cons s ss ih =>
    cases ss with
    | nil => simp [stringTokens, valueStep]
    | cons s' ss =>
      have htokens : stringTokens (s :: s' :: ss) =
          .str s :: .sym ',' :: stringTokens (s' :: ss) := rfl
      rw [htokens, foldlM_step (by rfl), foldlM_step (by rfl), ih (List.cons_ne_nil _ _)]
      simp

theorem readValues_stringTokens (hne : ss ≠ []) :
    readValues (stringTokens ss) = some (ss.flatMap (· ++ [0])) := by
  rw [readValues, foldlM_stringTokens hne]
  rfl

theorem flatMap_append_eq_intercalate {α : Type} (x : α) {l : List (List α)} (hne : l ≠ []) :
    l.flatMap (· ++ [x]) = [x].intercalate l ++ [x] := by
  induction l with
  | nil => exact absurd rfl hne
  | cons a l ih =>
    cases l with
    | nil => simp
    | cons b l =>
      rw [List.flatMap_cons, ih (List.cons_ne_nil _ _)]
      simp [List.intercalate]

theorem flatMap_strings {v : Bytes} (h : isStrings v = true) :
    (strings v).flatMap (· ++ [0]) = v := by
  rw [isStrings, Bool.and_eq_true, Bool.and_eq_true, beq_iff_eq] at h
  have hlast : v.dropLast ++ [0] = v := List.dropLast_append_getLast? 0 h.1.1
  rw [strings, flatMap_append_eq_intercalate 0 (List.splitOn_ne_nil _ _),
    List.intercalate_splitOn, hlast]

theorem isStringText_strings {v : Bytes} (h : isStrings v = true) :
    ∀ s ∈ strings v, IsStringText s := by
  intro s hs b hb
  have hmem : b ∈ v := by
    rw [← flatMap_strings h]
    exact List.mem_flatMap.2 ⟨s, hs, List.mem_append_left _ hb⟩
  rw [isStrings, Bool.and_eq_true, Bool.and_eq_true, List.all_eq_true] at h
  refine ⟨h.1.2 b hmem, fun hzero => ?_⟩
  rw [hzero] at hb
  exact not_mem_of_mem_splitOn hs hb

/-! ## Cells and bytes -/

theorem isWord_of_hex (hne : w ≠ []) (h : ∀ c ∈ w, (digit? 16 c).isSome = true) : IsWord w := by
  refine ⟨hne, fun c hc => ?_⟩
  have hdigit := h c hc
  refine ⟨?_, digit_ne hdigit (by decide), digit_ne hdigit (by decide), ?_⟩
  · simp only [isBlank, Bool.or_eq_false_iff, beq_eq_false_iff_ne]
    exact ⟨⟨⟨digit_ne hdigit (by decide), digit_ne hdigit (by decide)⟩,
      digit_ne hdigit (by decide)⟩, digit_ne hdigit (by decide)⟩
  · intro hsymbol
    have hnone : ∀ d ∈ symbols, digit? 16 d = none := by decide
    rw [hnone c hsymbol] at hdigit
    cases hdigit

theorem isWord_literal (h : IsWord w) : IsWord ('0' :: 'x' :: w) := by
  refine ⟨List.cons_ne_nil _ _, fun c hc => ?_⟩
  rcases List.mem_cons.1 hc with rfl | hc
  · decide
  rcases List.mem_cons.1 hc with rfl | hc
  · decide
  · exact h.2 c hc

theorem literal_leftpad (k n : Nat) :
    literal ('0' :: 'x' :: (Nat.toDigits 16 n).leftpad k '0') = some n := by
  have hdigits := hexDigit_of_mem_leftpad k n
  have hvalue : ofDigits 16 0 ((Nat.toDigits 16 n).leftpad k '0') = n :=
    ofDigits_leftpad (by decide) (by decide) k n
  obtain ⟨c, t, heq⟩ := List.exists_cons_of_ne_nil (@leftpad_ne_nil 16 k n)
  rw [heq] at hdigits hvalue ⊢
  rw [literal, if_pos (List.all_eq_true.2 hdigits), hvalue]

theorem valueStep_word (b : Bytes) (w : Text) :
    valueStep (.cells, b) (.word w) = (wordCell w).map fun c => (.cells, b ++ cellBytes c) := rfl

theorem foldlM_words (ws : List Text) (b : Bytes) :
    (ws.map Token.word).foldlM valueStep (.cells, b) =
      (ws.mapM wordCell).map fun cs => (.cells, b ++ cs.flatMap cellBytes) := by
  induction ws generalizing b with
  | nil => simp
  | cons w ws ih =>
    rw [List.map_cons, List.mapM_cons]
    cases hw : wordCell w with
    | none =>
      rw [foldlM_stuck (by rw [valueStep_word, hw]; rfl)]
      rfl
    | some c =>
      rw [foldlM_step (by rw [valueStep_word, hw]; rfl), ih]
      cases ws.mapM wordCell <;> simp

theorem readValues_cells (ws : List Text) :
    readValues (.sym '<' :: (ws.map .word ++ [.sym '>'])) =
      (ws.mapM wordCell).map (List.flatMap cellBytes) := by
  rw [readValues, foldlM_step (by rfl), List.foldlM_append, foldlM_words]
  cases ws.mapM wordCell <;> rfl

theorem foldlM_byteWords {bs : List Bytes} (h : ws.mapM byteWord = some bs) (b : Bytes) :
    (ws.map Token.word).foldlM valueStep (.bytes, b) = some (.bytes, b ++ bs.flatten) := by
  induction ws generalizing b bs with
  | nil =>
    cases h
    simp
  | cons w ws ih =>
    rw [List.mapM_cons] at h
    obtain ⟨x, hx, h⟩ := Option.bind_eq_some_iff.1 h
    obtain ⟨xs, hxs, h⟩ := Option.bind_eq_some_iff.1 h
    cases h
    have hstep : valueStep (.bytes, b) (.word w) = some (.bytes, b ++ x) :=
      congrArg (Option.map fun s => (Place.bytes, b ++ s)) hx
    rw [List.map_cons, foldlM_step hstep, ih hxs]
    simp

theorem readValues_bytes {bs : List Bytes} (h : ws.mapM byteWord = some bs) :
    readValues (.sym '[' :: (ws.map .word ++ [.sym ']'])) = some bs.flatten := by
  rw [readValues, foldlM_step (by rfl), List.foldlM_append, foldlM_byteWords h]
  rfl

theorem cellBytes_toNat (a b c d : UInt8) :
    cellBytes (a.toNat * 2 ^ 24 + b.toNat * 2 ^ 16 + c.toNat * 2 ^ 8 + d.toNat) = [a, b, c, d] := by
  have ha := a.toNat_lt
  have hb := b.toNat_lt
  have hc := c.toNat_lt
  have hd := d.toNat_lt
  have hbyte : ∀ (n : Nat) (x : UInt8), n % 256 = x.toNat → UInt8.ofNat n = x := by
    intro n x h
    rw [← UInt8.toNat_inj, UInt8.toNat_ofNat']
    exact h
  simp only [cellBytes]
  rw [hbyte _ a (by omega), hbyte _ b (by omega), hbyte _ c (by omega), hbyte _ d (by omega)]

theorem flatMap_cells {v : Bytes} (h : v.length % 4 = 0) : (cells v).flatMap cellBytes = v := by
  induction v using cells.induct with
  | case1 a b c d t ih =>
    rw [cells, List.flatMap_cons, cellBytes_toNat, ih (by simp at h; omega)]
    rfl
  | case2 v hv =>
    rcases v with _ | ⟨a, _ | ⟨b, _ | ⟨c, _ | ⟨d, t⟩⟩⟩⟩
    · rfl
    · simp at h
    · simp at h
    · simp at h
    · exact absurd rfl (hv a b c d t)

theorem cells_lt (v : Bytes) : ∀ n ∈ cells v, n < 2 ^ 32 := by
  induction v using cells.induct with
  | case1 a b c d t ih =>
    intro n hn
    rcases List.mem_cons.1 hn with rfl | hn
    · have ha := a.toNat_lt
      have hb := b.toNat_lt
      have hc := c.toNat_lt
      have hd := d.toNat_lt
      omega
    · exact ih n hn
  | case2 v hv =>
    intro n hn
    rw [cells] at hn
    · cases hn
    · exact hv

theorem wordCell_leftpad {n : Nat} (h : n < 2 ^ 32) (k : Nat) :
    wordCell ('0' :: 'x' :: (Nat.toDigits 16 n).leftpad k '0') = some n := by
  rw [wordCell, literal_leftpad, Option.bind_some, cell, if_pos (.inl h), Nat.mod_eq_of_lt h]

theorem byteWord_hex02 (b : UInt8) : byteWord (hex02 b.toNat) = some [b] := by
  revert b
  refine forall_byte ?_
  decide +kernel

theorem isWord_hex (k n : Nat) : IsWord ((Nat.toDigits 16 n).leftpad k '0') :=
  isWord_of_hex (leftpad_ne_nil k n) (hexDigit_of_mem_leftpad k n)

/-! ## Values -/

/-- The tokens of a value. -/
def valueTokens (v : Bytes) : List Token :=
  if isStrings v then stringTokens (strings v)
  else if v.length % 4 = 0 then .sym '<' :: ((cells v).map (.word ∘ cellText) ++ [.sym '>'])
  else .sym '[' :: (v.map (fun b => .word (hex02 b.toNat)) ++ [.sym ']'])

theorem lexes_valueText (v : Bytes) : Lexes (valueText v) (valueTokens v) := by
  unfold valueText valueTokens
  split
  · rename_i h
    exact lexes_strings (isStringText_strings h)
  have hless : Lexes ['<'] [.sym '<'] := .symbol (by decide) (by decide) (by decide)
  have hbracket : Lexes ['['] [.sym '['] := .symbol (by decide) (by decide) (by decide)
  split
  · have hwords : ∀ w ∈ (cells v).map cellText, IsWord w := by
      intro w hw
      obtain ⟨n, -, rfl⟩ := List.mem_map.1 hw
      exact isWord_literal (isWord_hex 2 n)
    have h := hless.append (Lexes.words hwords (c := '>') (by decide) (by decide) (by decide))
    rwa [List.map_map] at h
  · have hwords : ∀ w ∈ v.map (fun b => hex02 b.toNat), IsWord w := by
      intro w hw
      obtain ⟨b, -, rfl⟩ := List.mem_map.1 hw
      exact isWord_hex 2 b.toNat
    have h := hbracket.append (Lexes.words hwords (c := ']') (by decide) (by decide) (by decide))
    rwa [List.map_map] at h

theorem readValues_valueTokens (v : Bytes) : readValues (valueTokens v) = some v := by
  unfold valueTokens
  split
  · rename_i h
    have hne : strings v ≠ [] := List.splitOn_ne_nil _ _
    rw [readValues_stringTokens hne, flatMap_strings h]
  split
  · rename_i h
    have hcell : ∀ n ∈ cells v, (wordCell ∘ cellText) n = some (id n) :=
      fun n hn => wordCell_leftpad (cells_lt v n hn) 2
    have hcells : ((cells v).map cellText).mapM wordCell = some (cells v) := by
      rw [List.mapM_map, mapM_some hcell, List.map_id]
    rw [← List.map_map, readValues_cells, hcells, Option.map_some, flatMap_cells h]
  · have hbyte : ∀ b ∈ v, (byteWord ∘ fun b : UInt8 => hex02 b.toNat) b = some [b] :=
      fun b _ => byteWord_hex02 b
    have hbytes : (v.map fun b => hex02 b.toNat).mapM byteWord = some (v.map fun b => [b]) := by
      rw [List.mapM_map, mapM_some hbyte]
    have hflat : (v.map fun b => [b]).flatten = v := by
      rw [← List.flatMap_def, List.flatMap_singleton']
    have h := readValues_bytes hbytes
    rw [List.map_map, hflat] at h
    exact h

end Dts
