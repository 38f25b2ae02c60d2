import AxvisorTools.Gen.Newc
import AxvisorTools.Py.Proof.Basic
import Mathlib.Data.List.Find

/-!
# Reading back a newc archive

`extractStep_entry`: on an archive, at the 4-aligned offset of an entry, one pass of the loop
either ends at the trailer, returns the data of the wanted member, or goes on at the offset of
the next entry, again 4-aligned. `extractFrom_archive` is the induction over the entries, and
`extractNewcMember_archive` its instance at offset 0. `extractNewcMember_ends_iff` says for which
data the loop moves forward and ends.

The reader aligns absolute offsets while the format pads each entry on its own; the alignment of
every entry's offset (`Entry.encode_length_mod`) is what makes the two agree.
-/

namespace Gen.Newc

variable {data : Bytes} {member : Text} {offset : Int}

/-! ## The header -/

theorem intBytes_hex {t : Bytes} (hne : t ≠ []) (h : ∀ b ∈ t, isHexDigit b = true) :
    Py.intBytes 16 t = some (hexValue t : Int) := by
  have hd : ∀ c ∈ t.map (fun b => Char.ofNat b.toNat), (Py.digit? 16 c).isSome := by
    intro c hc
    obtain ⟨b, hb, rfl⟩ := List.mem_map.1 hc
    exact h b hb
  -- `x` is no hexadecimal digit, so eight digits never look like a prefixed literal
  have hp : ∀ c ∈ t.map (fun b => Char.ofNat b.toNat), Py.isPrefixLetter 16 c = false := by
    intro c hc
    have hx : c ≠ 'x' := Py.digit_ne (hd c hc) (by decide)
    have hX : c ≠ 'X' := Py.digit_ne (hd c hc) (by decide)
    simp [Py.isPrefixLetter, hx, hX]
  rw [Py.intBytes, Py.int_digits (by decide) (by simpa using hne) hd hp]
  simp [Py.ofDigits, hexValue, List.foldl_map]

theorem drop_flatten {α : Type} {n : Nat} : ∀ {ts : List (List α)} {i : Nat},
    (∀ t ∈ ts, t.length = n) → ts.flatten.drop (n * i) = (ts.drop i).flatten
  | [], i, _ => by simp
  | t :: ts, 0, _ => by simp
  | t :: ts, i + 1, h => by
    have ht : t.length = n := h t List.mem_cons_self
    rw [List.flatten_cons, List.drop_succ_cons,
      ← drop_flatten (i := i) fun t ht => h t (List.mem_cons_of_mem _ ht),
      Nat.mul_add_one, Nat.add_comm, ← List.drop_drop, ← ht, List.drop_left]

/-- The fields of a header made of a magic number and thirteen fields of eight digits. -/
theorem headerFields_flatten {magic : Bytes} (hm : magic.length = 6) {ts : List Bytes}
    (hlen : ts.length = 13) (h8 : ∀ t ∈ ts, t.length = 8)
    (hhex : ∀ t ∈ ts, ∀ b ∈ t, isHexDigit b = true) :
    headerFields (magic ++ ts.flatten) = some (ts.map fun t => (hexValue t : Int)) := by
  have hflat : ts.flatten.length = 104 := by
    rw [List.length_flatten, List.map_congr_left h8]
    simp [hlen]
  have hfield : ∀ i ∈ List.range 13,
      Py.intBytes 16 (Py.slice (magic ++ ts.flatten) ((6 + 8 * i : Nat) : Int)
        (((6 + 8 * i : Nat) : Int) + 8)) = some ((hexValue (ts.getD i []) : Nat) : Int) := by
    intro i hi
    have hi : i < ts.length := by rw [hlen]; exact List.mem_range.1 hi
    have hmem : ts[i] ∈ ts := List.getElem_mem hi
    have hslice : Py.slice (magic ++ ts.flatten) ((6 + 8 * i : Nat) : Int)
        (((6 + 8 * i : Nat) : Int) + 8) = ts[i] := by
      rw [show (((6 + 8 * i : Nat) : Int) + 8) = ((6 + 8 * i + 8 : Nat) : Int) by push_cast; rfl,
        Py.slice_eq (by rw [List.length_append]; omega) (by rw [List.length_append]; omega),
        ← List.drop_drop, ← hm, List.drop_left, drop_flatten h8, List.drop_eq_getElem_cons hi,
        List.flatten_cons, List.take_append_of_le_length (by rw [h8 _ hmem]; omega),
        List.take_of_length_le (by rw [h8 _ hmem]; omega)]
    have hne : ts[i] ≠ [] := fun he => by
      have := h8 _ hmem
      rw [he] at this
      cases this
    rw [hslice, intBytes_hex hne (hhex _ hmem)]
    simp [hi]
  rw [headerFields, fieldStarts, List.mapM_map]
  refine (mapM_some hfield).trans (congrArg some ?_)
  apply List.ext_getElem
  · simp [hlen]
  · intro i h1 h2
    have hi : i < ts.length := by simpa using h2
    simp [hi]

namespace Entry

/-- The texts of an entry's fields. -/
def texts (e : Entry) : List Bytes := List.ofFn fun i => (e.fields i).text

theorem mem_texts {e : Entry} {t : Bytes} (h : t ∈ e.texts) : ∃ i, t = (e.fields i).text := by
  obtain ⟨i, rfl⟩ := List.mem_ofFn.1 h
  exact ⟨i, rfl⟩

theorem header_eq (e : Entry) :
    ∃ magic ∈ magics, magic.length = 6 ∧ e.header = magic ++ e.texts.flatten := by
  cases h : e.crc with
  | false => exact ⟨ascii "070701", by decide, by decide, by rw [header, h]; rfl⟩
  | true => exact ⟨ascii "070702", by decide, by decide, by rw [header, h]; rfl⟩

theorem header_length (e : Entry) : e.header.length = 110 := by
  obtain ⟨magic, -, hm, h⟩ := e.header_eq
  have h8 : ∀ t ∈ e.texts, t.length = 8 := by
    intro t ht
    obtain ⟨i, rfl⟩ := mem_texts ht
    exact (e.fields i).length_eq
  rw [h, List.length_append, hm, List.length_flatten, List.map_congr_left h8]
  simp [texts]

theorem header_magic (e : Entry) : e.header.take 6 ∈ magics := by
  obtain ⟨magic, hmem, hm, h⟩ := e.header_eq
  rw [h, ← hm, List.take_left]
  exact hmem

theorem header_fields (e : Entry) : ∃ fs, headerFields e.header = some fs ∧
    fs.getD 6 0 = (e.data.length : Int) ∧ fs.getD 11 0 = ((e.name.length + 1 : Nat) : Int) := by
  obtain ⟨magic, -, hm, h⟩ := e.header_eq
  refine ⟨e.texts.map fun t => (hexValue t : Int), ?_, ?_, ?_⟩
  · rw [h]
    refine headerFields_flatten hm (by simp [texts]) ?_ ?_
    · intro t ht
      obtain ⟨i, rfl⟩ := mem_texts ht
      exact (e.fields i).length_eq
    · intro t ht
      obtain ⟨i, rfl⟩ := mem_texts ht
      exact (e.fields i).hex
  · rw [← e.fileSize_eq]
    simp [texts, Field.value]
  · rw [← e.nameSize_eq]
    simp [texts, Field.value]

end Entry

/-! ## One entry -/

theorem padding_length (n : Nat) : (padding n).length = (4 - n % 4) % 4 := by simp [padding]

theorem align4_eq (n : Nat) : align4 (n : Int) = ((n + (4 - n % 4) % 4 : Nat) : Int) := by
  unfold align4
  omega

theorem Entry.encode_length (e : Entry) : e.encode.length =
    110 + e.name.length + 1 + (padding (110 + e.name.length + 1)).length + e.data.length +
      (padding e.data.length).length := by
  simp only [encode, List.length_append, e.header_length, List.length_singleton]

theorem Entry.encode_length_mod (e : Entry) : e.encode.length % 4 = 0 := by
  rw [e.encode_length, padding_length, padding_length]
  omega

/-- The name an entry's ASCII name decodes to. -/
def asciiText (name : Bytes) : Text := name.map fun b => Char.ofNat b.toNat

/-- Where the data of an entry starts, seen from the entry's own start. -/
def Entry.dataOffset (e : Entry) : Nat :=
  110 + e.name.length + 1 + (padding (110 + e.name.length + 1)).length

theorem Entry.align4_name (e : Entry) {n : Nat} (hn : n % 4 = 0) :
    align4 ((n : Int) + 110 + ((e.name.length + 1 : Nat) : Int)) = ((n + e.dataOffset : Nat) : Int) := by
  rw [show (n : Int) + 110 + ((e.name.length + 1 : Nat) : Int) =
    ((n + (110 + e.name.length + 1) : Nat) : Int) by omega, align4_eq, dataOffset, padding_length]
  generalize 110 + e.name.length + 1 = k
  omega

theorem Entry.align4_data (e : Entry) {n : Nat} (hn : n % 4 = 0) :
    align4 (((n + e.dataOffset : Nat) : Int) + (e.data.length : Int)) =
      ((n + e.encode.length : Nat) : Int) := by
  have hoff : e.dataOffset % 4 = 0 := by
    rw [dataOffset, padding_length]
    omega
  have hlen : e.encode.length = e.dataOffset + e.data.length + (padding e.data.length).length :=
    e.encode_length
  rw [← Int.natCast_add, align4_eq, hlen, padding_length]
  generalize e.dataOffset = k at hoff
  omega

/-- One pass of the loop at the offset of an entry with an ASCII name. -/
theorem extractStep_entry {pre post : Bytes} {e : Entry} {m : Text} (hpre : pre.length % 4 = 0)
    (hname : ∀ b ∈ e.name, b < 0x80) :
    extractStep (pre ++ e.encode ++ post) m pre.length =
      if asciiText e.name = trailer then .done (.ok none)
      else if asciiText e.name = m then .done (.ok (some e.data))
      else .next ((pre.length + e.encode.length : Nat) : Int) := by
  obtain ⟨fs, hfs, hsize, hnsize⟩ := e.header_fields
  have hheader : Py.slice (pre ++ e.encode ++ post) (pre.length : Int) (pre.length + 110) =
      e.header :=
    Py.slice_append (q := e.name ++ [0] ++ padding (110 + e.name.length + 1) ++ e.data ++
      padding e.data.length ++ post) (by simp only [Entry.encode, List.append_assoc]) rfl
      (by rw [e.header_length]; rfl)
  have hraw : Py.slice (pre ++ e.encode ++ post) ((pre.length : Int) + 110)
      ((pre.length : Int) + 110 + ((e.name.length + 1 : Nat) : Int)) = e.name ++ [0] :=
    Py.slice_append (p := pre ++ e.header) (q := padding (110 + e.name.length + 1) ++ e.data ++
      padding e.data.length ++ post) (by simp only [Entry.encode, List.append_assoc])
      (by rw [List.length_append, e.header_length]; rfl) (by rw [List.length_append]; rfl)
  have hdata : Py.slice (pre ++ e.encode ++ post) ((pre.length + e.dataOffset : Nat) : Int)
      (((pre.length + e.dataOffset : Nat) : Int) + (e.data.length : Int)) = e.data :=
    Py.slice_append (p := pre ++ e.header ++ e.name ++ [0] ++ padding (110 + e.name.length + 1))
      (q := padding e.data.length ++ post) (by simp only [Entry.encode, List.append_assoc])
      (by simp only [List.length_append, e.header_length, Entry.dataOffset, List.length_singleton,
        Nat.add_assoc]) rfl
  have hlen : e.encode.length = e.dataOffset + e.data.length + (padding e.data.length).length :=
    e.encode_length
  have hoff : 110 + e.name.length + 1 ≤ e.dataOffset := Nat.le_add_right _ _
  unfold extractStep
  simp only [hheader, not_not.2 e.header_magic, if_false, hfs, hsize, hnsize]
  rw [if_neg (by simp only [List.length_append, hlen]; omega), e.align4_name hpre,
    if_neg (by simp only [List.length_append, hlen]; omega), hraw, List.dropLast_concat,
    Py.decodeReplace_ascii _ hname, hdata, e.align4_data hpre]
  rfl

/-! ## The loop -/

theorem ascii_asciiText {name : Bytes} (h : ∀ b ∈ name, b < 0x80) : ascii (asciiText name) = name := by
  rw [ascii, asciiText, List.map_map]
  refine (List.map_congr_left fun b hb => ?_).trans (List.map_id name)
  have hb : b.toNat < 0x80 := UInt8.lt_iff_toNat_lt.1 (h b hb)
  rw [Function.comp, toNat_ofNat_of_valid (.inl (by omega))]
  simp

/-- The loop over the entries of an archive, from any aligned offset on. -/
theorem extractFrom_archive {m : Text} (hm : m ≠ trailer) {tr : Entry} (htr : tr.name = ascii trailer)
    (rest : Bytes) : ∀ (es : List Entry) (pre : Bytes) (fuel : Nat), pre.length % 4 = 0 →
    (∀ e ∈ es, IsMemberName e.name) → es.length < fuel →
    extractFrom (pre ++ archive es ++ tr.encode ++ rest) m fuel pre.length =
      some (.ok ((es.find? fun e => asciiText e.name = m).map (·.data)))
  | [], pre, fuel, hpre, _, hf => by
    obtain ⟨fuel, rfl⟩ : ∃ f, fuel = f + 1 := ⟨fuel - 1, by simp at hf; omega⟩
    have htrail : asciiText tr.name = trailer := by rw [htr]; decide
    have hascii : (ascii trailer).all (fun b => decide (b < 0x80)) = true := by decide
    rw [extractFrom, if_pos (by simp [archive, tr.encode_length]; omega)]
    simp only [archive, List.flatMap_nil, List.append_nil]
    rw [extractStep_entry hpre (by rw [htr]; simpa using hascii), if_pos htrail]
    rfl
  | e :: es, pre, fuel, hpre, hes, hf => by
    obtain ⟨fuel, rfl⟩ : ∃ f, fuel = f + 1 := ⟨fuel - 1, by omega⟩
    obtain ⟨hascii, hne⟩ := hes e List.mem_cons_self
    have hlt : ∀ b ∈ e.name, b < 0x80 := fun b hb => (hascii b hb).1
    have hne : asciiText e.name ≠ trailer := fun h => hne (by rw [← h, ascii_asciiText hlt])
    have hassoc : pre ++ archive (e :: es) ++ tr.encode ++ rest =
        pre ++ e.encode ++ (archive es ++ tr.encode ++ rest) := by simp [archive]
    have hlen : 110 ≤ e.encode.length := by
      rw [e.encode_length]
      omega
    have hroom : (pre.length : Int) + 110 ≤
        (pre ++ e.encode ++ (archive es ++ tr.encode ++ rest)).length := by
      rw [List.length_append, List.length_append]
      omega
    rw [hassoc, extractFrom, if_pos hroom, extractStep_entry hpre hlt, if_neg hne]
    by_cases hnm : asciiText e.name = m
    · simp [hnm]
    · have ih := extractFrom_archive hm htr rest es (pre ++ e.encode) fuel
        (by rw [List.length_append, Nat.add_mod, hpre, e.encode_length_mod])
        (fun e he => hes e (List.mem_cons_of_mem _ he)) (by simpa using hf)
      simp only [if_neg hnm]
      rw [List.find?_cons_of_neg (by simpa using hnm), ← ih, List.length_append]
      simp only [List.append_assoc]

theorem asciiText_eq_iff {name : Bytes} (hn : ∀ b ∈ name, b < 0x80) {m : Text}
    (hm : ∀ c ∈ m, c.toNat < 0x80) : asciiText name = m ↔ name = ascii m := by
  constructor
  · rintro rfl
    rw [ascii_asciiText hn]
  · rintro rfl
    rw [asciiText, ascii, List.map_map]
    refine (List.map_congr_left fun c hc => ?_).trans (List.map_id m)
    have hc : c.toNat < 256 := Nat.lt_trans (hm c hc) (by decide)
    rw [Function.comp, UInt8.toNat_ofNat', Nat.mod_eq_of_lt hc, Char.ofNat_toNat, id]

/-- **Extraction inverts packing**: on the archive of any list of entries, followed by a trailer
and any bytes, the reader returns the data of the first entry with the wanted name, or nothing
when no entry has it; it raises no error. -/
theorem extractNewcMember_archive (es : List Entry) (tr : Entry) (rest : Bytes) (m : Text)
    (hes : ∀ e ∈ es, IsMemberName e.name) (htr : tr.name = ascii trailer)
    (hm : ∀ c ∈ m, c.toNat < 0x80) (hne : m ≠ trailer) :
    ∃ n, ∀ fuel ≥ n, extractNewcMember fuel (archive es ++ tr.encode ++ rest) m =
      some (.ok ((es.find? fun e => e.name = ascii m).map (·.data))) := by
  refine ⟨es.length + 1, fun fuel hf => ?_⟩
  have h := extractFrom_archive hne htr rest es [] fuel rfl hes hf
  have hfind : es.find? (fun e => asciiText e.name = m) = es.find? fun e => e.name = ascii m := by
    apply List.find?_congr
    intro e he
    rw [decide_eq_decide]
    exact asciiText_eq_iff (fun b hb => ((hes e he).1 b hb).1) hm
  rw [← hfind]
  exact h

/-- An entry whose other header fields are zero. -/
def plainEntry (name data : Bytes) (fileSize nameSize : Field)
    (hf : fileSize.value = data.length) (hn : nameSize.value = name.length + 1) : Entry where
  crc := false
  fields i := if i = 6 then fileSize else if i = 11 then nameSize
    else ⟨ascii "00000000", by decide, List.all_eq_true.1 (by decide)⟩
  name := name
  data := data
  fileSize_eq := hf
  nameSize_eq := hn

/-- `guest/a` with three bytes of data. -/
def guestEntry : Entry :=
  plainEntry (ascii "guest/a") [1, 2, 3] ⟨ascii "00000003", by decide, List.all_eq_true.1 (by decide)⟩
    ⟨ascii "00000008", by decide, List.all_eq_true.1 (by decide)⟩ (by decide) (by decide)

/-- Entries before it, one of them without data. -/
def otherEntries : List Entry :=
  [plainEntry (ascii "guest") [] ⟨ascii "00000000", by decide, List.all_eq_true.1 (by decide)⟩
      ⟨ascii "00000006", by decide, List.all_eq_true.1 (by decide)⟩ (by decide) (by decide),
    plainEntry (ascii "guest/aa") [9, 8, 7, 6, 5]
      ⟨ascii "00000005", by decide, List.all_eq_true.1 (by decide)⟩
      ⟨ascii "00000009", by decide, List.all_eq_true.1 (by decide)⟩ (by decide) (by decide)]

/-- The entry that ends an archive. -/
def trailerEntry : Entry :=
  plainEntry (ascii trailer) [] ⟨ascii "00000000", by decide, List.all_eq_true.1 (by decide)⟩
    ⟨ascii "0000000B", by decide, List.all_eq_true.1 (by decide)⟩ (by decide) (by decide)

/-- The last of three entries is found. -/
theorem extractNewcMember_guestEntry :
    ∃ n, ∀ fuel ≥ n, extractNewcMember fuel
      (archive (otherEntries ++ [guestEntry]) ++ trailerEntry.encode ++ [7]) "guest/a" =
        some (.ok (some [1, 2, 3])) := by
  have hascii : "guest/a".toList.all (fun c => decide (c.toNat < 0x80)) = true := by decide
  exact extractNewcMember_archive (otherEntries ++ [guestEntry]) trailerEntry [7] "guest/a"
    (by decide) (by decide) (fun c hc => of_decide_eq_true (List.all_eq_true.1 hascii c hc))
    (by decide)

/-! ## Termination -/

theorem align4_pos_iff (n : Int) : 0 < align4 n ↔ 0 < n := by
  unfold align4
  omega

theorem align4_add {m : Int} (hm : m % 4 = 0) (n : Int) : align4 (m + n) = m + align4 n := by
  unfold align4
  omega

theorem align4_mod (n : Int) : align4 n % 4 = 0 := by
  unfold align4
  omega

theorem extractStep_next {offset' : Int} (h : extractStep data member offset = .next offset') :
    ∃ fileSize nameSize,
      headerSizes data offset = some (fileSize, nameSize) ∧
      align4 (offset + 110 + nameSize) + fileSize ≤ data.length ∧
      offset' = align4 (align4 (offset + 110 + nameSize) + fileSize) := by
  unfold extractStep at h
  simp only at h
  split at h
  · cases h
  · split at h
    · cases h
    · rename_i fields hfields
      refine ⟨fields.getD 6 0, fields.getD 11 0, by rw [headerSizes, hfields]; rfl, ?_⟩
      split at h
      · cases h
      · split at h
        · cases h
        · rename_i hend
          split at h
          · cases h
          · split at h
            · cases h
            · cases h
              exact ⟨not_lt.1 hend, rfl⟩

theorem extractStep_slice {part : Bytes}
    (h : extractStep data member offset = .done (.ok (some part))) :
    ∃ a b, part = Py.slice data a b := by
  unfold extractStep at h
  simp only at h
  split at h
  · cases h
  · split at h
    · cases h
    · split at h
      · cases h
      · split at h
        · cases h
        · split at h
          · cases h
          · split at h
            · cases h
              exact ⟨_, _, rfl⟩
            · cases h

theorem Visits.mod (h : Visits data member offset) : offset % 4 = 0 := by
  cases h with
  | start => rfl
  | pass _ hpass =>
    obtain ⟨fileSize, nameSize, -, -, rfl⟩ := extractStep_next hpass.2
    exact align4_mod _

/-- A pass moves forward exactly when the sizes of its header do not take back the header. -/
theorem advances_iff {offset' : Int} (hvisit : Visits data member offset)
    (hpass : Passes data member offset offset') :
    offset < offset' ↔ ∃ fileSize nameSize, headerSizes data offset = some (fileSize, nameSize) ∧
      0 < align4 (110 + nameSize) + fileSize := by
  obtain ⟨fileSize, nameSize, hsizes, -, rfl⟩ := extractStep_next hpass.2
  have hnext : align4 (align4 (offset + 110 + nameSize) + fileSize) =
      offset + align4 (align4 (110 + nameSize) + fileSize) := by
    rw [Int.add_assoc offset, align4_add hvisit.mod, Int.add_assoc, align4_add hvisit.mod]
  have hpos := align4_pos_iff (align4 (110 + nameSize) + fileSize)
  rw [hnext]
  constructor
  · intro hlt
    exact ⟨fileSize, nameSize, hsizes, hpos.1 (by omega)⟩
  · rintro ⟨fileSize', nameSize', hsizes', hadvance⟩
    rw [hsizes] at hsizes'
    cases hsizes'
    have := hpos.2 hadvance
    omega

/-- The loop ends, with a part of the data, with nothing or with an error. -/
def Ends (data : Bytes) (member : Text) (offset : Int) : Prop :=
  ∃ n r, (∀ fuel ≥ n, extractFrom data member fuel offset = some r) ∧
    ∀ part, r = .ok (some part) → ∃ a b, part = Py.slice data a b

/-- A loop whose passes all move forward ends: the way to the end of the data gets shorter. -/
theorem ends_of_advances
    (hadvance : ∀ offset offset', Visits data member offset → Passes data member offset offset' →
      offset < offset') : ∀ (k : Nat) {offset : Int}, Visits data member offset →
    data.length - offset ≤ k → Ends data member offset := by
  have hstop : ∀ {offset : Int}, ¬ offset + 110 ≤ data.length → Ends data member offset := by
    intro offset hend
    refine ⟨1, .ok none, fun fuel hfuel => ?_, fun part h => by cases h⟩
    obtain ⟨fuel, rfl⟩ : ∃ f, fuel = f + 1 := ⟨fuel - 1, by omega⟩
    rw [extractFrom, if_neg hend]
  intro k
  induction k with
  | zero =>
    intro offset _ hk
    exact hstop (by omega)
  | succ k ih =>
    intro offset hvisit hk
    by_cases hroom : offset + 110 ≤ data.length
    · cases hstep : extractStep data member offset with
      | done r =>
        refine ⟨1, r, fun fuel hfuel => ?_, fun part h => extractStep_slice (h ▸ hstep)⟩
        obtain ⟨fuel, rfl⟩ : ∃ f, fuel = f + 1 := ⟨fuel - 1, by omega⟩
        rw [extractFrom, if_pos hroom, hstep]
      | next offset' =>
        have hlt := hadvance offset offset' hvisit ⟨hroom, hstep⟩
        obtain ⟨n, r, hends, hpart⟩ := ih (hvisit.pass ⟨hroom, hstep⟩) (by omega)
        refine ⟨n + 1, r, fun fuel hfuel => ?_, hpart⟩
        obtain ⟨fuel, rfl⟩ : ∃ f, fuel = f + 1 := ⟨fuel - 1, by omega⟩
        rw [extractFrom, if_pos hroom, hstep]
        exact hends fuel (by omega)
    · exact hstop hroom

/-- **When the reader moves forward and ends.** Every pass goes on at a larger offset, and the call
ends, exactly when no header that is passed has sizes that take back the header: a size field is
read with its sign. -/
theorem extractNewcMember_ends_iff (data : Bytes) (member : Text) :
    ((∀ offset offset', Visits data member offset → Passes data member offset offset' →
        offset < offset') ∧
      ∃ n r, (∀ fuel ≥ n, extractNewcMember fuel data member = some r) ∧
        ∀ part, r = .ok (some part) → ∃ a b, part = Py.slice data a b) ↔
    ∀ offset offset', Visits data member offset → Passes data member offset offset' →
      ∃ fileSize nameSize, headerSizes data offset = some (fileSize, nameSize) ∧
        0 < align4 (110 + nameSize) + fileSize := by
  constructor
  · rintro ⟨hadvance, -⟩ offset offset' hvisit hpass
    exact (advances_iff hvisit hpass).1 (hadvance offset offset' hvisit hpass)
  · intro hsizes
    have hadvance : ∀ offset offset', Visits data member offset →
        Passes data member offset offset' → offset < offset' := fun offset offset' hvisit hpass =>
      (advances_iff hvisit hpass).2 (hsizes offset offset' hvisit hpass)
    exact ⟨hadvance, ends_of_advances hadvance data.length .start (by omega)⟩

/-- A header whose name has the size -110. -/
def backHeader : Bytes :=
  ascii "070701" ++ (List.replicate 11 (ascii "00000000")).flatten ++ ascii "-000006e" ++
    ascii "00000000"

/-- The name of the entry is empty, and the next offset is where the header starts. -/
theorem extractStep_backHeader (hm : member ≠ []) : extractStep backHeader member 0 = .next 0 := by
  have hheader : Py.slice backHeader 0 (0 + 110) = backHeader := by decide
  have hmagic : backHeader.take 6 ∈ magics := by decide
  have hfields : headerFields backHeader = some [0, 0, 0, 0, 0, 0, 0, 0, 0, 0, 0, -110, 0] := by decide
  have hname : Py.decodeReplace (Py.slice backHeader (0 + 110) (0 + 110 + -110)).dropLast = [] := by
    decide
  have hlen : backHeader.length = 110 := by decide
  unfold extractStep
  simp only [hheader, hfields, not_not.2 hmagic, if_false, List.getD_cons_succ, List.getD_cons_zero,
    hname, hlen]
  rw [if_neg (by decide), if_neg (by decide), if_neg (by decide), if_neg hm.symm]
  rfl

/-- The loop stays at the header for ever. -/
theorem extractNewcMember_backHeader :
    Passes backHeader "guest/linux-riscv64-qemu-smp1.dtb" 0 0 ∧
      ¬ ∃ n r, ∀ fuel ≥ n, extractNewcMember fuel backHeader "guest/linux-riscv64-qemu-smp1.dtb" =
        some r := by
  have hstep : extractStep backHeader "guest/linux-riscv64-qemu-smp1.dtb" 0 = .next 0 :=
    extractStep_backHeader (by decide)
  have hroom : (0 : Int) + 110 ≤ backHeader.length := by decide
  have hnone : ∀ fuel, extractNewcMember fuel backHeader "guest/linux-riscv64-qemu-smp1.dtb" =
      none := by
    intro fuel
    induction fuel with
    | zero => rfl
    | succ fuel ih =>
      rw [extractNewcMember, extractFrom, if_pos hroom, hstep]
      exact ih
  refine ⟨⟨hroom, hstep⟩, ?_⟩
  rintro ⟨n, r, hends⟩
  have hend := hends n le_rfl
  rw [hnone n] at hend
  cases hend

end Gen.Newc
