import AxvisorTools.Gen.Proof.BaseId

/-!
# The number in the static config

`build_static_config` returns the number of the VM next to the text it has written. `vmId_reads_iff` says
when a TOML parser reads that number in the `[base]` table of the text: when the edits are in order, and
the line of the number belongs to `[base]`.
-/

namespace Gen.StaticConfig

open Regex Py KernelKey

variable {images : Images}

/-! ## The edits of the script -/

/-- The paths of the images can be put between double quotes. -/
structure Images.Plain (images : Images) : Prop where
  kernel : KernelKey.Plain images.kernel
  dtb : ∀ path ∈ images.dtb, KernelKey.Plain path
  initramfs : ∀ path ∈ images.initramfs, KernelKey.Plain path

theorem Images.Plain.value (h : images.Plain) {e : KeyEdit} (he : e ∈ edits images) :
    KernelKey.Plain e.value := by
  simp only [edits, List.mem_append, List.mem_cons, List.not_mem_nil, or_false, List.mem_map,
    Option.mem_toList] at he
  rcases he with ((rfl | rfl) | ⟨path, hpath, rfl⟩) | ⟨path, hpath, rfl⟩
  · exact plain_memory
  · exact h.kernel
  · exact h.dtb path hpath
  · exact h.initramfs path hpath

/-- The keys of the script, and the keys that their lines go after. -/
def editKeys : List (Text × Option Text) :=
  [("image_location", none), ("kernel_path", none),
    ("dtb_path", some "kernel_load_addr"),
    ("ramdisk_path", some "dtb_load_addr")]

theorem edits_sublist (images : Images) :
    ((edits images).map fun e => (e.key, e.afterKey)).Sublist editKeys := by
  obtain ⟨kernel, dtb, initramfs⟩ := images
  cases dtb <;> cases initramfs <;> exact List.isSublist_iff_sublist.1 rfl

theorem Images.Plain.proper (h : images.Plain) {e : KeyEdit} (he : e ∈ edits images) :
    e.Proper ∧ e.key ≠ "id" := by
  have hkeys : ∀ k ∈ editKeys, Toml.IsBareKey k.1 ∧ (∀ k' ∈ k.2, Toml.IsBareKey k') ∧
      k.1 ≠ "id" := by decide
  obtain ⟨hkey, hafter, hid⟩ := hkeys _ ((edits_sublist images).subset (List.mem_map_of_mem he))
  exact ⟨⟨hkey, h.value he, hafter⟩, hid⟩

theorem independent_edits (images : Images) : Independent (edits images) := by
  have hkeys : editKeys.Pairwise fun k k' => k.1 ≠ k'.1 ∧ k'.2 ≠ some k.1 := by decide
  exact List.pairwise_map.1 (hkeys.sublist (edits_sublist images))

theorem lines_edits {es : List KeyEdit} (hes : ∀ e ∈ es, e.Proper) {text result : Text}
    (h : es.foldlM (fun text e => e.run text) text = .ok result) :
    es.foldlM (fun ls e => e.onLines ls) (lines text) = some (lines result) := by
  induction es generalizing text with
  | nil =>
    cases h
    rfl
  | cons e es ih =>
    obtain ⟨he, hes⟩ := List.forall_mem_cons.1 hes
    rw [List.foldlM_cons] at h ⊢
    cases hrun : e.run text with
    | error err =>
      rw [hrun] at h
      cases h
    | ok next =>
      rw [hrun] at h
      rw [he.lines_run hrun]
      exact ih hes h

/-! ## The result -/

theorem buildStaticConfig_ok {files : Files} {args : Args} {c : Result}
    (himages : findImages files args = .ok images) (h : buildStaticConfig files args = .ok c) :
    rewriteConfig images files.config = .ok c.text ∧ findVmId c.text = .ok c.vmId ∧
      c.images = images := by
  obtain ⟨images', himages', h⟩ := bind_eq_ok h
  obtain ⟨text, htext, h⟩ := bind_eq_ok h
  obtain ⟨vmId, hvmId, h⟩ := bind_eq_ok h
  obtain ⟨_, -, h⟩ := bind_eq_ok h
  cases h
  obtain rfl : images = images' := Except.ok.inj (himages.symm.trans himages')
  exact ⟨htext, hvmId, rfl⟩

/-- In an accepted config, the number is that of `[base]` exactly when its line belongs there. -/
theorem reads_id_iff {c : Result} (hplain : images.Plain) {config : List Text}
    (hrun : (edits images).foldlM (fun ls e => e.onLines ls) config = some (lines c.text))
    (hvmId : findVmId c.text = .ok c.vmId) (hacc : Toml.Accepted (lines c.text)) :
    Toml.Reads (lines c.text) baseTable "id" c.vmId ↔ IdInBase config := by
  obtain ⟨hreading, hmem⟩ := idReading_edits (fun e he => hplain.proper he) hrun
  obtain ⟨r, hr, hfirst, hpair, hvalue⟩ := idReading_of_findVmId (unbroken_lines c.text)
    (lines_ne_nil c.text) hacc (by rwa [unlines_lines])
  rw [hreading] at hfirst
  constructor
  · rintro ⟨-, r', hr', hpair', hvalue'⟩ r₀ hr₀
    obtain rfl : r = r₀ := Option.some.inj (hfirst.symm.trans hr₀)
    rw [Toml.Reading.isPair, Bool.and_eq_true] at hpair'
    refine .inr ⟨r', (hmem r' hpair'.2).1 hr', ?_, hvalue'.trans hvalue.symm⟩
    rw [Toml.Reading.isPair, Bool.and_eq_true]
    exact hpair'
  · intro hid
    refine ⟨hacc, ?_⟩
    rcases hid r hfirst with htable | ⟨r', hr', hpair', hsame⟩
    · refine ⟨r, hr, ?_, hvalue⟩
      rw [Toml.Reading.isPair, htable, hpair]
      exact beq_self_eq_true' baseTable
    · refine ⟨r', ?_, hpair', hsame.trans hvalue⟩
      rw [Toml.Reading.isPair, Bool.and_eq_true] at hpair'
      exact (hmem r' hpair'.2).2 hr'

/-- **The number of the VM** is the one that TOML reads for `id` in the `[base]` table of the text, if and
only if the edits are in order for the config and the line of the number belongs to `[base]` there. -/
theorem vmId_reads_iff (files : Files) (args : Args) {images : Images} {c : Result}
    (hvalid : Toml.Accepted (lines files.config)) (himages : findImages files args = .ok images)
    (hplain : images.Plain) (h : buildStaticConfig files args = .ok c) :
    Toml.Reads (lines c.text) baseTable "id" c.vmId ↔
      (∀ e ∈ edits images, e.InOrder (lines files.config)) ∧ IdInBase (lines files.config) := by
  obtain ⟨htext, hvmId, -⟩ := buildStaticConfig_ok himages h
  have hrun := lines_edits (fun e he => (hplain.proper he).1) htext
  have haccepted := accepted_edits (fun e he => (hplain.proper he).1) (independent_edits images) hrun
    fun e _ r hr _ => hvalid.wellRead.1 r hr
  constructor
  · intro hreads
    exact ⟨(haccepted.1 hreads.1).2, (reads_id_iff hplain hrun hvmId hreads.1).1 hreads⟩
  · rintro ⟨hedits, hid⟩
    exact (reads_id_iff hplain hrun hvmId (haccepted.2 ⟨hvalid, hedits⟩)).2 hid

/-- A file system in which every path is the one of a file, and `config` is the config. -/
def filesWith (config : Text) : Files where
  config := config
  cwd := "/w"
  configDir := "/c"
  regular := some
  decompress := fun _ => none
  generatedDir := "/g"
  writable := false
  fuel := 0

/-- The script is called with a kernel only. -/
def kernelArgs : Args := ⟨"k", none, none, false⟩

def kernelImages : Images := ⟨"/w/k", none, none⟩

theorem findImages_kernelArgs (config : Text) :
    findImages (filesWith config) kernelArgs = .ok kernelImages := rfl

theorem plain_kernelImages : kernelImages.Plain :=
  ⟨⟨by decide, by decide, by decide⟩, nofun, nofun⟩

/-- A config with the number in `[base]`. -/
def plainConfig : Text := "[base]\nid = 5\n[kernel]\nimage_location = \"fs\"\n"

def plainResult : Result where
  text := "[base]\nid = 5\n[kernel]\nkernel_path = \"/w/k\"\nimage_location = \"memory\"\n"
  vmId := 5
  images := kernelImages

/-- One line of the config is exchanged and one comes in below `[kernel]`. -/
theorem edits_plainConfig :
    editSite "image_location" none (lines plainConfig) =
        some (.replace ["[base]", "id = 5", "[kernel]"]
          "image_location = \"fs\"" [[]]) ∧
      editSite "kernel_path" none (lines plainConfig) =
        some (.insert ["[base]", "id = 5", "[kernel]"]
          ["image_location = \"fs\"", []]) ∧
      (Toml.start.after ["[base]", "id = 5", "[kernel]"]).nest = [] ∧
      ∀ i ∈ Toml.items [] (Toml.readings (lines plainConfig)), ¬i.conflicts
        (Toml.itemBelow ["[base]", "id = 5", "[kernel]"] "kernel_path") := by
  decide +kernel

theorem inOrder_plainConfig : ∀ e ∈ edits kernelImages, e.InOrder (lines plainConfig) := by
  obtain ⟨hlocation, hpath, hnest, hfree⟩ := edits_plainConfig
  refine List.forall_mem_cons.2 ⟨⟨by decide, fun pre post h => ?_⟩, List.forall_mem_singleton.2
    ⟨by decide, fun pre post h => ?_⟩⟩
  · cases hlocation.symm.trans h
  · obtain ⟨rfl, rfl⟩ := Edit.insert.inj (Option.some.inj (hpath.symm.trans h))
    exact ⟨hnest, hfree⟩

theorem idInBase_plainConfig : IdInBase (lines plainConfig) := by
  have hid : idReading (Toml.readings (lines plainConfig)) =
      some ⟨baseTable, "id = 5", .entry ["id"] .other⟩ := by decide +kernel
  intro r hr
  obtain rfl := Option.some.inj (hid.symm.trans hr)
  exact .inl rfl

theorem vmId_reads_plainConfig :
    Toml.Accepted (lines plainConfig) ∧
    buildStaticConfig (filesWith plainConfig) kernelArgs = .ok plainResult ∧
    Toml.Reads (lines plainResult.text) baseTable "id" plainResult.vmId := by
  have hvalid : Toml.Accepted (lines plainConfig) := by decide +kernel
  have hbuild : buildStaticConfig (filesWith plainConfig) kernelArgs = .ok plainResult := by
    decide +kernel
  exact ⟨hvalid, hbuild, (vmId_reads_iff (filesWith plainConfig) kernelArgs hvalid
    (findImages_kernelArgs _) plain_kernelImages hbuild).2
    ⟨inOrder_plainConfig, idInBase_plainConfig⟩⟩

/-- A config whose `[base]` table has a comment after its number, and an indented table after it. -/
def indentedConfig : Text := "[base]\nid = 5 # vm\n  [extra]\nid = 7\n[kernel]\n"

def indentedResult : Result where
  text := ("[base]\nid = 5 # vm\n  [extra]\nid = 7\n[kernel]\n\nkernel_path = \"/w/k\"\n" ++
    "image_location = \"memory\"").toList
  vmId := 7
  images := kernelImages

/-- The number of `[extra]` is taken for that of `[base]`. -/
theorem vmId_reads_indentedConfig :
    Toml.Accepted (lines indentedConfig) ∧ kernelImages.Plain ∧
    findImages (filesWith indentedConfig) kernelArgs = .ok kernelImages ∧
    buildStaticConfig (filesWith indentedConfig) kernelArgs = .ok indentedResult ∧
    Toml.Reads (lines indentedResult.text) baseTable "id" 5 ∧
    ¬Toml.Reads (lines indentedResult.text) baseTable "id" indentedResult.vmId := by
  refine ⟨by decide +kernel, plain_kernelImages, findImages_kernelArgs _, by decide +kernel, ?_⟩
  decide +kernel

end Gen.StaticConfig
