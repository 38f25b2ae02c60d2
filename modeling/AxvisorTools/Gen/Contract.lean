import AxvisorTools.Gen.Generate
import AxvisorTools.Gen.StaticSpec

/-!
# Configs and images that go together

A hypervisor that is built with the generated file reads its configs as TOML and takes the images
from the table. `Agrees` says that a config and an image go together: the number is the same, and
the config names the files that are embedded. `KeyEdit.Lands` says of the given config that an edit
of the script puts its line into `[kernel]`.
-/

namespace Gen.StaticConfig

open KernelKey

/-- The `[kernel]` table of the lines has the string `value` under `key`. -/
def NamesFile (ls : List Text) (key value : Text) : Prop :=
  ∃ r ∈ Toml.readings ls, r.table = ["kernel".toList] ∧ r.role = .entry [key] (.string value)

/-- The config is valid, has the number of the image, and names the files that are embedded. -/
structure Agrees (config : Text) (image : MemoryImage) : Prop where
  id : Toml.Reads (lines config) baseTable "id" image.id
  memory : NamesFile (lines config) "image_location" "memory"
  kernel : NamesFile (lines config) "kernel_path" image.kernel
  dtb : ∀ path ∈ image.dtb, NamesFile (lines config) "dtb_path" path
  ramdisk : ∀ path ∈ image.ramdisk, NamesFile (lines config) "ramdisk_path" path

end Gen.StaticConfig
