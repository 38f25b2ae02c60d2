import AxvisorTools.Gen.Generate
import AxvisorTools.Gen.Proof.Rust

/-!
# The generated file reads back

`readRs_generateRs`: the Rust program that is built with the file gets the config and the paths
that `generate_rs` was given, unless the number of the VM does not fit into a `usize`.
-/

namespace Gen.StaticConfig

open Rust

/-- The paths of the images that are embedded. -/
def Images.paths (images : Images) : List Text :=
  images.kernel :: images.dtb.toList ++ images.initramfs.toList

/-! ## Tokens -/

def word (s : String) : Token := .word s.toList

end Gen.StaticConfig
