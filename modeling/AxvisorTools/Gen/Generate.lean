import AxvisorTools.Gen.Rust
import AxvisorTools.Gen.StaticConfig

/-!
# The generated Rust file

`generate_rs`, `image_expr` and `main` of `gen-axvisor-linux-vm-configs-static.py`, and what the
file says to the Rust program that is built with it: `static_vm_configs` and `get_memory_images`.
-/

namespace Gen.StaticConfig

open Py

/-! ## The script -/

/-- `rust_raw_string`, whose `ValueError` ends the script. -/
def literal (value : Text) : Except Error Text :=
  (rustRawString value).mapError fun _ => .valueError

/-- `image_expr`. -/
def imageExpr : Option Text → Except Error Text
  | none => .ok "None"
  | some path => do
    let path ← literal path
    return "Some(include_bytes!(" ++ path ++ "))"

/-- The lines above the config. -/
def configHead : List Text :=
  ["/// Static VM config strings embedded by Linux Kbuild.",
    "pub fn static_vm_configs() -> Vec<&'static str> \x7b"]

/-- The lines between the config and the images. -/
def imagesHead : List Text :=
  ["\x7d",
    [],
    "/// One guest image data from memory.",
    "pub struct MemoryImage \x7b",
    "    /// VM id in config file.",
    "    pub id: usize,",
    "    /// Kernel image bytes.",
    "    pub kernel: &'static [u8],",
    "    /// Optional DTB image bytes.",
    "    pub dtb: Option<&'static [u8]>,",
    "    /// Optional BIOS image bytes.",
    "    pub bios: Option<&'static [u8]>,",
    "    /// Optional ramdisk image bytes.",
    "    pub ramdisk: Option<&'static [u8]>,",
    "\x7d",
    [],
    "/// Guest images embedded by Linux Kbuild.",
    "pub fn get_memory_images() -> &'static [MemoryImage] \x7b",
    "    &[MemoryImage \x7b"]

def imagesTail : List Text := ["    \x7d]", "\x7d"]

/-- The text of the file around what varies. -/
def fileText (config id kernel dtb bios ramdisk : Text) : Text :=
  above (configHead ++ ["    vec![" ++ config ++ "]"] ++ imagesHead ++
    ["        id: " ++ id ++ ",",
      "        kernel: include_bytes!(" ++ kernel ++ "),",
      "        dtb: " ++ dtb ++ ",",
      "        bios: " ++ bios ++ ",",
      "        ramdisk: " ++ ramdisk ++ ","] ++ imagesTail)

/-- `generate_rs`; `build_static_config` passes `None` for the BIOS. -/
def generateRs (c : Result) : Except Error Text := do
  let config ← literal c.text
  let kernel ← literal c.images.kernel
  let dtb ← imageExpr c.images.dtb
  let bios ← imageExpr none
  let ramdisk ← imageExpr c.images.initramfs
  return fileText config (Nat.toDigits 10 c.vmId) kernel dtb bios ramdisk

/-- What `main` leaves behind: the output file, and what it prints. -/
structure Run where
  output : Text
  printed : List Text
  deriving DecidableEq, Repr

/-- What is printed about the images. -/
def embedded (c : Result) : List Text :=
  ["embedded vm_id=".toList ++ Nat.toDigits 10 c.vmId ++ " kernel=".toList ++ c.images.kernel] ++
    c.images.dtb.toList.map ("embedded dtb=".toList ++ ·) ++
    c.images.initramfs.toList.map ("embedded ramdisk=".toList ++ ·)

/-- `main`, with the path of the output file and what is in the file before, if it exists. -/
def main (files : Files) (args : Args) (path : Text) (old : Option Text) : Except Error Run := do
  let c ← buildStaticConfig files args
  let output ← generateRs c
  match old with
  | some t =>
    if universalNewlines t = output then return ⟨t, ("unchanged " ++ path) :: embedded c⟩
    else return ⟨output, ("generated " ++ path) :: embedded c⟩
  | none => return ⟨output, ("generated " ++ path) :: embedded c⟩

/-! ## What the file says -/

/-- A `MemoryImage`, with the paths that are included in place of the bytes. -/
structure MemoryImage where
  id : Nat
  kernel : Text
  dtb : Option Text
  bios : Option Text
  ramdisk : Option Text
  deriving DecidableEq, Repr

open Rust (Expr)

end Gen.StaticConfig
