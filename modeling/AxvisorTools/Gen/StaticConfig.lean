import AxvisorTools.Gen.KernelKey
import AxvisorTools.Gen.Newc
import AxvisorTools.Py.Str

/-!
# Building the static config

`build_static_config` of `gen-axvisor-linux-vm-configs-static.py`: it looks for the images of the guest,
writes their paths into the VM config and takes the number of the VM from the text it has written. The
file system is a parameter: which paths are files and what they resolve to, what `gzip` reads from one,
and whether the directory for generated files can be written.
-/

namespace Gen.StaticConfig

open Regex Py KernelKey

/-- What stops `build_static_config`. -/
inductive Error
  | systemExit (message : Text)
  | imageLocation (got : Option Text)
  | rewrite (error : KernelKey.Error)
  | valueError
  /-- What `extract_newc_member` raises. -/
  | archive (error : Newc.Error)
  /-- The file system or `gzip` raises. -/
  | reading
  /-- The loop of `extract_newc_member` is still going. -/
  | running
  deriving DecidableEq, Repr

/-- The arguments of the script that `build_static_config` reads. -/
structure Args where
  kernel : Text
  dtb : Option Text
  initramfs : Option Text
  embedInitramfs : Bool

/-- The files around the script. -/
structure Files where
  config : Text
  cwd : Text
  configDir : Text
  /-- What `resolve` makes of a path for which `is_file` holds. -/
  regular : Text → Option Text
  /-- `gzip.decompress` of the bytes of a file; `none` if one of the two raises. -/
  decompress : Text → Option Bytes
  generatedDir : Text
  /-- `mkdir` and `write_bytes` succeed in the directory for generated files. -/
  writable : Bool
  /-- How many passes the loop over an archive is given. -/
  fuel : Nat

/-- The paths of the images. -/
structure Images where
  kernel : Text
  dtb : Option Text
  initramfs : Option Text
  deriving DecidableEq, Repr

/-! ## The images -/

/-- `resolve_existing(path_text, config_dir)`. -/
def resolveExisting (files : Files) (pathText : Text) : Option Text :=
  if pathText = [] then none
  else if pathText.head? = some '/' then files.regular pathText
  else
    [files.cwd ++ '/' :: pathText, files.configDir ++ '/' :: pathText].findSome? files.regular

def defaultDtbInInitramfs : Text := "guest/linux-riscv64-qemu-smp1.dtb"

/-- `pathlib.Path(DEFAULT_DTB_IN_INITRAMFS).name`. -/
def defaultDtbName : Text := "linux-riscv64-qemu-smp1.dtb"

/-- The path that the device tree of the archive is written to. -/
def extractDtbFromInitramfs (files : Files) (initramfs : Text) : Except Error Text :=
  if files.writable then
    match files.decompress initramfs with
    | none => .error .reading
    | some data =>
      match Newc.extractNewcMember files.fuel data defaultDtbInInitramfs with
      | none => .error .running
      | some (.error e) => .error (.archive e)
      | some (.ok none) => .error (.systemExit
          (defaultDtbInInitramfs ++ " not found in initramfs: " ++ initramfs))
      | some (.ok (some _)) => .ok (files.generatedDir ++ '/' :: defaultDtbName)
  else .error .reading

/-- `(?m)^\s*dtb_(path|load_addr)\s*=`. -/
def dtbPattern : Re :=
  .seq bol (.seq (.star true Re.space) (.seq (lit "dtb_")
    (.seq (.group 1 (.alt (lit "path") (lit "load_addr")))
      (.seq (.star true Re.space) (lit ['='])))))

def wantsDtb (text : Text) : Bool := found dtbPattern text

/-- The device tree: the given one, or else the one in the initramfs if the config asks for one. -/
def findDtb (files : Files) (args : Args) : Except Error (Option Text) :=
  match args.dtb.bind (resolveExisting files) with
  | some dtb => .ok (some dtb)
  | none =>
    match args.initramfs with
    | none => .ok none
    | some initramfs =>
      if wantsDtb files.config then
        match resolveExisting files initramfs with
        | none => .ok none
        | some path => (extractDtbFromInitramfs files path).map some
      else .ok none

def findInitramfs (files : Files) (args : Args) : Except Error (Option Text) :=
  if args.embedInitramfs then
    match args.initramfs with
    | none => .error (.systemExit "--embed-initramfs requires --initramfs")
    | some initramfs =>
      match resolveExisting files initramfs with
      | none => .error (.systemExit ("guest initramfs image not found: " ++ initramfs))
      | some path => .ok (some path)
  else .ok none

def findImages (files : Files) (args : Args) : Except Error Images :=
  match resolveExisting files args.kernel with
  | none => .error (.systemExit ("guest kernel image not found: " ++ args.kernel))
  | some kernel => do
    let dtb ← findDtb files args
    let initramfs ← findInitramfs files args
    return ⟨kernel, dtb, initramfs⟩

/-! ## The text -/

/-- One call of `replace_or_insert_kernel_key`. -/
structure KeyEdit where
  key : Text
  value : Text
  afterKey : Option Text

def KeyEdit.run (e : KeyEdit) (text : Text) : Except Error Text :=
  (replaceOrInsertKernelKey text e.key e.value e.afterKey).mapError .rewrite

def imageLocationEdit : KeyEdit := ⟨"image_location", "memory", none⟩

def kernelPathEdit (kernel : Text) : KeyEdit := ⟨"kernel_path", kernel, none⟩

def dtbPathEdit (dtb : Text) : KeyEdit :=
  ⟨"dtb_path", dtb, some "kernel_load_addr"⟩

def ramdiskPathEdit (initramfs : Text) : KeyEdit :=
  ⟨"ramdisk_path", initramfs, some "dtb_load_addr"⟩

/-- The calls in the order of the script; the last two are made for images that are not `None`. -/
def edits (images : Images) : List KeyEdit :=
  [imageLocationEdit, kernelPathEdit images.kernel] ++ images.dtb.toList.map dtbPathEdit ++
    images.initramfs.toList.map ramdiskPathEdit

def rewriteConfig (images : Images) (text : Text) : Except Error Text :=
  (edits images).foldlM (fun text e => e.run text) text

/-- `(?ms)^{header}\s*(.*?)(?:^\[|\Z)`. -/
def sectionPattern (header : Text) : Re :=
  .seq bol (.seq (lit header) (.seq (.star true Re.space)
    (.seq (.group 1 (.star false (.one fun _ => true)))
      (.alt (.seq bol (lit ['['])) (.look fun _ next => next.isNone)))))

/-- Group 1 of the first match. -/
def group1 (r : Re) (text : Text) : Option Text :=
  (search r text).map fun (start, e) => Re.groupText start e 1

def isDecimal (c : Char) : Bool := (decimal? c).isSome

/-- `(?m)^id\s*=\s*(\d+)\s*$`. -/
def idPattern : Re :=
  .seq bol (.seq (lit "id") (.seq (.star true Re.space) (.seq (lit ['='])
    (.seq (.star true Re.space)
      (.seq (.group 1 (.seq (.one isDecimal) (.star true (.one isDecimal))))
        (.seq (.star true Re.space) eol))))))

/-- `vm_id`. -/
def findVmId (text : Text) : Except Error Nat :=
  match group1 (sectionPattern "[base]") text with
  | none => .error (.systemExit "VM config does not contain a [base] section")
  | some base =>
    match group1 idPattern base with
    | none =>
      .error (.systemExit "VM config [base] section does not contain an integer id")
    | some id =>
      match intOfDigits id with
      | none => .error .valueError
      | some n => .ok n

/-- `(?m)^image_location\s*=\s*"([^"]+)"\s*$`. -/
def imageLocationPattern : Re :=
  .seq bol (.seq (lit "image_location") (.seq (.star true Re.space) (.seq (lit ['='])
    (.seq (.star true Re.space) (.seq (lit ['"'])
      (.seq (.group 1 (.seq (.one (· != '"')) (.star true (.one (· != '"')))))
        (.seq (lit ['"']) (.seq (.star true Re.space) eol))))))))

def checkImageLocation (text : Text) : Except Error Unit :=
  match group1 (sectionPattern "[kernel]".toList) text with
  | none => .error (.systemExit "VM config does not contain a [kernel] section".toList)
  | some kernel =>
    if group1 imageLocationPattern kernel = some "memory".toList then .ok ()
    else .error (.imageLocation (group1 imageLocationPattern kernel))

/-- What `build_static_config` returns; there is never a BIOS image. -/
structure Result where
  text : Text
  vmId : Nat
  images : Images
  deriving DecidableEq, Repr

/-- `build_static_config`. -/
def buildStaticConfig (files : Files) (args : Args) : Except Error Result := do
  let images ← findImages files args
  let text ← rewriteConfig images files.config
  let vmId ← findVmId text
  checkImageLocation text
  return ⟨text, vmId, images⟩

end Gen.StaticConfig
