import AxvisorTools.Gen.KernelKey
import AxvisorTools.Harness.MemSizes
import AxvisorTools.Linux.Memmap
import AxvisorTools.Toml.Array

/-!
# The VM config of the x86 smoke script

`prepare_vm_config` of `verify-x86-linux-host-linux-smoke.sh` rewrites a VM config by regular
expressions: the CPUs, two keys of `[kernel]` and the first entry of `memory_regions`, the identity
memory of the guest. `launch_qemu` has the host kernel keep off the same memory by `memmap=`. The base
and the size of that memory are strings of the environment which both of them read on their own.
-/

namespace Smoke.VmConfig

open Regex Py

/-- What stops `prepare_vm_config`. -/
inductive Error
  | unsupportedBootMode (mode : Text)
  | valueError
  | re
  | systemExit (message : Text)
  deriving DecidableEq, Repr

/-- The variables `prepare_vm_config` reads. -/
structure Env where
  bootMode : Text
  guestInitramfsImg : Text
  identityRamBase : Text
  identityRamSize : Text
  cpuNum : Text
  physCpuIds : Text

/-! ## Numbers -/

/-- `parse_size`, which reads a size as `size_to_hex` of the memory-size harness does. -/
def parseSize (special : Char → Text) (value : Text) : Option Int := Harness.sizeBytes special value

/-- `int(base.replace("_", ""), 0)`. -/
def parseBase (base : Text) : Option Int := intStr 0 (base.filter (· ≠ '_'))

/-- `phys_cpu_ids`. -/
def physCpuIds (raw : Text) (cpuNum : Int) : Option (List Int) :=
  if raw = "auto" then
    some (if cpuNum = 1 then [0] else (List.range cpuNum.toNat).map Int.ofNat)
  else (((raw.splitOn ',').map strip).filter (· ≠ [])).mapM (intStr 0)

/-! ## Rewriting -/

/-- `(?m)^cpu_num = \d+$`. -/
def cpuNumPattern : Re :=
  .seq bol (.seq (lit "cpu_num = ") (.seq (.one fun c => (decimal? c).isSome)
    (.seq (.star true (.one fun c => (decimal? c).isSome)) eol)))

/-- `(?m)^phys_cpu_ids = \[[^\]]*\]$`. -/
def physCpuIdsPattern : Re :=
  .seq bol (.seq (lit "phys_cpu_ids = [") (.seq (.star true (.one (· != ']')))
    (.seq (lit [']']) eol)))

def cpuNumLine (cpuNum : Int) : Text := "cpu_num = " ++ str cpuNum

def physCpuIdsLine (ids : List Int) : Text :=
  "phys_cpu_ids = [" ++ [',', ' '].intercalate (ids.map str) ++ [']']

/-- `re.subn(…, count=1)` that has to replace something. -/
def replaceOnce (r : Re) (ngroups : Nat) (template text : Text) (message : String) :
    Except Error Text :=
  match Re.subn1 r ngroups template text with
  | none => .error .re
  | some none => .error (.systemExit message.toList)
  | some (some replaced) => .ok replaced

/-- `replace_base_cpu_config`. -/
def replaceBaseCpuConfig (text : Text) (cpuNum : Int) (ids : List Int) : Except Error Text := do
  let text ← replaceOnce cpuNumPattern 0 (cpuNumLine cpuNum) text "failed to replace cpu_num"
  replaceOnce physCpuIdsPattern 0 (physCpuIdsLine ids) text "failed to replace phys_cpu_ids"

/-- `replace_kernel_key`. -/
def replaceKernelKey (text : Text) (key : String) (value : Text) (afterKey : Option String) :
    Except Error Text :=
  match Gen.KernelKey.replaceKernelKey text key.toList value (afterKey.map String.toList) with
  | .ok text => .ok text
  | .error .re => .error .re
  | .error (.systemExit message) => .error (.systemExit message.toList)

/-- `\s*`. -/
def spaces : Re := .star true Re.space

/-- `[^\]\n]+`. -/
def field : Re :=
  .seq (.one fun c => c != ']' && c != '\n') (.star true (.one fun c => c != ']' && c != '\n'))

/-- `\s*#.*\n`. -/
def commentLine : Re := .seq spaces (.seq (lit ['#']) (.seq (.star true dot) (lit ['\n'])))

/-- `memory_regions\s*=\s*\[\s*\n(?:\s*#.*\n)*`. -/
def regionsOpening : Re :=
  .seq (lit "memory_regions") (.seq spaces (.seq (lit ['=']) (.seq spaces (.seq (lit ['['])
    (.seq spaces (.seq (lit ['\n']) (.star true commentLine)))))))

/-- `\[[^\]\n]+,\s*[^\]\n]+,\s*0x7,\s*1\]`. -/
def identityEntry : Re :=
  .seq (lit ['[']) (.seq field (.seq (lit [',']) (.seq spaces (.seq field (.seq (lit [','])
    (.seq spaces (.seq (lit "0x7,") (.seq spaces (lit "1]")))))))))

/-- The pattern of `replace_identity_memory_region`. -/
def identityPattern : Re := .seq (.group 1 regionsOpening) (.seq spaces identityEntry)

/-- `[0x{base_int:08x}, 0x{size_int:08x}, 0x7, 1]`. -/
def identityRegion (base size : Int) : Text :=
  "[0x" ++ Harness.hex08 base ++ ", 0x" ++ Harness.hex08 size ++ ", 0x7, 1]"

/-- An integer, or `ValueError`. -/
def orValueError {α : Type} : Option α → Except Error α
  | some a => .ok a
  | none => .error .valueError

/-- `replace_identity_memory_region`. -/
def replaceIdentityMemoryRegion (special : Char → Text) (text base size : Text) :
    Except Error Text := do
  let baseInt ← orValueError (parseBase base)
  let sizeInt ← orValueError (parseSize special size)
  replaceOnce identityPattern 1 ("\\1  " ++ identityRegion baseInt sizeInt) text
    "failed to replace identity memory region"

/-! ## The script -/

-- The kernel decodes a string literal in time quadratic in its length, so long texts of the script
-- are given in pieces below.
/-- Words with single blanks between them. -/
def words (ws : List String) : Text := [' '].intercalate (ws.map String.toList)

/-- The end of both command lines. -/
def commonArguments : Text :=
  words ["reboot=k panic=1", "acpi=off pci=conf1", "pci=nomsi irqpoll", "nox2apic", "tsc=unstable",
    "no_timer_check", "initcall_blacklist="] ++ "ahci_pci_driver_init," ++ "i8042_init"

def rootfsCmdline : Text :=
  words ["console=ttyS0", "earlyprintk=serial", "root=/dev/vda rw", "rootwait", "devtmpfs.mount=1",
    "init=/init "] ++ commonArguments

def initramfsCmdline : Text :=
  words ["console=ttyS0", "earlyprintk=serial", "rdinit=/init", "init=/init "] ++ commonArguments

/-- The kernel command line of the guest and the path of its ramdisk. -/
def bootArguments (env : Env) : Except Error (Text × Text) :=
  if env.bootMode = "rootfs" then .ok (rootfsCmdline, [])
  else if env.bootMode = "initramfs" then .ok (initramfsCmdline, env.guestInitramfsImg)
  else .error (.unsupportedBootMode env.bootMode)

/-- `cpu_num` and `phys_cpu_ids` with their checks. -/
def readCpus (env : Env) : Except Error (Int × List Int) := do
  let cpuNum ← orValueError (intStr 0 env.cpuNum)
  if cpuNum < 1 then .error (.systemExit "X86_GUEST_CPU_NUM must be >= 1")
  else
    let ids ← orValueError (physCpuIds env.physCpuIds cpuNum)
    if (ids.length : Int) ≠ cpuNum then
      .error (.systemExit ("X86_GUEST_PHYS_CPU_IDS length " ++ str ids.length ++
        " != X86_GUEST_CPU_NUM " ++ str cpuNum))
    else .ok (cpuNum, ids)

/-- `prepare_vm_config` for the config `text`: the generated config. -/
def prepareVmConfig (special : Char → Text) (text : Text) (env : Env) : Except Error Text := do
  let (cmdline, ramdiskPath) ← bootArguments env
  let (cpuNum, ids) ← readCpus env
  let text ← replaceBaseCpuConfig (universalNewlines text) cpuNum ids
  let text ← replaceKernelKey text "cmdline" cmdline none
  let text ← replaceKernelKey text "ramdisk_path" ramdiskPath (some "ramdisk_load_addr")
  replaceIdentityMemoryRegion special text env.identityRamBase env.identityRamSize

/-- The value of the `memmap=` argument. -/
def memmapValue (env : Env) : Text := env.identityRamSize ++ '$' :: env.identityRamBase

/-- The lines of `tools/x86_64-linux-host-vm.toml`, the config that is rewritten by default, above
`cmdline`. -/
def templateStart : List Text :=
  [["[base]"],
    ["id = 1"],
    ["name =", "\"linux-x86_64-qemu\""],
    ["vm_type = 1"],
    ["cpu_num = 1"],
    ["phys_cpu_ids = [1]"],
    [""],
    ["[kernel]"],
    ["entry_point = 0x8000"],
    ["boot_protocol =", "\"direct\""],
    ["image_location =", "\"memory\""],
    ["kernel_path = \"\""],
    ["kernel_load_addr =", "0x20_0000"],
    ["ramdisk_path = \"\""],
    ["ramdisk_load_addr =", "0x40_00000"]].map words

/-- The lines below `cmdline`. -/
def templateEnd : List Text :=
  [["memory_regions = ["],
    ["  # Linux-host mode", "cannot reuse", "host-owned low RAM", "for identity DMA.", "The"],
    ["  # smoke launcher", "reserves this host", "physical range with", "memmap before",
      "insmod."],
    ["  [0x4000_0000,", "0x0800_0000, 0x7,", "1],"],
    ["  [0x0000_0000,", "0x0010_0000, 0x7,", "0],"],
    ["]"],
    [""],
    ["[devices]"],
    ["interrupt_mode =", "\"passthrough\""],
    ["passthrough_devices", "= [[\"HPET\",", "0xfed0_0000,", "0xfed0_0000, 0x1000,", "0x1]]"],
    ["passthrough_addresses", "= [[0x8000_0000,", "0x20_0000],", "[0x8_0000_0000,", "0x20_0000],",
      "[0xfe00_0000,", "0x00c0_0000],", "[0xfed8_0000,", "0x1000],", "[0x70_0000_0000,",
      "0x10_0000],", "[0x3800_0000_0000,", "0x10_0000]]"],
    ["passthrough_ports =", "[[0x6000, 0x80],", "[0xc000, 0x80]]"],
    ["emu_devices =", "[[\"x86-com1\", 0x3f8,", "0x8, 0x0, 0x2, []],", "[\"x86-ioapic\",",
      "0xfec0_0000, 0x1000,", "0x0, 0x23, []],", "[\"x86-pit\", 0x40,", "0x22, 0x0, 0x24,",
      "[]]]"],
    [""]].map words

def template : List Text :=
  templateStart ++ Gen.KernelKey.keyLine "cmdline" rootfsCmdline :: templateEnd

/-! ## The identity memory of the guest -/

/-- The range an entry of `memory_regions` gives. -/
def regionRange : List Int → Option Linux.Range
  | base :: size :: _ => if 0 ≤ base ∧ 0 ≤ size then some ⟨base.toNat, size.toNat⟩ else none
  | _ => none

/-- The range of the first entry of `memory_regions` in a config. -/
def guestRegion (config : Text) : Option Linux.Range :=
  ((Toml.valueText ["kernel"] "memory_regions" config).bind Toml.firstRow).bind
    regionRange

end Smoke.VmConfig
