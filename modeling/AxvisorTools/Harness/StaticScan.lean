import AxvisorTools.Harness.ArchStatic
import AxvisorTools.Py.Str
import AxvisorTools.Shell.Tree

/-!
# The architecture scan

`run_static_scan` of `verify-axvisor-architecture-static.sh` reads the sources below `ROOT_DIR` line
by line and looks for symbols that core crates must not use. A tree is given by the decoded texts of
its files, and `isalnum` is `str.isalnum` for the characters that are not ASCII.
-/

namespace Harness.StaticScan

open Shell Py Regex

/-! ## Files -/

def axvisor : Text := "linux-host-kernel/drivers/virt/axvisor/"

def upstream : Text := axvisor ++ "vendor/upstream/"

/-- `core_crates`. -/
def coreCrates : List Text :=
  ["axvisor_api", "axvisor_core", "axvm", "axvcpu", "axaddrspace", "axdevice", "axdevice_base",
    "axhvc", "axvmconfig", "ax-memory-addr", "ax-memory-set", "ax-page-table-entry",
    "ax-page-table-multiarch", "ax-cpumask", "ax-errno", "ax-kspin", "ax-lazyinit",
    "ax-timer-list"].map String.toList

/-- `arch_crates`. -/
def archCrates : List Text :=
  ["x86_vcpu", "x86_vlapic", "riscv_vcpu", "riscv_vplic", "riscv-h"].map String.toList

/-- `linux_backend_files` and `linux_backend_dirs`. -/
def linuxBackendPaths : List Text :=
  [axvisor ++ "axvisor_adapter_main.rs", axvisor ++ "axvisor_adapter_shim.c",
    axvisor ++ "axvisor_percpu_start.c", axvisor ++ "axvisor_percpu_stop.c",
    axvisor ++ "arch", axvisor ++ "core_link",
    upstream ++ "axvisor_linux_bridge/src"]

/-- `kvm_frontend_files`. -/
def kvmFrontendFiles : List Text :=
  ["axvisor_kvm_main.c", "axvisor_kvm_backend.c", "axvisor_kvm_backend.h",
    "axvisor_kvm_axvisor_backend.c", "axvisor_kvm_rust_backend.rs", "axvisor_kvm_x86_bridge.rs",
    "axvisor_kvm_x86_bridge_runtime.c", "axvisor_kvm_x86_bridge_runtime.h"].map
      fun name => axvisor ++ name.toList

/-- What follows the last dot of a name. -/
def afterDot (name : Text) : Text := (name.reverse.takeWhile (· ≠ '.')).reverse

/-- `PurePath.suffix`: a dot at either end of the name starts none. -/
def suffix (path : Text) : Text :=
  let name := basename path
  let ext := afterDot name
  if '.' ∈ name ∧ ext ≠ [] ∧ ext.length + 1 < name.length then '.' :: ext else []

/-- `PurePath.stem`. -/
def stem (path : Text) : Text := (basename path).take ((basename path).length - (suffix path).length)

/-- `source_exts`. -/
def sourceExts : List Text := [".rs", ".c", ".h"]

def isSource (path : Text) : Bool := suffix path ∈ sourceExts

/-- `sorted(set(paths))`: paths compare by their parts. -/
def sortPaths (paths : List Text) : List Text :=
  paths.dedup.mergeSort fun a b => decide (a.splitOn '/' ≤ b.splitOn '/')

/-- The sources of one path: the file itself, or all below the directory. -/
def sourcesOf (tree : Tree) (path : Text) : List Text :=
  if (tree.files.lookup path).isSome then
    if isSource path then [path] else []
  else if tree.isDir path then
    tree.files.keys.filter fun file => (path ++ ['/']) <+: file ∧ isSource file
  else []

/-- `source_files`. -/
def sourceFiles (tree : Tree) (paths : List Text) : List Text :=
  sortPaths (paths.flatMap (sourcesOf tree))

/-- `crate_src`. -/
def crateSrc (crate : Text) : Text := upstream ++ crate ++ "/src"

def coreFiles (tree : Tree) : List Text := sourceFiles tree (coreCrates.map crateSrc)

def archFiles (tree : Tree) : List Text := sourceFiles tree (archCrates.map crateSrc)

/-- `path.read_text(errors="ignore").splitlines()`. -/
def readLines (tree : Tree) (path : Text) : List Text :=
  splitlines (universalNewlines ((tree.files.lookup path).getD []))

/-- `enumerate(…, 1)`. -/
def numbered (tree : Tree) (path : Text) : List (Text × Nat) := (readLines tree path).zipIdx 1

/-! ## Lines -/

/-- `raw.split("//", 1)[0]`. -/
def cutComment : Text → Text
  | [] => []
  | '/' :: '/' :: _ => []
  | c :: t => c :: cutComment t

/-- `"(?:\\.|[^"\\])*"`. -/
def quoted : Re :=
  .seq (lit ['"']) (.seq (.star true (.alt (.seq (lit ['\\']) dot)
    (.one fun c => c != '"' && c != '\\'))) (lit ['"']))

/-- The lines that are taken for comments by their start. -/
def isCommentLine (raw : Text) : Bool :=
  let stripped := raw.dropWhile Re.isWhite
  ['/', '/'].isPrefixOf stripped || ['*'].isPrefixOf stripped

/-- `strip_line_for_scan`. -/
def stripLineForScan (line : Text) : Text :=
  let raw := line.rdropWhile (· == '\n')
  if isCommentLine raw then [] else Re.sub quoted ['"', '"'] (cutComment raw)

/-! ## Forbidden symbols -/

section

variable (isalnum : Char → Bool)

/-- `\w`. -/
def isWord (c : Char) : Bool := if c.toNat < 128 then c.isAlphanum || c == '_' else isalnum c

/-- `\b`. -/
def boundary : Re := .look fun prev next => prev.any (isWord isalnum) != next.any (isWord isalnum)

/-- `\b…\b`. -/
def word (r : Re) : Re := .seq (boundary isalnum) (.seq r (boundary isalnum))

/-- One of some words, as group 1. -/
def anyOf (w : String) (ws : List String) : Re :=
  .group 1 (alts (lit w.toList) (ws.map fun w => lit w.toList))

/-- `\s*`. -/
def spaces : Re := .star true Re.space

/-- `struct\s+name`. -/
def structType (name : String) : Re :=
  .seq (lit "struct") (.seq Re.space (.seq spaces (lit name.toList)))

/-- `c`, given in lower case, with `re.IGNORECASE`. -/
def sameLetter (c d : Char) : Bool :=
  d.toLower == c || c == 'i' && (d == 'İ' || d == 'ı') || c == 's' && d == 'ſ'

def foldedLit : Text → Re
  | [] => .eps
  | c :: t => .seq (.one (sameLetter c)) (foldedLit t)

/-- `forbidden_host_patterns`. -/
def forbiddenHostPatterns : List (Text × Re) :=
  [("linux_header", .seq (lit ['#']) (.seq spaces (.seq (lit "include")
      (.seq spaces (lit "<linux/"))))),
    ("linux_module_macro", word isalnum (.seq (lit "MODULE_")
      (anyOf "LICENSE" ["AUTHOR", "DESCRIPTION", "VERSION"]))),
    ("linux_kernel_api", word isalnum (.group 1 (alts (lit "kmalloc")
      [lit "kfree", lit "vmalloc", lit "vfree", lit "memremap",
        lit "iounmap", lit "request_irq", lit "free_irq",
        .seq (lit "copy_") (.seq (.group 2 (.alt (lit "to") (lit "from")))
          (lit "_user")), lit "misc_register", lit "proc_create"]))),
    ("linux_kernel_type", word isalnum (.group 1 (alts (structType "file")
      [structType "inode", structType "vm_area_struct", structType "task_struct",
        lit "spinlock_t", lit "wait_queue_head_t"]))),
    ("asterinas_specific", word isalnum (.group 1 (alts (foldedLit "asterinas")
      [foldedLit "ostd::", foldedLit "linux_"])))]

/-- `[A-Z0-9_]`. -/
def isCapWord (c : Char) : Bool := c.isUpper || c.isDigit || c == '_'

/-- `forbidden_kvm_patterns`. -/
def forbiddenKvmPatterns : List (Text × Re) :=
  [("kvm_ioctl_or_cap", word isalnum (.seq (lit "KVM_")
      (.seq (.one isCapWord) (.star true (.one isCapWord))))),
    ("kvm_fd_or_ioctl", word isalnum
      (anyOf "kvm_run" ["kvm_userspace_memory_region", "ioctl", "eventfd", "irqfd"]))]

inductive Category
  | coreHostSpecificSymbol
  | coreKvmFrontendSymbol
  deriving DecidableEq, Repr

def Category.text : Category → Text
  | .coreHostSpecificSymbol => "core-host-specific-symbol"
  | .coreKvmFrontendSymbol => "core-kvm-frontend-symbol"

structure Finding where
  category : Category
  pattern : Text
  path : Text
  line : Nat
  text : Text
  deriving DecidableEq, Repr

/-- The findings of one line. -/
def scanLine (patterns : List (Text × Re)) (category : Category) (path line : Text) (lineno : Nat) :
    List Finding :=
  let scan := stripLineForScan line
  if isBlank scan then []
  else (patterns.filter fun p => found p.2 scan).map fun p =>
    ⟨category, p.1, path, lineno, (strip scan).take 240⟩

/-- `scan_forbidden`. -/
def scanForbidden (tree : Tree) (files : List Text) (patterns : List (Text × Re))
    (category : Category) : List Finding :=
  files.flatMap fun path => (numbered tree path).flatMap fun l =>
    scanLine patterns category path l.1 l.2

def hostFindings (tree : Tree) : List Finding :=
  scanForbidden tree (coreFiles tree) (forbiddenHostPatterns isalnum) .coreHostSpecificSymbol

def kvmFindings (tree : Tree) : List Finding :=
  scanForbidden tree (coreFiles tree) (forbiddenKvmPatterns isalnum) .coreKvmFrontendSymbol

def findings (tree : Tree) : List Finding := hostFindings isalnum tree ++ kvmFindings isalnum tree

end

/-! ## Counting lines -/

structure Loc where
  total : Nat
  code : Nat
  inBlock : Bool
  deriving DecidableEq, Repr

/-- `s.split("*/", 1)[1].strip()`, if `s` has a `*/`. -/
def afterBlock (s : Text) : Option Text := (findFrom ['*', '/'] s).map fun t => strip (t.drop 2)

/-- What is left of a line inside a block comment, or `none` if it does not end there. -/
def Loc.openText (loc : Loc) (s : Text) : Option Text := if loc.inBlock then afterBlock s else some s

/-- One round of the loop of `loc_for_file`. -/
def Loc.step (loc : Loc) (line : Text) : Loc :=
  let loc := { loc with total := loc.total + 1 }
  if strip line = [] then loc
  else
    match loc.openText (strip line) with
    | none => loc
    | some s =>
      match if ['/', '*'].isPrefixOf s then afterBlock s else some s with
      | none => { loc with inBlock := true }
      | some s =>
        if s = [] ∨ ['/', '/'].isPrefixOf s then { loc with inBlock := false }
        else { loc with inBlock := false, code := loc.code + 1 }

/-- `loc_for_file`. -/
def locForFile (tree : Tree) (path : Text) : Loc := (readLines tree path).foldl Loc.step ⟨0, 0, false⟩

/-- `count_component`. -/
def countComponent (tree : Tree) (files : List Text) : Nat × Nat :=
  ((files.map fun path => (locForFile tree path).total).sum,
    (files.map fun path => (locForFile tree path).code).sum)

/-! ## The interface of the core -/

structure HostApiCall where
  module : Text
  method : Text
  path : Text
  line : Nat
  deriving DecidableEq, Repr

/-- `[A-Za-z_]` and `[A-Za-z0-9_]`. -/
def isNameStart (c : Char) : Bool := c.isAlpha || c == '_'

def isNameChar (c : Char) : Bool := c.isAlphanum || c == '_'

/-- `([A-Za-z_][A-Za-z0-9_]*)` as group `n`. -/
def name (n : Nat) : Re := .group n (.seq (.one isNameStart) (.star true (.one isNameChar)))

/-- `api_call_pattern`. -/
def apiCallPattern (isalnum : Char → Bool) : Re :=
  .seq (boundary isalnum) (.seq (lit "axvisor_api::")
    (.seq (.group 1 (.seq (.one fun c => c.isLower || c == '_')
        (.star true (.one fun c => c.isLower || c == '_'))))
      (.seq (lit "::") (.seq (name 2) (.seq spaces (lit ['(']))))))

/-- `host_api_calls`. -/
def hostApiCalls (isalnum : Char → Bool) (tree : Tree) : List HostApiCall :=
  (coreFiles tree ++ archFiles tree).flatMap fun path => (numbered tree path).flatMap fun l =>
    (Re.finditer (apiCallPattern isalnum) (stripLineForScan l.1)).map fun m =>
      ⟨Re.groupText m.1 m.2 1, Re.groupText m.1 m.2 2, path, l.2⟩

structure TraitMethod where
  trait : Text
  method : Text
  path : Text
  line : Nat
  deriving DecidableEq, Repr

/-- `trait_pattern`. -/
def traitPattern : Re :=
  .seq (lit "pub") (.seq Re.space (.seq spaces (.seq (lit "trait")
    (.seq Re.space (.seq spaces (name 1))))))

/-- `method_pattern`. -/
def methodPattern : Re :=
  .seq (lit "fn") (.seq Re.space (.seq spaces (.seq (name 1) (.seq spaces (lit ['('])))))

/-- `current_trait` and the methods so far. -/
structure TraitScan where
  current : Option Text
  methods : List TraitMethod

def TraitScan.step (path : Text) (s : TraitScan) (l : Text × Nat) : TraitScan :=
  let scan := stripLineForScan l.1
  let current :=
    match search traitPattern scan with
    | some (start, e) => some (Re.groupText start e 1)
    | none => s.current
  let methods :=
    match current, search methodPattern scan with
    | some trait, some (start, e) =>
      if "pub fn".toList.isPrefixOf (scan.dropWhile Re.isWhite) then s.methods
      else s.methods ++ [⟨trait, Re.groupText start e 1, path, l.2⟩]
    | _, _ => s.methods
  ⟨if strip scan = ['\x7d'] then none else current, methods⟩

/-- `trait_methods`. -/
def traitMethods (tree : Tree) : List TraitMethod :=
  (sourceFiles tree [crateSrc "axvisor_api"]).flatMap fun path =>
    ((numbered tree path).foldl (TraitScan.step path) ⟨none, []⟩).methods

/-- `called_by_core_or_arch`. -/
def isCalled (calls : List HostApiCall) (m : TraitMethod) : Bool :=
  calls.any fun call => call.module = stem m.path ∧ call.method = m.method

/-! ## Tables -/

/-- A field of a CSV file: quoted where needed. -/
def csvField (t : Text) : Text :=
  if t.any fun c => c == ',' || c == '"' || c == '\n' || c == '\r' then
    '"' :: t.flatMap (fun c => if c = '"' then ['"', '"'] else [c]) ++ ['"']
  else t

def csvRow (fields : List Text) : Text :=
  [','].intercalate (fields.map csvField) ++ ['\r', '\n']

/-- `writer.writeheader()` and `writer.writerows(rows)`. -/
def csvTable (fieldnames : List String) (rows : List (List Text)) : Text :=
  csvRow (fieldnames.map String.toList) ++ rows.flatMap csvRow

def number (n : Nat) : Text := Nat.toDigits 10 n

def forbiddenFindingsCsv (fs : List Finding) : Text :=
  csvTable ["category", "pattern", "path", "line", "text"]
    (fs.map fun f => [f.category.text, f.pattern, f.path, number f.line, f.text])

def hostApiCallsCsv (calls : List HostApiCall) : Text :=
  csvTable ["module", "method", "path", "line"]
    (calls.map fun c => [c.module, c.method, c.path, number c.line])

def hostifMethodsCsv (calls : List HostApiCall) (methods : List TraitMethod) : Text :=
  csvTable ["trait", "module", "method", "called_by_core_or_arch", "path", "line"]
    (methods.map fun m => [m.trait, stem m.path, m.method,
      if isCalled calls m then "True" else "False", m.path, number m.line])

/-- `component_specs`. -/
inductive Component
  | coreContractAndVm
  | architectureBackend
  | linuxHostBackend
  | kvmCompatFrontend
  deriving DecidableEq, Repr

def Component.text : Component → Text
  | .coreContractAndVm => "core_contract_and_vm"
  | .architectureBackend => "architecture_backend"
  | .linuxHostBackend => "linux_host_backend"
  | .kvmCompatFrontend => "kvm_compat_frontend"

def Component.files (tree : Tree) : Component → List Text
  | .coreContractAndVm => coreFiles tree
  | .architectureBackend => archFiles tree
  | .linuxHostBackend => sourceFiles tree linuxBackendPaths
  | .kvmCompatFrontend => sourceFiles tree kvmFrontendFiles

/-- A row of `loc-report.csv`. -/
def locRow (tree : Tree) (methods : Nat) (c : Component) : List Text :=
  let loc := countComponent tree (c.files tree)
  let only (component : Component) (n : Nat) : Text := number (if c = component then n else 0)
  [c.text, number loc.1, number loc.2, number loc.2, only .coreContractAndVm loc.2,
    only .linuxHostBackend loc.2, only .architectureBackend loc.2, only .kvmCompatFrontend loc.2,
    only .coreContractAndVm methods, number 0, number (c.files tree).length]

def locReportCsv (tree : Tree) (methods : Nat) : Text :=
  csvTable ["component", "total_loc", "source_loc", "new_loc", "modified_core_loc", "backend_loc",
      "arch_loc", "frontend_loc", "number_of_hostif_methods", "number_of_new_core_dependencies",
      "file_count"]
    ([.coreContractAndVm, .architectureBackend, .linuxHostBackend, .kvmCompatFrontend].map
      (locRow tree methods))

/-- `run_static_scan`. -/
def runStaticScan (isalnum : Char → Bool) (tree : Tree) : Scan :=
  let calls := hostApiCalls isalnum tree
  let methods := traitMethods tree
  { coreFiles := (coreFiles tree).length
    archFiles := (archFiles tree).length
    linuxBackendFiles := (sourceFiles tree linuxBackendPaths).length
    kvmFrontendFiles := (sourceFiles tree kvmFrontendFiles).length
    hostFindings := (hostFindings isalnum tree).length
    kvmFindings := (kvmFindings isalnum tree).length
    hostApiCalls := calls.length
    hostifMethods := methods.length
    unusedHostifMethods := (methods.filter fun m => !isCalled calls m).length
    forbiddenFindingsCsv := forbiddenFindingsCsv (findings isalnum tree)
    hostApiCallsCsv := hostApiCallsCsv calls
    hostifMethodsCsv := hostifMethodsCsv calls methods
    locReportCsv := locReportCsv tree methods.length }

end Harness.StaticScan
