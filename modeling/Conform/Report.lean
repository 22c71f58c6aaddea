import Conform.Diagnostic
import Conform.Json.Printer

/-!
# The report

The findings of a run as JSON text: one object each, in their order, with the code, the message and
the bounds of the place, then for a mismatch the expected type, what was found and, unless it is
the root, the path.
-/

namespace Conform

/-- The members of a finding's object that only some findings have. -/
def Diagnostic.detail (d : Diagnostic) : List (String × Json) :=
  let path? := (d.path?.filter fun path => !path.isEmpty).map pathText
  [("expected", d.expected?), ("actual", d.found?), ("path", path?)].filterMap
    fun (key, text?) => text?.map fun text => (key, .str text)

def Diagnostic.toJson (d : Diagnostic) : Json :=
  .obj ([("code", .str d.code), ("message", .str d.message), ("start", .nat d.span.start.toNat),
    ("end", .nat d.span.stop.toNat)] ++ d.detail)

def report (diagnostics : List Diagnostic) : String :=
  (Json.arr (diagnostics.map Diagnostic.toJson)).indented

end Conform
