import Conform.Mismatch
import Conform.Span
import Conform.Ty.Basic

/-!
# Diagnostics

What can be found wrong with a module. Each kind of finding has a code that does not change, a
message, the place it is about and labels for the places that it shows.
-/

namespace Conform

/-- A finding. -/
inductive Diagnostic where
  /-- A value, shown as `found`, is not accepted where `expected` is. -/
  | mismatch (expected : Ty) (found : String) (cause : Mismatch) (span : Span)
  /-- A call of a name that means nothing. -/
  | unknownCallable (name : String) (span : Span)
  /-- A call of a variable with a type that cannot be called. -/
  | notCallable (name : String) (found : String) (span : Span)
  /-- A declaration whose parts make no type. -/
  | malformedType (name : String) (cause : Malformed) (span : Span)
  /-- A name in a type that is no scalar keyword and no declared record. -/
  | unknownType (name : String) (span : Span)
  /-- A name in a record declaration through which the record contains itself. -/
  | recursiveRecord (name : String) (span : Span)
  /-- A definition of a name that the definition at `first` has taken. -/
  | duplicateDefinition (name : String) (span : Span) (first : Span)
  /-- A name in an expression that means nothing. -/
  | undefinedName (name : String) (span : Span)
  | returnOutsideFunction (span : Span)
deriving DecidableEq

namespace Diagnostic

def span : Diagnostic → Span
  | mismatch _ _ _ span => span
  | unknownCallable _ span => span
  | notCallable _ _ span => span
  | malformedType _ _ span => span
  | unknownType _ span => span
  | recursiveRecord _ span => span
  | duplicateDefinition _ span _ => span
  | undefinedName _ span => span
  | returnOutsideFunction span => span

def code : Diagnostic → String
  | mismatch .. => "shapecheck::mismatch"
  | unknownCallable .. => "shapecheck::unknown_callable"
  | notCallable .. => "shapecheck::not_callable"
  | malformedType .. => "shapecheck::malformed_type"
  | unknownType .. => "shapecheck::unknown_type"
  | recursiveRecord .. => "shapecheck::recursive_record"
  | duplicateDefinition .. => "shapecheck::duplicate_definition"
  | undefinedName .. => "shapecheck::undefined_name"
  | returnOutsideFunction .. => "shapecheck::return_outside_function"

def message : Diagnostic → String
  | mismatch _ _ cause _ => "type mismatch" ++ pathSuffix cause.path ++ ": " ++ cause.reason.text
  | unknownCallable name _ => "unknown callable: " ++ name
  | notCallable name found _ => "'" ++ name ++ "' is not callable: it has type " ++ found
  | malformedType name cause _ => "malformed type '" ++ name ++ "': " ++ cause.message
  | unknownType name _ => "unknown type: " ++ name
  | recursiveRecord name _ => "record " ++ name ++ " refers to itself"
  | duplicateDefinition name _ _ => "duplicate definition: " ++ name
  | undefinedName name _ => "undefined name: " ++ name
  | returnOutsideFunction _ => "'return' outside function"

def expected? : Diagnostic → Option String
  | mismatch expected _ _ _ => some expected.render
  | _ => none

def found? : Diagnostic → Option String
  | mismatch _ found _ _ => some found
  | _ => none

def path? : Diagnostic → Option (List Segment)
  | mismatch _ _ cause _ => some cause.path
  | _ => none

/-- The places that a finding shows, each with its label, if it has one. -/
def labels : Diagnostic → List (Option String × Span)
  | mismatch _ _ _ span => [(some "incompatible value", span)]
  | unknownCallable _ span => [(some "not declared in this module", span)]
  | notCallable _ _ span => [(some "called here", span)]
  | malformedType _ _ span => [(some "declared here", span)]
  | unknownType _ span => [(none, span)]
  | recursiveRecord _ span => [(some "cycle closes here", span)]
  | duplicateDefinition _ span first =>
    [(some "redefined here", span), (some "first defined here", first)]
  | undefinedName _ span => [(none, span)]
  | returnOutsideFunction span => [(none, span)]

def help? : Diagnostic → Option String
  | unknownType .. => some ("annotations must name a scalar (int, float, str, bytes, bool, None) "
      ++ "or a declared record")
  | _ => none

end Diagnostic

end Conform
