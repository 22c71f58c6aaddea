import Conform.Definition
import Conform.Resolution
import Conform.Scope

/-!
# What a module declares

The declarations of a module are taken together before any statement is looked at, so that each may
refer to those further down: the records are resolved, then the functions get their signatures and
then the variables of the top level their declared types.

A function whose signature cannot be built is poisoned, and so is a record without a type. The type
of a variable is the one that its first annotation with a type denotes; without one it is untyped.
Redefinitions declare nothing, but what their annotations refer to is reported all the same.
-/

namespace Conform

/-- What a module declares. -/
structure Globals where
  /-- The names that are declared, in order. -/
  declared : List Ident
  /-- The records in force. -/
  records : List RecordDecl
  resolution : Resolution
  /-- The scope around every statement. -/
  scope : Scope

/-! ## Annotations among resolved records -/

/-- The references of an annotation that name no record. -/
def TyForm.unknown (records : List RecordDecl) (form : TyForm) : List Diagnostic :=
  form.references.filterMap fun ref =>
    if (recordNamed? records ref.name).isSome then none
    else some (.unknownType ref.name ref.span)

/-- The references of an annotation that name no record, if there is an annotation. -/
def Assignment.unknown (records : List RecordDecl) (a : Assignment) : List Diagnostic :=
  match a.form with
  | some form => form.unknown records
  | none => []

/-! ## Functions -/

namespace FunctionDecl

/-- The signature that a function declares, given the types of the records. -/
def signature? (known : String → Option Ty) (decl : FunctionDecl) :
    Option (Except Malformed Signature) := do
  let params ← decl.params.mapM fun param => do
    return ⟨param.name.name, ← param.form.denote? known⟩
  let returns ← decl.returns.denote? known
  return Signature.make? params returns

/-- Declares the function, or poisons its name if it has no signature. -/
def declareIn (known : String → Option Ty) (scope : Scope) (decl : FunctionDecl) : Scope :=
  match decl.signature? known with
  | some (.ok signature) => scope.declareFunction decl.name.name signature decl.span
  | _ => scope.poison decl.name.name

/-- The references of the parameters and of the return type that name no record. -/
def unknown (records : List RecordDecl) (decl : FunctionDecl) : List Diagnostic :=
  (decl.params.flatMap fun param => param.form.unknown records) ++
    decl.returns.unknown records

/-- The repeated parameter of a function, if there is one. -/
def malformed (known : String → Option Ty) (decl : FunctionDecl) : List Diagnostic :=
  match decl.signature? known with
  | some (.error cause) => [.malformedType decl.name.name cause decl.name.span]
  | _ => []

end FunctionDecl

/-! ## Records -/

/-- Declares a record with the type that it was settled with, or poisons its name. -/
def RecordDecl.declareIn (known : String → Option Ty) (scope : Scope) (decl : RecordDecl) : Scope :=
  match known decl.name.name with
  | some ty => scope.declareRecord decl.name.name ty decl.span
  | none => scope.poison decl.name.name

/-! ## Variables -/

/-- What the annotation of an assignment says of its target. -/
def Assignment.binding (known : String → Option Ty) (a : Assignment) : Binding :=
  .ofOption (a.form.bind (·.denote? known))

/-- Binds the target of an assignment, unless the target is declared or has a type already. -/
def Assignment.bindGlobal (known : String → Option Ty) (declared : List Ident) (scope : Scope)
    (a : Assignment) : Scope :=
  if (identNamed? declared a.target.name).isSome then scope
  else
    match scope.local? a.target.name with
    | some (.typed _) => scope
    | _ => scope.bind a.target.name (a.binding known)

/-- What is wrong with the target and the annotation of a top-level assignment. -/
def Assignment.globalFindings (records : List RecordDecl) (declared : List Ident)
    (a : Assignment) : List Diagnostic :=
  match identNamed? declared a.target.name with
  | some first => [.duplicateDefinition a.target.name a.target.span first.span]
  | none => a.unknown records

/-! ## All declarations -/

/-- What a module declares. -/
def Module.globals (m : Module) : Globals :=
  let declared := m.declared
  let records := m.recordsInForce
  let resolution := Resolution.all records
  let known := resolution.typeOf?
  let functions := (m.functionsRanked.filter Prod.snd).map Prod.fst
  let withRecords := records.foldl (RecordDecl.declareIn known) Scope.empty
  let withFunctions := functions.foldl (FunctionDecl.declareIn known) withRecords
  let withVariables := m.assignments.foldl (Assignment.bindGlobal known declared) withFunctions
  ⟨declared, records, resolution, withVariables⟩

namespace Globals

/-- The type of a record in force. -/
def known (g : Globals) (name : String) : Option Ty :=
  g.resolution.typeOf? name

/-- Whether a name is declared as a record or function. -/
def declares (g : Globals) (name : String) : Bool :=
  (identNamed? g.declared name).isSome

/-- What is wrong with the declarations of a module. -/
def findings (g : Globals) (m : Module) : List Diagnostic :=
  m.redefinitions ++ g.resolution.reports ++
    (m.functionsRanked.flatMap fun (decl, inForce) =>
      decl.unknown g.records ++ if inForce then decl.malformed g.known else []) ++
    m.assignments.flatMap (Assignment.globalFindings g.records g.declared)

end Globals

end Conform
