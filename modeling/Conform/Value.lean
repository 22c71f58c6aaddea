import Conform.Scope
import Conform.Tree.Basic
import Conform.Ty.Assignable

/-!
# Values

Where a type is expected, which expressions are accepted, and how expressions are shown.

A name stands for the type of what it means and a call for the declared return type of its callee;
where the scope does not know them, everything is accepted. A scalar literal is judged by its kind.
A dict literal is accepted for a record if every required field has an entry, the last entry of
each field is accepted for its type, and every entry is one of a field; these are looked for in
the order of the record's fields, and then in the order of the entries.

A call is judged by its arity, and if that is right by each argument and, in a place that expects a
type, by what the callee returns (`Signature.faults`).
-/

namespace Conform

/-! ## Text -/

mutual

/-- How an expression is shown: by its type where the scope knows it. -/
def Expr.describe (scope : Scope) : Expr → String
  | .scalar kind _ => kind.keyword
  | .dict entries _ =>
    "\x7b" ++ ", ".intercalate (Expr.describeEntries scope entries) ++ "\x7d"
  | .call callee _ _ =>
    match scope.callable? callee.name with
    | some signature => signature.returns.render
    | none => callee.name ++ "(...)"
  | .name ident =>
    match scope.valueType? ident.name with
    | some ty => ty.render
    | none => ident.name

def Expr.describeEntries (scope : Scope) : List (Entry Expr) → List String
  | [] => []
  | ⟨key, value, _⟩ :: rest =>
    (Text.quoted key ++ ": " ++ value.describe scope) :: Expr.describeEntries scope rest

end

/-! ## Values against types -/

/-- The entry that gives a key its value: the last one with that key. -/
def entryOf? (entries : List (Entry Expr)) (key : String) : Option (Entry Expr) :=
  entries.reverse.find? fun entry => entry.key = key

/-- The first entry that is one of no field. -/
def firstExtra? (fields : List (Field Ty)) (entries : List (Entry Expr)) : Option (Entry Expr) :=
  entries.find? fun entry => (fieldNamed? fields entry.key).isNone

mutual

/-- The first reason why an expression is not accepted where `expected` is. -/
def Ty.valueMismatch? (w : Widening) (scope : Scope) (expected : Ty) (e : Expr) :
    Option Mismatch :=
  match expected, e with
  | expected, .name ident => (scope.valueType? ident.name).bind fun ty => expected.mismatch? w ty
  | expected, .call callee _ _ =>
    (scope.callable? callee.name).bind fun signature => expected.mismatch? w signature.returns
  | .scalar kind, .scalar actual _ => kind.mismatch? w actual
  | .record _ fields, .dict entries _ =>
    (Ty.fieldsMismatch? w scope fields entries).or
      ((firstExtra? fields entries).map fun entry =>
        (Reason.extraKey entry.key).atRoot.within (.field entry.key))
  | expected, e => some (Reason.incompatible expected.render (e.describe scope)).atRoot

/-- The first of the fields that the entries violate, and how. -/
def Ty.fieldsMismatch? (w : Widening) (scope : Scope) (fields : List (Field Ty))
    (entries : List (Entry Expr)) : Option Mismatch :=
  match fields with
  | [] => none
  | ⟨name, ty, required⟩ :: rest =>
    (Option.map (Mismatch.within (.field name)) <|
      match entryOf? entries name with
      | some entry => ty.valueMismatch? w scope entry.value
      | none => if required then some (Reason.missingKey name).atRoot else none).or
    (Ty.fieldsMismatch? w scope rest entries)

end

/-! ## Calls -/

/-- What is wrong with a call. -/
inductive CallFault where
  | arity (expected found : Nat)
  | argument (index : Nat) (param : Param Ty) (arg : Expr) (cause : Mismatch)
  /-- The return type is not accepted in the place of the call. -/
  | result (expected : Ty) (cause : Mismatch)

/-- The mismatch of the call as a whole. -/
def CallFault.mismatch : CallFault → Mismatch
  | .arity expected found => (Reason.arity expected found).atRoot
  | .argument index _ _ cause => cause.within (.argument index)
  | .result _ cause => cause.within .result

/-- Everything that is wrong with a call of a callable, in a place that expects `context?` of it. A
wrong number of arguments is all that is said. -/
def Signature.faults (w : Widening) (scope : Scope) (signature : Signature) (args : List Expr)
    (context? : Option Ty) : List CallFault :=
  if args.length = signature.arity then
    ((signature.params.zip args).zipIdx.filterMap fun ((param, arg), index) =>
      (param.ty.valueMismatch? w scope arg).map (.argument index param arg)) ++
    (context?.bind fun context =>
      (context.mismatch? w signature.returns).map (.result context)).toList
  else [.arity signature.arity args.length]

/-- The first reason why an expression may not be used where `expected` is declared. A call used
where a callable is declared is judged as a call of that callable. -/
def Ty.useMismatch? (w : Widening) (scope : Scope) (expected : Ty) (e : Expr) :
    Option Mismatch :=
  match expected.signature?, e with
  | some signature, .call _ args _ =>
    (signature.faults w scope args none).head?.map CallFault.mismatch
  | _, e => expected.valueMismatch? w scope e

end Conform
