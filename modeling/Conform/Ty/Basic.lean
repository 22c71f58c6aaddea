import Conform.Scalar

/-!
# Types

A type is a scalar kind, a record with named fields, or a callable with named parameters and a
return type. Types are compared by structure: the name of a record only says how the record is
shown.

In a well-formed type no record names a field twice and no callable a parameter twice. `Ty.record?`
and `Ty.callable?` build such types from well-formed parts and refuse the rest, naming the first
part that repeats an earlier one.
-/

namespace Conform

/-- A field of a record, whose type is a `τ`. -/
structure Field (τ : Type) where
  name : String
  ty : τ
  required : Bool
deriving DecidableEq

/-- A parameter of a callable, whose type is a `τ`. -/
structure Param (τ : Type) where
  name : String
  ty : τ
deriving DecidableEq

/-- A type. -/
inductive Ty where
  | scalar (kind : Scalar)
  | record (name : Option String) (fields : List (Field Ty))
  | callable (params : List (Param Ty)) (returns : Ty)

/-- What a call of a callable takes and gives. -/
structure Signature where
  params : List (Param Ty)
  returns : Ty

def Signature.arity (s : Signature) : Nat :=
  s.params.length

/-- The type of the values that can be called so. -/
def Signature.ty (s : Signature) : Ty :=
  .callable s.params s.returns

/-- How a value of the type is called, if it can be. -/
def Ty.signature? : Ty → Option Signature
  | .callable params returns => some ⟨params, returns⟩
  | _ => none

def fieldNamed? (fields : List (Field Ty)) (name : String) : Option (Field Ty) :=
  fields.find? fun field => field.name = name

/-! ## Induction and equality -/

theorem Field.sizeOf_ty_lt {field : Field Ty} {fields : List (Field Ty)} (h : field ∈ fields) :
    sizeOf field.ty < sizeOf fields := by
  have h' := List.sizeOf_lt_of_mem h
  cases field
  simp only [Field.mk.sizeOf_spec] at h'
  dsimp only
  omega

theorem Param.sizeOf_ty_lt {param : Param Ty} {params : List (Param Ty)} (h : param ∈ params) :
    sizeOf param.ty < sizeOf params := by
  have h' := List.sizeOf_lt_of_mem h
  cases param
  simp only [Param.mk.sizeOf_spec] at h'
  dsimp only
  omega

/-- What holds of every scalar, and of a record or callable once it holds of each of its parts,
holds of every type. -/
@[elab_as_elim]
theorem Ty.induct {motive : Ty → Prop} (scalar : ∀ kind, motive (.scalar kind))
    (record : ∀ name fields, (∀ field ∈ fields, motive field.ty) → motive (.record name fields))
    (callable : ∀ params returns, (∀ param ∈ params, motive param.ty) → motive returns →
      motive (.callable params returns)) (t : Ty) : motive t :=
  match t with
  | .scalar kind => scalar kind
  | .record name fields =>
    record name fields fun field h =>
      have := Field.sizeOf_ty_lt h
      Ty.induct scalar record callable field.ty
  | .callable params returns =>
    callable params returns
      (fun param h =>
        have := Param.sizeOf_ty_lt h
        Ty.induct scalar record callable param.ty)
      (Ty.induct scalar record callable returns)
termination_by sizeOf t

/-!
Equality looks first whether two parts are one object in memory, which settles that they are equal.
The type of a record is shared by all the places that name the record, so types built from records
stay quick to compare even where the tree that they stand for is huge.
-/

mutual

/-- Decides whether two types are the same. -/
def Ty.decEq : (t u : Ty) → Decidable (t = u)
  | .scalar a, .scalar b =>
    if h : a = b then .isTrue (h ▸ rfl) else .isFalse fun h' => h (Ty.scalar.inj h')
  | .record m fs, .record n gs =>
    if h : m = n then
      match Ty.decEqFields fs gs with
      | .isTrue h' => .isTrue (h ▸ h' ▸ rfl)
      | .isFalse h' => .isFalse fun e => h' (Ty.record.inj e).2
    else .isFalse fun e => h (Ty.record.inj e).1
  | .callable ps r, .callable qs s =>
    match Ty.decEqParams ps qs with
    | .isTrue h =>
      match withPtrEqDecEq r s fun _ => Ty.decEq r s with
      | .isTrue h' => .isTrue (h ▸ h' ▸ rfl)
      | .isFalse h' => .isFalse fun e => h' (Ty.callable.inj e).2
    | .isFalse h => .isFalse fun e => h (Ty.callable.inj e).1
  | .scalar _, .record .. => .isFalse nofun
  | .scalar _, .callable .. => .isFalse nofun
  | .record .., .scalar _ => .isFalse nofun
  | .record .., .callable .. => .isFalse nofun
  | .callable .., .scalar _ => .isFalse nofun
  | .callable .., .record .. => .isFalse nofun

/-- Decides whether two lists of fields are the same. -/
def Ty.decEqFields : (fs gs : List (Field Ty)) → Decidable (fs = gs)
  | [], [] => .isTrue rfl
  | [], _ :: _ => .isFalse nofun
  | _ :: _, [] => .isFalse nofun
  | ⟨m, t, a⟩ :: fs, ⟨n, u, b⟩ :: gs =>
    if h : m = n ∧ a = b then
      match withPtrEqDecEq t u fun _ => Ty.decEq t u with
      | .isTrue h' =>
        match Ty.decEqFields fs gs with
        | .isTrue h'' => .isTrue (by rw [h.1, h.2, h', h''])
        | .isFalse h'' => .isFalse fun e => h'' (List.cons.inj e).2
      | .isFalse h' => .isFalse fun e => h' (Field.mk.inj (List.cons.inj e).1).2.1
    else .isFalse fun e =>
      h ⟨(Field.mk.inj (List.cons.inj e).1).1, (Field.mk.inj (List.cons.inj e).1).2.2⟩

/-- Decides whether two lists of parameters are the same. -/
def Ty.decEqParams : (ps qs : List (Param Ty)) → Decidable (ps = qs)
  | [], [] => .isTrue rfl
  | [], _ :: _ => .isFalse nofun
  | _ :: _, [] => .isFalse nofun
  | ⟨m, t⟩ :: ps, ⟨n, u⟩ :: qs =>
    if h : m = n then
      match withPtrEqDecEq t u fun _ => Ty.decEq t u with
      | .isTrue h' =>
        match Ty.decEqParams ps qs with
        | .isTrue h'' => .isTrue (by rw [h, h', h''])
        | .isFalse h'' => .isFalse fun e => h'' (List.cons.inj e).2
      | .isFalse h' => .isFalse fun e => h' (Param.mk.inj (List.cons.inj e).1).2
    else .isFalse fun e => h (Param.mk.inj (List.cons.inj e).1).1

end

instance : DecidableEq Ty :=
  fun t u => withPtrEqDecEq t u fun _ => Ty.decEq t u

/-! ## Text -/

mutual

/-- How a type is shown: a record by its name, or by its fields if it has none. -/
def Ty.render : Ty → String
  | .scalar kind => kind.keyword
  | .record (some name) _ => name
  | .record none fields => "\x7b" ++ ", ".intercalate (Ty.renderFields fields) ++ "\x7d"
  | .callable params returns =>
    "(" ++ ", ".intercalate (Ty.renderParams params) ++ ") -> " ++ returns.render

/-- How each field is shown; a question mark says that it may be missing. -/
def Ty.renderFields : List (Field Ty) → List String
  | [] => []
  | ⟨name, ty, required⟩ :: rest =>
    (name ++ (if required then "" else "?") ++ ": " ++ ty.render) :: Ty.renderFields rest

def Ty.renderParams : List (Param Ty) → List String
  | [] => []
  | ⟨name, ty⟩ :: rest => (name ++ ": " ++ ty.render) :: Ty.renderParams rest

end

/-! ## Building types -/

/-- Why the parts of a type do not make a type. -/
inductive Malformed where
  | duplicateField (record field : String)
  | duplicateParam (param : String)
deriving DecidableEq

def Malformed.message : Malformed → String
  | .duplicateField record field => "duplicate field '" ++ field ++ "' in record " ++ record
  | .duplicateParam param => "duplicate parameter '" ++ param ++ "' in signature"

/-- The first of the names that repeats an earlier one or one of `seen`. -/
def firstRepeat? (seen : List String) : List String → Option String
  | [] => none
  | name :: rest => if name ∈ seen then some name else firstRepeat? (name :: seen) rest

def Ty.record? (name : Option String) (fields : List (Field Ty)) : Except Malformed Ty :=
  match firstRepeat? [] (fields.map Field.name) with
  | some field => .error (.duplicateField (name.getD "<anonymous>") field)
  | none => .ok (.record name fields)

def Signature.make? (params : List (Param Ty)) (returns : Ty) : Except Malformed Signature :=
  match firstRepeat? [] (params.map Param.name) with
  | some param => .error (.duplicateParam param)
  | none => .ok ⟨params, returns⟩

def Ty.callable? (params : List (Param Ty)) (returns : Ty) : Except Malformed Ty :=
  (Signature.make? params returns).map Signature.ty

end Conform
