import Conform.Mismatch
import Conform.Ty.Basic
import Conform.Widening

/-!
# Assignability of types

Where a type is expected, which other types are accepted, and if one is not, the first reason.

* A scalar is accepted for itself, and where a widening rule admits it.
* A record is accepted for a record if it has every required field as a required field and every
  field that both have is accepted in turn. Fields that only the accepted record has do not matter.
* A callable is accepted for a callable of the same arity if its parameters accept the expected ones
  (the sides change places) and its return type is accepted.

Reasons are looked for in the order of the expected record's fields, or of the parameters and then
the return type. `Ty.mismatch?` gives the first one, and nothing if the type is accepted; the three
equations after it say so without the bookkeeping of its termination.
-/

namespace Conform

/-- Why a scalar of kind `actual` is not accepted where `expected` is. -/
def Scalar.mismatch? (w : Widening) (expected actual : Scalar) : Option Mismatch :=
  if w.permits actual expected then .none
  else some (Reason.incompatible expected.keyword actual.keyword).atRoot

theorem fieldNamed?_mem {fields : List (Field Ty)} {name : String} {field : Field Ty}
    (h : fieldNamed? fields name = some field) : field ∈ fields :=
  List.mem_of_find?_eq_some h

/-- The first reason why `actual` is not accepted where `expected` is. -/
def Ty.mismatch? (w : Widening) (expected actual : Ty) : Option Mismatch :=
  match expected, actual with
  | .scalar e, .scalar a => e.mismatch? w a
  | .record _ es, .record _ as =>
    es.attach.findSome? fun ⟨e, _⟩ =>
      Option.map (Mismatch.within (.field e.name)) <|
        match _h : fieldNamed? as e.name with
        | some a =>
          if e.required && !a.required then some (Reason.optionalKey e.name).atRoot
          else mismatch? w e.ty a.ty
        | none => if e.required then some (Reason.missingKey e.name).atRoot else none
  | .callable ps r, .callable qs s =>
    if ps.length = qs.length then
      ((ps.zip qs).attach.zipIdx.findSome? fun ⟨⟨⟨p, q⟩, _⟩, index⟩ =>
        (mismatch? w q.ty p.ty).map (.within (.argument index))).or
      ((mismatch? w r s).map (.within .result))
    else some (Reason.arity ps.length qs.length).atRoot
  | e, a => some (Reason.incompatible e.render a.render).atRoot
termination_by sizeOf expected + sizeOf actual
decreasing_by
  all_goals simp only [Ty.record.sizeOf_spec, Ty.callable.sizeOf_spec]
  · have h₁ := Field.sizeOf_ty_lt (by assumption : e ∈ es)
    have h₂ := Field.sizeOf_ty_lt (fieldNamed?_mem _h)
    omega
  · rename_i hmem
    have h₁ := Param.sizeOf_ty_lt (List.of_mem_zip hmem).1
    have h₂ := Param.sizeOf_ty_lt (List.of_mem_zip hmem).2
    omega
  · omega

/-- How a field of the expected record is violated by the fields `actual`. -/
def Field.mismatch? (w : Widening) (expected : Field Ty) (actual : List (Field Ty)) :
    Option Mismatch :=
  Option.map (Mismatch.within (.field expected.name)) <|
    match fieldNamed? actual expected.name with
    | some a =>
      if expected.required && !a.required then some (Reason.optionalKey expected.name).atRoot
      else expected.ty.mismatch? w a.ty
    | none => if expected.required then some (Reason.missingKey expected.name).atRoot else none

@[simp] theorem Ty.mismatch?_scalar (w : Widening) (e a : Scalar) :
    (Ty.scalar e).mismatch? w (.scalar a) = e.mismatch? w a := by
  rw [Ty.mismatch?]

/-- A record is judged by its fields, in the order of the expected one. -/
theorem Ty.mismatch?_record (w : Widening) (m n : Option String) (es as : List (Field Ty)) :
    (Ty.record m es).mismatch? w (.record n as) = es.findSome? (·.mismatch? w as) := by
  rw [Ty.mismatch?]
  conv => rhs; rw [← List.attach_map_subtype_val es, List.findSome?_map]
  congr 1
  funext ⟨e, _⟩
  simp only [Function.comp_apply, Field.mismatch?]
  split <;> simp only [*]

/-- A callable is judged by its arity, then by its parameters with the sides changed, and last by
what it returns. -/
theorem Ty.mismatch?_callable (w : Widening) (ps qs : List (Param Ty)) (r s : Ty) :
    (Ty.callable ps r).mismatch? w (.callable qs s) =
      if ps.length = qs.length then
        ((ps.zip qs).zipIdx.findSome? fun ((p, q), index) =>
          (q.ty.mismatch? w p.ty).map (.within (.argument index))).or
        ((r.mismatch? w s).map (.within .result))
      else some (Reason.arity ps.length qs.length).atRoot := by
  rw [Ty.mismatch?]
  conv => rhs; rw [← List.attach_map_subtype_val (ps.zip qs), List.zipIdx_map, List.findSome?_map]
  rfl

end Conform
