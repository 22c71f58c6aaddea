import Conform.Proofs.Findings
import Conform.Proofs.WellFormed

/-!
# Types in an outcome

A type with a repeated name cannot be built (`Ty.record?_eq_ok_iff`, `Signature.make?_eq_ok_iff`),
but the checker also takes types apart, copies inherited fields and makes up names for parameters.
This file follows the types that it works with. They are in the scope of a statement, where
`Scope.WellFormed` is an invariant of every step, or they are expected by the place of the
statement; a mismatch shows one of these or a part of one (`Gives.expected_wellFormed`).

**So every type that an outcome shows has different names at every depth**
(`outcome_names_distinct`), a search by name in it finds the one field of that name, and no callable
form is lost once its parts have types.
-/

namespace Conform

/-! ## Parts of types -/

namespace Ty

/-- A type stands inside another one, or is that itself. -/
inductive Contains : Ty → Ty → Prop
  | refl (t : Ty) : Contains t t
  | field {name : Option String} {fields : List (Field Ty)} {field : Field Ty} {t : Ty}
      (hmem : field ∈ fields) (h : Contains field.ty t) : Contains (.record name fields) t
  | param {params : List (Param Ty)} {returns : Ty} {param : Param Ty} {t : Ty}
      (hmem : param ∈ params) (h : Contains param.ty t) : Contains (.callable params returns) t
  | returns {params : List (Param Ty)} {returns t : Ty} (h : Contains returns t) :
      Contains (.callable params returns) t

/-- What stands in a well-formed type is well formed. -/
theorem WellFormed.part {t part : Ty} (h : t.WellFormed) (hpart : t.Contains part) :
    part.WellFormed := by
  induction hpart with
  | refl _ => exact h
  | field hmem _ ih => exact ih ((wellFormed_record_iff.mp h).2 _ hmem)
  | param hmem _ ih => exact ih ((wellFormed_callable_iff.mp h).2.1 _ hmem)
  | returns _ ih => exact ih (wellFormed_callable_iff.mp h).2.2

/-- The names of the parts of a type are different: the fields of a record, the parameters of a
callable. -/
def NamesDistinct : Ty → Prop
  | scalar _ => True
  | record _ fields => (fields.map Field.name).Nodup
  | callable params _ => (params.map Param.name).Nodup

theorem WellFormed.namesDistinct {t : Ty} (h : t.WellFormed) : t.NamesDistinct := by
  cases h with
  | scalar _ => exact trivial
  | record hnodup _ => exact hnodup
  | callable hnodup _ _ => exact hnodup

end Ty

/-! ## Callable forms -/

/-- A callable form has a type exactly if its parts have types, which are then the parts of its. -/
theorem TyForm.denote?_callable_eq_some_iff {known : String → Option Ty} {params : List TyForm}
    {returns : TyForm} {span : Span} {ty : Ty} :
    (callable params returns span).denote? known = some ty ↔ ∃ types result,
      List.Forall₂ (fun form ty => form.denote? known = some ty) params types ∧
        returns.denote? known = some result ∧ ty = .callable (positional types) result := by
  rw [denote?]
  constructor
  · intro h
    obtain ⟨types, htypes, h⟩ := Option.bind_eq_some_iff.mp h
    obtain ⟨result, hresult, h⟩ := Option.bind_eq_some_iff.mp h
    rw [callable?_positional] at h
    exact ⟨types, result, denoteAll?_eq_some_iff.mp htypes, hresult, (Option.some.inj h).symm⟩
  · intro h
    obtain ⟨types, result, htypes, hresult, rfl⟩ := h
    rw [denoteAll?_eq_some_iff.mpr htypes, hresult, Option.bind_eq_bind, Option.bind_some,
      Option.bind_eq_bind, Option.bind_some, callable?_positional]
    rfl

/-! ## Scopes -/

theorem Binding.ofOption_eq_typed_iff {ty? : Option Ty} {ty : Ty} :
    ofOption ty? = typed ty ↔ ty? = some ty := by
  cases ty? <;> simp [ofOption]

/-- The types of variables and functions are well formed. -/
structure Scope.WellFormed (s : Scope) : Prop where
  locals : ∀ name ty, s.local? name = some (.typed ty) → ty.WellFormed
  functions : ∀ name entry, s.function? name = some entry → entry.value.ty.WellFormed

namespace Scope.WellFormed

variable {s : Scope}

theorem push (h : s.WellFormed) : s.push.WellFormed :=
  ⟨h.locals, h.functions⟩

theorem bind (h : s.WellFormed) (name : String) {binding : Binding}
    (hbinding : ∀ ty, binding = .typed ty → ty.WellFormed) : (s.bind name binding).WellFormed := by
  refine ⟨fun other ty hty => ?_, h.functions⟩
  rw [local?_bind] at hty
  split at hty
  · exact hbinding ty (Option.some.inj hty)
  · exact h.locals other ty hty

/-- What is called is a variable with a callable type or a function. -/
theorem callable (h : s.WellFormed) {name : String} {signature : Signature}
    (hsignature : s.callable? name = some signature) : signature.ty.WellFormed := by
  unfold callable? at hsignature
  cases hlocal : s.local? name with
  | none =>
    rw [hlocal] at hsignature
    obtain ⟨entry, hentry, rfl⟩ := Option.map_eq_some_iff.mp hsignature
    exact h.functions name entry hentry
  | some binding =>
    rw [hlocal] at hsignature
    obtain ⟨ty, hty, hsignature⟩ := Option.bind_eq_some_iff.mp hsignature
    cases binding with
    | untyped => exact nomatch hty
    | typed other =>
      obtain rfl := Option.some.inj hty
      have hother := h.locals name other hlocal
      cases other with
      | callable params returns =>
        obtain rfl := Option.some.inj hsignature
        exact hother
      | scalar _ => exact nomatch hsignature
      | record _ _ => exact nomatch hsignature

end Scope.WellFormed

/-- The signature of a function is well formed if the types of the records are. -/
theorem FunctionDecl.HasSignature.wellFormed {types : String → Ty → Prop}
    (htypes : ∀ name ty, types name ty → ty.WellFormed) {decl : FunctionDecl}
    {signature : Signature} (h : decl.HasSignature types signature) :
    signature.ty.WellFormed := by
  refine .callable ?_ (fun param hparam => ?_) (h.returns.wellFormed htypes)
  · rw [map_name_of_declares h.params]
    exact h.distinct
  · obtain ⟨declared, _, hdeclares⟩ := exists_of_forall₂ h.params.flip hparam
    exact hdeclares.denotes.wellFormed htypes

namespace Module

variable {m : Module} {scope : Scope} {place : Place} {stmt : Stmt}

theorem wellFormed_of_types {name : String} {ty : Ty} (h : m.Types name ty) : ty.WellFormed :=
  RecordType.wellFormed h

theorem wellFormed_of_denote? {form : TyForm} {ty : Ty}
    (h : form.denote? m.globals.known = some ty) : ty.WellFormed :=
  ((TyForm.denote?_iff m.knows_types).mp h).wellFormed fun _ _ => wellFormed_of_types

theorem wellFormed_globals (m : Module) : m.globals.scope.WellFormed := by
  refine ⟨fun name ty h => ?_, fun name entry h => ?_⟩
  · cases local?_globals_iff.mp h with
    | typed _ _ hassigns _ =>
      obtain ⟨_, form, _, hdenotes⟩ := hassigns
      exact hdenotes.wellFormed fun _ _ => wellFormed_of_types
  · obtain ⟨decl, _, _, hsignature, _⟩ := function?_globals_iff.mp h
    exact hsignature.wellFormed fun _ _ => wellFormed_of_types

/-- What is known of a target once it is assigned to. -/
theorem wellFormed_bindingIn (hscope : scope.WellFormed) {a : Assignment} {ty : Ty}
    (h : a.bindingIn m.globals scope = .typed ty) : ty.WellFormed := by
  unfold Assignment.bindingIn at h
  split at h
  · next form hform =>
    rw [Assignment.binding, hform, Option.bind_some, Binding.ofOption_eq_typed_iff] at h
    exact wellFormed_of_denote? h
  · cases hlocal : scope.local? a.target.name with
    | none => rw [hlocal] at h; exact Binding.noConfusion h
    | some binding =>
      rw [hlocal, Option.getD_some] at h
      exact hscope.locals _ ty (h ▸ hlocal)

/-- One statement. -/
theorem wellFormed_leaves (hscope : scope.WellFormed) :
    (stmt.leaves m.globals place scope).WellFormed := by
  cases stmt with
  | expr _ => exact hscope
  | ret _ _ => exact hscope
  | assign a =>
    rw [Stmt.leaves]
    split
    · exact hscope
    · exact hscope.bind _ fun ty => wellFormed_bindingIn hscope

/-- A run of statements. -/
theorem wellFormed_scopeAfter (hscope : scope.WellFormed) (stmts : List Stmt) :
    (scopeAfter m.globals place scope stmts).WellFormed :=
  List.foldlRecOn stmts _ hscope fun _ hscope _ _ => wellFormed_leaves hscope

theorem wellFormed_bodyScope (decl : FunctionDecl) : (decl.bodyScope m.globals).WellFormed := by
  refine List.foldlRecOn decl.params _ m.wellFormed_globals.push fun scope hscope param _ => ?_
  exact hscope.bind _ fun ty hty => wellFormed_of_denote? (Binding.ofOption_eq_typed_iff.mp hty)

/-- The scope in which a statement is reached. -/
theorem Reaches.wellFormed (h : m.Reaches place scope stmt) : scope.WellFormed := by
  cases h with
  | topLevel _ => exact wellFormed_scopeAfter m.wellFormed_globals.push _
  | body _ _ => exact wellFormed_scopeAfter (wellFormed_bodyScope _) _

/-- The type that the place of a function body expects to be returned. -/
theorem Reaches.wellFormed_returns (h : m.Reaches place scope stmt) {returns : Ty}
    (hplace : place = .body (some returns)) : returns.WellFormed := by
  cases h with
  | topLevel _ => exact nomatch hplace
  | body _ _ => exact wellFormed_of_denote? (Place.body.inj hplace)

/-- The type that a statement expects of what it evaluates. -/
theorem Reaches.wellFormed_expected (h : m.Reaches place scope stmt) {expected : Ty}
    (hexpected : stmt.expected? m.globals place scope = some expected) : expected.WellFormed := by
  cases stmt with
  | expr _ => exact absurd hexpected (by simp [Stmt.expected?])
  | ret _ _ =>
    cases place with
    | topLevel => exact absurd hexpected (by simp [Stmt.expected?])
    | body returns? => exact h.wellFormed_returns (congrArg Place.body hexpected)
  | assign a =>
    rw [Stmt.expected?] at hexpected
    split at hexpected
    · exact absurd hexpected (by simp)
    · cases hbinding : a.bindingIn m.globals scope with
      | untyped =>
        rw [hbinding] at hexpected
        exact absurd hexpected (by simp [Binding.ty?])
      | typed ty =>
        rw [hbinding] at hexpected
        obtain rfl := Option.some.inj hexpected
        exact wellFormed_bindingIn h.wellFormed hbinding

end Module

/-! ## Mismatches -/

section Mismatch

variable {w : Widening} {scope : Scope} {context? : Option Ty} {expected : Ty} {found : String}
  {cause : Mismatch} {place : Span}

/-- At an expression a mismatch expects what is expected of the expression, the type of a parameter
or the type of a callee. -/
theorem Expr.Gives.expected_wellFormed {e : Expr} (hscope : scope.WellFormed)
    (hcontext : ∀ ty, context? = some ty → ty.WellFormed)
    (h : e.Gives w scope context? (.mismatch expected found cause place)) :
    expected.WellFormed := by
  generalize hd : Diagnostic.mismatch expected found cause place = d at h
  cases h with
  | undefinedName _ => exact nomatch hd
  | unknownCallable _ => exact nomatch hd
  | notCallable _ _ => exact nomatch hd
  | value _ _ =>
    cases hd
    exact hcontext _ rfl
  | fault hsignature hfault =>
    have hcallee := hscope.callable hsignature
    rcases mem_faults_iff.mp hfault with ⟨_, rfl⟩ | ⟨_, hfault⟩
    · cases hd
      exact hcallee
    · rcases hfault with ⟨index, param, arg, _, hparam, _, _, rfl⟩ | ⟨context, _, rfl, _, rfl⟩
      · cases hd
        exact (Ty.wellFormed_callable_iff.mp hcallee).2.1 _ (List.mem_of_getElem? hparam)
      · cases hd
        exact hcontext _ rfl

/-- At a statement. -/
theorem Module.Reaches.expected_wellFormed {m : Module} {at' : Place} {stmt : Stmt}
    (hreaches : m.Reaches at' scope stmt)
    (h : stmt.Gives w m.globals at' scope (.mismatch expected found cause place)) :
    expected.WellFormed := by
  generalize hd : Diagnostic.mismatch expected found cause place = d at h
  cases h with
  | evaluated _ hholds h =>
    subst hd
    refine h.expected_wellFormed hreaches.wellFormed fun ty hty => ?_
    rcases hholds.context_eq with heq | heq
    · exact hreaches.wellFormed_expected (heq ▸ hty)
    · exact nomatch heq.symm.trans hty
  | bareReturn hplace _ =>
    cases hd
    exact hreaches.wellFormed_returns hplace
  | outside _ => exact nomatch hd
  | unknownType _ h =>
    obtain ⟨form, _, h⟩ := Assignment.mem_unknown_iff.mp h
    obtain ⟨_, _, _, rfl⟩ := TyForm.mem_unknown_iff.mp h
    exact nomatch hd

/-- What is wrong with declarations is no mismatch. -/
theorem Module.mismatch_not_mem_globals_findings {m : Module} :
    .mismatch expected found cause place ∉ m.globals.findings m := by
  intro h
  rcases kind_of_mem_globals_findings h with
    ⟨_, _, h⟩ | ⟨_, _, h⟩ | ⟨_, _, _, h⟩ | ⟨_, _, _, h⟩ <;> exact Diagnostic.noConfusion h

end Mismatch

/-! ## The types of an outcome -/

/-- A type that an outcome shows. -/
inductive Outcome.Shows (o : Outcome) : Ty → Prop
  | record {name : String} {entry : Declared Ty} (h : o.scope.record? name = some entry) :
      Shows o entry.value
  | function {name : String} {entry : Declared Signature}
      (h : o.scope.function? name = some entry) : Shows o entry.value.ty
  | global {name : String} {ty : Ty} (h : o.scope.local? name = some (.typed ty)) : Shows o ty
  | expected {expected : Ty} {found : String} {cause : Mismatch} {span : Span}
      (h : .mismatch expected found cause span ∈ o.diagnostics) : Shows o expected

theorem Module.wellFormed_of_shows {w : Widening} {m : Module} {ty : Ty}
    (h : (check w m).Shows ty) : ty.WellFormed := by
  cases h with
  | record h => exact wellFormed_of_registers ⟨_, h, rfl⟩
  | function h => exact m.wellFormed_globals.functions _ _ h
  | global h => exact m.wellFormed_globals.locals _ _ h
  | expected h =>
    rcases mem_diagnostics_iff_gives.mp h with h | ⟨place, scope, stmt, hreaches, h⟩
    · exact absurd h mismatch_not_mem_globals_findings
    · exact hreaches.expected_wellFormed h

/-- Types are built of parts with different names only, and the first name to repeat is named
otherwise; all types of an outcome are so, at every depth, and a search by name finds the one field
of that name; a callable form has a type as soon as its parts have. -/
theorem outcome_names_distinct :
    (∀ name fields,
      (∀ ty, Ty.record? name fields = .ok ty ↔
        (fields.map Field.name).Nodup ∧ ty = .record name fields) ∧
      ∀ cause, Ty.record? name fields = .error cause ↔
        ∃ field, FirstRepeat (fields.map Field.name) field ∧
          cause = .duplicateField (name.getD "<anonymous>") field) ∧
    (∀ params returns,
      (∀ signature, Signature.make? params returns = .ok signature ↔
        (params.map Param.name).Nodup ∧ signature = ⟨params, returns⟩) ∧
      ∀ cause, Signature.make? params returns = .error cause ↔
        ∃ param, FirstRepeat (params.map Param.name) param ∧ cause = .duplicateParam param) ∧
    (∀ w m shown part, (check w m).Shows shown → shown.Contains part →
      part.NamesDistinct ∧ ∀ name fields, part = .record name fields →
        ∀ key field, fieldNamed? fields key = some field ↔ field ∈ fields ∧ field.name = key) ∧
    ∀ known params returns span ty,
      (TyForm.callable params returns span).denote? known = some ty ↔ ∃ types result,
        List.Forall₂ (fun form ty => form.denote? known = some ty) params types ∧
          returns.denote? known = some result ∧ ty = .callable (positional types) result := by
  refine ⟨fun name fields => ⟨fun ty => Ty.record?_eq_ok_iff, fun cause => Ty.record?_eq_error_iff⟩,
    fun params returns => ⟨fun signature => Signature.make?_eq_ok_iff,
      fun cause => Signature.make?_eq_error_iff⟩,
    fun w m shown part hshown hpart => ?_,
    fun known params returns span ty => TyForm.denote?_callable_eq_some_iff⟩
  have hwell := (Module.wellFormed_of_shows hshown).part hpart
  refine ⟨hwell.namesDistinct, fun name fields heq key field => ?_⟩
  subst heq
  exact fieldNamed?_eq_some_iff hwell.namesDistinct

/-- The type of `Callable[[int, str], bool]`. -/
def callback : Ty :=
  .callable [⟨"arg0", .scalar .int⟩, ⟨"arg1", .scalar .str⟩] (.scalar .bool)

def handler : Ty :=
  .record (some "Handler") [⟨"code", .scalar .int, true⟩, ⟨"callback", callback, true⟩]

/-- A record with an inherited field and one of a callable type, and a value that is none. -/
def mishandled : Module :=
  ⟨[.record ⟨⟨"Event", ⟨0, 1⟩⟩, [], true,
      [⟨⟨"code", ⟨2, 3⟩⟩, .named ⟨"int", ⟨4, 5⟩⟩, none, ⟨2, 5⟩⟩], ⟨0, 5⟩⟩,
    .record ⟨⟨"Handler", ⟨6, 7⟩⟩, [⟨"Event", ⟨8, 9⟩⟩], true,
      [⟨⟨"callback", ⟨10, 11⟩⟩, .callable [.named ⟨"int", ⟨12, 13⟩⟩, .named ⟨"str", ⟨14, 15⟩⟩]
        (.named ⟨"bool", ⟨16, 17⟩⟩) ⟨11, 18⟩, none, ⟨10, 18⟩⟩], ⟨6, 18⟩⟩,
    .stmt (.assign ⟨⟨"h", ⟨20, 21⟩⟩, some (.named ⟨"Handler", ⟨22, 23⟩⟩), .scalar .int ⟨24, 25⟩,
      ⟨20, 25⟩⟩)]⟩

/-- The type that the mismatch shows, and the one of its second field. -/
theorem outcome_names_distinct_mishandled :
    (check .empty mishandled).Shows handler ∧ handler.Contains callback ∧
      handler.NamesDistinct ∧ callback.NamesDistinct ∧
      ∀ field fields, handler = .record (some "Handler") fields →
        (fieldNamed? fields "callback" = some field ↔
          field ∈ fields ∧ field.name = "callback") := by
  have hmismatch : .mismatch handler "int" ⟨.incompatible "Handler" "int", []⟩ ⟨24, 25⟩ ∈
      (check .empty mishandled).diagnostics := by decide +kernel
  have hshown : (check .empty mishandled).Shows handler := .expected hmismatch
  have hpart : handler.Contains callback :=
    .field (List.mem_cons_of_mem _ List.mem_cons_self) (.refl _)
  obtain ⟨hhandler, hfound⟩ :=
    outcome_names_distinct.2.2.1 .empty mishandled handler handler hshown (.refl _)
  obtain ⟨hcallback, _⟩ :=
    outcome_names_distinct.2.2.1 .empty mishandled handler callback hshown hpart
  exact ⟨hshown, hpart, hhandler, hcallback, fun field fields heq =>
    hfound _ fields heq "callback" field⟩

end Conform
