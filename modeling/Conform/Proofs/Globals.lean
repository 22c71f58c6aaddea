import Conform.Globals
import Conform.Proofs.Resolved
import Conform.Proofs.Scope
import Mathlib.Data.List.Induction

/-!
# What the global scope holds

`Module.globals` fills one scope in three passes. Each lookup in the scope that they leave is here
said to hold what a rule on the module gives, with no pass in between:

* a record is found exactly if a declaration in force gives it a type (`record?_globals_iff`);
* a function, exactly if a declaration in force gives it a signature (`function?_globals_iff`);
* a name is poisoned exactly if a declaration in force gives it neither (`isPoisoned_globals_iff`);
* a variable, exactly if a top-level assignment gives it its binding (`local?_globals_iff`).

The passes over declarations rest on one fact about reading a name through a fold
(`read_foldl`): the declarations in force have different names, so at most one of them has a say.
-/

namespace Conform

/-! ## Signatures -/

/-- A parameter as declared and as it stands in a signature. -/
structure ParamDecl.Declares (types : String → Ty → Prop) (decl : ParamDecl) (param : Param Ty) :
    Prop where
  name : param.name = decl.name.name
  denotes : decl.form.Denotes types param.ty

/-- The signature that a function declares: its annotations denote the types and no parameter
repeats a name. -/
structure FunctionDecl.HasSignature (types : String → Ty → Prop) (decl : FunctionDecl)
    (signature : Signature) : Prop where
  params : List.Forall₂ (ParamDecl.Declares types) decl.params signature.params
  returns : decl.returns.Denotes types signature.returns
  distinct : (decl.params.map fun param => param.name.name).Nodup

namespace FunctionDecl

variable {types : String → Ty → Prop} {known : String → Option Ty} {decl : FunctionDecl}

/-- The parameters of a signature have the declared names. -/
theorem map_name_of_declares {decls : List ParamDecl} {params : List (Param Ty)}
    (h : List.Forall₂ (ParamDecl.Declares types) decls params) :
    params.map Param.name = decls.map fun param => param.name.name := by
  induction h with
  | nil => rfl
  | cons hparam _ ih => rw [List.map_cons, List.map_cons, hparam.name, ih]

/-- The parts of a signature are known exactly if every annotation denotes a type. -/
theorem signature?_eq_some_iff {made : Except Malformed Signature} :
    decl.signature? known = some made ↔ ∃ params returns,
      List.Forall₂ (ParamDecl.Declares fun name ty => known name = some ty) decl.params params ∧
      decl.returns.Denotes (fun name ty => known name = some ty) returns ∧
      Signature.make? params returns = made := by
  have hparam : ∀ (param : ParamDecl) (p : Param Ty),
      (do return (⟨param.name.name, ← param.form.denote? known⟩ : Param Ty)) = some p ↔
        param.Declares (fun name ty => known name = some ty) p := by
    intro param p
    rw [Option.bind_eq_bind, Option.bind_eq_some_iff]
    constructor
    · intro h
      obtain ⟨ty, hty, h⟩ := h
      cases h
      exact ⟨rfl, TyForm.denote?_eq_some_iff.mp hty⟩
    · intro h
      exact ⟨p.ty, TyForm.denote?_eq_some_iff.mpr h.denotes,
        congrArg some (Param.ext h.name.symm rfl)⟩
  unfold signature?
  constructor
  · intro h
    obtain ⟨params, hparams, h⟩ := Option.bind_eq_some_iff.mp h
    obtain ⟨returns, hreturns, h⟩ := Option.bind_eq_some_iff.mp h
    cases h
    exact ⟨params, returns, (mapM_eq_some_iff.mp hparams).imp fun param p => (hparam param p).mp,
      TyForm.denote?_eq_some_iff.mp hreturns, rfl⟩
  · intro h
    obtain ⟨params, returns, hparams, hreturns, rfl⟩ := h
    rw [mapM_eq_some_iff.mpr (hparams.imp fun param p => (hparam param p).mpr),
      TyForm.denote?_eq_some_iff.mpr hreturns]
    rfl

theorem signature?_eq_ok_iff {signature : Signature} :
    decl.signature? known = some (.ok signature) ↔
      decl.HasSignature (fun name ty => known name = some ty) signature := by
  rw [signature?_eq_some_iff]
  constructor
  · intro h
    obtain ⟨params, returns, hparams, hreturns, hmake⟩ := h
    obtain ⟨hdistinct, rfl⟩ := Signature.make?_eq_ok_iff.mp hmake
    exact ⟨hparams, hreturns, map_name_of_declares hparams ▸ hdistinct⟩
  · intro h
    exact ⟨_, _, h.params, h.returns, Signature.make?_eq_ok_iff.mpr
      ⟨(map_name_of_declares h.params).symm ▸ h.distinct, rfl⟩⟩

theorem exists_declares {decls : List ParamDecl}
    (h : ∀ param ∈ decls, ∃ ty, param.form.Denotes types ty) :
    ∃ params, List.Forall₂ (ParamDecl.Declares types) decls params := by
  apply exists_forall₂
  intro param hparam
  obtain ⟨ty, hty⟩ := h param hparam
  exact ⟨⟨param.name.name, ty⟩, rfl, hty⟩

theorem exists_hasSignature (hparams : ∀ param ∈ decl.params, ∃ ty, param.form.Denotes types ty)
    (hreturns : ∃ ty, decl.returns.Denotes types ty)
    (hdistinct : (decl.params.map fun param => param.name.name).Nodup) :
    ∃ signature, decl.HasSignature types signature := by
  obtain ⟨params, hlist⟩ := exists_declares hparams
  obtain ⟨returns, hreturns⟩ := hreturns
  exact ⟨⟨params, returns⟩, hlist, hreturns, hdistinct⟩

/-- The signature of a function, if its declaration gives it one. -/
def validSignature? (known : String → Option Ty) (decl : FunctionDecl) : Option Signature :=
  (decl.signature? known).bind Except.toOption

theorem validSignature?_eq_some_iff {signature : Signature} :
    decl.validSignature? known = some signature ↔
      decl.HasSignature (fun name ty => known name = some ty) signature := by
  rw [← signature?_eq_ok_iff, validSignature?]
  cases decl.signature? known with
  | none => simp
  | some made => cases made <;> simp [Except.toOption]

theorem declareIn_eq (scope : Scope) :
    decl.declareIn known scope =
      match decl.validSignature? known with
      | some signature => scope.declareFunction decl.name.name signature decl.span
      | none => scope.poison decl.name.name := by
  unfold declareIn validSignature?
  cases decl.signature? known with
  | none => rfl
  | some made => cases made <;> rfl

end FunctionDecl

/-! ## One declaration -/

section Declare

variable (known : String → Option Ty) (scope : Scope) (name : String)

namespace RecordDecl

variable (decl : RecordDecl)

theorem record?_declareIn :
    (decl.declareIn known scope).record? name =
      if decl.name.name = name then ((known name).map (⟨·, decl.span⟩)).or (scope.record? name)
      else scope.record? name := by
  unfold declareIn
  by_cases hname : decl.name.name = name
  · subst hname
    cases known decl.name.name <;> simp
  · cases known decl.name.name <;> simp [hname]

theorem isPoisoned_declareIn :
    (decl.declareIn known scope).isPoisoned name =
      if decl.name.name = name then (known name).isNone || scope.isPoisoned name
      else scope.isPoisoned name := by
  unfold declareIn
  by_cases hname : decl.name.name = name
  · subst hname
    cases known decl.name.name <;> simp
  · cases known decl.name.name <;> simp [hname]

@[simp] theorem function?_declareIn :
    (decl.declareIn known scope).function? name = scope.function? name := by
  unfold declareIn
  cases known decl.name.name <;> rfl

@[simp] theorem local?_declareIn :
    (decl.declareIn known scope).local? name = scope.local? name := by
  unfold declareIn
  cases known decl.name.name <;> rfl

@[simp] theorem outer_declareIn : (decl.declareIn known scope).outer = scope.outer := by
  unfold declareIn
  cases known decl.name.name <;> rfl

@[simp] theorem functionCount_declareIn :
    (decl.declareIn known scope).functionCount = scope.functionCount := by
  unfold declareIn
  cases known decl.name.name <;> rfl

end RecordDecl

namespace FunctionDecl

variable (decl : FunctionDecl)

theorem function?_declareIn :
    (decl.declareIn known scope).function? name =
      if decl.name.name = name then
        ((decl.validSignature? known).map (⟨·, decl.span⟩)).or (scope.function? name)
      else scope.function? name := by
  rw [declareIn_eq]
  by_cases hname : decl.name.name = name
  · cases decl.validSignature? known <;> simp [hname]
  · cases decl.validSignature? known <;> simp [hname]

theorem isPoisoned_declareIn :
    (decl.declareIn known scope).isPoisoned name =
      if decl.name.name = name then (decl.validSignature? known).isNone || scope.isPoisoned name
      else scope.isPoisoned name := by
  rw [declareIn_eq]
  by_cases hname : decl.name.name = name
  · cases decl.validSignature? known <;> simp [hname]
  · cases decl.validSignature? known <;> simp [hname]

@[simp] theorem record?_declareIn :
    (decl.declareIn known scope).record? name = scope.record? name := by
  rw [declareIn_eq]
  cases decl.validSignature? known <;> rfl

@[simp] theorem local?_declareIn :
    (decl.declareIn known scope).local? name = scope.local? name := by
  rw [declareIn_eq]
  cases decl.validSignature? known <;> rfl

@[simp] theorem outer_declareIn : (decl.declareIn known scope).outer = scope.outer := by
  rw [declareIn_eq]
  cases decl.validSignature? known <;> rfl

@[simp] theorem recordCount_declareIn :
    (decl.declareIn known scope).recordCount = scope.recordCount := by
  rw [declareIn_eq]
  cases decl.validSignature? known <;> rfl

end FunctionDecl

end Declare

/-! ## Reading a name through declarations -/

/-- Declarations of other names change nothing that is read of a name. -/
theorem read_foldl_of_ne {α σ β : Type} (key : α → String) (step : σ → α → σ) (name : String)
    (read : σ → β) (hother : ∀ s a, key a ≠ name → read (step s a) = read s) {items : List α}
    (hne : ∀ a ∈ items, key a ≠ name) (s : σ) : read (items.foldl step s) = read s := by
  induction items generalizing s with
  | nil => rfl
  | cons a rest ih =>
    rw [List.foldl_cons, ih (fun b hb => hne b (List.mem_cons_of_mem _ hb))]
    exact hother s a (hne a List.mem_cons_self)

/-- Of declarations with different names only the one with a given name has an effect on what is
read of that name. -/
theorem read_foldl {α σ β : Type} (key : α → String) (step : σ → α → σ) (name : String)
    (read : σ → β) (effect : α → β → β)
    (hstep : ∀ s a, read (step s a) = if key a = name then effect a (read s) else read s)
    {items : List α} (hnodup : (items.map key).Nodup) (s : σ) :
    read (items.foldl step s) =
      match items.find? fun a => key a = name with
      | some a => effect a (read s)
      | none => read s := by
  induction items generalizing s with
  | nil => rfl
  | cons a rest ih =>
    rw [List.map_cons, List.nodup_cons] at hnodup
    rw [List.foldl_cons, List.find?_cons]
    have hread := hstep s a
    by_cases hname : key a = name
    · -- The names are different, so no declaration after this one has a say.
      have hne : ∀ b ∈ rest, key b ≠ name := fun b hb hbname =>
        hnodup.1 (List.mem_map.mpr ⟨b, hb, hbname.trans hname.symm⟩)
      have hother : ∀ s b, key b ≠ name → read (step s b) = read s := fun s b hb => by
        rw [hstep s b, if_neg hb]
      rw [read_foldl_of_ne key step name read hother hne]
      simpa [hname] using hread
    · rw [if_neg hname] at hread
      rw [ih hnodup.2, hread]
      simp [hname]

/-- A flag of a name is raised exactly if a declaration of that name raises it. -/
theorem flag_foldl_iff {α σ : Type} (key : α → String) (step : σ → α → σ) (name : String)
    (flag : σ → Bool) (raises : α → Bool)
    (hstep : ∀ s a, flag (step s a) = if key a = name then raises a || flag s else flag s)
    (items : List α) (s : σ) :
    flag (items.foldl step s) = true ↔
      (∃ a ∈ items, key a = name ∧ raises a = true) ∨ flag s = true := by
  induction items generalizing s with
  | nil => simp
  | cons a rest ih =>
    rw [List.foldl_cons, ih, hstep]
    by_cases hname : key a = name
    · simp [hname, or_assoc, or_comm]
    · simp [hname]

/-- A step that never changes what is read does not do so when repeated. -/
theorem read_foldl_eq {α σ β : Type} {step : σ → α → σ} (read : σ → β)
    (hstep : ∀ s a, read (step s a) = read s) (items : List α) (s : σ) :
    read (items.foldl step s) = read s := by
  induction items generalizing s with
  | nil => rfl
  | cons a rest ih => rw [List.foldl_cons, ih, hstep]

theorem read_bindGlobal {β : Type} {read : Scope → β}
    (hbind : ∀ scope name binding, read (scope.bind name binding) = read scope)
    (known : String → Option Ty) (declared : List Ident) (scope : Scope) (a : Assignment) :
    read (a.bindGlobal known declared scope) = read scope := by
  unfold Assignment.bindGlobal
  split
  · rfl
  · split
    · rfl
    · exact hbind scope _ _

/-! ## Records, functions and poisoned names -/

namespace Module

variable (m : Module) (name : String)

/-- The types that the declarations of a module give to names. -/
def Types (m : Module) : String → Ty → Prop :=
  RecordType m.recordsInForce

/-- The table of types that the checker works with holds what the declarations give. -/
theorem known_eq_some_iff {m : Module} {name : String} {ty : Ty} :
    m.globals.known name = some ty ↔ m.Types name ty :=
  Resolution.typeOf?_all_eq_some_iff m.nodup_recordsInForce

theorem knows_types (m : Module) : Knows m.globals.known m.Types :=
  fun _ _ => known_eq_some_iff

/-- The scope that the pass over records leaves. -/
def scopeOfRecords : Scope :=
  m.recordsInForce.foldl (RecordDecl.declareIn m.globals.known) Scope.empty

/-- The scope that the pass over functions leaves. -/
def scopeOfFunctions : Scope :=
  m.functionsInForce.foldl (FunctionDecl.declareIn m.globals.known) m.scopeOfRecords

theorem globals_scope_eq :
    m.globals.scope =
      m.assignments.foldl (Assignment.bindGlobal m.globals.known m.declared) m.scopeOfFunctions :=
  rfl

/-- The pass over assignments changes nothing but variables. -/
theorem read_globals {β : Type} (read : Scope → β)
    (hbind : ∀ scope name binding, read (scope.bind name binding) = read scope) :
    read m.globals.scope = read m.scopeOfFunctions := by
  rw [globals_scope_eq]
  exact read_foldl_eq read (read_bindGlobal hbind _ _) _ _

theorem record?_globals :
    m.globals.scope.record? name =
      (recordNamed? m.recordsInForce name).bind fun decl =>
        (m.globals.known name).map (⟨·, decl.span⟩) := by
  have hvariables : m.globals.scope.record? name = m.scopeOfFunctions.record? name :=
    m.read_globals (fun scope => scope.record? name)
      fun scope other binding => scope.record?_bind other name binding
  have hfunctions : m.scopeOfFunctions.record? name = m.scopeOfRecords.record? name :=
    read_foldl_eq (fun scope : Scope => scope.record? name)
      (fun scope decl => FunctionDecl.record?_declareIn _ scope name decl) _ _
  -- Only the pass over records has a say, and in it only the record with the name.
  have hrecords := read_foldl (fun decl : RecordDecl => decl.name.name)
    (RecordDecl.declareIn m.globals.known) name (fun scope => scope.record? name)
    (fun decl before => ((m.globals.known name).map (⟨·, decl.span⟩)).or before)
    (fun scope decl => decl.record?_declareIn _ scope name) m.nodup_recordsInForce Scope.empty
  rw [hvariables, hfunctions, scopeOfRecords, hrecords, recordNamed?]
  cases m.recordsInForce.find? fun decl => decl.name.name = name <;> simp

theorem function?_globals :
    m.globals.scope.function? name =
      (m.functionsInForce.find? fun decl => decl.name.name = name).bind fun decl =>
        (decl.validSignature? m.globals.known).map (⟨·, decl.span⟩) := by
  have hvariables : m.globals.scope.function? name = m.scopeOfFunctions.function? name :=
    m.read_globals (fun scope => scope.function? name)
      fun scope other binding => scope.function?_bind other name binding
  have hrecords : m.scopeOfRecords.function? name = none :=
    read_foldl_eq (fun scope : Scope => scope.function? name)
      (fun scope decl => RecordDecl.function?_declareIn _ scope name decl) _ _
  have hfunctions := read_foldl (fun decl : FunctionDecl => decl.name.name)
    (FunctionDecl.declareIn m.globals.known) name (fun scope => scope.function? name)
    (fun decl before =>
      ((decl.validSignature? m.globals.known).map (⟨·, decl.span⟩)).or before)
    (fun scope decl => decl.function?_declareIn _ scope name) m.nodup_functionsInForce
    m.scopeOfRecords
  rw [hvariables, scopeOfFunctions, hfunctions, hrecords]
  cases m.functionsInForce.find? fun decl => decl.name.name = name <;> simp

/-- A record is found exactly if a declaration in force gives it a type. -/
theorem record?_globals_iff {m : Module} {name : String} {entry : Declared Ty} :
    m.globals.scope.record? name = some entry ↔
      ∃ decl ∈ m.recordsInForce, decl.name.name = name ∧ m.Types name entry.value ∧
        entry.span = decl.span := by
  rw [record?_globals, Option.bind_eq_some_iff]
  constructor
  · intro h
    obtain ⟨decl, hdecl, h⟩ := h
    obtain ⟨ty, hty, rfl⟩ := Option.map_eq_some_iff.mp h
    obtain ⟨hmem, hname⟩ := mem_of_recordNamed? hdecl
    exact ⟨decl, hmem, hname, known_eq_some_iff.mp hty, rfl⟩
  · intro h
    obtain ⟨decl, hmem, hname, hty, hspan⟩ := h
    refine ⟨decl, (recordNamed?_eq_some_iff m.nodup_recordsInForce).mpr ⟨hmem, hname⟩, ?_⟩
    rw [known_eq_some_iff.mpr hty, ← hspan]
    rfl

theorem validSignature?_globals_iff {m : Module} {decl : FunctionDecl} {signature : Signature} :
    decl.validSignature? m.globals.known = some signature ↔
      decl.HasSignature m.Types signature := by
  rw [FunctionDecl.validSignature?_eq_some_iff, m.knows_types.eq]

/-- A function is found exactly if a declaration in force gives it a signature. -/
theorem function?_globals_iff {m : Module} {name : String} {entry : Declared Signature} :
    m.globals.scope.function? name = some entry ↔
      ∃ decl ∈ m.functionsInForce, decl.name.name = name ∧
        decl.HasSignature m.Types entry.value ∧ entry.span = decl.span := by
  rw [function?_globals, Option.bind_eq_some_iff]
  constructor
  · intro h
    obtain ⟨decl, hdecl, h⟩ := h
    obtain ⟨signature, hsig, rfl⟩ := Option.map_eq_some_iff.mp h
    obtain ⟨hmem, hname⟩ := (find?_key_eq_some_iff m.nodup_functionsInForce).mp hdecl
    exact ⟨decl, hmem, hname, validSignature?_globals_iff.mp hsig, rfl⟩
  · intro h
    obtain ⟨decl, hmem, hname, hsig, hspan⟩ := h
    refine ⟨decl, (find?_key_eq_some_iff m.nodup_functionsInForce).mpr ⟨hmem, hname⟩, ?_⟩
    rw [validSignature?_globals_iff.mpr hsig, ← hspan]
    rfl

/-- A name is poisoned exactly if a declaration in force gives it no type or no signature. -/
theorem isPoisoned_globals_iff {m : Module} {name : String} :
    m.globals.scope.isPoisoned name = true ↔
      (∃ decl ∈ m.recordsInForce, decl.name.name = name ∧ ∀ ty, ¬ m.Types name ty) ∨
        ∃ decl ∈ m.functionsInForce, decl.name.name = name ∧
          ∀ signature, ¬ decl.HasSignature m.Types signature := by
  have hvariables : m.globals.scope.isPoisoned name = m.scopeOfFunctions.isPoisoned name :=
    m.read_globals (fun scope => scope.isPoisoned name)
      fun scope other binding => scope.isPoisoned_bind other name binding
  have hfunctions := flag_foldl_iff (fun decl : FunctionDecl => decl.name.name)
    (FunctionDecl.declareIn m.globals.known) name (fun scope => scope.isPoisoned name)
    (fun decl => (decl.validSignature? m.globals.known).isNone)
    (fun scope decl => decl.isPoisoned_declareIn _ scope name) m.functionsInForce m.scopeOfRecords
  have hrecords := flag_foldl_iff (fun decl : RecordDecl => decl.name.name)
    (RecordDecl.declareIn m.globals.known) name (fun scope => scope.isPoisoned name)
    (fun _ => (m.globals.known name).isNone)
    (fun scope decl => decl.isPoisoned_declareIn _ scope name) m.recordsInForce Scope.empty
  have hsignature : ∀ decl : FunctionDecl, (decl.validSignature? m.globals.known).isNone = true ↔
      ∀ signature, ¬ decl.HasSignature m.Types signature := by
    intro decl
    simp only [Option.isNone_iff_eq_none, Option.eq_none_iff_forall_ne_some, Ne,
      validSignature?_globals_iff]
  have htype : (m.globals.known name).isNone = true ↔ ∀ ty, ¬ m.Types name ty := by
    simp only [Option.isNone_iff_eq_none, Option.eq_none_iff_forall_ne_some, Ne, known_eq_some_iff]
  rw [hvariables, scopeOfFunctions, hfunctions, or_comm, scopeOfRecords, hrecords]
  simp only [hsignature, htype, Scope.isPoisoned_empty, Bool.false_eq_true, or_false]

/-! ## Variables -/

end Module

/-- What an assignment says of the type of a variable. -/
def Assignment.Assigns (types : String → Ty → Prop) (a : Assignment) (name : String) (ty : Ty) :
    Prop :=
  a.target.name = name ∧ ∃ form, a.form = some form ∧ form.Denotes types ty

namespace Module

/-- What the top-level assignments make of a variable that is not declared otherwise: it has the
type of the first of them with one, and it is untyped if none of them has one. -/
inductive GlobalVariable (m : Module) (types : String → Ty → Prop) (name : String) : Binding → Prop
  | typed {before after : List Assignment} {a : Assignment} {ty : Ty}
      (hfree : ∀ ident ∈ m.declared, ident.name ≠ name)
      (hsplit : m.assignments = before ++ a :: after) (hty : a.Assigns types name ty)
      (hfirst : ∀ b ∈ before, ∀ ty, ¬ b.Assigns types name ty) :
      GlobalVariable m types name (.typed ty)
  | untyped {a : Assignment} (hfree : ∀ ident ∈ m.declared, ident.name ≠ name)
      (hmem : a ∈ m.assignments) (htarget : a.target.name = name)
      (hnone : ∀ b ∈ m.assignments, ∀ ty, ¬ b.Assigns types name ty) :
      GlobalVariable m types name .untyped

/-- The type that an assignment gives to a variable. -/
def assigned? (known : String → Option Ty) (name : String) (a : Assignment) : Option Ty :=
  if a.target.name = name then a.form.bind (·.denote? known) else none

theorem assigned?_eq_some_iff {m : Module} {name : String} {a : Assignment} {ty : Ty} :
    assigned? m.globals.known name a = some ty ↔ a.Assigns m.Types name ty := by
  unfold assigned? Assignment.Assigns
  split
  · next hname =>
    rw [Option.bind_eq_some_iff]
    simp only [hname, true_and, TyForm.denote?_iff m.knows_types]
  · next hname => simp [hname]

/-- An assignment to another variable is of no matter. -/
theorem local?_bindGlobal_of_ne {known : String → Option Ty} {declared : List Ident} {name : String}
    (scope : Scope) {a : Assignment} (htarget : a.target.name ≠ name) :
    (a.bindGlobal known declared scope).local? name = scope.local? name := by
  unfold Assignment.bindGlobal
  split
  · rfl
  · split
    · rfl
    · simp [htarget]

/-- An assignment leaves its target the type that it has, and else gives it what it can. -/
theorem local?_bindGlobal_self {known : String → Option Ty} {declared : List Ident}
    {a : Assignment} (hfree : identNamed? declared a.target.name = none) (scope : Scope) :
    (a.bindGlobal known declared scope).local? a.target.name =
      match scope.local? a.target.name with
      | some (.typed ty) => some (.typed ty)
      | _ => some (.ofOption (assigned? known a.target.name a)) := by
  have hbinding : a.binding known = .ofOption (assigned? known a.target.name a) := by
    rw [assigned?, if_pos rfl]
    rfl
  unfold Assignment.bindGlobal
  rw [hfree, hbinding]
  cases hlocal : scope.local? a.target.name with
  | none => simp
  | some binding => cases binding <;> simp [hlocal]

/-- A variable keeps the first type that it gets, whatever is assigned before and after it. -/
theorem local?_foldl_bindGlobal {known : String → Option Ty} {declared : List Ident}
    {name : String} (hfree : identNamed? declared name = none) {scope : Scope}
    (hscope : scope.local? name = none) (as : List Assignment) :
    (as.foldl (Assignment.bindGlobal known declared) scope).local? name =
      match as.findSome? (assigned? known name) with
      | some ty => some (.typed ty)
      | none => if ∃ a ∈ as, a.target.name = name then some .untyped else none := by
  -- The last assignment is taken off, so that what the others have left is known in full.
  induction as using List.reverseRecOn with
  | nil => simpa using hscope
  | append_singleton as a ih =>
    rw [List.foldl_append, List.foldl_cons, List.foldl_nil, List.findSome?_append]
    by_cases htarget : a.target.name = name
    · subst htarget
      rw [local?_bindGlobal_self hfree, ih]
      cases as.findSome? (assigned? known a.target.name) with
      | some ty => rfl
      | none =>
        have hex : ∃ b ∈ as ++ [a], b.target.name = a.target.name := ⟨a, by simp, rfl⟩
        rw [if_pos hex, Option.none_or, List.findSome?_singleton]
        by_cases hbefore : ∃ b ∈ as, b.target.name = a.target.name
        · rw [if_pos hbefore]
          cases assigned? known a.target.name a <;> rfl
        · rw [if_neg hbefore]
          cases assigned? known a.target.name a <;> rfl
    · have hskip : assigned? known name a = none := by simp [assigned?, htarget]
      rw [local?_bindGlobal_of_ne _ htarget, ih]
      simp [hskip, htarget]

theorem local?_globals (m : Module) (name : String) :
    m.globals.scope.local? name =
      if (identNamed? m.declared name).isSome then none
      else match m.assignments.findSome? (assigned? m.globals.known name) with
        | some ty => some (.typed ty)
        | none => if ∃ a ∈ m.assignments, a.target.name = name then some .untyped else none := by
  have hrecords : m.scopeOfRecords.local? name = none :=
    read_foldl_eq (fun scope : Scope => scope.local? name)
      (fun scope decl => RecordDecl.local?_declareIn _ scope name decl) _ _
  have hfunctions : m.scopeOfFunctions.local? name = m.scopeOfRecords.local? name :=
    read_foldl_eq (fun scope : Scope => scope.local? name)
      (fun scope decl => FunctionDecl.local?_declareIn _ scope name decl) _ _
  rw [globals_scope_eq]
  cases hfree : identNamed? m.declared name with
  | none => exact local?_foldl_bindGlobal hfree (hfunctions.trans hrecords) m.assignments
  | some first =>
    -- An assignment to a declared name binds nothing, and any other one binds another name.
    have hskip : ∀ (scope : Scope) (a : Assignment),
        (a.bindGlobal m.globals.known m.declared scope).local? name = scope.local? name := by
      intro scope a
      by_cases htarget : a.target.name = name
      · rw [Assignment.bindGlobal, htarget, hfree]
        rfl
      · exact local?_bindGlobal_of_ne scope htarget
    exact (read_foldl_eq (fun scope : Scope => scope.local? name) hskip _ _).trans
      (hfunctions.trans hrecords)

/-- No assignment gives a variable a type exactly if none is found. -/
theorem findSome?_assigned?_eq_none_iff {m : Module} {name : String} {as : List Assignment} :
    as.findSome? (assigned? m.globals.known name) = none ↔
      ∀ a ∈ as, ∀ ty, ¬ a.Assigns m.Types name ty := by
  rw [List.findSome?_eq_none_iff]
  simp only [Option.eq_none_iff_forall_ne_some, Ne, assigned?_eq_some_iff]

/-- A variable is found with a binding exactly if the assignments give it that. -/
theorem local?_globals_iff {m : Module} {name : String} {binding : Binding} :
    m.globals.scope.local? name = some binding ↔ m.GlobalVariable m.Types name binding := by
  rw [local?_globals]
  constructor
  · intro h
    split at h
    · exact absurd h (by simp)
    · next hdeclared =>
      have hfree : ∀ ident ∈ m.declared, ident.name ≠ name := by
        rwa [Option.not_isSome_iff_eq_none, identNamed?_eq_none_iff] at hdeclared
      split at h
      · next ty hty =>
        cases h
        obtain ⟨before, a, after, hsplit, ha, hbefore⟩ := List.findSome?_eq_some_iff.mp hty
        refine .typed hfree hsplit (assigned?_eq_some_iff.mp ha) ?_
        exact findSome?_assigned?_eq_none_iff.mp (List.findSome?_eq_none_iff.mpr hbefore)
      · next hnone =>
        split at h
        · next hex =>
          cases h
          obtain ⟨a, hmem, htarget⟩ := hex
          exact .untyped hfree hmem htarget (findSome?_assigned?_eq_none_iff.mp hnone)
        · exact absurd h (by simp)
  · intro h
    have hfree : ∀ ident ∈ m.declared, ident.name ≠ name := by
      cases h with
      | typed hfree => exact hfree
      | untyped hfree => exact hfree
    rw [identNamed?_eq_none_iff.mpr hfree, Option.isSome_none, if_neg Bool.false_ne_true]
    cases h with
    | @typed before after a ty _ hsplit hty hfirst =>
      have hbefore := findSome?_assigned?_eq_none_iff.mpr hfirst
      rw [hsplit, List.findSome?_append, hbefore, Option.none_or, List.findSome?_cons,
        assigned?_eq_some_iff.mpr hty]
    | @untyped a _ hmem htarget hnone =>
      rw [findSome?_assigned?_eq_none_iff.mpr hnone]
      exact if_pos ⟨a, hmem, htarget⟩

end Module

/-! ## Counts -/

/-- Declarations of different names that are all free count as many as have something to declare. -/
theorem count_foldl {α σ : Type} (key : α → String) (step : σ → α → σ) (count : σ → Nat)
    (Free : String → σ → Prop) (declares : α → Bool)
    (hcount : ∀ s a, Free (key a) s → count (step s a) = count s + if declares a then 1 else 0)
    (hfree : ∀ s a name, key a ≠ name → Free name s → Free name (step s a)) {items : List α}
    (hnodup : (items.map key).Nodup) {s : σ} (hnew : ∀ a ∈ items, Free (key a) s) :
    count (items.foldl step s) = count s + items.countP declares := by
  induction items generalizing s with
  | nil => rfl
  | cons a rest ih =>
    rw [List.map_cons, List.nodup_cons] at hnodup
    have hnew' : ∀ b ∈ rest, Free (key b) (step s a) := by
      intro b hb
      have hne : key a ≠ key b := fun heq => hnodup.1 (List.mem_map.mpr ⟨b, hb, heq.symm⟩)
      exact hfree s a _ hne (hnew b (List.mem_cons_of_mem _ hb))
    rw [List.foldl_cons, ih hnodup.2 hnew', hcount s a (hnew a List.mem_cons_self),
      List.countP_cons]
    omega

theorem RecordDecl.recordCount_declareIn (known : String → Option Ty) {scope : Scope}
    (decl : RecordDecl) (houter : scope.outer = []) (hnew : scope.record? decl.name.name = none) :
    (decl.declareIn known scope).recordCount =
      scope.recordCount + if (known decl.name.name).isSome then 1 else 0 := by
  unfold declareIn
  cases known decl.name.name with
  | none => rfl
  | some ty => exact Scope.recordCount_declareRecord _ _ houter hnew ..

theorem FunctionDecl.functionCount_declareIn (known : String → Option Ty) {scope : Scope}
    (decl : FunctionDecl) (houter : scope.outer = [])
    (hnew : scope.function? decl.name.name = none) :
    (decl.declareIn known scope).functionCount =
      scope.functionCount + if (decl.validSignature? known).isSome then 1 else 0 := by
  rw [declareIn_eq]
  cases decl.validSignature? known with
  | none => rfl
  | some signature => exact Scope.functionCount_declareFunction _ _ houter hnew ..

namespace Module

theorem recordCount_globals (m : Module) :
    m.globals.scope.recordCount =
      m.recordsInForce.countP fun decl => (m.globals.known decl.name.name).isSome := by
  have hvariables : m.globals.scope.recordCount = m.scopeOfFunctions.recordCount :=
    m.read_globals Scope.recordCount fun scope other binding => scope.recordCount_bind other binding
  have hfunctions : m.scopeOfFunctions.recordCount = m.scopeOfRecords.recordCount :=
    read_foldl_eq Scope.recordCount
      (fun scope decl => FunctionDecl.recordCount_declareIn _ scope decl) _ _
  have hrecords := count_foldl (fun decl : RecordDecl => decl.name.name)
    (RecordDecl.declareIn m.globals.known) Scope.recordCount
    (fun name scope => scope.outer = [] ∧ scope.record? name = none)
    (fun decl => (m.globals.known decl.name.name).isSome)
    (fun _ decl hfree => decl.recordCount_declareIn _ hfree.1 hfree.2)
    (fun scope decl name hne hfree => by
      rw [RecordDecl.outer_declareIn, RecordDecl.record?_declareIn, if_neg hne]
      exact hfree)
    m.nodup_recordsInForce fun _ _ => ⟨Scope.outer_empty, Scope.record?_empty _⟩
  rw [hvariables, hfunctions, scopeOfRecords, hrecords, Scope.recordCount_empty, Nat.zero_add]

theorem functionCount_globals (m : Module) :
    m.globals.scope.functionCount =
      m.functionsInForce.countP fun decl => (decl.validSignature? m.globals.known).isSome := by
  have hvariables : m.globals.scope.functionCount = m.scopeOfFunctions.functionCount :=
    m.read_globals Scope.functionCount
      fun scope other binding => scope.functionCount_bind other binding
  have hcount : m.scopeOfRecords.functionCount = 0 :=
    read_foldl_eq Scope.functionCount
      (fun scope decl => RecordDecl.functionCount_declareIn _ scope decl) _ _
  have houter : m.scopeOfRecords.outer = [] :=
    read_foldl_eq Scope.outer (fun scope decl => RecordDecl.outer_declareIn _ scope decl) _ _
  have hnew : ∀ name, m.scopeOfRecords.function? name = none := fun name =>
    read_foldl_eq (fun scope : Scope => scope.function? name)
      (fun scope other => RecordDecl.function?_declareIn _ scope _ other) _ _
  have hfunctions := count_foldl (fun decl : FunctionDecl => decl.name.name)
    (FunctionDecl.declareIn m.globals.known) Scope.functionCount
    (fun name scope => scope.outer = [] ∧ scope.function? name = none)
    (fun decl => (decl.validSignature? m.globals.known).isSome)
    (fun _ decl hfree => decl.functionCount_declareIn _ hfree.1 hfree.2)
    (fun scope decl name hne hfree => by
      rw [FunctionDecl.outer_declareIn, FunctionDecl.function?_declareIn, if_neg hne]
      exact hfree)
    m.nodup_functionsInForce fun _ _ => ⟨houter, hnew _⟩
  rw [hvariables, scopeOfFunctions, hfunctions, hcount, Nat.zero_add]

end Module

end Conform
