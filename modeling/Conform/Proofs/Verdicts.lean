import Conform.Proofs.Conforms
import Conform.Proofs.Equivalence

/-!
# Verdicts and structure

The searches for a reason go through fields in the order of their declaration, look up entries from
the end and fields from the front, and stop at the first reason that they find. So the order of
things decides what is said against a value or a type. **It does not decide whether anything is
said** (`verdicts_congr`): that depends on the structure of the types, on the types of the names in
the expression, and on which entry of a dict literal is the last one with its key.

Equivalent types are those of `Proofs/Equivalence.lean`. An expression is rearranged if entries with
different keys change places in its dict literals, at any depth; entries with the same key stay in
order, since the last of them is the one that counts. For a call, the arguments that are refused are
the same ones, each of them for a reason of its own.
-/

namespace Conform

variable {w : Widening} {scope scope' : Scope}

/-! ## Scopes and expressions -/

/-- Every name has equivalent types in two scopes, or a type in neither. -/
def Scope.Equivalent (scope scope' : Scope) : Prop :=
  ∀ name, Option.Rel Ty.Equivalent (scope.valueType? name) (scope'.valueType? name)

/-- The second expression is the first one with the entries of its dict literals in another order,
at any depth, where entries with the same key keep theirs. -/
inductive Expr.Rearranged : Expr → Expr → Prop
  | scalar (kind : Scalar) (span : Span) : Rearranged (.scalar kind span) (.scalar kind span)
  | dict {entries moved entries' : List (Entry Expr)} {span : Span}
      (hperm : entries.Perm moved)
      (horder : ∀ key, (entries.filter fun entry => entry.key = key) =
        moved.filter fun entry => entry.key = key)
      (hlength : moved.length = entries'.length)
      (hkeys : ∀ i (h : i < moved.length) (h' : i < entries'.length),
        moved[i].key = entries'[i].key)
      (hvalues : ∀ i (h : i < moved.length) (h' : i < entries'.length),
        Rearranged moved[i].value entries'[i].value) :
      Rearranged (.dict entries span) (.dict entries' span)
  | call {callee : Ident} {args args' : List Expr} {span : Span}
      (hlength : args.length = args'.length)
      (hargs : ∀ i (h : i < args.length) (h' : i < args'.length), Rearranged args[i] args'[i]) :
      Rearranged (.call callee args span) (.call callee args' span)
  | name (ident : Ident) : Rearranged (.name ident) (.name ident)

theorem exists_of_rel {α β : Type} {R : α → β → Prop} {a? : Option α} {b? : Option β}
    (h : Option.Rel R a? b?) {a : α} (ha : a? = some a) : ∃ b, b? = some b ∧ R a b := by
  subst ha
  cases h with
  | some h => exact ⟨_, rfl, h⟩

theorem rel_symm {α β : Type} {R : α → β → Prop} {S : β → α → Prop} {a? : Option α} {b? : Option β}
    (hsymm : ∀ a b, R a b → S b a) (h : Option.Rel R a? b?) : Option.Rel S b? a? := by
  cases h with
  | some h => exact .some (hsymm _ _ h)
  | none => exact .none

theorem rel_or {α β : Type} {R : α → β → Prop} {a? c? : Option α} {b? d? : Option β}
    (h : Option.Rel R a? b?) (h' : Option.Rel R c? d?) : Option.Rel R (a?.or c?) (b?.or d?) := by
  cases h with
  | some h => exact .some h
  | none => exact h'

theorem bind_eq_none_congr {α β γ : Type} {R : α → β → Prop} {a? : Option α} {b? : Option β}
    (h : Option.Rel R a? b?) {f : α → Option γ} {g : β → Option γ}
    (hfg : ∀ a b, R a b → (f a = none ↔ g b = none)) : a?.bind f = none ↔ b?.bind g = none := by
  cases h with
  | some h => exact hfg _ _ h
  | none => exact Iff.rfl

/-- A name is called as the values of its type are. -/
theorem Scope.callable?_eq_bind (scope : Scope) (name : String) :
    scope.callable? name = (scope.valueType? name).bind Ty.signature? := by
  unfold Scope.callable? Scope.valueType?
  cases scope.local? name with
  | some binding => rfl
  | none => cases scope.function? name <;> rfl

/-- Names with equivalent types are called alike. -/
theorem Scope.Equivalent.callable? (h : scope.Equivalent scope') (name : String) :
    Option.Rel (fun signature signature' => signature.ty.Equivalent signature'.ty)
      (scope.callable? name) (scope'.callable? name) := by
  have hrel := h name
  rw [scope.callable?_eq_bind, scope'.callable?_eq_bind]
  generalize scope.valueType? name = ty?, scope'.valueType? name = ty'? at hrel ⊢
  cases hrel with
  | none => exact .none
  | some hty =>
    cases hty with
    | scalar _ => exact .none
    | record _ _ _ _ => exact .none
    | callable harity hparams hreturns => exact .some (.callable harity hparams hreturns)

theorem Ty.Equivalent.returns {signature signature' : Signature}
    (h : signature.ty.Equivalent signature'.ty) :
    signature.returns.Equivalent signature'.returns := by
  cases h with
  | callable _ _ hreturns => exact hreturns

/-- Which entry counts for a key depends on the entries with that key alone. -/
theorem entryOf?_congr {entries moved : List (Entry Expr)} {key : String}
    (h : (entries.filter fun entry => entry.key = key) =
      moved.filter fun entry => entry.key = key) :
    entryOf? entries key = entryOf? moved key := by
  rw [entryOf?, entryOf?, ← List.getLast?_filter, ← List.getLast?_filter, h]

/-- Where entries with the same keys have related values one after the other, so have those that
count. -/
theorem entryOf?_rel {R : Expr → Expr → Prop} {entries entries' : List (Entry Expr)}
    (h : List.Forall₂ (fun entry entry' => entry.key = entry'.key ∧ R entry.value entry'.value)
      entries entries') (key : String) :
    Option.Rel (fun entry entry' => R entry.value entry'.value) (entryOf? entries key)
      (entryOf? entries' key) := by
  induction h with
  | nil => exact .none
  | @cons first first' rest rest' hfirst _ ih =>
    rw [entryOf?_cons, entryOf?_cons]
    refine rel_or ih ?_
    rw [← hfirst.1]
    split
    · exact .some hfirst.2
    · exact .none

/-! ## Values -/

/-- Two expressions are accepted for the same structures. -/
def Expr.AcceptedAlike (w : Widening) (scope scope' : Scope) (e e' : Expr) : Prop :=
  ∀ t t' : Ty, t.Equivalent t' →
    (t.valueMismatch? w scope e = none ↔ t'.valueMismatch? w scope' e' = none)

theorem Expr.AcceptedAlike.symm {e e' : Expr} (h : e.AcceptedAlike w scope scope' e') :
    e'.AcceptedAlike w scope' scope e :=
  fun t t' hty => (h t' t hty.symm).symm

/-- A dict literal may take the place of another one if the entries that count are accepted
alike. -/
theorem dict_accepted_of_alike {m n : Option String} {fields others : List (Field Ty)}
    {entries entries' : List (Entry Expr)} {span span' : Span}
    (hrecord : (Ty.record m fields).Equivalent (.record n others))
    (hentries : ∀ key,
      Option.Rel (fun entry entry' => entry.value.AcceptedAlike w scope scope' entry'.value)
        (entryOf? entries key) (entryOf? entries' key))
    (h : (Ty.record m fields).valueMismatch? w scope (.dict entries span) = none) :
    (Ty.record n others).valueMismatch? w scope' (.dict entries' span') = none := by
  rw [dictMismatch?_eq_none_iff] at h ⊢
  obtain ⟨hfields, hextra⟩ := h
  refine ⟨fun field' hfield' => ?_, fun entry' hentry' => ?_⟩
  · -- A field of the new record stands for one of the old record, with the same name.
    obtain ⟨field, hfound, hmarker, hty⟩ := hrecord.symm.exists_field hfield'
    obtain ⟨hrequired, hvalue⟩ := hfields field (fieldNamed?_mem hfound)
    rw [fieldNamed?_name hfound, ← hmarker] at hrequired
    rw [fieldNamed?_name hfound] at hvalue
    refine ⟨fun hreq => ?_, fun entry' hcounts' => ?_⟩
    · obtain ⟨entry, hcounts⟩ := exists_counts_iff.mpr (hrequired hreq)
      obtain ⟨entry', hentry', _⟩ :=
        exists_of_rel (hentries field'.name) (entryOf?_eq_some_iff.mpr hcounts)
      exact ⟨entry', (entryOf?_eq_some_iff.mp hentry').mem⟩
    · obtain ⟨entry, hentry, halike⟩ := exists_of_rel
        (rel_symm (fun _ _ => Expr.AcceptedAlike.symm) (hentries field'.name))
        (entryOf?_eq_some_iff.mpr hcounts')
      exact (halike _ _ hty).mpr (hvalue entry (entryOf?_eq_some_iff.mp hentry))
  · obtain ⟨last, hcounts⟩ := exists_counts_iff.mpr ⟨entry', hentry', rfl⟩
    obtain ⟨entry, hentry, _⟩ := exists_of_rel
      (rel_symm (fun _ _ => Expr.AcceptedAlike.symm) (hentries entry'.key))
      (entryOf?_eq_some_iff.mpr hcounts)
    obtain ⟨hmem, hkey⟩ := (entryOf?_eq_some_iff.mp hentry).mem
    obtain ⟨field, hfield, hname⟩ := hextra entry hmem
    obtain ⟨other, hother, _⟩ := hrecord.exists_field hfield
    exact ⟨other, fieldNamed?_mem hother, by rw [fieldNamed?_name hother, hname, hkey]⟩

/-- Equivalent types accept equivalent types. -/
theorem mismatch?_congr {expected expected' actual actual' : Ty}
    (hexpected : expected.Equivalent expected') (hactual : actual.Equivalent actual') :
    expected.mismatch? w actual = none ↔ expected'.mismatch? w actual' = none := by
  rw [mismatch?_eq_none_iff, mismatch?_eq_none_iff]
  exact ⟨.congr hexpected hactual, .congr hexpected.symm hactual.symm⟩

/-- A rearranged expression is accepted alike, in a scope that gives its names equivalent types. -/
theorem Expr.Rearranged.acceptedAlike (hscope : scope.Equivalent scope') {e e' : Expr}
    (h : e.Rearranged e') : e.AcceptedAlike w scope scope' e' := by
  induction h with
  | scalar kind span =>
    intro t t' hty
    cases hty <;> simp [Ty.valueMismatch?]
  | @dict entries moved entries' span _ horder hlength hkeys _ ih =>
    intro t t' hty
    cases t with
    | scalar _ =>
      cases hty
      simp [Ty.valueMismatch?]
    | callable _ _ =>
      cases hty
      simp [Ty.valueMismatch?]
    | record m fields =>
      obtain ⟨n, others, rfl⟩ := hty.exists_record
      have hmoved : List.Forall₂ (fun entry entry' => entry.key = entry'.key ∧
          entry.value.AcceptedAlike w scope scope' entry'.value) moved entries' :=
        List.forall₂_iff_get.mpr ⟨hlength, fun i hi hi' => ⟨hkeys i hi hi', ih i hi hi'⟩⟩
      have hentries : ∀ key,
          Option.Rel (fun entry entry' => entry.value.AcceptedAlike w scope scope' entry'.value)
            (entryOf? entries key) (entryOf? entries' key) := by
        intro key
        rw [entryOf?_congr (horder key)]
        exact entryOf?_rel hmoved key
      constructor
      · exact dict_accepted_of_alike hty hentries
      · exact dict_accepted_of_alike hty.symm fun key =>
          rel_symm (fun _ _ => AcceptedAlike.symm) (hentries key)
  | call _ _ _ =>
    intro t t' hty
    rw [Ty.valueMismatch?, Ty.valueMismatch?]
    exact bind_eq_none_congr (hscope.callable? _) fun _ _ hsignature =>
      mismatch?_congr hty hsignature.returns
  | name ident =>
    intro t t' hty
    rw [Ty.valueMismatch?, Ty.valueMismatch?]
    exact bind_eq_none_congr (hscope ident.name) fun _ _ hvalue => mismatch?_congr hty hvalue

/-! ## Calls -/

/-- The first step to each thing that is wrong with a call: to an argument, to the result, or none
if it is their number. -/
def Signature.faultSteps (w : Widening) (scope : Scope) (signature : Signature) (args : List Expr)
    (context? : Option Ty) : List (Option Segment) :=
  (signature.faults w scope args context?).map fun fault => fault.mismatch.path.head?

theorem filterMap_zipIdx_congr {α β γ : Type} {R : α → β → Prop} {as : List α} {bs : List β}
    (h : List.Forall₂ R as bs) {f : α × Nat → Option γ} {g : β × Nat → Option γ}
    (hfg : ∀ a b i, R a b → f (a, i) = g (b, i)) (start : Nat) :
    (as.zipIdx start).filterMap f = (bs.zipIdx start).filterMap g := by
  induction h generalizing start with
  | nil => rfl
  | cons hab _ ih =>
    rw [List.zipIdx_cons, List.zipIdx_cons, List.filterMap_cons, List.filterMap_cons,
      hfg _ _ start hab, ih]

theorem map_const_congr {α β γ : Type} {a? : Option α} {b? : Option β} (h : a? = none ↔ b? = none)
    (c : γ) : a?.map (fun _ => c) = b?.map (fun _ => c) := by
  cases a? <;> cases b? <;> simp_all

theorem faultSteps_eq (w : Widening) (scope : Scope) (signature : Signature) (args : List Expr)
    (context? : Option Ty) :
    signature.faultSteps w scope args context? =
      if args.length = signature.arity then
        ((signature.params.zip args).zipIdx.filterMap fun ((param, arg), index) =>
          (param.ty.valueMismatch? w scope arg).map fun _ => some (.argument index)) ++
        (context?.bind fun context =>
          (context.mismatch? w signature.returns).map fun _ => some .result).toList
      else [none] := by
  unfold Signature.faultSteps Signature.faults
  split
  · rw [List.map_append, List.map_filterMap]
    congr 1
    · congr! 2
      rw [Option.map_map]
      rfl
    · cases context? with
      | none => rfl
      | some context =>
        cases h : context.mismatch? w signature.returns <;>
          simp [h, CallFault.mismatch, Mismatch.within]
  · rfl

/-- Calls of equivalent signatures with rearranged arguments go wrong at the same places. -/
theorem faultSteps_congr (hscope : scope.Equivalent scope') {signature signature' : Signature}
    (hsignature : signature.ty.Equivalent signature'.ty) {args args' : List Expr}
    (hargs : List.Forall₂ Expr.Rearranged args args') {context? context'? : Option Ty}
    (hcontext : Option.Rel Ty.Equivalent context? context'?) :
    signature.faultSteps w scope args context? =
      signature'.faultSteps w scope' args' context'? := by
  obtain ⟨params, returns⟩ := signature
  obtain ⟨params', returns'⟩ := signature'
  cases hsignature with
  | callable harity hparams hreturns =>
    have hslots : List.Forall₂ (fun slot slot' : Param Ty × Expr =>
        slot.1.ty.Equivalent slot'.1.ty ∧ slot.2.Rearranged slot'.2)
        (params.zip args) (params'.zip args') := by
      refine List.forall₂_iff_get.mpr ⟨?_, fun i hi hi' => ?_⟩
      · rw [List.length_zip, List.length_zip, harity, hargs.length_eq]
      · have hi := List.lt_length_left_of_zip hi
        simp only [List.get_eq_getElem, List.getElem_zip]
        exact ⟨hparams i _ _, (List.forall₂_iff_get.mp hargs).2 i _ _⟩
    rw [faultSteps_eq, faultSteps_eq, Signature.arity, Signature.arity, ← hargs.length_eq, ← harity]
    congr 2
    · exact filterMap_zipIdx_congr hslots (fun slot slot' index hslot =>
        map_const_congr (hslot.2.acceptedAlike hscope _ _ hslot.1) _) 0
    · cases hcontext with
      | none => rfl
      | some hty => exact congrArg Option.toList (map_const_congr (mismatch?_congr hty hreturns) _)

/-- What is accepted does not depend on the order of fields, nor on the order of entries with
different keys, nor on the names of records and parameters. -/
theorem verdicts_congr (w : Widening) {scope scope' : Scope} (hscope : scope.Equivalent scope') :
    (∀ t t' u u' : Ty, t.Equivalent t' → u.Equivalent u' →
      (t.mismatch? w u = none ↔ t'.mismatch? w u' = none)) ∧
    (∀ (t t' : Ty) (e e' : Expr), t.Equivalent t' → e.Rearranged e' →
      (t.valueMismatch? w scope e = none ↔ t'.valueMismatch? w scope' e' = none)) ∧
    ∀ (signature signature' : Signature) (args args' : List Expr) (context? context'? : Option Ty),
      signature.ty.Equivalent signature'.ty → List.Forall₂ Expr.Rearranged args args' →
      Option.Rel Ty.Equivalent context? context'? →
      signature.faultSteps w scope args context? =
        signature'.faultSteps w scope' args' context'? := by
  refine ⟨fun t t' u u' ht hu => mismatch?_congr ht hu, fun t t' e e' ht he => ?_, ?_⟩
  · exact he.acceptedAlike hscope t t' ht
  · intro signature signature' args args' context? context'? hsignature hargs hcontext
    exact faultSteps_congr hscope hsignature hargs hcontext

/-- A point, with the coordinates in the given order. -/
def point (axes : List String) : Ty :=
  uniform none (.scalar .float) axes

theorem equivalent_point : (point ["x", "y"]).Equivalent (point ["y", "x"]) :=
  equivalent_uniform (.scalar _) (by decide) (.swap _ _ _) _ _

/-- Two entries with different keys may change places. -/
theorem Expr.Rearranged.exchange {first second first' second' : Entry Expr}
    {rest : List (Entry Expr)} (hdifferent : first.key ≠ second.key)
    (hkey : first.key = first'.key) (hkey' : second.key = second'.key)
    (h : first.value.Rearranged first'.value) (h' : second.value.Rearranged second'.value)
    (hrest : ∀ entry ∈ rest, entry.value.Rearranged entry.value) (span : Span) :
    (Expr.dict (first :: second :: rest) span).Rearranged
      (.dict (second' :: first' :: rest) span) := by
  apply Rearranged.dict (.swap _ _ _)
  · intro key
    by_cases hfirst : first.key = key
    · have hsecond : second.key ≠ key := hfirst ▸ hdifferent.symm
      simp [hfirst, hsecond]
    · simp [List.filter_cons, hfirst]
  · rfl
  · intro i hi hi'
    match i with
    | 0 => exact hkey'
    | 1 => exact hkey
    | i + 2 => rfl
  · intro i hi hi'
    match i with
    | 0 => exact h'
    | 1 => exact h
    | i + 2 => exact hrest _ (List.getElem_mem _)

/-- A walk from one point to another one. -/
def walkTy (name : Option String) (ends : List String) : Ty :=
  uniform name (point ["x", "y"]) ends

theorem equivalent_walkTy :
    (walkTy (some "Walk") ["start", "end"]).Equivalent (walkTy none ["end", "start"]) := by
  have hpoint : (point ["x", "y"]).Equivalent (point ["x", "y"]) :=
    equivalent_uniform (.scalar _) (by decide) (.refl _) _ _
  exact equivalent_uniform hpoint (by decide) (.swap _ _ _) _ _

/-- A callable that gives the length of a walk. -/
def lengthOfWalk (walk : Ty) : Signature :=
  ⟨[⟨"walk", walk⟩], .scalar .float⟩

/-- A scope with a variable `here` that is a point. -/
def scopeOfHere (axes : List String) : Scope :=
  Scope.empty.bind "here" (.typed (point axes))

theorem equivalent_scopeOfHere :
    (scopeOfHere ["x", "y"]).Equivalent (scopeOfHere ["y", "x"]) := by
  intro name
  by_cases h : "here" = name
  · simp [scopeOfHere, Scope.valueType?, Scope.local?_bind, h, Binding.ty?, equivalent_point]
  · simp [scopeOfHere, Scope.valueType?, Scope.local?_bind, h]

/-- The entry of a walk from here. -/
def fromHere : Entry Expr :=
  ⟨"start", .name ⟨"here", ⟨0, 1⟩⟩, ⟨0, 1⟩⟩

/-- The entry of a walk to a point that has two coordinates and then another `x`. -/
def toPoint (first second : Entry Expr) (x : Scalar) : Entry Expr :=
  ⟨"end", .dict [first, second, scalarEntry "x" x] ⟨0, 1⟩, ⟨0, 1⟩⟩

/-- A walk, and the same walk with its entries and those inside it in another order. -/
def walk (x : Scalar) : Expr :=
  .dict [fromHere, toPoint (scalarEntry "x" .str) (scalarEntry "y" .float) x] ⟨0, 1⟩

@[inherit_doc walk]
def walkBackwards (x : Scalar) : Expr :=
  .dict [toPoint (scalarEntry "y" .float) (scalarEntry "x" .str) x, fromHere] ⟨0, 1⟩

theorem rearranged_walk (x : Scalar) : (walk x).Rearranged (walkBackwards x) := by
  apply Expr.Rearranged.exchange
  · simp [fromHere, toPoint]
  · rfl
  · rfl
  · exact .name _
  · apply Expr.Rearranged.exchange
    · decide
    · rfl
    · rfl
    · exact .scalar _ _
    · exact .scalar _ _
    · exact List.forall_mem_singleton.mpr (.scalar _ _)
  · exact List.forall_mem_nil _

/-- The last `x` of the point decides, and with it the other expression is accepted or refused
where it is. -/
theorem verdicts_congr_walk :
    (scopeOfHere ["x", "y"]).Equivalent (scopeOfHere ["y", "x"]) ∧
      (walkTy (some "Walk") ["start", "end"]).Equivalent (walkTy none ["end", "start"]) ∧
      (∀ x, (walk x).Rearranged (walkBackwards x)) ∧
      (walkTy none ["end", "start"]).valueMismatch? .empty (scopeOfHere ["y", "x"])
        (walkBackwards .float) = none ∧
      (lengthOfWalk (walkTy none ["end", "start"])).faultSteps .empty (scopeOfHere ["y", "x"])
        [walkBackwards .bool] none = [some (.argument 0)] := by
  obtain ⟨_, hvalues, hcalls⟩ := verdicts_congr .empty equivalent_scopeOfHere
  have haccepted : (walkTy (some "Walk") ["start", "end"]).valueMismatch? .empty
      (scopeOfHere ["x", "y"]) (walk .float) = none := by
    decide +kernel
  have hrefused : (lengthOfWalk (walkTy (some "Walk") ["start", "end"])).faultSteps .empty
      (scopeOfHere ["x", "y"]) [walk .bool] none = [some (.argument 0)] := by
    decide +kernel
  have hsignature : (lengthOfWalk (walkTy (some "Walk") ["start", "end"])).ty.Equivalent
      (lengthOfWalk (walkTy none ["end", "start"])).ty := by
    refine .callable rfl (fun i hi _ => ?_) (.scalar _)
    match i with
    | 0 => exact equivalent_walkTy
  refine ⟨equivalent_scopeOfHere, equivalent_walkTy, rearranged_walk, ?_, ?_⟩
  · exact (hvalues _ _ _ _ equivalent_walkTy (rearranged_walk .float)).mp haccepted
  · rw [← hrefused]
    exact (hcalls _ _ _ _ _ _ hsignature (.cons (rearranged_walk .bool) .nil) .none).symm

end Conform
