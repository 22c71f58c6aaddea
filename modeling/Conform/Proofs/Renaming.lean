import Conform.Proofs.Bodies
import Conform.Proofs.Mentions

/-!
# Local variables under other names

A function that assigns to a name before it uses it has a local variable of that name, and what is
found in the function should not depend on the name. It does in one case: a first assignment without
an annotation keeps the type that the name has outside of the function, so its value, and all that
is assigned later, is held against the type of a global (`check_shadowing`). With an annotation, or
if the name has no type outside, another name will do as well (`check_renamed`).

One run is compared with the other by the scopes that the statements are reached in. They are the
same but for the variable, which has a type under the new name only if it has that type under the
old one (`Scope.Renamed`). Each statement keeps them so (`Scope.Renamed.leaves`), and nothing is
found under the new name where nothing is found under the old one. The other direction is the same
fact about the renamed function, in which the new name is replaced by the old one.
-/

namespace Conform

variable {w : Widening} {g : Globals}

/-! ## A name in the place of another one -/

/-- The renaming of one name. -/
def replacing (x y : String) (name : String) : String :=
  if name = x then y else name

theorem replacing_self (x y : String) : replacing x y x = y := if_pos rfl

theorem replacing_of_ne {x y name : String} (h : name ≠ x) : replacing x y name = name := if_neg h

theorem replacing_replacing {x y name : String} (h : name ≠ y) :
    replacing y x (replacing x y name) = name := by
  by_cases hx : name = x
  · rw [hx, replacing_self, replacing_self]
  · rw [replacing_of_ne hx, replacing_of_ne h]

/-- In one context a name may stand where in another one a name stands: it means something and can
be called if that does, and has no type or signature that the other one has not. -/
structure Context.Admits (Γ Γ' : Context) (name name' : String) : Prop where
  value : ∀ ty, Γ'.Value name' ty → Γ.Value name ty
  callable : ∀ signature, Γ'.Callable name' signature → Γ.Callable name signature
  bound : Γ.Bound name → Γ'.Bound name'
  callee : Γ.Callee name → Γ'.Callee name'

section Expressions

variable {Γ Γ' : Context} {f : String → String}

/-- The entries that count are the same. -/
theorem counts_map_rename_iff {entries : List (Entry Expr)} {key : String} {entry' : Entry Expr} :
    Counts (entries.map (Entry.rename f)) key entry' ↔
      ∃ entry, Counts entries key entry ∧ entry' = entry.rename f := by
  simp only [← entryOf?_eq_some_iff, entryOf?, ← List.map_reverse, List.find?_map,
    Option.map_eq_some_iff, eq_comm (a := entry')]
  rfl

/-- What conforms still does with names that may stand in the places of its own. -/
theorem Conforms.rename {e : Expr} (hadmits : ∀ n, e.Mentions n → Γ.Admits Γ' n (f n))
    {expected : Ty} (h : Conforms w Γ expected e) : Conforms w Γ' expected (e.rename f) := by
  induction e using Expr.induct generalizing expected with
  | scalar kind span =>
    rw [Expr.rename]
    cases h with
    | scalar hpermits => exact .scalar hpermits
  | dict entries span ih =>
    rw [Expr.rename, Expr.renameEntries_eq_map]
    cases h with
    | dict hrequired hvalues hextra =>
      refine .dict (fun field hfield hreq => ?_) (fun field hfield entry' hcounts => ?_)
        fun entry' hentry' => ?_
      · obtain ⟨entry, hentry, hkey⟩ := hrequired field hfield hreq
        exact ⟨entry.rename f, List.mem_map_of_mem hentry, hkey⟩
      · obtain ⟨entry, hcounts', rfl⟩ := counts_map_rename_iff.mp hcounts
        have hentry := hcounts'.mem.1
        exact ih entry hentry
          (fun n hn => hadmits n (Expr.mentions_dict_iff.mpr ⟨entry, hentry, hn⟩))
          (hvalues field hfield entry hcounts')
      · obtain ⟨entry, hentry, rfl⟩ := List.mem_map.mp hentry'
        exact hextra entry hentry
  | call callee args span _ =>
    rw [Expr.rename]
    have hcallee := hadmits callee.name (Expr.mentions_call_iff.mpr (Or.inl rfl))
    cases h with
    | call hresult => exact .call fun signature hsig => hresult signature (hcallee.callable _ hsig)
  | name ident =>
    rw [Expr.rename]
    have hname := hadmits ident.name (Expr.mentions_name_iff.mpr rfl)
    cases h with
    | name hvalue => exact .name fun ty hty => hvalue ty (hname.value ty hty)

theorem Expr.WellUsed.rename {e : Expr} (hadmits : ∀ n, e.Mentions n → Γ.Admits Γ' n (f n))
    (h : e.WellUsed w Γ) : (e.rename f).WellUsed w Γ' := by
  induction e using Expr.induct with
  | scalar kind span =>
    rw [Expr.rename]
    exact wellUsed_scalar kind span
  | dict entries span ih =>
    rw [Expr.rename, renameEntries_eq_map]
    rw [wellUsed_dict_iff] at h ⊢
    intro entry' hentry'
    obtain ⟨entry, hentry, rfl⟩ := List.mem_map.mp hentry'
    exact ih entry hentry
      (fun n hn => hadmits n (mentions_dict_iff.mpr ⟨entry, hentry, hn⟩)) (h entry hentry)
  | call callee args span ih =>
    rw [Expr.rename, renameAll_eq_map]
    rw [wellUsed_call_iff] at h ⊢
    obtain ⟨hcallee, harguments, hargs⟩ := h
    have hname := hadmits callee.name (mentions_call_iff.mpr (Or.inl rfl))
    have harg : ∀ arg ∈ args, ∀ n, arg.Mentions n → Γ.Admits Γ' n (f n) := fun arg hmem n hn =>
      hadmits n (mentions_call_iff.mpr (Or.inr ⟨arg, hmem, hn⟩))
    refine ⟨hname.callee hcallee, fun signature hsig => ?_, fun arg' harg' => ?_⟩
    · rw [List.forall₂_map_right_iff]
      have hall := harguments signature (hname.callable signature hsig)
      rw [List.forall₂_iff_get] at hall ⊢
      refine ⟨hall.1, fun i hi hi' => ?_⟩
      exact (hall.2 i hi hi').rename (harg _ (List.get_mem _ _))
    · obtain ⟨arg, hmem, rfl⟩ := List.mem_map.mp harg'
      exact ih arg hmem (harg arg hmem) (hargs arg hmem)
  | name ident =>
    rw [Expr.rename]
    rw [wellUsed_name_iff] at h ⊢
    exact (hadmits ident.name (mentions_name_iff.mpr rfl)).bound h

end Expressions

/-! ## Scopes that differ in a local variable -/

/-- A binding says what another one says of a variable, or nothing. -/
def Binding.Loosens (binding' binding : Binding) : Prop :=
  binding' = binding ∨ binding' = .untyped

theorem Binding.rel_loosens_refl (binding? : Option Binding) :
    Option.Rel Binding.Loosens binding? binding? := by
  cases binding? with
  | none => exact .none
  | some binding => exact .some (Or.inl rfl)

/-- What has a type although less may be known has it where more is. -/
theorem Binding.eq_typed_of_rel {binding'? binding? : Option Binding}
    (hrel : Option.Rel Binding.Loosens binding'? binding?) {ty : Ty}
    (hty : binding'? = some (.typed ty)) : binding? = some (.typed ty) := by
  subst hty
  cases hrel with
  | some hloose =>
    rcases hloose with heq | huntyped
    · exact congrArg some heq.symm
    · exact Binding.noConfusion huntyped

/-- A name may stand for another one if it is a variable where that is one, of which no more is
known, and means what the other one means where that is no variable. -/
theorem Scope.admits_of_loosens {s s' : Scope} {name name' : String}
    (hlocal : Option.Rel Binding.Loosens (s'.local? name') (s.local? name))
    (hfunction : s.local? name = none → s'.function? name' = s.function? name)
    (hrecord : s.local? name = none → s'.record? name' = s.record? name)
    (hpoisoned : s.local? name = none → s'.isPoisoned name' = s.isPoisoned name) :
    s.context.Admits s'.context name name' := by
  have htyped : ∀ ty, s'.local? name' = some (.typed ty) → s.local? name = some (.typed ty) :=
    fun _ hty => Binding.eq_typed_of_rel hlocal hty
  have hbound : s.context.Bound name → s'.context.Bound name' := by
    intro hmeans
    cases hname : s.local? name with
    | some binding =>
      rw [hname] at hlocal
      generalize hname' : s'.local? name' = binding'? at hlocal
      cases hlocal with
      | some _ => exact Or.inl ⟨_, hname'⟩
    | none =>
      rcases hmeans with ⟨binding, hbinding⟩ | hdeclared
      · exact absurd (hname.symm.trans hbinding) (by simp)
      · refine Or.inr ?_
        show ((s'.function? name').isSome || (s'.record? name').isSome ||
          s'.isPoisoned name') = true
        rw [hfunction hname, hrecord hname, hpoisoned hname]
        exact hdeclared
  -- Where the new name is no variable, neither is the old one, and both are the same function.
  have hfree : (∀ binding, ¬ s'.context.Variable name' binding) → s.local? name = none := by
    intro hno
    have hname' : s'.local? name' = none := Option.eq_none_iff_forall_ne_some.mpr hno
    rw [hname'] at hlocal
    generalize s.local? name = binding? at hlocal ⊢
    cases hlocal
    rfl
  have hsame : s.local? name = none → (∀ binding, ¬ s.context.Variable name binding) ∧
      ∀ signature, s'.context.Function name' signature → s.context.Function name signature := by
    intro hname
    refine ⟨Option.eq_none_iff_forall_ne_some.mp hname, fun signature hsig => ?_⟩
    show (s.function? name).map Declared.value = some signature
    rw [← hfunction hname]
    exact hsig
  refine ⟨fun ty hty => ?_, fun signature hsig => ?_, hbound, fun hcallee => ⟨hbound hcallee.1, ?_⟩⟩
  · rcases hty with hty | ⟨hno, signature, hsig, hty⟩
    · exact Or.inl (htyped ty hty)
    · obtain ⟨hno', hfun⟩ := hsame (hfree hno)
      exact Or.inr ⟨hno', signature, hfun signature hsig, hty⟩
  · rcases hsig with ⟨ty, hty, hsig⟩ | ⟨hno, hsig⟩
    · exact Or.inl ⟨ty, htyped ty hty, hsig⟩
    · obtain ⟨hno', hfun⟩ := hsame (hfree hno)
      exact Or.inr ⟨hno', hfun signature hsig⟩
  · exact fun ty hty => hcallee.2 ty (htyped ty hty)

/-- The second scope has a local variable `y` for the local variable `x` of the first, with the same
binding or without a type, and is like the first one otherwise. -/
structure Scope.Renamed (x y : String) (s s' : Scope) : Prop where
  function? : ∀ name, s'.function? name = s.function? name
  record? : ∀ name, s'.record? name = s.record? name
  isPoisoned : ∀ name, s'.isPoisoned name = s.isPoisoned name
  others : ∀ name, name ≠ x → name ≠ y → s'.local? name = s.local? name
  target : ∃ binding binding', s.local? x = some binding ∧ s'.local? y = some binding' ∧
    binding'.Loosens binding

/-- What conforms where a type is expected is as good where none is. -/
theorem Expr.findingsIn_eq_nil_of_loose {s : Scope} {e : Expr} {binding binding' : Binding}
    (hloose : binding'.Loosens binding)
    (hnil : e.findingsIn w s binding.ty? = []) : e.findingsIn w s binding'.ty? = [] := by
  rcases hloose with rfl | rfl
  · exact hnil
  · rw [findingsIn_eq_nil_iff s.fits_context] at hnil ⊢
    exact ⟨hnil.1, fun _ hty => nomatch hty⟩

theorem Scope.renamed_bind {s : Scope} {x y : String} {binding binding' : Binding}
    (hloose : binding'.Loosens binding) :
    (s.bind x binding).Renamed x y (s.bind y binding') where
  function? _ := rfl
  record? _ := rfl
  isPoisoned _ := rfl
  others name hx hy := by simp [hx.symm, hy.symm]
  target := ⟨binding, binding', by simp, by simp, hloose⟩

namespace Scope.Renamed

variable {x y : String} {s s' : Scope} (h : s.Renamed x y s')

include h

theorem admits {name : String} (hname : name ≠ y) :
    s.context.Admits s'.context name (replacing x y name) := by
  by_cases hx : name = x
  · subst hx
    obtain ⟨binding, binding', hlocal, hlocal', hloose⟩ := h.target
    have hvariable : s.local? name ≠ none := by simp [hlocal]
    rw [replacing_self]
    refine Scope.admits_of_loosens ?_ (absurd · hvariable) (absurd · hvariable) (absurd · hvariable)
    rw [hlocal, hlocal']
    exact .some hloose
  · rw [replacing_of_ne hx]
    refine Scope.admits_of_loosens ?_ (fun _ => h.function? name) (fun _ => h.record? name)
      fun _ => h.isPoisoned name
    rw [h.others name hx hname]
    exact Binding.rel_loosens_refl _

/-! ## Statements -/

/-- An assignment to another variable binds it as before. -/
theorem bindingIn_of_ne {a : Assignment} (hx : a.target.name ≠ x) (hy : a.target.name ≠ y) :
    (a.rename (replacing x y)).bindingIn g s' = a.bindingIn g s := by
  have htarget : (a.rename (replacing x y)).target.name = a.target.name := replacing_of_ne hx
  rw [Assignment.bindingIn, Assignment.bindingIn, htarget, h.others _ hx hy]
  rfl

/-- An assignment to the variable itself binds it as before or without a type. -/
theorem bindingIn_self {a : Assignment} (hx : a.target.name = x) :
    ((a.rename (replacing x y)).bindingIn g s').Loosens (a.bindingIn g s) := by
  obtain ⟨binding, binding', hlocal, hlocal', hloose⟩ := h.target
  have htarget : (a.rename (replacing x y)).target.name = y := by
    show replacing x y a.target.name = y
    rw [hx, replacing_self]
  rw [Assignment.bindingIn, Assignment.bindingIn, htarget, hx, hlocal, hlocal']
  have hform : (a.rename (replacing x y)).form = a.form := rfl
  rw [hform]
  cases a.form with
  | some form => exact Or.inl rfl
  | none => exact hloose

theorem bindingIn {a : Assignment} (hy : a.target.name ≠ y) :
    ((a.rename (replacing x y)).bindingIn g s').Loosens (a.bindingIn g s) := by
  by_cases hx : a.target.name = x
  · exact h.bindingIn_self hx
  · exact Or.inl (h.bindingIn_of_ne hx hy)

/-- What is bound next, under the new name if it is that variable, keeps the scopes so. -/
theorem bind {name : String} (hy : name ≠ y) {binding binding' : Binding}
    (hloose : binding'.Loosens binding) (hsame : name ≠ x → binding' = binding) :
    (s.bind name binding).Renamed x y (s'.bind (replacing x y name) binding') where
  function? := h.function?
  record? := h.record?
  isPoisoned := h.isPoisoned
  others other hx hyo := by
    rw [Scope.local?_bind, Scope.local?_bind]
    by_cases hname : name = x
    · subst hname
      rw [replacing_self, if_neg hyo.symm, if_neg hx.symm, h.others other hx hyo]
    · rw [replacing_of_ne hname, hsame hname, h.others other hx hyo]
  target := by
    obtain ⟨before, before', hlocal, hlocal', hbefore⟩ := h.target
    by_cases hname : name = x
    · subst hname
      rw [replacing_self]
      exact ⟨binding, binding', by simp, by simp, hloose⟩
    · rw [replacing_of_ne hname]
      exact ⟨before, before', by simp [hname, hlocal], by simp [hy, hlocal'], hbefore⟩

variable {returns? : Option Ty}

theorem findings_eq_nil {e : Expr} (hy : ¬ e.Mentions y) (hnil : e.findings w s = []) :
    (e.rename (replacing x y)).findings w s' = [] := by
  rw [Expr.findings_eq_nil_iff s.fits_context] at hnil
  rw [Expr.findings_eq_nil_iff s'.fits_context]
  apply hnil.rename
  intro n hn
  exact h.admits fun heq => hy (heq ▸ hn)

theorem findingsIn_eq_nil {e : Expr} (hy : ¬ e.Mentions y) {expected? : Option Ty}
    (hnil : e.findingsIn w s expected? = []) :
    (e.rename (replacing x y)).findingsIn w s' expected? = [] := by
  rw [Expr.findingsIn_eq_nil_iff s.fits_context] at hnil
  rw [Expr.findingsIn_eq_nil_iff s'.fits_context]
  have hadmits : ∀ n, e.Mentions n → s.context.Admits s'.context n (replacing x y n) :=
    fun n hn => h.admits fun heq => hy (heq ▸ hn)
  exact ⟨hnil.1.rename hadmits, fun ty hty => (hnil.2 ty hty).rename hadmits⟩

/-- One statement: if nothing is found in it, nothing is found in it under the new name. -/
theorem stmt_findings_eq_nil {stmt : Stmt} (hy : ¬ stmt.Mentions y)
    (hnil : stmt.findings w g (.body returns?) s = []) :
    (stmt.rename (replacing x y)).findings w g (.body returns?) s' = [] := by
  cases stmt with
  | expr value => exact h.findings_eq_nil hy hnil
  | ret value? span =>
    cases value? with
    | none =>
      have hscalar := h.findingsIn_eq_nil (Expr.not_mentions_scalar .none span) hnil
      rw [Expr.rename] at hscalar
      exact hscalar
    | some value => exact h.findingsIn_eq_nil (fun hv => hy ⟨value, rfl, hv⟩) hnil
  | assign a =>
    obtain ⟨hunknown, hvalue⟩ := List.append_eq_nil_iff.mp hnil
    have hvalue' := h.findingsIn_eq_nil (fun hv => hy (Or.inr hv)) hvalue
    refine List.append_eq_nil_iff.mpr ⟨hunknown, ?_⟩
    exact Expr.findingsIn_eq_nil_of_loose (h.bindingIn fun heq => hy (Or.inl heq)) hvalue'

theorem leaves {stmt : Stmt} (hy : ¬ stmt.Mentions y) :
    (stmt.leaves g (.body returns?) s).Renamed x y
      ((stmt.rename (replacing x y)).leaves g (.body returns?) s') := by
  cases stmt with
  | expr value => exact h
  | ret value? span => exact h
  | assign a =>
    have htarget : a.target.name ≠ y := fun heq => hy (Or.inl heq)
    exact h.bind htarget (h.bindingIn htarget) fun hx => h.bindingIn_of_ne hx htarget

/-- Statements that follow one another, by induction: each of them keeps the scopes as they are for
the next one. -/
theorem findingsOfBody_eq_nil {stmts : List Stmt} (hy : ∀ stmt ∈ stmts, ¬ stmt.Mentions y)
    (hnil : findingsOfBody w g (.body returns?) s stmts = []) :
    findingsOfBody w g (.body returns?) s' (stmts.map (Stmt.rename (replacing x y))) = [] := by
  induction stmts generalizing s s' with
  | nil => rfl
  | cons stmt rest ih =>
    obtain ⟨hstmt, hrest⟩ := List.append_eq_nil_iff.mp hnil
    have hhead := hy stmt List.mem_cons_self
    refine List.append_eq_nil_iff.mpr ⟨h.stmt_findings_eq_nil hhead hstmt, ?_⟩
    exact ih (h.leaves hhead) (fun other hmem => hy other (List.mem_cons_of_mem _ hmem)) hrest

end Scope.Renamed

/-! ## Functions -/

/-- The new name can be exchanged for the old one again. -/
theorem FunctionDecl.renameBody_renameBody {x y : String} {decl : FunctionDecl}
    (hy : ∀ stmt ∈ decl.body, ¬ stmt.Mentions y) :
    (decl.renameBody (replacing x y)).renameBody (replacing y x) = decl := by
  have hbody : (decl.body.map (Stmt.rename (replacing x y))).map (Stmt.rename (replacing y x)) =
      decl.body := by
    rw [List.map_map]
    apply (List.map_congr_left fun stmt hstmt => ?_).trans (List.map_id decl.body)
    rw [Function.comp_apply, Stmt.rename_rename]
    exact Stmt.rename_eq_self fun n hn => replacing_replacing fun heq => hy stmt hstmt (heq ▸ hn)
  rw [renameBody, renameBody, hbody]

/-- The old name is gone. -/
theorem FunctionDecl.not_mentions_renameBody {x y : String} {decl : FunctionDecl}
    (hy : ∀ stmt ∈ decl.body, ¬ stmt.Mentions y) :
    ∀ stmt ∈ (decl.renameBody (replacing x y)).body, ¬ stmt.Mentions x := by
  intro stmt' hstmt' hmentions
  obtain ⟨stmt, hstmt, rfl⟩ := List.mem_map.mp hstmt'
  obtain ⟨n, hn, hnx⟩ := Stmt.mentions_rename_iff.mp hmentions
  by_cases hname : n = x
  · rw [hname, replacing_self] at hnx
    exact hy stmt hstmt (hnx ▸ hname ▸ hn)
  · rw [replacing_of_ne hname] at hnx
    exact hname hnx

/-- A local variable of a function: no parameter has its name, and the first statement of the body
that mentions it assigns a value to it that does not. -/
structure FunctionDecl.Introduces (decl : FunctionDecl) (x : String) (earlier : List Stmt)
    (a : Assignment) (later : List Stmt) : Prop where
  body : decl.body = earlier ++ .assign a :: later
  target : a.target.name = x
  params : ∀ param ∈ decl.params, param.name.name ≠ x
  earlier : ∀ stmt ∈ earlier, ¬ stmt.Mentions x
  value : ¬ a.value.Mentions x

/-- The scope in which a statement of a body is reached, after the ones before it. -/
def FunctionDecl.scopeAt (g : Globals) (decl : FunctionDecl) (earlier : List Stmt) : Scope :=
  scopeAfter g (.body (decl.returns.denote? g.known)) (decl.bodyScope g) earlier

/-- A name that is no parameter and not assigned yet means what it means outside of the function. -/
theorem FunctionDecl.local?_scopeAt {decl : FunctionDecl} {name : String}
    (hparams : ∀ param ∈ decl.params, param.name.name ≠ name) {earlier : List Stmt}
    (hearlier : ∀ stmt ∈ earlier, ¬ stmt.Mentions name) :
    (decl.scopeAt g earlier).local? name = g.scope.local? name := by
  have hstart : (decl.bodyScope g).local? name = g.scope.local? name :=
    read_foldl_of_ne (fun param : ParamDecl => param.name.name) _ name
      (fun scope : Scope => scope.local? name)
      (fun scope param hparam => by rw [Scope.local?_bind, if_neg hparam]) hparams _
  rw [← hstart, scopeAt]
  generalize decl.bodyScope g = start
  induction earlier generalizing start with
  | nil => rfl
  | cons stmt rest ih =>
    have hrest : ∀ other ∈ rest, ¬ other.Mentions name := fun other hmem =>
      hearlier other (List.mem_cons_of_mem _ hmem)
    rw [scopeAfter, List.foldl_cons, ← scopeAfter, ih hrest]
    cases stmt with
    | expr _ => rfl
    | ret _ _ => rfl
    | assign b =>
      have htarget : b.target.name ≠ name := fun heq =>
        hearlier (.assign b) List.mem_cons_self (Or.inl heq)
      show (start.bind b.target.name _).local? name = _
      rw [Scope.local?_bind, if_neg htarget]

/-- In a body every assignment binds its target. -/
theorem Stmt.leaves_assign {returns? : Option Ty} {s : Scope} {a : Assignment} {name : String}
    (htarget : a.target.name = name) :
    (Stmt.assign a).leaves g (.body returns?) s = s.bind name (a.bindingIn g s) := by
  rw [← htarget]
  rfl

namespace FunctionDecl.Introduces

variable {x y : String} {decl : FunctionDecl} {earlier later : List Stmt} {a : Assignment}
  (hx : decl.Introduces x earlier a later)

include hx

/-- The first assignment, under the new name. -/
theorem rename_assignment :
    a.rename (replacing x y) = { a with target := ⟨y, a.target.span⟩ } := by
  have hvalue : a.value.rename (replacing x y) = a.value :=
    Expr.rename_eq_self fun n hn => replacing_of_ne fun heq => hx.value (heq ▸ hn)
  rw [Assignment.rename, hvalue, Ident.rename, hx.target, replacing_self]

theorem target_rename : (a.rename (replacing x y)).target.name = y := by rw [hx.rename_assignment]

theorem body_rename : (decl.renameBody (replacing x y)).body =
    earlier ++ .assign (a.rename (replacing x y)) :: later.map (Stmt.rename (replacing x y)) := by
  have hearlier : earlier.map (Stmt.rename (replacing x y)) = earlier := by
    apply (List.map_congr_left fun stmt hstmt => ?_).trans (List.map_id earlier)
    exact Stmt.rename_eq_self fun n hn => replacing_of_ne fun heq =>
      hx.earlier stmt hstmt (heq ▸ hn)
  rw [renameBody, hx.body, List.map_append, hearlier]
  rfl

/-- Under the new name the function introduces that variable, in the same place. -/
theorem rename (hparams : ∀ param ∈ decl.params, param.name.name ≠ y)
    (hy : ∀ stmt ∈ decl.body, ¬ stmt.Mentions y) :
    (decl.renameBody (replacing x y)).Introduces y earlier (a.rename (replacing x y))
      (later.map (Stmt.rename (replacing x y))) where
  body := hx.body_rename
  target := hx.target_rename
  params := hparams
  earlier stmt hstmt := hy stmt (by rw [hx.body]; exact List.mem_append_left _ hstmt)
  value := by
    rw [hx.rename_assignment]
    exact fun hv => hy (.assign a) (by rw [hx.body]; simp) (Or.inr hv)

/-- If nothing is found in a function, nothing is found in it under a new name for a local variable,
as long as the variable is at first bound as before or without a type. -/
theorem findings_rename_eq_nil (hy : ∀ stmt ∈ decl.body, ¬ stmt.Mentions y)
    (hloose : ((a.rename (replacing x y)).bindingIn g (decl.scopeAt g earlier)).Loosens
      (a.bindingIn g (decl.scopeAt g earlier)))
    (hnil : decl.findings w g = []) : (decl.renameBody (replacing x y)).findings w g = [] := by
  have hbody : (decl.renameBody (replacing x y)).findings w g =
      findingsOfBody w g (.body (decl.returns.denote? g.known)) (decl.bodyScope g)
        (decl.renameBody (replacing x y)).body := rfl
  rw [hbody, hx.body_rename, findingsOfBody_append, findingsOfBody, List.append_eq_nil_iff,
    List.append_eq_nil_iff]
  rw [findings, hx.body, findingsOfBody_append, findingsOfBody, List.append_eq_nil_iff,
    List.append_eq_nil_iff] at hnil
  obtain ⟨hearlier, hassign, hlater⟩ := hnil
  refine ⟨hearlier, ?_, ?_⟩
  · obtain ⟨hunknown, hvalue⟩ := List.append_eq_nil_iff.mp hassign
    refine List.append_eq_nil_iff.mpr ⟨hunknown, ?_⟩
    have hsame : (a.rename (replacing x y)).value = a.value := by rw [hx.rename_assignment]
    rw [hsame]
    exact Expr.findingsIn_eq_nil_of_loose hloose hvalue
  · rw [Stmt.leaves_assign hx.target] at hlater
    rw [Stmt.leaves_assign hx.target_rename]
    refine (Scope.renamed_bind hloose).findingsOfBody_eq_nil (fun stmt hstmt => ?_) hlater
    exact hy stmt (by rw [hx.body]; simp [hstmt])

/-- If nothing is found under the new name, nothing is found under the old one, as long as the
variable is at first bound as under the new name or without a type. -/
theorem findings_eq_nil_of_rename (hparams : ∀ param ∈ decl.params, param.name.name ≠ y)
    (hy : ∀ stmt ∈ decl.body, ¬ stmt.Mentions y)
    (hloose : (a.bindingIn g (decl.scopeAt g earlier)).Loosens
      ((a.rename (replacing x y)).bindingIn g (decl.scopeAt g earlier)))
    (hnil : (decl.renameBody (replacing x y)).findings w g = []) : decl.findings w g = [] := by
  have hrenamed := hx.rename hparams hy
  have hback : (a.rename (replacing x y)).rename (replacing y x) = a := by
    rw [hrenamed.rename_assignment, hx.rename_assignment, ← hx.target]
  have h := hrenamed.findings_rename_eq_nil (y := x) (FunctionDecl.not_mentions_renameBody hy)
    (by rw [hback]; exact hloose) hnil
  rwa [FunctionDecl.renameBody_renameBody hy] at h

/-- The first assignment binds the variable by its annotation or else, for want of a binding in the
function, as the name is bound outside of it. -/
theorem bindingIn_eq :
    a.bindingIn g (decl.scopeAt g earlier) =
      match a.form with
      | some _ => a.binding g.known
      | none => (g.scope.local? x).getD .untyped := by
  rw [← FunctionDecl.local?_scopeAt hx.params hx.earlier, ← hx.target]
  rfl

/-- After the first assignment the variable is bound as that has it. -/
theorem local?_scopeAt :
    (decl.scopeAt g (earlier ++ [.assign a])).local? x =
      some (a.bindingIn g (decl.scopeAt g earlier)) := by
  have hscope : decl.scopeAt g (earlier ++ [.assign a]) =
      (decl.scopeAt g earlier).bind x (a.bindingIn g (decl.scopeAt g earlier)) := by
    rw [FunctionDecl.scopeAt, scopeAfter, List.foldl_append, List.foldl_cons, List.foldl_nil,
      Stmt.leaves_assign hx.target]
    rfl
  rw [hscope, Scope.local?_bind, if_pos rfl]

section Fresh

variable (hparams : ∀ param ∈ decl.params, param.name.name ≠ y)
  (hy : ∀ stmt ∈ decl.body, ¬ stmt.Mentions y) (hfresh : g.scope.local? y = none)

include hparams hy hfresh

/-- A new name that is bound nowhere has no type but from an annotation. -/
theorem bindingIn_rename :
    (a.rename (replacing x y)).bindingIn g (decl.scopeAt g earlier) =
      match a.form with
      | some _ => a.binding g.known
      | none => .untyped := by
  have hfirst := (hx.rename hparams hy).bindingIn_eq (g := g)
  rw [hfresh] at hfirst
  exact hfirst

theorem loosens_rename :
    ((a.rename (replacing x y)).bindingIn g (decl.scopeAt g earlier)).Loosens
      (a.bindingIn g (decl.scopeAt g earlier)) := by
  rw [hx.bindingIn_rename hparams hy hfresh, hx.bindingIn_eq]
  cases a.form with
  | some form => exact Or.inl rfl
  | none => exact Or.inr rfl

/-- The other way around only a type that the old name has outside of the function is in the way,
and only if there is no annotation. -/
theorem rename_loosens
    (htype : a.form ≠ none ∨ ∀ ty, g.scope.local? x ≠ some (.typed ty)) :
    (a.bindingIn g (decl.scopeAt g earlier)).Loosens
      ((a.rename (replacing x y)).bindingIn g (decl.scopeAt g earlier)) := by
  rw [hx.bindingIn_rename hparams hy hfresh, hx.bindingIn_eq]
  cases hform : a.form with
  | some form => exact Or.inl rfl
  | none =>
    have huntyped := htype.resolve_left fun h => h hform
    apply Or.inr
    cases hlocal : g.scope.local? x with
    | none => rfl
    | some binding =>
      cases binding with
      | typed ty => exact absurd hlocal (huntyped ty)
      | untyped => rfl

end Fresh

end FunctionDecl.Introduces

/-! ## Modules -/

namespace Module

/-- A name to which nothing is assigned at the top level is no variable there. -/
theorem local?_globals_eq_none {m : Module} {name : String}
    (h : ∀ a, .assign a ∈ m.statements → a.target.name ≠ name) :
    m.globals.scope.local? name = none := by
  rw [Option.eq_none_iff_forall_ne_some]
  intro binding hbinding
  cases local?_globals_iff.mp hbinding with
  | @typed before after a ty _ hsplit hty _ =>
    exact h a (mem_assignments_iff.mp (by rw [hsplit]; simp)) hty.1
  | @untyped a _ hmem htarget _ => exact h a (mem_assignments_iff.mp hmem) htarget

/-- A module stays clean if a local variable gets a new name. Conversely it is clean under the old
name if it is under the new one, unless the first assignment has no annotation and the old name a
type outside of the function: that type is the variable's, then. -/
theorem check_renamed {m renamed : Module} {before after : List Item} {decl : FunctionDecl}
    {x y : String} {earlier later : List Stmt} {a : Assignment}
    (hitems : m.items = before ++ .function decl :: after)
    (hrenamed : renamed.items = before ++ .function (decl.renameBody (replacing x y)) :: after)
    (hx : decl.Introduces x earlier a later)
    (hparams : ∀ param ∈ decl.params, param.name.name ≠ y)
    (hy : ∀ stmt ∈ decl.body, ¬ stmt.Mentions y)
    (hglobal : ∀ b, .stmt (.assign b) ∈ m.items → b.target.name ≠ y) :
    ((check w m).isClean = true → (check w renamed).isClean = true) ∧
    (a.form ≠ none ∨ (∀ ty, (check w m).scope.local? x ≠ some (.typed ty)) →
      ((check w m).isClean = true ↔ (check w renamed).isClean = true)) ∧
    (a.form = none →
      (decl.scopeAt m.globals (earlier ++ [.assign a])).local? x =
        some (((check w m).scope.local? x).getD .untyped)) := by
  have hbare : (decl.renameBody (replacing x y)).bare = decl.bare := rfl
  have hclean := isClean_iff_of_bare_eq hitems hitems rfl (w := w)
  have hclean' := isClean_iff_of_bare_eq hitems hrenamed hbare (w := w)
  have hfresh : m.globals.scope.local? y = none :=
    local?_globals_eq_none fun b hb => hglobal b (mem_statements_iff.mp hb)
  have hforward : (check w m).isClean = true → (check w renamed).isClean = true := by
    intro h
    obtain ⟨hrest, hbody⟩ := hclean.mp h
    exact hclean'.mpr ⟨hrest,
      hx.findings_rename_eq_nil hy (hx.loosens_rename hparams hy hfresh) hbody⟩
  refine ⟨hforward, fun htype => ⟨hforward, fun h => ?_⟩, fun hform => ?_⟩
  · obtain ⟨hrest, hbody⟩ := hclean'.mp h
    exact hclean.mpr ⟨hrest, hx.findings_eq_nil_of_rename hparams hy
      (hx.rename_loosens hparams hy hfresh htype) hbody⟩
  · rw [hx.local?_scopeAt, hx.bindingIn_eq, hform]
    rfl

/-- A function that assigns a `str` to `x` and uses it, with or without an annotation. -/
def assigningStr (form : Option TyForm) : FunctionDecl :=
  ⟨⟨"f", ⟨4, 5⟩⟩, [], .named ⟨"None", ⟨5, 6⟩⟩,
    [.assign ⟨⟨"x", ⟨6, 7⟩⟩, form, .scalar .str ⟨8, 9⟩, ⟨6, 9⟩⟩,
      .expr (.name ⟨"x", ⟨10, 11⟩⟩)], ⟨4, 11⟩⟩

/-- A module with a global `x` that is an `int`, and a function. -/
def withGlobalInt (decl : FunctionDecl) : Module :=
  ⟨[.stmt (.assign ⟨⟨"x", ⟨0, 1⟩⟩, some (.named ⟨"int", ⟨1, 2⟩⟩), .scalar .int ⟨2, 3⟩, ⟨0, 3⟩⟩),
    .function decl]⟩

theorem introduces_assigningStr (form : Option TyForm) :
    (assigningStr form).Introduces "x" []
      ⟨⟨"x", ⟨6, 7⟩⟩, form, .scalar .str ⟨8, 9⟩, ⟨6, 9⟩⟩ [.expr (.name ⟨"x", ⟨10, 11⟩⟩)] where
  body := rfl
  target := rfl
  params := nofun
  earlier := nofun
  value := Expr.not_mentions_scalar .str ⟨8, 9⟩

theorem not_mentions_assigningStr (form : Option TyForm) :
    ∀ stmt ∈ (assigningStr form).body, ¬ stmt.Mentions "y" := by
  intro stmt hstmt hmentions
  have hname : "x" ≠ "y" := by decide
  rcases List.mem_pair.mp hstmt with rfl | rfl
  · rcases hmentions with heq | hvalue
    · exact hname heq
    · exact Expr.not_mentions_scalar .str ⟨8, 9⟩ hvalue
  · exact hname (Expr.mentions_name_iff.mp hmentions)

def annotatedStr : FunctionDecl :=
  assigningStr (some (.named ⟨"str", ⟨7, 8⟩⟩))

/-- With an annotation the `str` goes under either name. -/
theorem check_renamed_annotated :
    (check .empty (withGlobalInt annotatedStr)).isClean = true ∧
      (check .empty (withGlobalInt (annotatedStr.renameBody (replacing "x" "y")))).isClean =
        true := by
  have hclean : (check .empty (withGlobalInt annotatedStr)).isClean = true := by decide +kernel
  have hitems : ∀ decl, (withGlobalInt decl).items = (withGlobalInt decl).items.take 1 ++
      .function decl :: [] := fun _ => rfl
  have hglobal : ∀ b, .stmt (.assign b) ∈ (withGlobalInt annotatedStr).items →
      b.target.name ≠ "y" := by
    intro b hb
    rcases List.mem_pair.mp hb with heq | heq
    · cases heq
      decide
    · exact nomatch heq
  obtain ⟨_, hiff, _⟩ := check_renamed (w := .empty) (hitems _) (hitems _)
    (introduces_assigningStr _) nofun (not_mentions_assigningStr _) hglobal
  exact ⟨hclean, (hiff (Or.inl (Option.some_ne_none _))).mp hclean⟩

/-- Without one `x` has to be the `int` that it is outside, while `y` may be anything. -/
theorem check_shadowing :
    (assigningStr none).Introduces "x" [] ⟨⟨"x", ⟨6, 7⟩⟩, none, .scalar .str ⟨8, 9⟩, ⟨6, 9⟩⟩
        [.expr (.name ⟨"x", ⟨10, 11⟩⟩)] ∧
      (∀ stmt ∈ (assigningStr none).body, ¬ stmt.Mentions "y") ∧
      (check .empty (withGlobalInt (assigningStr none))).isClean = false ∧
      (check .empty (withGlobalInt ((assigningStr none).renameBody
        (replacing "x" "y")))).isClean = true := by
  refine ⟨introduces_assigningStr none, not_mentions_assigningStr none, ?_, ?_⟩
  · decide +kernel
  · decide +kernel

end Module

end Conform
