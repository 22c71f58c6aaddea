import Conform.Proofs.Record
import Conform.Proofs.Scope
import Mathlib.Data.Finset.Card

/-!
# Scopes as histories

A scope keeps four tables in each frame and replaces what is declared anew. Here is the same scope
with nothing replaced: for each open frame the list of all its declarations, latest first
(`History`). **The scope answers as its history says** (`scope_refines_history`): for each kind of
declaration on its own, the latest one in the innermost frame that has one. A failed declaration is
the exception, since nothing hides it, and so is a name used as a value: any variable comes before
any function, from whichever frames they are.

One step keeps scope and history in accord (`Accords.take`), frame by frame (`FrameHolds`), and so
does a run. A frame that is opened and closed again is gone without a trace
(`Balanced.run_nested`).
-/

namespace Conform

namespace Scope

/-! ## Steps -/

/-- What can be declared of a name. -/
inductive Declaration where
  | record (ty : Ty) (span : Span)
  | function (signature : Signature) (span : Span)
  /-- A declaration that failed. -/
  | failure
  | binding (binding : Binding)

namespace Declaration

def record? : Declaration → Option (Declared Ty)
  | record ty span => some ⟨ty, span⟩
  | _ => none

def function? : Declaration → Option (Declared Signature)
  | function signature span => some ⟨signature, span⟩
  | _ => none

def binding? : Declaration → Option Binding
  | binding b => some b
  | _ => none

end Declaration

/-- A step that changes a scope. -/
inductive Step where
  | declare (name : String) (declaration : Declaration)
  | push
  | pop

def declare (s : Scope) (name : String) : Declaration → Scope
  | .record ty span => s.declareRecord name ty span
  | .function signature span => s.declareFunction name signature span
  | .failure => s.poison name
  | .binding b => s.bind name b

/-- The scope after a step. The outermost frame stays open. -/
def take (s : Scope) : Step → Scope
  | .declare name declaration => s.declare name declaration
  | .push => s.push
  | .pop => s.pop?.getD s

def run (s : Scope) (steps : List Step) : Scope :=
  steps.foldl take s

theorem run_append (s : Scope) (steps rest : List Step) :
    s.run (steps ++ rest) = (s.run steps).run rest :=
  List.foldl_append

/-! ## Histories -/

/-- What has been declared in a frame, latest first. -/
abbrev Log : Type := List (String × Declaration)

/-- What has been declared in each open frame. -/
structure History where
  current : Log
  outer : List Log

namespace History

def empty : History := ⟨[], []⟩

/-- The logs of the open frames, innermost first. -/
def logs (h : History) : List Log :=
  h.current :: h.outer

def take : History → Step → History
  | ⟨current, outer⟩, .declare name declaration => ⟨(name, declaration) :: current, outer⟩
  | ⟨current, outer⟩, .push => ⟨[], current :: outer⟩
  | ⟨_, log :: outer⟩, .pop => ⟨log, outer⟩
  | ⟨current, []⟩, .pop => ⟨current, []⟩

def run (h : History) (steps : List Step) : History :=
  steps.foldl take h

variable {α : Type}

/-- The latest declaration of a kind that is made of a name in the innermost frame with one. -/
def Finds (h : History) (select : Declaration → Option α) (name : String) (value : α) : Prop :=
  ∃ inner log outer later declaration earlier,
    h.logs = inner ++ log :: outer ∧ log = later ++ (name, declaration) :: earlier ∧
      select declaration = some value ∧
      (∀ other ∈ later, other.1 = name → select other.2 = none) ∧
      ∀ closer ∈ inner, ∀ other ∈ closer, other.1 = name → select other.2 = none

/-- The names of which the current frame has a declaration of a kind. -/
def names (h : History) (select : Declaration → Option α) : List String :=
  (h.current.filter fun entry => (select entry.2).isSome).map Prod.fst

end History

/-! ## Looking up in a log -/

section Log

variable {α : Type} (select : Declaration → Option α) (name : String)

/-- The latest declaration of a kind in a log. -/
def Log.latest? (log : Log) : Option α :=
  log.findSome? fun entry => if entry.1 = name then select entry.2 else none

variable {select name}

/-- A declaration of another kind is passed over. -/
theorem Log.latest?_cons_of_none {other : String} {declaration : Declaration}
    (hselect : select declaration = none) (log : Log) :
    Log.latest? select name ((other, declaration) :: log) = Log.latest? select name log := by
  simp [latest?, hselect]

/-- A table into which the latest declaration of its kind is put holds what the log says again. -/
theorem Log.get?_insert {table : Table α} {log : Log}
    (htable : ∀ key, table.get? key = Log.latest? select key log) {declaration : Declaration}
    {value : α} (hselect : select declaration = some value) (name key : String) :
    (table.insert name value).get? key = Log.latest? select key ((name, declaration) :: log) := by
  rw [Table.get?_insert, htable, latest?, latest?, List.findSome?_cons]
  by_cases hname : name = key
  · simp [hname, hselect]
  · simp [hname]

theorem Log.latest?_eq_none_iff {log : Log} :
    Log.latest? select name log = none ↔ ∀ other ∈ log, other.1 = name → select other.2 = none := by
  simp [latest?, List.findSome?_eq_none_iff]

theorem Log.latest?_eq_some_iff {log : Log} {value : α} :
    Log.latest? select name log = some value ↔ ∃ later declaration earlier,
      log = later ++ (name, declaration) :: earlier ∧ select declaration = some value ∧
        ∀ other ∈ later, other.1 = name → select other.2 = none := by
  rw [latest?, List.findSome?_eq_some_iff]
  constructor
  · intro h
    obtain ⟨later, ⟨other, declaration⟩, earlier, hlog, hvalue, hlater⟩ := h
    split at hvalue
    · next hname =>
      refine ⟨later, declaration, earlier, hname ▸ hlog, hvalue, ?_⟩
      exact latest?_eq_none_iff.mp (List.findSome?_eq_none_iff.mpr hlater)
    · exact nomatch hvalue
  · intro h
    obtain ⟨later, declaration, earlier, hlog, hvalue, hlater⟩ := h
    refine ⟨later, (name, declaration), earlier, hlog, by rw [if_pos rfl, hvalue], ?_⟩
    exact List.findSome?_eq_none_iff.mp (latest?_eq_none_iff.mpr hlater)

theorem Log.isSome_latest?_iff {log : Log} :
    (Log.latest? select name log).isSome = true ↔
      ∃ declaration, (name, declaration) ∈ log ∧ (select declaration).isSome = true := by
  simp only [latest?, List.findSome?_isSome_iff, Prod.exists]
  constructor
  · intro h
    obtain ⟨other, declaration, hmem, hvalue⟩ := h
    split at hvalue
    · next hname => exact ⟨declaration, hname ▸ hmem, hvalue⟩
    · exact nomatch hvalue
  · intro h
    obtain ⟨declaration, hmem, hvalue⟩ := h
    exact ⟨name, declaration, hmem, by rwa [if_pos rfl]⟩

/-- The innermost log with a declaration of the kind decides. -/
theorem History.finds_iff {h : History} {value : α} :
    h.Finds select name value ↔ h.logs.findSome? (Log.latest? select name) = some value := by
  rw [List.findSome?_eq_some_iff]
  simp only [Log.latest?_eq_some_iff, Log.latest?_eq_none_iff]
  constructor
  · intro h
    obtain ⟨inner, log, outer, later, declaration, earlier, hlogs, hlog, hvalue, hlater,
      hinner⟩ := h
    exact ⟨inner, log, outer, hlogs, ⟨later, declaration, earlier, hlog, hvalue, hlater⟩, hinner⟩
  · intro h
    obtain ⟨inner, log, outer, hlogs, hlatest, hinner⟩ := h
    obtain ⟨later, declaration, earlier, hlog, hvalue, hlater⟩ := hlatest
    exact ⟨inner, log, outer, later, declaration, earlier, hlogs, hlog, hvalue, hlater, hinner⟩

end Log

/-! ## Scope and history in accord -/

/-- The tables of a frame hold what its log says. -/
structure FrameHolds (frame : Frame) (log : Log) : Prop where
  record : ∀ name, frame.records.get? name = Log.latest? Declaration.record? name log
  function : ∀ name, frame.functions.get? name = Log.latest? Declaration.function? name log
  binding : ∀ name, frame.locals.get? name = Log.latest? Declaration.binding? name log
  failure : ∀ name, name ∈ frame.poisoned ↔ (name, Declaration.failure) ∈ log

theorem frameHolds_empty : FrameHolds Frame.empty [] :=
  ⟨fun _ => rfl, fun _ => rfl, fun _ => rfl, fun _ => by simp [Frame.empty]⟩

/-- Every frame of a scope holds what its log says. -/
structure Accords (s : Scope) (h : History) : Prop where
  current : FrameHolds s.current h.current
  outer : List.Forall₂ FrameHolds s.outer h.outer

theorem accords_empty : Accords empty History.empty :=
  ⟨frameHolds_empty, .nil⟩

namespace Accords

variable {s : Scope} {h : History}

theorem frames (hacc : Accords s h) : List.Forall₂ FrameHolds s.frames h.logs :=
  .cons hacc.current hacc.outer

/-- A declaration adds to one table of the current frame and leaves the others as they are. -/
theorem declare (hacc : Accords s h) (name : String) (declaration : Declaration) :
    Accords (s.declare name declaration) (h.take (.declare name declaration)) := by
  obtain ⟨⟨hrecord, hfunction, hbinding, hfailure⟩, houter⟩ := hacc
  have hother : ∀ {α : Type} {select : Declaration → Option α} {table : Table α},
      (∀ key, table.get? key = Log.latest? select key h.current) → select declaration = none →
        ∀ key, table.get? key = Log.latest? select key ((name, declaration) :: h.current) :=
    fun htable hselect key => (htable key).trans (Log.latest?_cons_of_none hselect _).symm
  have hkept : declaration ≠ .failure → ∀ key, key ∈ s.current.poisoned ↔
      (key, .failure) ∈ (name, declaration) :: h.current := by
    intro hne key
    rw [hfailure, List.mem_cons, or_iff_right]
    exact fun heq => hne (Prod.mk.inj heq).2.symm
  cases declaration with
  | record ty span =>
    exact ⟨⟨Log.get?_insert hrecord rfl name, hother hfunction rfl, hother hbinding rfl,
      hkept Declaration.noConfusion⟩, houter⟩
  | function signature span =>
    exact ⟨⟨hother hrecord rfl, Log.get?_insert hfunction rfl name, hother hbinding rfl,
      hkept Declaration.noConfusion⟩, houter⟩
  | binding b =>
    exact ⟨⟨hother hrecord rfl, hother hfunction rfl, Log.get?_insert hbinding rfl name,
      hkept Declaration.noConfusion⟩, houter⟩
  | failure =>
    refine ⟨⟨hother hrecord rfl, hother hfunction rfl, hother hbinding rfl, fun key => ?_⟩, houter⟩
    simp [Scope.declare, poison, History.take, hfailure]

/-- One step. -/
theorem take (hacc : Accords s h) (step : Step) : Accords (s.take step) (h.take step) := by
  cases step with
  | declare name declaration => exact hacc.declare name declaration
  | push => exact ⟨frameHolds_empty, hacc.frames⟩
  | pop =>
    obtain ⟨current, outer⟩ := s
    obtain ⟨log, logs⟩ := h
    obtain ⟨hcurrent, houter⟩ := hacc
    cases houter with
    | nil => exact ⟨hcurrent, .nil⟩
    | cons hframe houter => exact ⟨hframe, houter⟩

/-- A run. -/
theorem run (hacc : Accords s h) (steps : List Step) : Accords (s.run steps) (h.run steps) := by
  induction steps generalizing s h with
  | nil => exact hacc
  | cons step rest ih => exact ih (hacc.take step)

end Accords

/-! ## Lookups -/

theorem findSome?_eq_of_forall₂ {α β γ : Type} {R : α → β → Prop} {read : α → Option γ}
    {spec : β → Option γ} (hread : ∀ a b, R a b → read a = spec b) {as : List α} {bs : List β}
    (h : List.Forall₂ R as bs) : as.findSome? read = bs.findSome? spec := by
  induction h with
  | nil => rfl
  | cons hab _ ih => rw [List.findSome?_cons, List.findSome?_cons, hread _ _ hab, ih]

namespace Accords

variable {s : Scope} {h : History} {name : String}

theorem record?_iff (hacc : Accords s h) {entry : Declared Ty} :
    s.record? name = some entry ↔ h.Finds Declaration.record? name entry := by
  rw [History.finds_iff, record?,
    findSome?_eq_of_forall₂ (fun _ _ hframe => hframe.record name) hacc.frames]

theorem function?_iff (hacc : Accords s h) {entry : Declared Signature} :
    s.function? name = some entry ↔ h.Finds Declaration.function? name entry := by
  rw [History.finds_iff, function?,
    findSome?_eq_of_forall₂ (fun _ _ hframe => hframe.function name) hacc.frames]

theorem local?_iff (hacc : Accords s h) {binding : Binding} :
    s.local? name = some binding ↔ h.Finds Declaration.binding? name binding := by
  rw [History.finds_iff, local?,
    findSome?_eq_of_forall₂ (fun _ _ hframe => hframe.binding name) hacc.frames]

/-- A failed declaration is never hidden. -/
theorem isPoisoned_iff (hacc : Accords s h) :
    s.isPoisoned name = true ↔ ∃ log ∈ h.logs, (name, Declaration.failure) ∈ log := by
  rw [isPoisoned, List.any_eq_true]
  simp only [List.contains_iff_mem]
  constructor
  · intro hany
    obtain ⟨frame, hmem, hname⟩ := hany
    obtain ⟨log, hlog, hframe⟩ := exists_of_forall₂ hacc.frames hmem
    exact ⟨log, hlog, (hframe.failure name).mp hname⟩
  · intro hex
    obtain ⟨log, hlog, hname⟩ := hex
    obtain ⟨frame, hmem, hframe⟩ := exists_of_forall₂ hacc.frames.flip hlog
    exact ⟨frame, hmem, (hframe.failure name).mpr hname⟩

end Accords

/-! ## Derived lookups -/

theorem ty_inj {signature other : Signature} : signature.ty = other.ty ↔ signature = other := by
  cases signature
  cases other
  simp [Signature.ty]

theorem signature?_eq_some_iff {ty : Ty} {signature : Signature} :
    ty.signature? = some signature ↔ ty = signature.ty := by
  cases ty with
  | callable params returns => exact Option.some_inj.trans (@ty_inj ⟨params, returns⟩ _).symm
  | scalar _ => simp [Ty.signature?, Signature.ty]
  | record _ _ => simp [Ty.signature?, Signature.ty]

/-- A name is called as what its value is. -/
theorem callable?_eq_some_iff {s : Scope} {name : String} {signature : Signature} :
    s.callable? name = some signature ↔ s.valueType? name = some signature.ty := by
  unfold callable? valueType?
  cases s.local? name with
  | none => simp [Option.map_eq_some_iff, ty_inj]
  | some binding =>
    cases binding with
    | untyped => simp [Binding.ty?]
    | typed ty => simp [Binding.ty?, signature?_eq_some_iff]

theorem isBound_iff_found {s : Scope} {name : String} :
    s.isBound name = true ↔ (s.local? name).isSome = true ∨ (s.function? name).isSome = true ∨
      (s.record? name).isSome = true ∨ s.isPoisoned name = true := by
  simp [isBound, or_assoc]

/-- Some declaration of a kind is found of a name exactly if one is made in an open frame. -/
theorem History.exists_finds_iff {α : Type} {h : History} {select : Declaration → Option α}
    {name : String} :
    (∃ value, h.Finds select name value) ↔ ∃ log ∈ h.logs, ∃ declaration,
      (name, declaration) ∈ log ∧ (select declaration).isSome = true := by
  simp only [finds_iff, ← Option.isSome_iff_exists, List.findSome?_isSome_iff,
    Log.isSome_latest?_iff]

namespace Accords

variable {s : Scope} {h : History} {name : String}

/-- A name used as a value is a variable of any open frame, and else a function. -/
theorem valueType?_iff (hacc : Accords s h) {ty : Ty} :
    s.valueType? name = some ty ↔ h.Finds Declaration.binding? name (.typed ty) ∨
      (∀ binding, ¬ h.Finds Declaration.binding? name binding) ∧
        ∃ entry, h.Finds Declaration.function? name entry ∧ entry.value.ty = ty := by
  simp only [← hacc.local?_iff, ← hacc.function?_iff]
  unfold valueType?
  cases s.local? name with
  | none => simp [Option.map_eq_some_iff]
  | some binding => cases binding <;> simp [Binding.ty?]

theorem callable?_iff (hacc : Accords s h) {signature : Signature} :
    s.callable? name = some signature ↔
      h.Finds Declaration.binding? name (.typed signature.ty) ∨
        (∀ binding, ¬ h.Finds Declaration.binding? name binding) ∧
          ∃ entry, h.Finds Declaration.function? name entry ∧ entry.value = signature := by
  simp only [callable?_eq_some_iff, hacc.valueType?_iff, ty_inj]

/-- A name is bound exactly if anything is declared of it in an open frame. -/
theorem isBound_iff (hacc : Accords s h) :
    s.isBound name = true ↔ ∃ log ∈ h.logs, ∃ declaration, (name, declaration) ∈ log := by
  simp only [isBound_iff_found, Option.isSome_iff_exists, hacc.local?_iff, hacc.function?_iff,
    hacc.record?_iff, hacc.isPoisoned_iff, History.exists_finds_iff]
  constructor
  · intro hfound
    rcases hfound with hfound | hfound | hfound | hfound
    · obtain ⟨log, hlog, declaration, hmem, _⟩ := hfound
      exact ⟨log, hlog, declaration, hmem⟩
    · obtain ⟨log, hlog, declaration, hmem, _⟩ := hfound
      exact ⟨log, hlog, declaration, hmem⟩
    · obtain ⟨log, hlog, declaration, hmem, _⟩ := hfound
      exact ⟨log, hlog, declaration, hmem⟩
    · obtain ⟨log, hlog, hmem⟩ := hfound
      exact ⟨log, hlog, _, hmem⟩
  · intro hdeclared
    obtain ⟨log, hlog, declaration, hmem⟩ := hdeclared
    cases declaration with
    | binding b => exact Or.inl ⟨log, hlog, _, hmem, _, rfl⟩
    | function signature span => exact Or.inr (Or.inl ⟨log, hlog, _, hmem, _, rfl⟩)
    | record ty span => exact Or.inr (Or.inr (Or.inl ⟨log, hlog, _, hmem, _, rfl⟩))
    | failure => exact Or.inr (Or.inr (Or.inr ⟨log, hlog, hmem⟩))

end Accords

/-! ## Counts -/

/-- The size of a table is the number of its names, however often they are listed. -/
theorem size_eq_card {α : Type} {table : Table α} {names : List String}
    (h : ∀ name, (table.get? name).isSome = true ↔ name ∈ names) :
    table.size = names.toFinset.card := by
  have hsame : (table.entries.map Prod.fst).toFinset = names.toFinset := by
    ext name
    rw [List.mem_toFinset, List.mem_toFinset, ← Table.get?_isSome_iff, h]
  rw [← hsame, List.toFinset_card_of_nodup table.nodup, List.length_map, Table.size]

theorem History.mem_names_iff {α : Type} {h : History} {select : Declaration → Option α}
    {name : String} :
    name ∈ h.names select ↔ (Log.latest? select name h.current).isSome = true := by
  rw [Log.isSome_latest?_iff, names, List.mem_map]
  simp [List.mem_filter]

theorem Accords.recordCount_eq {s : Scope} {h : History} (hacc : Accords s h) :
    s.recordCount = (h.names Declaration.record?).toFinset.card :=
  size_eq_card fun name => by rw [hacc.current.record, History.mem_names_iff]

theorem Accords.functionCount_eq {s : Scope} {h : History} (hacc : Accords s h) :
    s.functionCount = (h.names Declaration.function?).toFinset.card :=
  size_eq_card fun name => by rw [hacc.current.function, History.mem_names_iff]

/-! ## Nested frames -/

/-- Steps that close every frame that they open, and no other. -/
inductive Balanced : List Step → Prop
  | nil : Balanced []
  | declare {name : String} {declaration : Declaration} {rest : List Step} (h : Balanced rest) :
      Balanced (.declare name declaration :: rest)
  | nested {inner rest : List Step} (hinner : Balanced inner) (hrest : Balanced rest) :
      Balanced (.push :: inner ++ .pop :: rest)

/-- To close a frame leads back to the scope around it, whatever became of the frame. -/
theorem take_pop_of_outer {s inner : Scope} (h : inner.outer = s.frames) : inner.take .pop = s := by
  rw [take, pop?, h]
  rfl

/-- Balanced steps leave the frames around the current one as they are. -/
theorem Balanced.outer_run {steps : List Step} (h : Balanced steps) (s : Scope) :
    (s.run steps).outer = s.outer := by
  induction h generalizing s with
  | nil => rfl
  | @declare name declaration rest _ ih =>
    refine (ih (s.declare name declaration)).trans ?_
    cases declaration <;> rfl
  | @nested inner rest _ _ ihInner ihRest =>
    have hpop : (s.push.run inner).take .pop = s := take_pop_of_outer (ihInner s.push)
    rw [List.cons_append, run, List.foldl_cons, ← run, run_append, run, List.foldl_cons, ← run]
    exact (congrArg (fun scope : Scope => (scope.run rest).outer) hpop).trans (ihRest s)

/-- After a frame is opened, balanced steps are taken and the frame is closed, the scope is the one
before. -/
theorem Balanced.run_nested {body : List Step} (h : Balanced body) (s : Scope) :
    s.run (.push :: body ++ [.pop]) = s := by
  rw [run_append]
  exact take_pop_of_outer (h.outer_run s.push)

/-! ## The refinement -/

/-- A scope answers as a history says. -/
structure Refines (s : Scope) (h : History) : Prop where
  record : ∀ name entry, s.record? name = some entry ↔ h.Finds Declaration.record? name entry
  function : ∀ name entry,
    s.function? name = some entry ↔ h.Finds Declaration.function? name entry
  binding : ∀ name binding,
    s.local? name = some binding ↔ h.Finds Declaration.binding? name binding
  failure : ∀ name,
    s.isPoisoned name = true ↔ ∃ log ∈ h.logs, (name, Declaration.failure) ∈ log
  value : ∀ name ty, s.valueType? name = some ty ↔
    h.Finds Declaration.binding? name (.typed ty) ∨
      (∀ binding, ¬ h.Finds Declaration.binding? name binding) ∧
        ∃ entry, h.Finds Declaration.function? name entry ∧ entry.value.ty = ty
  called : ∀ name signature, s.callable? name = some signature ↔
    h.Finds Declaration.binding? name (.typed signature.ty) ∨
      (∀ binding, ¬ h.Finds Declaration.binding? name binding) ∧
        ∃ entry, h.Finds Declaration.function? name entry ∧ entry.value = signature
  calledAsValue : ∀ name signature,
    s.callable? name = some signature ↔ s.valueType? name = some signature.ty
  bound : ∀ name, s.isBound name = true ↔ (s.local? name).isSome = true ∨
    (s.function? name).isSome = true ∨ (s.record? name).isSome = true ∨ s.isPoisoned name = true
  declared : ∀ name,
    s.isBound name = true ↔ ∃ log ∈ h.logs, ∃ declaration, (name, declaration) ∈ log
  records : s.recordCount = (h.names Declaration.record?).toFinset.card
  functions : s.functionCount = (h.names Declaration.function?).toFinset.card

theorem Accords.refines {s : Scope} {h : History} (hacc : Accords s h) : s.Refines h where
  record _ _ := hacc.record?_iff
  function _ _ := hacc.function?_iff
  binding _ _ := hacc.local?_iff
  failure _ := hacc.isPoisoned_iff
  value _ _ := hacc.valueType?_iff
  called _ _ := hacc.callable?_iff
  calledAsValue _ _ := callable?_eq_some_iff
  bound _ := isBound_iff_found
  declared _ := hacc.isBound_iff
  records := hacc.recordCount_eq
  functions := hacc.functionCount_eq

/-- After any steps the scope answers as their history says, and balanced steps in a frame of their
own change nothing. -/
theorem scope_refines_history (steps : List Step) :
    (empty.run steps).Refines (History.empty.run steps) ∧
      ∀ body, Balanced body → empty.run (steps ++ (.push :: body ++ [.pop])) = empty.run steps := by
  refine ⟨(accords_empty.run steps).refines, fun body hbody => ?_⟩
  rw [run_append]
  exact hbody.run_nested _

/-- A variable around a frame in which a function of its name is declared, and a failed declaration
that is made up for. -/
def shadowing : List Step :=
  [.declare "f" (.binding (.typed (.scalar .int))), .declare "r" .failure,
    .declare "r" (.record (.record (some "r") []) ⟨0, 1⟩), .push,
    .declare "f" (.function ⟨[], .scalar .str⟩ ⟨2, 3⟩)]

/-- A frame inside a frame, each with a declaration of its own. -/
def excursion : List Step :=
  [.declare "f" (.binding .untyped), .push, .declare "r" .failure, .pop]

/-- The variable hides the function, and nothing in the inner frames is seen once they are
closed. -/
theorem scope_refines_history_shadowing :
    Balanced excursion ∧
      empty.run (shadowing ++ (.push :: excursion ++ [.pop])) = empty.run shadowing ∧
      (empty.run shadowing).valueType? "f" = some (.scalar .int) ∧
      (empty.run shadowing).callable? "f" = none ∧
      (empty.run shadowing).isPoisoned "r" = true ∧
      (empty.run shadowing).functionCount = 1 ∧ (empty.run shadowing).recordCount = 0 := by
  have hbalanced : Balanced excursion := .declare (.nested (.declare .nil) .nil)
  have hrestored := (scope_refines_history shadowing).2 excursion hbalanced
  exact ⟨hbalanced, hrestored, rfl, rfl, rfl, rfl, rfl⟩

end Scope

end Conform
