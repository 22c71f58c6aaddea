import Conform.Proofs.Annotation
import Conform.Proofs.Definition
import Conform.Resolution
import Mathlib.Logic.Relation

/-!
# What record declarations mean

The rules for records, stated on the graph of their references and without the search that
`Conform/Resolution.lean` makes through it.

* `RecordType records name ty` — the declarations give the record its type. It is the least such
  relation: a record has a type if the records that it refers to have theirs **below** it, so a
  record on a cycle has none.
* `Resolvable records name` — on no way along the references from the record is there a cycle, a
  name of no record or a record whose flattened field names repeat. Nothing here speaks of types.

A record with a type is resolvable (`RecordType.resolvable`) and no record has two types
(`RecordType.unique`). That a resolvable record *has* a type is left to the file on the search,
which builds it.

`FlattensTo` counts field names along the bases alone. It is a relation of its own, rather than the
names of the fields of the type, because a record may repeat a name and have no type for that very
reason.
-/

namespace Conform

/-! ## Lists of options -/

theorem mapM_eq_some_iff {α β : Type} {f : α → Option β} {as : List α} {bs : List β} :
    as.mapM f = some bs ↔ List.Forall₂ (fun a b => f a = some b) as bs := by
  induction as generalizing bs with
  | nil =>
    rw [List.mapM_nil, List.forall₂_nil_left_iff]
    exact ⟨fun h => (Option.some.inj h).symm, fun h => congrArg some h.symm⟩
  | cons a as ih =>
    rw [List.mapM_cons]
    constructor
    · intro h
      obtain ⟨b, hb, h⟩ := Option.bind_eq_some_iff.mp h
      obtain ⟨bs', hbs, h⟩ := Option.bind_eq_some_iff.mp h
      cases h
      exact .cons hb (ih.mp hbs)
    · intro h
      cases h with
      | cons hb hbs =>
        rw [hb, ih.mpr hbs]
        rfl

/-- Pointwise existence gives a list. -/
theorem exists_forall₂ {α β : Type} {R : α → β → Prop} {as : List α} (h : ∀ a ∈ as, ∃ b, R a b) :
    ∃ bs, List.Forall₂ R as bs := by
  induction as with
  | nil => exact ⟨[], .nil⟩
  | cons a as ih =>
    obtain ⟨b, hb⟩ := h a List.mem_cons_self
    obtain ⟨bs, hbs⟩ := ih fun a' ha' => h a' (List.mem_cons_of_mem _ ha')
    exact ⟨b :: bs, .cons hb hbs⟩

theorem exists_of_forall₂ {α β : Type} {R : α → β → Prop} {as : List α} {bs : List β}
    (h : List.Forall₂ R as bs) {a : α} (ha : a ∈ as) : ∃ b ∈ bs, R a b := by
  induction h with
  | nil => exact absurd ha (by simp)
  | cons hab _ ih =>
    rcases List.mem_cons.mp ha with rfl | ha
    · exact ⟨_, List.mem_cons_self, hab⟩
    · obtain ⟨b, hb, hab'⟩ := ih ha
      exact ⟨b, List.mem_cons_of_mem _ hb, hab'⟩

/-- Related lists are equal if each element of the one determines its partner. -/
theorem eq_of_forall₂ {α β : Type} {R S : α → β → Prop} {as : List α} {bs cs : List β}
    (h : List.Forall₂ R as bs) (h' : List.Forall₂ S as cs)
    (huniq : ∀ a ∈ as, ∀ b c, R a b → S a c → b = c) : bs = cs := by
  induction h generalizing cs with
  | nil => cases h'; rfl
  | cons hab _ ih =>
    cases h' with
    | cons hac hrest =>
      rw [huniq _ List.mem_cons_self _ _ hab hac,
        ih hrest fun a ha => huniq a (List.mem_cons_of_mem _ ha)]

/-! ## References -/

namespace RecordDecl

/-- A record refers to the names of its bases and to those that its annotations mention. -/
def RefersTo (decl : RecordDecl) (ident : Ident) : Prop :=
  ident ∈ decl.bases ∨ ∃ field ∈ decl.fields, field.form.Mentions ident

theorem mem_references_iff {decl : RecordDecl} {ident : Ident} :
    ident ∈ decl.references ↔ decl.RefersTo ident := by
  rw [references, List.mem_append, List.mem_flatMap]
  exact or_congr Iff.rfl
    (exists_congr fun field => and_congr_right fun _ => TyForm.mem_references_iff)

end RecordDecl

/-- A record with one name refers to another name. -/
def Refers (records : List RecordDecl) (name other : String) : Prop :=
  ∃ decl ∈ records, decl.name.name = name ∧ ∃ ident, decl.RefersTo ident ∧ ident.name = other

theorem recordNamed?_eq_some_iff {records : List RecordDecl}
    (hnodup : (records.map fun decl => decl.name.name).Nodup) {name : String} {decl : RecordDecl} :
    recordNamed? records name = some decl ↔ decl ∈ records ∧ decl.name.name = name :=
  find?_key_eq_some_iff hnodup

theorem recordNamed?_eq_none_iff {records : List RecordDecl} {name : String} :
    recordNamed? records name = none ↔ ∀ decl ∈ records, decl.name.name ≠ name := by
  simp [recordNamed?, List.find?_eq_none]

theorem mem_of_recordNamed? {records : List RecordDecl} {name : String} {decl : RecordDecl}
    (h : recordNamed? records name = some decl) : decl ∈ records ∧ decl.name.name = name :=
  ⟨List.mem_of_find?_eq_some h, by simpa using List.find?_some h⟩

/-- Of records with different names, two with one name are one. -/
theorem decl_unique {records : List RecordDecl}
    (hnodup : (records.map fun decl => decl.name.name).Nodup) {decl decl' : RecordDecl}
    (h : decl ∈ records) (h' : decl' ∈ records) (hname : decl.name.name = decl'.name.name) :
    decl = decl' :=
  List.inj_on_of_nodup_map hnodup h h' hname

/-! ## Fields -/

/-- What the declaration of a field says of it, in a record that is total or not. -/
structure FieldDecl.Declares (types : String → Ty → Prop) (total : Bool) (decl : FieldDecl)
    (field : Field Ty) : Prop where
  name : field.name = decl.name.name
  required : field.required = decl.required.getD total
  denotes : decl.form.Denotes types field.ty

/-- The fields of a record are those of its bases, in their order and as they are there, and then
its own. -/
def RecordDecl.HasFields (types : String → Ty → Prop) (decl : RecordDecl)
    (fields : List (Field Ty)) : Prop :=
  ∃ inherited own, fields = inherited.flatten ++ own ∧
    List.Forall₂ (fun base fs => ∃ name, types base.name (.record name fs)) decl.bases inherited ∧
    List.Forall₂ (FieldDecl.Declares types decl.total) decl.fields own

namespace RecordDecl

variable {types types' : String → Ty → Prop} {decl : RecordDecl} {fields : List (Field Ty)}

theorem fieldTypes?_eq_some_iff {known : String → Option Ty} :
    decl.fieldTypes? known = some fields ↔
      decl.HasFields (fun name ty => known name = some ty) fields := by
  have hbase : ∀ (base : Ident) (fs : List (Field Ty)),
      (known base.name).bind Ty.fields? = some fs ↔
        ∃ name, known base.name = some (.record name fs) := by
    intro base fs
    rw [Option.bind_eq_some_iff]
    constructor
    · intro h
      obtain ⟨ty, hty, hfs⟩ := h
      cases ty with
      | record name fields => cases hfs; exact ⟨name, hty⟩
      | scalar _ => exact absurd hfs (by simp [Ty.fields?])
      | callable _ _ => exact absurd hfs (by simp [Ty.fields?])
    · intro h
      obtain ⟨name, hty⟩ := h
      exact ⟨_, hty, rfl⟩
  have hfield : ∀ (field : FieldDecl) (f : Field Ty),
      (do return (⟨field.name.name, ← field.form.denote? known,
          field.required.getD decl.total⟩ : Field Ty)) = some f ↔
        field.Declares (fun name ty => known name = some ty) decl.total f := by
    intro field f
    rw [Option.bind_eq_bind, Option.bind_eq_some_iff]
    constructor
    · intro h
      obtain ⟨ty, hty, h⟩ := h
      cases h
      exact ⟨rfl, rfl, TyForm.denote?_eq_some_iff.mp hty⟩
    · intro h
      exact ⟨f.ty, TyForm.denote?_eq_some_iff.mpr h.denotes,
        congrArg some (Field.ext h.name.symm rfl h.required.symm)⟩
  unfold fieldTypes?
  constructor
  · intro h
    obtain ⟨inherited, hinherited, h⟩ := Option.bind_eq_some_iff.mp h
    obtain ⟨own, hown, h⟩ := Option.bind_eq_some_iff.mp h
    cases h
    exact ⟨inherited, own, rfl,
      (mapM_eq_some_iff.mp hinherited).imp fun base fs => (hbase base fs).mp,
      (mapM_eq_some_iff.mp hown).imp fun field f => (hfield field f).mp⟩
  · intro h
    obtain ⟨inherited, own, rfl, hinherited, hown⟩ := h
    have hinherited' := mapM_eq_some_iff.mpr (hinherited.imp fun base fs => (hbase base fs).mpr)
    have hown' := mapM_eq_some_iff.mpr (hown.imp fun field f => (hfield field f).mpr)
    rw [hinherited', Option.bind_eq_bind, Option.bind_some, hown']
    rfl

theorem HasFields.mono (h : decl.HasFields types fields)
    (hsub : ∀ ident, decl.RefersTo ident → ∀ ty, types ident.name ty → types' ident.name ty) :
    decl.HasFields types' fields := by
  obtain ⟨inherited, own, hfields, hbases, hown⟩ := h
  refine ⟨inherited, own, hfields, ?_, ?_⟩
  · refine ((List.forall₂_and_left _ _).mpr ⟨fun _ hmem => hmem, hbases⟩).imp fun base fs h => ?_
    obtain ⟨hmem, name, hty⟩ := h
    exact ⟨name, hsub base (Or.inl hmem) _ hty⟩
  · refine ((List.forall₂_and_left _ _).mpr ⟨fun _ hmem => hmem, hown⟩).imp fun field f h => ?_
    obtain ⟨hmem, h⟩ := h
    exact ⟨h.name, h.required, h.denotes.mono fun ident hident =>
      hsub ident (Or.inr ⟨field, hmem, hident⟩)⟩

theorem HasFields.unique {fields' : List (Field Ty)} (h : decl.HasFields types fields)
    (huniq : ∀ ident, decl.RefersTo ident → ∀ ty ty', types ident.name ty → types' ident.name ty' →
      ty = ty')
    (h' : decl.HasFields types' fields') : fields = fields' := by
  obtain ⟨inherited, own, rfl, hbases, hown⟩ := h
  obtain ⟨inherited', own', rfl, hbases', hown'⟩ := h'
  have heq : inherited = inherited' := by
    refine eq_of_forall₂ hbases hbases' fun base hmem fs fs' hfs hfs' => ?_
    obtain ⟨_, hty⟩ := hfs
    obtain ⟨_, hty'⟩ := hfs'
    exact (Ty.record.inj (huniq base (Or.inl hmem) _ _ hty hty')).2
  have heq' : own = own' := by
    refine eq_of_forall₂ hown hown' fun field hmem f f' hf hf' => ?_
    refine Field.ext (hf.name.trans hf'.name.symm) ?_ (hf.required.trans hf'.required.symm)
    exact hf.denotes.unique (fun ident hident => huniq ident (Or.inr ⟨field, hmem, hident⟩))
      hf'.denotes
  rw [heq, heq']

/-- A record with fields refers to names with types only. -/
theorem HasFields.exists_type (h : decl.HasFields types fields) {ident : Ident}
    (href : decl.RefersTo ident) : ∃ ty, types ident.name ty := by
  obtain ⟨inherited, own, _, hbases, hown⟩ := h
  rcases href with hbase | ⟨field, hmem, hmentions⟩
  · obtain ⟨_, _, _, hty⟩ := exists_of_forall₂ hbases hbase
    exact ⟨_, hty⟩
  · obtain ⟨f, _, hf⟩ := exists_of_forall₂ hown hmem
    exact TyForm.exists_denotes_iff.mp ⟨_, hf.denotes⟩ ident hmentions

/-- A record that refers to names of records with types only has fields. -/
theorem exists_hasFields
    (h : ∀ ident, decl.RefersTo ident → ∃ name fields, types ident.name (.record name fields)) :
    ∃ fields, decl.HasFields types fields := by
  have hbases : ∃ inherited, List.Forall₂
      (fun base fs => ∃ name, types base.name (.record name fs)) decl.bases inherited := by
    refine exists_forall₂ fun base hbase => ?_
    obtain ⟨name, fs, hty⟩ := h base (Or.inl hbase)
    exact ⟨fs, name, hty⟩
  have hown : ∃ own, List.Forall₂ (FieldDecl.Declares types decl.total) decl.fields own := by
    refine exists_forall₂ fun field hfield => ?_
    obtain ⟨ty, hty⟩ := TyForm.exists_denotes_iff.mpr fun ident hident => by
      obtain ⟨name, fs, hty⟩ := h ident (Or.inr ⟨field, hfield, hident⟩)
      exact ⟨_, hty⟩
    exact ⟨⟨field.name.name, ty, field.required.getD decl.total⟩, rfl, rfl, hty⟩
  obtain ⟨inherited, hinherited⟩ := hbases
  obtain ⟨own, hown⟩ := hown
  exact ⟨_, inherited, own, rfl, hinherited, hown⟩

end RecordDecl

/-! ## The types of records -/

/-- The declarations give a record a type: it has the fields of its declaration, none of them
twice, and the records that it refers to have their types below it. -/
inductive RecordType (records : List RecordDecl) : String → Ty → Prop
  | intro {decl : RecordDecl} {fields : List (Field Ty)} (types : String → Ty → Prop)
      (hmem : decl ∈ records) (below : ∀ name ty, types name ty → RecordType records name ty)
      (hfields : decl.HasFields types fields) (hnodup : (fields.map Field.name).Nodup) :
      RecordType records decl.name.name (.record (some decl.name.name) fields)

variable {records : List RecordDecl} {name : String} {ty : Ty}

/-- The rule for records, read with the least relation itself below. -/
theorem recordType_iff :
    RecordType records name ty ↔ ∃ decl ∈ records, decl.name.name = name ∧
      ∃ fields, decl.HasFields (RecordType records) fields ∧ (fields.map Field.name).Nodup ∧
        ty = .record (some name) fields := by
  constructor
  · intro h
    cases h with
    | intro types hmem below hfields hnodup =>
      exact ⟨_, hmem, rfl, _, hfields.mono fun ident _ => below ident.name, hnodup, rfl⟩
  · intro h
    obtain ⟨decl, hmem, rfl, fields, hfields, hnodup, rfl⟩ := h
    exact .intro (RecordType records) hmem (fun _ _ h => h) hfields hnodup

theorem RecordType.exists_record (h : RecordType records name ty) :
    ∃ fields, ty = .record (some name) fields := by
  cases h with
  | intro => exact ⟨_, rfl⟩

/-- No record has two types. -/
theorem RecordType.unique (hnodup : (records.map fun decl => decl.name.name).Nodup) {ty' : Ty}
    (h : RecordType records name ty) (h' : RecordType records name ty') : ty = ty' := by
  induction h generalizing ty' with
  | intro types hmem _ hfields _ ih =>
    obtain ⟨decl', hmem', hname', fields', hfields', _, rfl⟩ := recordType_iff.mp h'
    obtain rfl := decl_unique hnodup hmem' hmem hname'
    rw [hfields.unique (fun ident _ ty ty' hty hty' => ih _ _ hty hty') hfields']

/-! ## Flattened field names -/

/-- The names of the fields that a list of bases contributes, each base with those that it inherits
itself before its own. -/
inductive InheritedNames (records : List RecordDecl) : List Ident → List String → Prop
  | nil : InheritedNames records [] []
  | cons {base : Ident} {bases : List Ident} {decl : RecordDecl} {inherited names : List String}
      (hmem : decl ∈ records) (hname : decl.name.name = base.name)
      (hinherited : InheritedNames records decl.bases inherited)
      (hrest : InheritedNames records bases names) :
      InheritedNames records (base :: bases)
        (inherited ++ decl.fields.map (fun field => field.name.name) ++ names)

/-- The flattened field names of a record. -/
def RecordDecl.FlattensTo (records : List RecordDecl) (decl : RecordDecl) (names : List String) :
    Prop :=
  ∃ inherited, InheritedNames records decl.bases inherited ∧
    names = inherited ++ decl.fields.map fun field => field.name.name

theorem InheritedNames.unique (hnodup : (records.map fun decl => decl.name.name).Nodup)
    {bases : List Ident} {names names' : List String} (h : InheritedNames records bases names)
    (h' : InheritedNames records bases names') : names = names' := by
  induction h generalizing names' with
  | nil => cases h'; rfl
  | cons hmem hname _ _ ihInherited ihRest =>
    cases h' with
    | cons hmem' hname' hinherited' hrest' =>
      obtain rfl := decl_unique hnodup hmem' hmem (hname'.trans hname.symm)
      rw [ihInherited hinherited', ihRest hrest']

theorem RecordDecl.FlattensTo.unique (hnodup : (records.map fun decl => decl.name.name).Nodup)
    {decl : RecordDecl} {names names' : List String} (h : decl.FlattensTo records names)
    (h' : decl.FlattensTo records names') : names = names' := by
  obtain ⟨inherited, hinherited, rfl⟩ := h
  obtain ⟨inherited', hinherited', rfl⟩ := h'
  rw [hinherited.unique hnodup hinherited']

/-- The names of fields that follow from a declaration are its flattened ones, if that is so of the
records that it refers to. -/
theorem RecordDecl.HasFields.flattensTo {types : String → Ty → Prop} {decl : RecordDecl}
    {fields : List (Field Ty)} (h : decl.HasFields types fields)
    (below : ∀ name fs m, types name (.record m fs) → ∃ other ∈ records, other.name.name = name ∧
      other.FlattensTo records (fs.map Field.name)) :
    decl.FlattensTo records (fields.map Field.name) := by
  obtain ⟨inherited, own, rfl, hbases, hown⟩ := h
  refine ⟨inherited.flatten.map Field.name, ?_, ?_⟩
  · -- Along the bases, in step with the fields that each of them contributes.
    generalize decl.bases = bases at hbases
    induction hbases with
    | nil => exact .nil
    | cons hbase _ ih =>
      obtain ⟨m, hty⟩ := hbase
      obtain ⟨other, hmem, hname, inherited', hinherited', hfs⟩ := below _ _ _ hty
      rw [List.flatten_cons, List.map_append, hfs]
      exact .cons hmem hname hinherited' ih
  · rw [List.map_append]
    congr 1
    generalize decl.fields = declared at hown
    induction hown with
    | nil => rfl
    | cons hfield _ ih => rw [List.map_cons, List.map_cons, hfield.name, ih]

/-- The fields of a record's type have the flattened field names of its declaration. -/
theorem RecordType.flattensTo (h : RecordType records name ty) :
    ∀ m fields, ty = .record m fields → ∃ decl ∈ records, decl.name.name = name ∧
      decl.FlattensTo records (fields.map Field.name) := by
  induction h with
  | intro types hmem _ hfields _ ih =>
    intro m fields heq
    cases heq
    exact ⟨_, hmem, rfl, hfields.flattensTo fun other fs m hty => ih other _ hty m fs rfl⟩

/-! ## Resolvable records -/

/-- On no way along the references from a record is there a name of no record, a cycle or a record
that repeats the name of a field. -/
structure Resolvable (records : List RecordDecl) (name : String) : Prop where
  declared : ∀ other, Relation.ReflTransGen (Refers records) name other →
    ∃ decl ∈ records, decl.name.name = other
  acyclic : ∀ other, Relation.ReflTransGen (Refers records) name other →
    ¬ Relation.TransGen (Refers records) other other
  distinct : ∀ decl ∈ records, Relation.ReflTransGen (Refers records) name decl.name.name →
    ∀ names, decl.FlattensTo records names → names.Nodup

/-- What a resolvable record refers to is resolvable. -/
theorem Resolvable.refers {other : String} (h : Resolvable records name)
    (href : Refers records name other) : Resolvable records other where
  declared := fun last hlast => h.declared last (.head href hlast)
  acyclic := fun last hlast => h.acyclic last (.head href hlast)
  distinct := fun decl hmem hlast => h.distinct decl hmem (.head href hlast)

/-- All records are resolvable exactly if they refer to records only, no reference leads back to
where it starts and no record repeats the name of a field. -/
theorem forall_resolvable_iff :
    (∀ decl ∈ records, Resolvable records decl.name.name) ↔
      (∀ decl ∈ records, ∀ ident, decl.RefersTo ident →
        ∃ other ∈ records, other.name.name = ident.name) ∧
      (∀ name, ¬ Relation.TransGen (Refers records) name name) ∧
      ∀ decl ∈ records, ∀ names, decl.FlattensTo records names → names.Nodup := by
  constructor
  · intro h
    refine ⟨fun decl hmem ident href => ?_, fun name hcycle => ?_, fun decl hmem => ?_⟩
    · exact (h decl hmem).declared _ (.single ⟨decl, hmem, rfl, ident, href, rfl⟩)
    · obtain ⟨_, ⟨decl, hmem, rfl, _⟩, _⟩ := Relation.TransGen.head'_iff.mp hcycle
      exact (h decl hmem).acyclic _ .refl hcycle
    · exact (h decl hmem).distinct decl hmem .refl
  · intro h decl hmem
    obtain ⟨hrefs, hacyclic, hdistinct⟩ := h
    refine ⟨fun other hreach => ?_, fun other _ => hacyclic other, fun other hother _ =>
      hdistinct other hother⟩
    rcases Relation.ReflTransGen.cases_tail hreach with rfl | ⟨_, _, hlast⟩
    · exact ⟨decl, hmem, rfl⟩
    · obtain ⟨source, hsource, _, ident, href, rfl⟩ := hlast
      exact hrefs source hsource ident href

/-- A record with a type is resolvable: the records that it refers to are, since they have their
types below it, and so the only cycle that could start from it would run through them. -/
theorem RecordType.resolvable (hnodup : (records.map fun decl => decl.name.name).Nodup)
    (h : RecordType records name ty) : Resolvable records name := by
  induction h with
  | @intro decl fields types hmem below hfields hdistinct ih =>
    have hnext : ∀ other, Refers records decl.name.name other → Resolvable records other := by
      intro other href
      obtain ⟨decl', hmem', hname', ident, hident, rfl⟩ := href
      obtain rfl := decl_unique hnodup hmem' hmem hname'
      obtain ⟨ty, hty⟩ := hfields.exists_type hident
      exact ih _ _ hty
    refine ⟨fun other hreach => ?_, fun other hreach hcycle => ?_, fun other hother hreach => ?_⟩
    · rcases Relation.ReflTransGen.cases_head hreach with rfl | ⟨next, href, hrest⟩
      · exact ⟨decl, hmem, rfl⟩
      · exact (hnext next href).declared other hrest
    · rcases Relation.ReflTransGen.cases_head hreach with rfl | ⟨next, href, hrest⟩
      · -- A cycle through the record itself is one through the first record that it leads to.
        obtain ⟨next, href, hback⟩ := Relation.TransGen.head'_iff.mp hcycle
        exact (hnext next href).acyclic _ hback hcycle
      · exact (hnext next href).acyclic other hrest hcycle
    · intro names hnames
      rcases Relation.ReflTransGen.cases_head hreach with heq | ⟨next, href, hrest⟩
      · obtain rfl := decl_unique hnodup hmem hother heq
        have hflat := hfields.flattensTo fun name fs m hty =>
          (below name _ hty).flattensTo m fs rfl
        rw [hnames.unique hnodup hflat]
        exact hdistinct
      · exact (hnext next href).distinct other hother hrest names hnames

end Conform
