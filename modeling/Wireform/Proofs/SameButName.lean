import Mathlib.Data.List.Forall2
import Wireform.Output.Site

/-!
# Descriptions Under Two Names

One shape can be described under several names: a typedef has the description of
what it stands for. Such descriptions are not equal. A reader returns itself when it
is bound, an enum is set from itself, a builder is called after its reader, and all
of these are texts that hold the name of the identity.

`SameButName` relates descriptions that differ in this way and in no other. Methods
keep their names and what they do, and a text in a signature may differ where one
has the first name and the other the second. The relation follows the way in which
descriptions are put together, and under one name it is equality.

## Main definitions

* `SpeltAlike`: Texts that differ in a name at most.
* `Method.SameButName`, `BuilderDescription.SameButName`: Methods and builders that do.
* `TypeDescription.SameButName`: Descriptions of one shape under two names.

## Theorems

* `TypeDescription.SameButName.withMethods`, `TypeDescription.SameButName.withBuilder`,
  `TypeDescription.SameButName.fill`: Descriptions are put together alike.
* `TypeDescription.SameButName.eq`: Under one name there is one description.
-/

namespace Wireform

/-- Two texts that are the same, or the same but for a name that stands in them. -/
def SpeltAlike (n n' s s' : String) : Prop :=
  s = s' ∨ ∃ before after, s = before ++ n ++ after ∧ s' = before ++ n' ++ after

/-- Two methods that differ at most in a name in their signatures. -/
structure Method.SameButName (n n' : String) (m m' : Method) : Prop where
  name : m.name = m'.name
  role : m.role = m'.role
  params : List.Forall₂ (fun p p' => p.name = p'.name ∧ SpeltAlike n n' p.type p'.type)
    m.params m'.params
  returns : SpeltAlike n n' m.returns m'.returns

/-- Two builders that are called after two names and are the same otherwise. -/
structure BuilderDescription.SameButName (n n' : String) (b b' : BuilderDescription) : Prop where
  name : b.name = builderName n ∧ b'.name = builderName n'
  methods : List.Forall₂ (Method.SameButName n n') b.methods b'.methods
  required : b.required = b'.required

/-- Two descriptions that differ only in their names and identities, and in what is
    derived from the identity. -/
structure TypeDescription.SameButName (d d' : TypeDescription) : Prop where
  family : d.family = d'.family
  limit : d.limit = d'.limit
  constants : d.constants = d'.constants
  fields : d.fields = d'.fields
  valueOf : d.valueOf = d'.valueOf
  methods : List.Forall₂ (Method.SameButName d.identity.simpleName d'.identity.simpleName)
    d.methods d'.methods
  builder : Option.Rel
    (BuilderDescription.SameButName d.identity.simpleName d'.identity.simpleName)
    d.builder d'.builder

namespace SpeltAlike

variable {n n' s s' : String}

theorem name : SpeltAlike n n' n n' := by
  refine .inr ⟨"", "", ?_, ?_⟩ <;> rw [String.empty_append, String.append_empty]

theorem option : SpeltAlike n n' ("Option<" ++ n ++ ">") ("Option<" ++ n' ++ ">") :=
  .inr ⟨"Option<", ">", rfl, rfl⟩

theorem result :
    SpeltAlike n n' ("FlyweightResult<" ++ n ++ ">") ("FlyweightResult<" ++ n' ++ ">") :=
  .inr ⟨"FlyweightResult<", ">", rfl, rfl⟩

theorem reference : SpeltAlike n n' ("&" ++ n) ("&" ++ n') := by
  refine .inr ⟨"&", "", ?_, ?_⟩ <;> exact String.append_empty.symm

theorem eq (h : SpeltAlike n n s s') : s = s' := by
  rcases h with h | ⟨before, after, rfl, rfl⟩
  · exact h
  · rfl

end SpeltAlike

namespace Method

variable {n n' : String}

theorem SameButName.refl (m : Method) : m.SameButName n n' m :=
  ⟨rfl, rfl, List.forall₂_same.mpr fun _ _ => ⟨rfl, .inl rfl⟩, .inl rfl⟩

theorem SameButName.eq {m m' : Method} (h : SameButName n n m m') : m = m' := by
  rcases m with ⟨name, role, params, returns⟩
  rcases m' with ⟨name', role', params', returns'⟩
  have hparams : List.Forall₂ Eq params params' := by
    refine h.params.imp ?_
    rintro ⟨p, type⟩ ⟨p', type'⟩ ⟨hname, htype⟩
    rw [show p = p' from hname, show type = type' from htype.eq]
  rw [List.forall₂_eq_eq_eq] at hparams
  rw [show name = name' from h.name, show role = role' from h.role, hparams,
    show returns = returns' from h.returns.eq]

theorem sameButName_refl (methods : List Method) :
    List.Forall₂ (SameButName n n') methods methods :=
  List.forall₂_same.mpr fun m _ => .refl m

theorem eq_of_sameButName {methods methods' : List Method}
    (h : List.Forall₂ (SameButName n n) methods methods') : methods = methods' := by
  have hsame : List.Forall₂ Eq methods methods' := h.imp fun _ _ hm => hm.eq
  rwa [List.forall₂_eq_eq_eq] at hsame

end Method

theorem BuilderDescription.SameButName.eq {n : String} {b b' : BuilderDescription}
    (h : b.SameButName n n b') : b = b' := by
  rcases b with ⟨name, methods, required⟩
  rcases b' with ⟨name', methods', required'⟩
  rw [show name = name' from h.name.1.trans h.name.2.symm,
    show methods = methods' from Method.eq_of_sameButName h.methods,
    show required = required' from h.required]

namespace TypeDescription

theorem sameButName_reader (family : String) (limit : LimitRule) (i i' : Identity) :
    (reader family i limit).SameButName (reader family i' limit) := by
  refine ⟨rfl, rfl, rfl, rfl, rfl, ?_, .none⟩
  have hwindow : List.Forall₂ (fun p p' : Parameter => p.name = p'.name ∧
      SpeltAlike i.simpleName i'.simpleName p.type p'.type) windowParams windowParams :=
    List.forall₂_same.mpr fun _ _ => ⟨rfl, .inl rfl⟩
  -- binding gives a reader of the name, and the rest of the methods have no part in it
  exact .cons ⟨rfl, rfl, hwindow, .option⟩
    (.cons ⟨rfl, rfl, hwindow, .result⟩ (Method.sameButName_refl _))

namespace SameButName

variable {d d' : TypeDescription}

theorem withMethods (h : d.SameButName d') {methods methods' : List Method}
    (hmethods : List.Forall₂ (Method.SameButName d.identity.simpleName d'.identity.simpleName)
      methods methods') :
    (d.withMethods methods).SameButName (d'.withMethods methods') :=
  ⟨h.family, h.limit, h.constants, h.fields, h.valueOf, List.rel_append h.methods hmethods,
    h.builder⟩

/-- A builder is called after its reader, and ends with a method that returns one. -/
theorem withBuilder (h : d.SameButName d') {methods methods' : List Method}
    (hmethods : List.Forall₂ (Method.SameButName d.identity.simpleName d'.identity.simpleName)
      methods methods') (required : List String) :
    (d.withBuilder methods required).SameButName (d'.withBuilder methods' required) := by
  have hbuild : List.Forall₂ (Method.SameButName d.identity.simpleName d'.identity.simpleName)
      [{ name := "build", role := .build
         returns := "FlyweightResult<" ++ d.identity.simpleName ++ ">" }]
      [{ name := "build", role := .build
         returns := "FlyweightResult<" ++ d'.identity.simpleName ++ ">" }] :=
    .cons ⟨rfl, rfl, .nil, .result⟩ .nil
  exact ⟨h.family, h.limit, h.constants, h.fields, h.valueOf, h.methods,
    .some ⟨⟨rfl, rfl⟩, List.rel_append hmethods hbuild, rfl⟩⟩

/-- What names have no part in may be filled in on both sides. -/
theorem fill (h : d.SameButName d') (constants : List ConstantDescription)
    (fields : List FieldDescription) (valueOf : Option ValueOf) :
    SameButName { d with constants, fields, valueOf } { d' with constants, fields, valueOf } :=
  ⟨h.family, h.limit, rfl, rfl, rfl, h.methods, h.builder⟩

theorem named (h : d.SameButName d') (q q' : Option String) :
    SameButName { d with qualifiedName := q } { d' with qualifiedName := q' } :=
  ⟨h.family, h.limit, h.constants, h.fields, h.valueOf, h.methods, h.builder⟩

/-- Under one name there is one description. -/
theorem eq (h : d.SameButName d') (hname : d.qualifiedName = d'.qualifiedName)
    (hidentity : d.identity = d'.identity) : d = d' := by
  rcases d with ⟨q, family, identity, limit, constants, fields, methods, builder, valueOf⟩
  rcases d' with ⟨q', family', identity', limit', constants', fields', methods', builder', valueOf'⟩
  dsimp only at hname hidentity
  subst hname hidentity
  have hbuilder : builder = builder' := by
    rcases h.builder with @⟨b, b', hb⟩ | _
    · rw [hb.eq]
    · rfl
  rw [show family = family' from h.family, show limit = limit' from h.limit,
    show constants = constants' from h.constants, show fields = fields' from h.fields,
    show valueOf = valueOf' from h.valueOf,
    show methods = methods' from Method.eq_of_sameButName h.methods, hbuilder]

end SameButName

end TypeDescription

theorem Site.sameButName_reader (site site' : Site) (family : String) (limit : LimitRule) :
    (site.reader family limit).SameButName (site'.reader family limit) :=
  (TypeDescription.sameButName_reader family limit site.identity site'.identity).named _ _

end Wireform
