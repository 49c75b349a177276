import Wireform.Proofs.Typedefs

/-!
# Following Supertypes

What the verifier has found out about supertypes holds when structs are laid out.

The verifier and the layout of a struct both walk up its supertypes, each with its
own table of names and its own list of structs that it has met. The walks start
from different places: a struct that is described for a typedef is walked up from
the name of the typedef, which the verifier never looked at. They come to the same
structs all the same. Both tables define what the schema declares, and a typedef
is no struct, so its name does not turn up among the supertypes of one.

A schema that was verified therefore has no struct whose layout fails. What may
still fail is a member, and members fail in two ways only: a type refers to
nothing, or a size leaves the 64-bit range.

## Main definitions

* `Visits`: A struct on the walk, with the site its members are resolved from.
* `Site.membersOf`: The members of several structs.
* `MemberFault`: The ways in which describing a member fails.
* `Located.siteFor`: Where a declaration is described that stands for another one.

## Theorems

* `supertypeChain_of_ancestors`: The walk visits a struct and its ancestors.
* `layout_of_ancestors`: The layout has the members of all of them, from the top.
* `Site.field_failsOnly`: How describing a member fails.
* `fresh_of_standsFor`: A typedef of a struct is none of its ancestors.
* `supertypes_followed`: In a verified schema the supertypes of a struct are found,
  and only its members can fail.
-/

namespace Wireform

section Walking

/-- A struct as the walk visits it: its members are resolved from its own scope,
    under the name that the walk is made for. -/
def Visits (site : Site) (l : Located) (visited : Site × StructDecl) : Prop :=
  visited.1 = site.inScope l.scope ∧ l.declaration = .struct visited.2

/-- The members of structs, one struct after the other, each member with the site
    it is resolved from. -/
def Site.membersOf (site : Site) (structs : List Located) : List (Site × Member) :=
  structs.flatMap fun l => l.declaration.members.map (site.inScope l.scope, ·)

theorem Site.membersOf_append (site : Site) (first second : List Located) :
    site.membersOf (first ++ second) = site.membersOf first ++ site.membersOf second :=
  List.flatMap_append

/-- The structs on a walk have the members of the declarations they were visited
    for. -/
theorem Site.membersOf_of_visits {site : Site} {structs : List Located}
    {chain : List (Site × StructDecl)} (h : List.Forall₂ (Visits site) structs chain) :
    (chain.flatMap fun (owner, decl) => decl.members.map (owner, ·)) = site.membersOf structs := by
  induction h with
  | nil => rfl
  | @cons l visited structs chain hvisit _ ih =>
      rcases visited with ⟨owner, d⟩
      rcases hvisit with ⟨howner, hd⟩
      have hmembers : d.members.map (owner, ·) =
          l.declaration.members.map (site.inScope l.scope, ·) := by
        rw [hd, ← howner]
        rfl
      rw [List.flatMap_cons, ih]
      exact congrArg (· ++ site.membersOf structs) hmembers

variable {spec : Specification} {options : Options} {site : Site}
  (hunique : (spec.located.map Located.qualifiedName).Nodup)
  (hpaths : ∀ l ∈ spec.located, ∀ name ∈ l.path, IsIdentifier name)
  (htable : site.table = NameTable.ofSpecification spec options)

include hunique hpaths htable

/-- From a struct whose ancestors are known, the walk visits the struct and then
    each ancestor. It takes as many steps as there are ancestors, and meets none
    of the names it was told to look out for. -/
theorem supertypeChain_of_ancestors {l : Located} {ancestors : List Located} {d : StructDecl}
    {seen : List String} {steps : Nat} (hl : l ∈ spec.located) (hd : l.declaration = .struct d)
    (hchain : spec.Ancestors l ancestors)
    (hfresh : Fresh seen (ancestors.map Located.qualifiedName))
    (hlength : ancestors.length ≤ steps) :
    ∃ chain, supertypeChain site steps seen (site.inScope l.scope) d = .ok chain ∧
      List.Forall₂ (Visits site) (l :: ancestors) chain := by
  induction hchain generalizing seen steps d with
  | @root l e he hsuper =>
      cases hd.symm.trans he
      refine ⟨[(site.inScope l.scope, e)], ?_, .cons ⟨rfl, he⟩ .nil⟩
      rw [supertypeChain.eq_def]
      simp only [hsuper]
  | @step l parent e name rest he hsuper hparent hresolves hrest ih =>
      cases hd.symm.trans he
      rcases hrest.isStruct with ⟨f, hf⟩
      rcases fresh_cons.mp hfresh with ⟨hseen, hfresh⟩
      -- the parent takes one of the steps that are left
      obtain ⟨k, rfl⟩ : ∃ k, steps = k + 1 := Nat.exists_eq_add_one.mpr
        (Nat.lt_of_lt_of_le (Nat.zero_lt_succ _) hlength)
      rcases ih hparent hf hfresh (Nat.le_of_succ_le_succ hlength) with ⟨chain, hwalk, hvisits⟩
      have hentry := Site.resolve_of_resolves hunique hpaths htable hl hparent hresolves
      refine ⟨(site.inScope l.scope, e) :: chain, ?_, .cons ⟨rfl, he⟩ hvisits⟩
      rw [supertypeChain.eq_def]
      simp only [hsuper, hentry, Checked.ok_bind]
      rw [show (parent.entry options).declaration = parent.declaration from rfl, hf]
      dsimp only
      rw [if_neg (show (parent.entry options).qualifiedName ∉ seen from hseen)]
      exact Checked.bind_eq_ok.mpr ⟨chain, hwalk, rfl⟩

/-- A struct is laid out with the members of its ancestors, the topmost ones first,
    and its own at the end. -/
theorem layout_of_ancestors {l : Located} {ancestors : List Located} {d : StructDecl}
    (hl : l ∈ spec.located) (hd : l.declaration = .struct d) (hscope : site.scope = l.scope)
    (hchain : spec.Ancestors l ancestors)
    (hfresh : Fresh [site.qualifiedName] (ancestors.map Located.qualifiedName)) :
    (∃ chain, supertypeChain site site.table.entries.length [site.qualifiedName] site d =
        .ok chain ∧ List.Forall₂ (Visits site) (l :: ancestors) chain) ∧
      layout site d = .ok (site.membersOf (l :: ancestors).reverse) := by
  have hlength : ancestors.length ≤ site.table.entries.length := by
    rw [htable, NameTable.ofSpecification, List.length_map]
    exact Nat.le_trans (hchain.length_le hfresh.1) (List.length_filterMap_le _ _)
  have hsite : site.inScope l.scope = site := by
    rw [← hscope]
    rfl
  rcases supertypeChain_of_ancestors hunique hpaths htable hl hd hchain hfresh hlength with
    ⟨chain, hwalk, hvisits⟩
  rw [hsite] at hwalk
  refine ⟨⟨chain, hwalk, hvisits⟩, ?_⟩
  rw [layout, hwalk]
  refine congrArg Except.ok ?_
  -- the walk goes upwards, the layout starts at the top
  exact Site.membersOf_of_visits (List.forall₂_reverse_iff.mpr hvisits)

end Walking

section Failing

/-- The faults of a member: a type in it refers to nothing, or a number is out of
    range. -/
def MemberFault (fault : Fault CompileError) : Prop :=
  fault = .stopped ∨ ∃ type owner, fault = .refused (.unresolved type owner)

namespace Site

open Checked

variable (site : Site)

theorem unresolved_failsOnly {α : Type} (t : WireType) :
    (site.unresolved t : Compiled α).FailsOnly MemberFault :=
  failsOnly_error (.inr ⟨_, _, rfl⟩)

theorem identityOf_failsOnly (t : WireType) : (site.identityOf t).FailsOnly MemberFault := by
  unfold identityOf
  cases site.table.identityIn? site.scope t with
  | none => exact site.unresolved_failsOnly t
  | some identity => exact failsOnly_ok _ identity

theorem valueIdentityOf_failsOnly (t : WireType) :
    (site.valueIdentityOf t).FailsOnly MemberFault := by
  unfold valueIdentityOf
  cases site.table.valueIdentityIn? site.scope t with
  | none => exact site.unresolved_failsOnly t
  | some identity => exact failsOnly_ok _ identity

theorem resolve_failsOnly (name : String) : (site.resolve name).FailsOnly MemberFault := by
  unfold resolve
  cases site.table.qualify? site.scope name with
  | none => exact site.unresolved_failsOnly (.named name)
  | some q =>
      dsimp only
      cases site.table.lookup? q with
      | none => exact site.unresolved_failsOnly (.named name)
      | some entry => exact failsOnly_ok _ entry

/-- Sizes are found through typedefs, which may be too many to be followed. -/
theorem fixedSizeWithin_failsOnly (steps : Nat) (t : WireType) :
    (site.fixedSizeWithin steps t).FailsOnly MemberFault := by
  induction steps using Nat.strongRecOn generalizing site t with
  | ind steps ih =>
      cases t with
      | named name =>
          rw [fixedSizeWithin.eq_def]
          refine (site.resolve_failsOnly name).bind fun entry => ?_
          rcases entry with ⟨q, scope, d, identity⟩
          cases d with
          | enum d => rcases d with ⟨name, _ | type, constants⟩ <;> exact failsOnly_ok _ _
          | typedef d =>
              cases steps with
              | zero => exact failsOnly_error (.inl rfl)
              | succ k => exact ih k (Nat.lt_succ_self k) (site.inScope scope) d.aliased
          | _ => exact failsOnly_ok _ _
      | _ =>
          rw [fixedSizeWithin.eq_def]
          exact failsOnly_ok _ _

theorem parameters_failsOnly (t : WireType) : (site.parameters t).FailsOnly MemberFault := by
  cases t with
  | array width item => exact (site.identityOf_failsOnly item).bind fun _ => failsOnly_ok _ _
  | map width key value =>
      refine (site.identityOf_failsOnly key).bind fun _ => ?_
      exact (site.identityOf_failsOnly value).bind fun _ => failsOnly_ok _ _
  | _ => exact failsOnly_ok _ _

theorem memberSize_failsOnly (m : Member) : (site.memberSize m).FailsOnly MemberFault := by
  refine (site.fixedSizeWithin_failsOnly _ m.type).bind fun size => ?_
  rcases m with ⟨name, t, default, count, byteOrder⟩
  cases size with
  | some size => exact failsOnly_ok _ _
  | none =>
      cases t with
      | array width item =>
          cases count with
          | none => exact failsOnly_ok _ _
          | some count =>
              refine (site.fixedSizeWithin_failsOnly _ item).bind fun size => ?_
              cases size with
              | none => exact failsOnly_ok _ _
              | some size =>
                  refine (Word.fit_failsOnly (.inl rfl) _).bind fun items => ?_
                  exact (Word.fit_failsOnly (.inl rfl) _).bind fun _ => failsOnly_ok _ _
      | _ => exact failsOnly_ok _ _

/-- Describing a member fails where a type refers to nothing, or where a number is
    out of range. -/
theorem field_failsOnly (m : Member) (offset : Option Nat) :
    (site.field m offset).FailsOnly MemberFault := by
  refine (site.parameters_failsOnly m.type).bind fun parameters => ?_
  refine (site.memberSize_failsOnly m).bind fun size => ?_
  refine (site.identityOf_failsOnly m.type).bind fun identity => ?_
  exact (site.valueIdentityOf_failsOnly m.type).bind fun value => failsOnly_ok _ _

end Site

theorem nextOffset_failsOnly {P : Fault CompileError → Prop} (h : P .stopped)
    (offset size : Option Nat) : (nextOffset offset size).FailsOnly P := by
  cases offset with
  | none => exact Checked.failsOnly_ok P _
  | some offset =>
      cases size with
      | none => exact Checked.failsOnly_ok P _
      | some size => exact (Word.fit_failsOnly h _).map some

/-- Members are described without a fault of their own but that an offset is out of
    range. -/
theorem describeMembers_failsOnly {P : Fault CompileError → Prop} (hstopped : P .stopped)
    {members : List (Site × Member)}
    (hfield : ∀ owner m, (owner, m) ∈ members → ∀ offset, (owner.field m offset).FailsOnly P)
    (offset : Option Nat) : (describeMembers offset members).FailsOnly P := by
  induction members generalizing offset with
  | nil => exact Checked.failsOnly_ok P _
  | cons first rest ih =>
      rcases first with ⟨owner, m⟩
      refine (hfield owner m List.mem_cons_self offset).bind fun f => ?_
      refine (nextOffset_failsOnly hstopped offset f.size).bind fun next => ?_
      refine (ih (fun owner m hm => hfield owner m (List.mem_cons_of_mem _ hm)) next).bind ?_
      exact fun fields => Checked.failsOnly_ok P _

end Failing

section Verified

variable {spec : Specification} {options : Options}

/-- Where a declaration is described that stands for another one: under its own
    name, with references resolved from the scope of the other. -/
def Located.siteFor (spec : Specification) (options : Options) (l k : Located) : Site :=
  (l.site spec options).inScope k.scope

/-- The name that a struct is described under, its own or that of a typedef, is none
    of those of its ancestors. -/
theorem fresh_of_standsFor (hunique : (spec.located.map Located.qualifiedName).Nodup)
    {l k : Located} {ancestors : List Located} (hl : l ∈ spec.located)
    (hstands : spec.StandsFor l k) (hchain : spec.Ancestors k ancestors)
    (hnodup : ((k :: ancestors).map Located.qualifiedName).Nodup) :
    Fresh [l.qualifiedName] (ancestors.map Located.qualifiedName) := by
  cases hstands with
  | self _ => exact fresh_singleton.mpr hnodup
  | through htypedef _ _ _ _ =>
      refine ⟨(List.nodup_cons.mp hnodup).2, fun q hq hmem => ?_⟩
      rcases List.mem_map.mp hq with ⟨a, ha, rfl⟩
      -- an ancestor of that name would be the typedef, which is no struct
      rcases hchain.mem_structs a ha with ⟨d, hd⟩
      rcases mem_structsAmong.mp hd with ⟨b, hb, e, he, hsame⟩
      have hname : b.qualifiedName = l.qualifiedName :=
        (congrArg LocatedStruct.qualifiedName hsame).symm.trans (List.mem_singleton.mp hmem)
      cases List.inj_on_of_nodup_map hunique hb hl hname
      exact nomatch htypedef.symm.trans he

/-- A verified schema has the verifier and the generators agree on every name, from
    every scope. So a struct, and a typedef of one, is described with the walk up its
    supertypes visiting each ancestor once, and neither this walk nor the layout
    fails. If the description does, a member of one of these structs refers to
    nothing, or a number is out of range. -/
theorem supertypes_followed (hverify : spec.verify = .ok ()) (options : Options) :
    (∃ defined, spec.scope.verify [] [] = .ok defined ∧ ∀ scope name,
      searchOutward (· ∈ defined) scope name =
        (NameTable.ofSpecification spec options).qualify? scope name) ∧
    ∀ l ∈ spec.located, ∀ k d, spec.StandsFor l k → k.declaration = .struct d →
      describeEntry (NameTable.ofSpecification spec options) (l.entry options) =
        describeStruct (l.siteFor spec options k) d ∧
      ∃ ancestors, spec.Ancestors k ancestors ∧
        ((k :: ancestors).map Located.qualifiedName).Nodup ∧
        (∃ chain, supertypeChain (l.siteFor spec options k) spec.located.length
            [l.qualifiedName] (l.siteFor spec options k) d = .ok chain ∧
          List.Forall₂ (Visits (l.siteFor spec options k)) (k :: ancestors) chain) ∧
        layout (l.siteFor spec options k) d =
          .ok ((l.siteFor spec options k).membersOf (k :: ancestors).reverse) ∧
        (describeStruct (l.siteFor spec options k) d).FailsOnly fun fault =>
          fault = .stopped ∨
            (∃ type owner, fault = .refused (.unresolved type owner)) ∧
            ∃ a ∈ k :: ancestors, ∃ m ∈ a.declaration.members, ∃ offset,
              ((l.siteFor spec options k).inScope a.scope).field m offset = .error fault := by
  rcases Specification.located_of_verify hverify with ⟨hpaths, _, hunique⟩
  constructor
  · rcases Specification.defined_of_verify hverify with ⟨defined, hscope, hdefined⟩
    refine ⟨defined, hscope, fun scope name => ?_⟩
    -- both search alike, in the names that the schema defines
    have hsame : (fun q => decide (q ∈ defined)) =
        (NameTable.ofSpecification spec options).isDefined := by
      funext q
      rw [Bool.eq_iff_iff, decide_eq_true_eq, hdefined, isDefined_ofSpecification]
    rw [NameTable.qualify?, ← hsame]
  · intro l hl k d hstands hd
    have hk := hstands.mem_located hl
    rcases Specification.ancestors_of_verify hverify hk hd with ⟨ancestors, hchain, hnodup⟩
    have hfresh := fresh_of_standsFor hunique hl hstands hchain hnodup
    have htable : (l.siteFor spec options k).table = NameTable.ofSpecification spec options := rfl
    rcases layout_of_ancestors hunique hpaths htable hk hd rfl hchain hfresh with
      ⟨⟨chain, hwalk, hvisits⟩, hlayout⟩
    refine ⟨?_, ancestors, hchain, hnodup, ⟨chain, ?_, hvisits⟩, hlayout, ?_⟩
    · rw [describeEntry_entry hunique hl, describeDeclaration_eq_describeShape hverify hl hstands,
        hd]
      rfl
    · rw [← hwalk]
      exact congrArg (supertypeChain _ · _ _ _) (List.length_map _).symm
    · -- the layout is there, so what is left to fail are the members
      rw [describeStruct, hlayout, Checked.ok_bind]
      refine Checked.FailsOnly.bind (describeMembers_failsOnly (.inl rfl) ?_ _)
        fun fields => Checked.failsOnly_ok _ _
      intro owner m hm offset fault hfault
      rcases List.mem_flatMap.mp hm with ⟨a, ha, hm⟩
      rcases List.mem_map.mp hm with ⟨m', hm', hsame⟩
      cases hsame
      rcases Site.field_failsOnly _ m offset fault hfault with hstopped | hunresolved
      · exact .inl hstopped
      · exact .inr ⟨hunresolved, a, List.mem_reverse.mp ha, m, hm', offset, hfault⟩

/-- A circle, which extends a shape. -/
def circle : StructDecl where
  name := "Circle"
  supertype := some "Shape"
  members := [{ name := "radius", type := .fixed .int32 }]

/-- A schema with shapes. The circle stands in one of two scopes of the same name, and
    the shape it extends in the other. Around them an enum has the name of the
    shape. -/
def shapes : Specification where
  scope := .mk "example"
    [.mk "inner" [] [.struct circle, .typedef { name := "Round", aliased := .named "Circle" }],
      .mk "inner" [] [.struct { name := "Shape", supertype := some "Base", members := [
        { name := "kind", type := .fixed .uint8 }] }]]
    [.struct { name := "Base", members := [{ name := "id", type := .fixed .int64 }] },
      .enum { name := "Shape", constants := [{ name := "ROUND" }] }]

theorem supertypes_followed_shapes :
    shapes.verify = .ok () ∧
      ∃ l ∈ shapes.located, l.qualifiedName = "example::inner::Round" ∧
        shapes.StandsFor l ⟨["example", "inner"], .struct circle⟩ ∧
        ∃ ancestors, shapes.Ancestors ⟨["example", "inner"], .struct circle⟩ ancestors ∧
          layout (l.siteFor shapes {} ⟨["example", "inner"], .struct circle⟩) circle =
            .ok ((l.siteFor shapes {} ⟨["example", "inner"], .struct circle⟩).membersOf
              (⟨["example", "inner"], .struct circle⟩ :: ancestors).reverse) := by
  have hverify : shapes.verify = .ok () := by decide +kernel
  have hcircle : ⟨["example", "inner"], .struct circle⟩ ∈ shapes.located :=
    List.mem_cons_of_mem _ (List.mem_cons_of_mem _ List.mem_cons_self)
  have hround : ⟨["example", "inner"], .typedef { name := "Round", aliased := .named "Circle" }⟩ ∈
      shapes.located :=
    List.mem_cons_of_mem _ (List.mem_cons_of_mem _ (List.mem_cons_of_mem _ List.mem_cons_self))
  have hstands : shapes.StandsFor
      ⟨["example", "inner"], .typedef { name := "Round", aliased := .named "Circle" }⟩
      ⟨["example", "inner"], .struct circle⟩ :=
    .through rfl rfl hcircle (.here (List.mem_map_of_mem hcircle)) (.self nofun)
  rcases (supertypes_followed hverify {}).2 _ hround _ _ hstands rfl with
    ⟨_, ancestors, hchain, _, _, hlayout, _⟩
  exact ⟨hverify, _, hround, by decide, hstands, ancestors, hchain, hlayout⟩

end Verified

end Wireform
