import Mathlib.Data.Option.NAry
import Wireform.Proofs.FindingSizes

/-!
# Where Sizes Leave the Range

Describing a declaration stops only where a size or an offset is no 64-bit number.

The number of items of an array member is any 64-bit number. Its size is a multiple of
that, with two prefixes in front, and an offset is the sum of the sizes before. None of
these has to be a 64-bit number again. `Overruns` says of members that stand one after
the other that such a number is met, and `TooLarge` says it of the declaration they
belong to. Both are read off the schema: they mention no table and no site, and the sums
in them are sums of natural numbers.

A description is made in many steps, and all that this is about is the first of them that
fails. So there are three things to be known of each step. It stops for a number out of
range, it is refused where there is no description, and in all other cases it gives the
description that there is. For a member this needs the converse of what is known of its
description (`Site.describes_of_field`): identities and sizes that are there are found.
What is neither a struct nor a list has no numbers but the sizes of integers, and never
stops.

## Main definitions

* `Word.fit?`: A number that may be absent, as a word.
* `Specification.Overruns`: Members whose sizes or offsets leave the range.
* `Specification.TooLarge`: A declaration with such members.

## Theorems

* `Word.mul_bind_add`, `nextOffset_eq_fit?`: Sizes and offsets are computed in one step.
* `Site.memberSize_of_sizesMember`: The size of a member is found if it fits a word.
* `Site.field_of_describes`: So is its description.
* `Site.field_eq_stopped_iff`, `Site.field_of_fits`: The three outcomes for a member.
* `describeMembers_eq_stopped_iff`: When members one after the other stop.
* `describeShape_answers`: What is neither a struct nor a list does not stop.
* `describeDeclaration_eq_stopped_iff`: When a declaration does.
-/

namespace Wireform

open Checked

/-! ## One member -/

theorem Word.fit_of_lt {ε : Type} {n : Nat} (h : n < 2 ^ (64 : Nat)) :
    (Word.fit n : Checked ε Nat) = .ok n := by
  rw [Word.fit, if_pos (show n < Word.bound from h)]

theorem Word.fit_of_le {ε : Type} {n : Nat} (h : 2 ^ (64 : Nat) ≤ n) :
    (Word.fit n : Checked ε Nat) = .error .stopped := by
  rw [Word.fit, if_neg (show ¬ n < Word.bound from Nat.not_lt.mpr h)]

/-- A number that may be absent, or a stop where it does not fit a word. -/
def Word.fit? {ε : Type} (n : Option Nat) : Checked ε (Option Nat) :=
  n.elim (.ok none) fun n => some <$> Word.fit n

theorem Word.fit?_of_lt {ε : Type} {size : Option Nat}
    (h : ∀ n, size = some n → n < 2 ^ (64 : Nat)) :
    (Word.fit? size : Checked ε (Option Nat)) = .ok size := by
  cases size with
  | none => rfl
  | some n => rw [Word.fit?, Option.elim_some, Word.fit_of_lt (h n rfl), Checked.ok_map]

theorem Word.fit?_of_le {ε : Type} {n : Nat} (h : 2 ^ (64 : Nat) ≤ n) :
    (Word.fit? (some n) : Checked ε (Option Nat)) = .error .stopped := by
  rw [Word.fit?, Option.elim_some, Word.fit_of_le h, Checked.error_map]

/-- A product that is added to something leaves the range, at whichever of the two
    steps, exactly if the sum does. -/
theorem Word.mul_bind_add {ε : Type} (a b c : Nat) :
    (do let n ← Word.mul a b; return some (← Word.add c n) : Checked ε (Option Nat)) =
      Word.fit? (some (c + a * b)) := by
  rw [Word.mul]
  by_cases h : a * b < 2 ^ (64 : Nat)
  · rw [Word.fit_of_lt h, Checked.ok_bind, Word.add, Word.fit?, Option.elim_some]
    cases (Word.fit (c + a * b) : Checked ε Nat) <;> rfl
  · rw [Word.fit_of_le (by omega), Word.fit?_of_le (by omega)]
    rfl

theorem nextOffset_eq_fit? (offset size : Option Nat) :
    nextOffset offset size = Word.fit? (Option.map₂ (· + ·) offset size) := by
  cases offset with
  | none => rfl
  | some start => cases size <;> rfl

/-- Integers of fixed width have at most eight bytes. -/
theorem WireType.le_of_fixedWidth? {type : WireType} {n : Nat} (h : type.fixedWidth? = some n) :
    n ≤ 8 := by
  cases type with
  | fixed kind =>
      rw [fixedWidth?_fixed] at h
      cases h
      cases kind <;> decide
  | _ => cases h

theorem Specification.Sizes.le {spec : Specification} {l : Located} {n : Nat}
    (h : spec.Sizes l (some n)) : n ≤ 8 := by
  generalize hsize : some n = size at h
  induction h with
  | @enum l d hl =>
      rw [EnumDecl.size?] at hsize
      cases hvalue : d.valueType with
      | none =>
          rw [hvalue] at hsize
          cases hsize
          decide
      | some type =>
          rw [hvalue] at hsize
          exact WireType.le_of_fixedWidth? hsize.symm
  | builtin _ _ => exact WireType.le_of_fixedWidth? hsize.symm
  | through _ _ _ _ _ ih => exact ih hsize
  | varies _ _ => cases hsize

theorem Specification.SizesType.le {spec : Specification} {path : List String} {type : WireType}
    {n : Nat} (h : spec.SizesType path type (some n)) : n ≤ 8 := by
  cases type with
  | named name =>
      rcases h with ⟨_, _, _, hsizes⟩
      exact hsizes.le
  | _ => exact WireType.le_of_fixedWidth? h.symm

/-- Every type that has a size, or is known to have none, has an identity. -/
theorem Specification.SizesType.exists_identifies {spec : Specification} {path : List String}
    {type : WireType} {size : Option Nat} (h : spec.SizesType path type size) (options : Options) :
    ∃ identity, spec.Identifies options path type identity := by
  cases type with
  | named name =>
      rcases h with ⟨l, hl, hresolves, _⟩
      exact ⟨_, l, hl, hresolves, rfl⟩
  | varint kind => cases kind <;> exact ⟨_, rfl⟩
  | _ => exact ⟨_, rfl⟩

theorem Specification.Identifies.exists_value {spec : Specification} {options : Options}
    {path : List String} {type : WireType} {identity : Identity}
    (h : spec.Identifies options path type identity) :
    ∃ value, spec.IdentifiesValue options path type value := by
  unfold Specification.IdentifiesValue
  cases (NameTable.ofSpecification spec options).unsignedIdentity? type with
  | none => exact ⟨identity, h⟩
  | some wide => exact ⟨wide, rfl⟩

/-- A member with a size has a description with this size. -/
theorem Specification.SizesMember.exists_describes {spec : Specification} {owner : Located}
    {m : Member} {n : Nat} (h : spec.SizesMember owner.path m (some n)) (options : Options) :
    ∃ f, spec.Describes options owner m f ∧ f.size = some n := by
  have hsize := h
  rcases h with ⟨own, hown, h⟩
  rcases hown.exists_identifies options with ⟨identity, hidentity⟩
  rcases hidentity.exists_value with ⟨value, hvalue⟩
  obtain ⟨parameters, hparameters⟩ : ∃ parameters,
      List.Forall₂ (spec.Identifies options owner.path) m.type.elements parameters := by
    rcases m with ⟨name, type, default, count, order⟩
    cases type with
    | array width item =>
        -- the items have a size, so they are known as well
        cases hown
        cases count with
        | none => cases h
        | some count =>
            rcases h with ⟨each, hitem, _⟩
            rcases hitem.exists_identifies options with ⟨identity, hidentity⟩
            exact ⟨[identity], .cons hidentity .nil⟩
    | map width key value =>
        cases hown
        cases h
    | _ => exact ⟨[], .nil⟩
  exact ⟨⟨m.name, m.type.display, identity, value, parameters, none, some n, m.isRequired,
    m.default, m.byteOrder⟩, ⟨rfl, rfl, hidentity, hvalue, hparameters, hsize, rfl, rfl, rfl⟩, rfl⟩

namespace Site

variable (site : Site)

theorem identityOf_answers (t : WireType) : (site.identityOf t).Answers := by
  unfold identityOf
  cases site.table.identityIn? site.scope t with
  | none => exact answers_refuse _
  | some identity => exact answers_ok identity

theorem valueIdentityOf_answers (t : WireType) : (site.valueIdentityOf t).Answers := by
  unfold valueIdentityOf
  cases site.table.valueIdentityIn? site.scope t with
  | none => exact answers_refuse _
  | some identity => exact answers_ok identity

theorem resolve_answers (name : String) : (site.resolve name).Answers := by
  unfold resolve
  cases site.table.qualify? site.scope name with
  | none => exact answers_refuse _
  | some q =>
      dsimp only
      cases site.table.lookup? q with
      | none => exact answers_refuse _
      | some entry => exact answers_ok entry

theorem parameters_answers (t : WireType) : (site.parameters t).Answers := by
  cases t with
  | array width item => exact (site.identityOf_answers item).bind fun _ => answers_ok _
  | map width key value =>
      refine (site.identityOf_answers key).bind fun _ => ?_
      exact (site.identityOf_answers value).bind fun _ => answers_ok _
  | _ => exact answers_ok _

end Site

section Fields

variable {spec : Specification} {options : Options} {site : Site}
  (hunique : (spec.located.map Located.qualifiedName).Nodup)
  (hpaths : ∀ l ∈ spec.located, ∀ name ∈ l.path, IsIdentifier name)
  (htable : site.table = NameTable.ofSpecification spec options) {l : Located}
  (hl : l ∈ spec.located)

include hunique hpaths htable hl

theorem Site.identityIn?_of_identifies {type : WireType} {identity : Identity}
    (h : spec.Identifies options l.path type identity) :
    site.table.identityIn? l.scope type = some identity := by
  rw [htable]
  cases type with
  | named name =>
      rcases h with ⟨k, hk, hresolves, rfl⟩
      refine Option.bind_eq_some_iff.mpr
        ⟨_, (qualify?_ofSpecification hpaths hl name _).mpr hresolves, ?_⟩
      exact Option.bind_eq_some_iff.mpr
        ⟨_, (lookup?_ofSpecification hunique).mpr ⟨k, hk, rfl, rfl⟩, rfl⟩
  | _ => exact h

theorem Site.identityOf_of_identifies {type : WireType} {identity : Identity}
    (h : spec.Identifies options l.path type identity) :
    (site.inScope l.scope).identityOf type = .ok identity := by
  have hfound : (site.inScope l.scope).table.identityIn? (site.inScope l.scope).scope type =
      some identity := Site.identityIn?_of_identifies hunique hpaths htable hl h
  rw [identityOf, hfound]

theorem Site.valueIdentityOf_of_identifiesValue {type : WireType} {identity : Identity}
    (h : spec.IdentifiesValue options l.path type identity) :
    (site.inScope l.scope).valueIdentityOf type = .ok identity := by
  have hfound : (site.inScope l.scope).table.valueIdentityIn? (site.inScope l.scope).scope type =
      some identity := by
    change (site.table.unsignedIdentity? type <|> site.table.identityIn? l.scope type) = _
    rw [Specification.IdentifiesValue, ← htable] at h
    cases hwide : site.table.unsignedIdentity? type with
    | some wide =>
        rw [hwide] at h
        cases h
        rfl
    | none =>
        rw [hwide] at h
        exact Site.identityIn?_of_identifies hunique hpaths htable hl h
  rw [valueIdentityOf, hfound]

theorem Site.parameters_of_identifies {type : WireType} {parameters : List Identity}
    (h : List.Forall₂ (spec.Identifies options l.path) type.elements parameters) :
    (site.inScope l.scope).parameters type = .ok parameters := by
  cases type with
  | array width item =>
      rcases h with _ | ⟨hitem, _ | _⟩
      rw [Site.parameters, Site.identityOf_of_identifies hunique hpaths htable hl hitem]
      rfl
  | map width key value =>
      rcases h with _ | ⟨hkey, _ | ⟨hvalue, _ | _⟩⟩
      rw [Site.parameters, Site.identityOf_of_identifies hunique hpaths htable hl hkey,
        Site.identityOf_of_identifies hunique hpaths htable hl hvalue]
      rfl
  | _ =>
      cases h
      rfl

variable (htypedefs : spec.TypedefsEnd)

include htypedefs

/-- The size of a member is found if it fits a word. -/
theorem Site.memberSize_of_sizesMember {m : Member} {size : Option Nat}
    (h : spec.SizesMember l.path m size) :
    (site.inScope l.scope).memberSize m = Word.fit? size := by
  rcases h with ⟨own, hown, h⟩
  have hfound := Site.fixedSize_of_sizesType hunique hpaths htable htypedefs hl hown
  rw [Site.memberSize, hfound, ok_bind]
  cases own with
  | some n =>
      -- integers always fit
      cases h
      have hle := hown.le
      refine (Word.fit?_of_lt fun k hk => ?_).symm
      cases hk
      omega
  | none =>
      rcases m with ⟨name, type, default, count, order⟩
      cases type with
      | array width item =>
          cases count with
          | none =>
              cases h
              rfl
          | some count =>
              rcases h with ⟨each, hitem, rfl⟩
              have hfound := Site.fixedSize_of_sizesType hunique hpaths htable htypedefs hl hitem
              simp only [hfound, ok_bind, Width.bytes_eq_size]
              cases each with
              | none => rfl
              | some n => exact Word.mul_bind_add count n (2 * width.size)
      | _ =>
          cases h
          rfl

/-- A member has a size, or is known to vary, unless a name in its type stands for
    nothing. -/
theorem Site.refuses_or_sizesMember (m : Member) :
    ((site.inScope l.scope).memberSize m).Refuses ∨ ∃ size, spec.SizesMember l.path m size := by
  have hsearch := fun type =>
    (Site.fixedSize_answers hunique hpaths htable htypedefs hl type).refuses_or_ok
  rw [Site.memberSize]
  rcases hsearch m.type with hrefused | ⟨own, hown⟩
  · exact .inl (hrefused.bind _)
  · have hsizes := sizesType_of_fixedSize hunique hpaths htable hl hown
    rw [hown, ok_bind]
    rcases m with ⟨name, type, default, count, order⟩
    cases own with
    | some n => exact .inr ⟨some n, some n, hsizes, rfl⟩
    | none =>
        cases type with
        | array width item =>
            cases count with
            | none => exact .inr ⟨none, none, hsizes, rfl⟩
            | some count =>
                rcases hsearch item with hrefused | ⟨each, heach⟩
                · exact .inl (hrefused.bind _)
                · have hitem := sizesType_of_fixedSize hunique hpaths htable hl heach
                  exact .inr ⟨_, none, hsizes, each, hitem, rfl⟩
        | _ => exact .inr ⟨none, none, hsizes, rfl⟩

/-- A member with a description whose size fits a word is described by it at any
    offset. -/
theorem Site.field_of_describes {m : Member} {f : FieldDescription}
    (h : spec.Describes options l m f) (hfits : ∀ n, f.size = some n → n < 2 ^ (64 : Nat))
    (offset : Option Nat) : (site.inScope l.scope).field m offset = .ok { f with offset } := by
  have hparameters := Site.parameters_of_identifies hunique hpaths htable hl h.parameters
  have hidentity := Site.identityOf_of_identifies hunique hpaths htable hl h.identity
  have hvalue := Site.valueIdentityOf_of_identifiesValue hunique hpaths htable hl h.valueIdentity
  have hsize := Site.memberSize_of_sizesMember hunique hpaths htable hl htypedefs h.size
  rw [Word.fit?_of_lt hfits] at hsize
  rw [Site.field, hparameters, hsize, hidentity, hvalue]
  rcases f with ⟨name, wireType, identity, value, parameters, at', size, required, default, order⟩
  rcases h with ⟨rfl, rfl, _, _, _, _, rfl, rfl, rfl⟩
  rfl

/-- Describing a member stops exactly if it has a size that does not fit a word. -/
theorem Site.field_eq_stopped_iff (m : Member) (offset : Option Nat) :
    (site.inScope l.scope).field m offset = .error .stopped ↔
      ∃ n, spec.SizesMember l.path m (some n) ∧ 2 ^ (64 : Nat) ≤ n := by
  constructor
  · intro h
    by_contra hfits
    rw [not_exists] at hfits
    -- the size does not stop, and nothing else can
    have hsize : ((site.inScope l.scope).memberSize m).Answers := by
      rcases Site.refuses_or_sizesMember hunique hpaths htable hl htypedefs m with
        ⟨cause, hrefused⟩ | ⟨size, hsize⟩
      · rw [hrefused]
        exact answers_refuse cause
      · rw [Site.memberSize_of_sizesMember hunique hpaths htable hl htypedefs hsize,
          Word.fit?_of_lt fun n hn => Nat.not_le.mp fun hle => hfits n ⟨hn ▸ hsize, hle⟩]
        exact answers_ok size
    refine Answers.bind (parameters_answers _ m.type) (fun parameters => ?_) h
    refine hsize.bind fun size => (identityOf_answers _ m.type).bind fun identity => ?_
    exact (valueIdentityOf_answers _ m.type).bind fun value => answers_ok _
  · rintro ⟨n, hsize, hn⟩
    rcases hsize.exists_describes options with ⟨f, hf, _⟩
    have hparameters := Site.parameters_of_identifies hunique hpaths htable hl hf.parameters
    have hstopped := Site.memberSize_of_sizesMember hunique hpaths htable hl htypedefs hsize
    rw [Word.fit?_of_le hn] at hstopped
    rw [Site.field, hparameters, ok_bind, hstopped]
    rfl

/-- Unless the size of a member does not fit a word, either it has no description, and
    describing it is refused, or all of its descriptions have the size of the one that
    is made. -/
theorem Site.field_of_fits {m : Member}
    (hfits : ¬ ∃ n, spec.SizesMember l.path m (some n) ∧ 2 ^ (64 : Nat) ≤ n) (offset : Option Nat) :
    (((site.inScope l.scope).field m offset).Refuses ∧ ∀ f, ¬ spec.Describes options l m f) ∨
      ∃ f, (site.inScope l.scope).field m offset = .ok f ∧ spec.Describes options l m f ∧
        ∀ f', spec.Describes options l m f' → f'.size = f.size := by
  have hmade : ∀ f, spec.Describes options l m f →
      (site.inScope l.scope).field m offset = .ok { f with offset } := by
    intro f hf
    refine Site.field_of_describes hunique hpaths htable hl htypedefs hf (fun n hn => ?_) offset
    exact Nat.not_le.mp fun hle => hfits ⟨n, hn ▸ hf.size, hle⟩
  have hanswers : ((site.inScope l.scope).field m offset).Answers := fun h =>
    hfits ((Site.field_eq_stopped_iff hunique hpaths htable hl htypedefs m offset).mp h)
  rcases hanswers.refuses_or_ok with ⟨cause, hrefused⟩ | ⟨f, hf⟩
  · refine .inl ⟨⟨cause, hrefused⟩, fun f hf => ?_⟩
    cases hrefused.symm.trans (hmade f hf)
  · refine .inr ⟨f, hf, Site.describes_of_field hunique hpaths htable hl hf, fun f' hf' => ?_⟩
    cases hf.symm.trans (hmade f' hf')
    rfl

end Fields

/-! ## Members one after the other -/

/-- Among members that are laid out from an offset, or without one, the first that is
    not described is one whose size does not fit a word, or behind which the offset
    does not. -/
inductive Specification.Overruns (spec : Specification) (options : Options) :
    Option Nat → List (Located × Member) → Prop where
  | size {offset : Option Nat} {owner : Located} {m : Member} {rest : List (Located × Member)}
      {n : Nat} (hsize : spec.SizesMember owner.path m (some n)) (h : 2 ^ (64 : Nat) ≤ n) :
      spec.Overruns options offset ((owner, m) :: rest)
  | offset {start : Nat} {owner : Located} {m : Member} {rest : List (Located × Member)}
      {n : Nat} (hsize : spec.SizesMember owner.path m (some n)) (h : 2 ^ (64 : Nat) ≤ start + n) :
      spec.Overruns options (some start) ((owner, m) :: rest)
  | later {offset : Option Nat} {owner : Located} {m : Member} {rest : List (Located × Member)}
      {f : FieldDescription} (hf : spec.Describes options owner m f)
      (hrest : spec.Overruns options (Option.map₂ (· + ·) offset f.size) rest) :
      spec.Overruns options offset ((owner, m) :: rest)

section Members

variable {spec : Specification} {options : Options} {site : Site}
  (hunique : (spec.located.map Located.qualifiedName).Nodup)
  (hpaths : ∀ l ∈ spec.located, ∀ name ∈ l.path, IsIdentifier name)
  (htable : site.table = NameTable.ofSpecification spec options)
  (htypedefs : spec.TypedefsEnd)

include hunique hpaths htable htypedefs

/-- Describing members stops exactly if they overrun. -/
theorem describeMembers_eq_stopped_iff {members : List (Located × Member)}
    (hmembers : ∀ a ∈ members, a.1 ∈ spec.located) (offset : Option Nat) :
    describeMembers offset (members.map fun a => (site.inScope a.1.scope, a.2)) =
        .error .stopped ↔ spec.Overruns options offset members := by
  induction members generalizing offset with
  | nil =>
      constructor
      · intro h
        cases h
      · intro h
        cases h
  | cons first rest ih =>
      rcases first with ⟨owner, m⟩
      rcases List.forall_mem_cons.mp hmembers with ⟨howner, hrest⟩
      rw [List.map_cons, describeMembers]
      by_cases hlarge : ∃ n, spec.SizesMember owner.path m (some n) ∧ 2 ^ (64 : Nat) ≤ n
      · rw [(Site.field_eq_stopped_iff hunique hpaths htable howner htypedefs m offset).mpr hlarge]
        rcases hlarge with ⟨n, hsize, hn⟩
        exact ⟨fun _ => .size hsize hn, fun _ => rfl⟩
      rcases Site.field_of_fits hunique hpaths htable howner htypedefs hlarge offset with
        ⟨⟨cause, hrefused⟩, hnone⟩ | ⟨f, hfield, hf, hsame⟩
      · -- a member without a description ends both
        rw [hrefused, error_bind]
        constructor
        · intro h
          cases h
        · intro h
          cases h with
          | size hsize hn => exact absurd ⟨_, hsize, hn⟩ hlarge
          | offset hsize _ =>
              rcases hsize.exists_describes options with ⟨f, hf, _⟩
              exact absurd hf (hnone f)
          | later hf _ => exact absurd hf (hnone _)
      · rw [hfield, ok_bind, nextOffset_eq_fit?]
        by_cases hbehind : ∃ n, Option.map₂ (· + ·) offset f.size = some n ∧ 2 ^ (64 : Nat) ≤ n
        · rcases hbehind with ⟨n, hsum, hn⟩
          rcases Option.map₂_eq_some_iff.mp hsum with ⟨start, size, rfl, hsize, rfl⟩
          rw [hsum, Word.fit?_of_le hn]
          exact ⟨fun _ => .offset (hsize ▸ hf.size) hn, fun _ => rfl⟩
        · have hfits : ∀ n, Option.map₂ (· + ·) offset f.size = some n → n < 2 ^ (64 : Nat) :=
            fun n hn => Nat.not_le.mp fun hle => hbehind ⟨n, hn, hle⟩
          rw [Word.fit?_of_lt hfits, ok_bind]
          have hih := ih hrest (Option.map₂ (· + ·) offset f.size)
          constructor
          · intro h
            exact .later hf (hih.mp ((bind_eq_stopped_iff fun _ => answers_ok _).mp h))
          · intro h
            cases h with
            | size hsize hn => exact absurd ⟨_, hsize, hn⟩ hlarge
            | @offset start _ _ _ n hsize hn =>
                rcases hsize.exists_describes options with ⟨f', hf', hsize'⟩
                refine absurd ⟨start + n, ?_, hn⟩ hbehind
                rw [← hsame f' hf', hsize']
                rfl
            | later hf' hover =>
                rw [hsame _ hf'] at hover
                rw [hih.mpr hover]
                rfl

end Members

/-! ## Declarations -/

theorem Checked.Answers.mapM {ε α β : Type} {f : α → Checked ε β} (h : ∀ x, (f x).Answers)
    (xs : List α) : Answers (xs.mapM f) := by
  induction xs with
  | nil => exact answers_ok []
  | cons x xs ih =>
      rw [List.mapM_cons]
      exact (h x).bind fun y => ih.bind fun ys => answers_ok _

theorem Checked.answers_ite {ε α : Type} {p : Prop} [Decidable p] {x y : Checked ε α}
    (hx : x.Answers) (hy : y.Answers) : Answers (if p then x else y) := by
  split
  · exact hx
  · exact hy

section Enums

variable (site : Site)

theorem constantValue_answers (valueType : Option WireType) (index : Nat) (c : EnumConstant) :
    (constantValue site valueType index c).Answers := by
  rcases c with ⟨name, value⟩
  cases valueType with
  | none =>
      cases value with
      | none => exact answers_ok _
      | some value => exact answers_refuse _
  | some type =>
      refine answers_ite ?_ ?_
      · rcases value with _ | value | text
        · exact answers_ok _
        · exact answers_refuse _
        · exact answers_ok _
      · cases type.valueRange? with
        | none => exact answers_refuse _
        | some range =>
            rcases value with _ | value | text
            · exact answers_ite (answers_refuse _) (answers_ok _)
            · exact answers_ite (answers_refuse _) (answers_ok _)
            · exact answers_refuse _

theorem constantValues_answers (valueType : Option WireType) (index : Nat)
    (constants : List EnumConstant) : (constantValues site valueType index constants).Answers := by
  induction constants generalizing index with
  | nil => exact answers_ok []
  | cons c rest ih =>
      refine (constantValue_answers site valueType index c).bind fun value => ?_
      exact (ih (index + 1)).bind fun values => answers_ok _

theorem describeEnum_answers (d : EnumDecl) : (describeEnum site d).Answers := by
  refine (constantValues_answers site d.valueType 0 d.constants).bind fun values => ?_
  refine Answers.bind ?_ fun encoding => answers_ok _
  cases d.valueType with
  | none => exact answers_ok _
  | some type => exact (site.valueIdentityOf_answers type).bind fun value => answers_ok _

end Enums

theorem prefixSize_answers (site : Site) (width : Width) (allowed : List Width) :
    (prefixSize site width allowed).Answers :=
  answers_ite (answers_ok _) (answers_refuse _)

theorem describeMapDecl_answers (site : Site) (d : MapDecl) : (describeMapDecl site d).Answers := by
  refine (prefixSize_answers site d.width _).bind fun size => ?_
  refine (site.identityOf_answers d.key).bind fun key => ?_
  exact (site.identityOf_answers d.value).bind fun value => answers_ok _

theorem discriminatingConstants_answers (site : Site) (kind : WireType) :
    (discriminatingConstants site kind).Answers := by
  refine answers_ite (answers_ok _) ?_
  cases kind with
  | named name =>
      refine (site.resolve_answers name).bind fun entry => ?_
      rcases entry with ⟨q, scope, declaration, identity⟩
      cases declaration with
      | enum d => exact answers_ok _
      | _ => exact answers_refuse _
  | _ => exact answers_refuse _

/-- Without a count of items, only integers have a size. -/
theorem Specification.SizesMember.le_of_uncounted {spec : Specification} {path : List String}
    {m : Member} {n : Nat} (h : spec.SizesMember path m (some n)) (hcount : m.size = none) :
    n ≤ 8 := by
  rcases m with ⟨name, type, default, count, order⟩
  cases hcount
  rcases h with ⟨_ | own, hown, h⟩
  · cases type <;> cases h
  · cases h
    exact hown.le

section Choices

variable {spec : Specification} {options : Options} {site : Site}
  (hunique : (spec.located.map Located.qualifiedName).Nodup)
  (hpaths : ∀ l ∈ spec.located, ∀ name ∈ l.path, IsIdentifier name)
  (htable : site.table = NameTable.ofSpecification spec options)
  (htypedefs : spec.TypedefsEnd) {l : Located} (hl : l ∈ spec.located)

include hunique hpaths htable htypedefs hl

theorem Site.field_answers_of_uncounted {m : Member} (hcount : m.size = none)
    (offset : Option Nat) : ((site.inScope l.scope).field m offset).Answers := by
  intro hstopped
  rcases (Site.field_eq_stopped_iff hunique hpaths htable hl htypedefs m offset).mp hstopped with
    ⟨n, hsize, hn⟩
  have hle := hsize.le_of_uncounted hcount
  omega

theorem describeUnion_answers (d : UnionDecl) :
    (describeUnion (site.inScope l.scope) d).Answers := by
  have hkind := Site.fixedSize_answers hunique hpaths htable htypedefs hl d.kind
  have hsize : (unionKindSize (site.inScope l.scope) d.kind).Answers := by
    refine hkind.bind fun size => ?_
    split
    · exact answers_ok _
    · exact answers_refuse _
  refine hsize.bind fun kindSize => ?_
  refine (Site.valueIdentityOf_answers _ d.kind).bind fun kind => ?_
  refine (Answers.mapM (fun c => ?_) d.cases).bind fun fields => answers_ok _
  exact Site.field_answers_of_uncounted hunique hpaths htable htypedefs hl rfl _

theorem describeVariant_answers (d : VariantDecl) :
    (describeVariant (site.inScope l.scope) d).Answers := by
  refine (discriminatingConstants_answers _ d.kind).bind fun constants => ?_
  cases d.cases.find? (!isDiscriminator constants ·.kind) with
  | some c => exact answers_refuse _
  | none =>
      have hcommon : (commonType (site.inScope l.scope) d).Answers := by
        unfold commonType
        split
        · exact answers_ok _
        · exact answers_ok _
        · exact answers_refuse _
      refine hcommon.bind fun common => ?_
      refine (Site.valueIdentityOf_answers _ common).bind fun common => ?_
      refine (Site.identityOf_answers _ d.kind).bind fun kind => ?_
      have hkind := Site.fixedSize_answers hunique hpaths htable htypedefs hl d.kind
      refine hkind.bind fun kindSize => ?_
      refine (Answers.mapM (fun c => ?_) d.cases).bind fun fields => answers_ok _
      exact Site.field_answers_of_uncounted hunique hpaths htable htypedefs hl rfl _

end Choices

theorem describeMembers_none (site : Site) (members : List Member) :
    describeMembers none (members.map (site, ·)) = members.mapM (site.field · none) := by
  induction members with
  | nil => rfl
  | cons m rest ih =>
      rw [List.map_cons, describeMembers, List.mapM_cons, ← ih]
      rfl

theorem Specification.StandsFor.unique {spec : Specification}
    (hunique : (spec.located.map Located.qualifiedName).Nodup) {l k k' : Located}
    (h : spec.StandsFor l k) (h' : spec.StandsFor l k') : k = k' := by
  induction h with
  | self hnot =>
      cases h' with
      | self _ => rfl
      | through hl _ _ _ _ => exact absurd hl (hnot _)
  | through hl hname hnext hresolves _ ih =>
      cases h' with
      | self hnot => exact absurd hl (hnot _)
      | through hl' hname' hnext' hresolves' hrest' =>
          cases hl.symm.trans hl'
          cases hname.symm.trans hname'
          have hsame := hresolves.unique hresolves'
          cases List.inj_on_of_nodup_map hunique hnext hnext' hsame
          exact ih hrest'

theorem Specification.Ancestors.unique {spec : Specification}
    (hunique : (spec.located.map Located.qualifiedName).Nodup) {l : Located}
    {ancestors ancestors' : List Located} (h : spec.Ancestors l ancestors)
    (h' : spec.Ancestors l ancestors') : ancestors = ancestors' := by
  induction h generalizing ancestors' with
  | root hl hnone =>
      cases h' with
      | root _ _ => rfl
      | step hl' hsuper _ _ _ =>
          cases hl.symm.trans hl'
          cases hnone.symm.trans hsuper
  | step hl hsuper hparent hresolves _ ih =>
      cases h' with
      | root hl' hnone =>
          cases hl.symm.trans hl'
          cases hnone.symm.trans hsuper
      | step hl' hsuper' hparent' hresolves' hrest' =>
          cases hl.symm.trans hl'
          cases hsuper.symm.trans hsuper'
          have hsame := hresolves.unique hresolves'
          cases List.inj_on_of_nodup_map hunique hparent hparent' hsame
          rw [ih hrest']

/-- A declaration is, or stands for, a struct or a list whose members overrun. The members
    of a struct are laid out from zero, after those of its ancestors. Those of a list have
    no offsets, and are looked at if the prefix and the number of members are allowed. -/
inductive Specification.TooLarge (spec : Specification) (options : Options) (l : Located) :
    Prop where
  | struct {k : Located} {ancestors : List Located} (hstands : spec.StandsFor l k)
      (hchain : spec.Ancestors k ancestors)
      (h : spec.Overruns options (some 0) (declaredMembers (k :: ancestors).reverse)) :
      spec.TooLarge options l
  | list {k : Located} {d : ListDecl} (hstands : spec.StandsFor l k)
      (hd : k.declaration = .list d) (hwidth : d.width = .eight ∨ d.width = .thirtyTwo)
      (hlength : d.members.length ≤ 64) (h : spec.Overruns options none (declaredMembers [k])) :
      spec.TooLarge options l

section Describing

variable {spec : Specification} {options : Options} (hverify : spec.verify = .ok ())
  (htypedefs : spec.TypedefsEnd) {l k : Located} (hl : l ∈ spec.located)

include hverify hl

/-- The members of a struct, under its own name or that of a typedef, are those of its
    ancestors from the top and then its own, each seen from the struct that declares it. -/
theorem exists_layout (options : Options) (hstands : spec.StandsFor l k) {d : StructDecl}
    (hd : k.declaration = .struct d) :
    ∃ ancestors, spec.Ancestors k ancestors ∧
      (∀ a ∈ declaredMembers (k :: ancestors).reverse, a.1 ∈ spec.located) ∧
      layout (l.siteFor spec options k) d =
        .ok ((declaredMembers (k :: ancestors).reverse).map fun a =>
          ((l.siteFor spec options k).inScope a.1.scope, a.2)) := by
  rcases Specification.located_of_verify hverify with ⟨hpaths, _, hunique⟩
  have hk := hstands.mem_located hl
  rcases Specification.ancestors_of_verify hverify hk hd with ⟨ancestors, hchain, hnodup⟩
  have hfresh := fresh_of_standsFor hunique hl hstands hchain hnodup
  have htable : (l.siteFor spec options k).table = NameTable.ofSpecification spec options := rfl
  refine ⟨ancestors, hchain, fun a ha => ?_, ?_⟩
  · exact List.forall_mem_cons.mpr ⟨hk, hchain.mem_located⟩ a.1
      (List.mem_reverse.mp (mem_of_declaredMembers ha))
  · rw [← Site.membersOf_eq_map]
    exact (layout_of_ancestors hunique hpaths htable hk hd rfl hchain hfresh).2

include htypedefs

/-- A struct stops where its members do, since its ancestors are there. -/
theorem describeStruct_eq_stopped_iff (hstands : spec.StandsFor l k) {d : StructDecl}
    (hd : k.declaration = .struct d) {ancestors : List Located}
    (hchain : spec.Ancestors k ancestors) :
    describeStruct (l.siteFor spec options k) d = .error .stopped ↔
      spec.Overruns options (some 0) (declaredMembers (k :: ancestors).reverse) := by
  rcases Specification.located_of_verify hverify with ⟨hpaths, _, hunique⟩
  rcases exists_layout hverify hl options hstands hd with
    ⟨ancestors', hchain', hmembers, hlayout⟩
  cases hchain.unique hunique hchain'
  have htable : (l.siteFor spec options k).table = NameTable.ofSpecification spec options := rfl
  rw [← describeMembers_eq_stopped_iff hunique hpaths htable htypedefs hmembers,
    describeStruct, hlayout, ok_bind]
  -- behind the members nothing can fail
  exact bind_eq_stopped_iff fun fields => answers_ok _

theorem describeListDecl_eq_stopped_iff (hstands : spec.StandsFor l k) {d : ListDecl}
    (hd : k.declaration = .list d) :
    describeListDecl (l.siteFor spec options k) d = .error .stopped ↔
      (d.width = .eight ∨ d.width = .thirtyTwo) ∧ d.members.length ≤ 64 ∧
        spec.Overruns options none (declaredMembers [k]) := by
  rcases Specification.located_of_verify hverify with ⟨hpaths, _, hunique⟩
  have hk := hstands.mem_located hl
  have htable : (l.siteFor spec options k).table = NameTable.ofSpecification spec options := rfl
  have hmembers : ∀ a ∈ declaredMembers [k], a.1 ∈ spec.located := by
    intro a ha
    rw [List.mem_singleton.mp (mem_of_declaredMembers ha)]
    exact hk
  have hwidth : d.width ∈ [Width.eight, Width.thirtyTwo] ↔
      d.width = .eight ∨ d.width = .thirtyTwo := by
    rw [List.mem_cons, List.mem_singleton]
  have hfields : d.members.mapM ((l.siteFor spec options k).field · none) =
      describeMembers none ((declaredMembers [k]).map fun a =>
        ((l.siteFor spec options k).inScope a.1.scope, a.2)) := by
    rw [← describeMembers_none, ← Site.membersOf_eq_map, Site.membersOf, List.flatMap_singleton, hd]
    rfl
  rw [← describeMembers_eq_stopped_iff hunique hpaths htable htypedefs hmembers, ← hfields,
    ← hwidth, describeListDecl, prefixSize]
  by_cases hallowed : d.width ∈ [Width.eight, Width.thirtyTwo]
  · rw [if_pos hallowed, ok_bind]
    by_cases hlength : d.members.length ≤ 64
    · rw [if_neg (show ¬ d.members.length > maskSize * 8 from Nat.not_lt.mpr hlength)]
      refine (bind_eq_stopped_iff fun fields => answers_ok _).trans ?_
      exact ⟨fun h => ⟨hallowed, hlength, h⟩, fun h => h.2.2⟩
    · rw [if_pos (show d.members.length > maskSize * 8 from Nat.not_le.mp hlength)]
      exact ⟨fun h => absurd h (answers_refuse _), fun h => absurd h.2.1 hlength⟩
  · rw [if_neg hallowed]
    exact ⟨fun h => absurd h (answers_refuse _), fun h => absurd h.1 hallowed⟩

/-- What is neither a struct nor a list does not stop. -/
theorem describeShape_answers (hstands : spec.StandsFor l k)
    (hstruct : ∀ d, k.declaration ≠ .struct d) (hlist : ∀ d, k.declaration ≠ .list d) :
    (describeShape (l.siteFor spec options k) k.declaration).Answers := by
  rcases Specification.located_of_verify hverify with ⟨hpaths, _, hunique⟩
  have hk := hstands.mem_located hl
  have htable : (l.site spec options).table = NameTable.ofSpecification spec options := rfl
  cases hd : k.declaration with
  | struct d => exact absurd hd (hstruct d)
  | list d => exact absurd hd (hlist d)
  | enum d => exact describeEnum_answers _ d
  | map d => exact describeMapDecl_answers _ d
  | union d => exact describeUnion_answers hunique hpaths htable htypedefs hk d
  | variant d => exact describeVariant_answers hunique hpaths htable htypedefs hk d
  | typedef d => exact answers_refuse _

omit htypedefs in
/-- A typedef that stands for no declaration leads to something built in, or to a name that
    stands for nothing, or in a circle. It does not stop. -/
theorem describeDeclaration_answers (hnone : ∀ k, ¬ spec.StandsFor l k) :
    (describeDeclaration (l.site spec options) l.declaration).Answers := by
  cases hd : l.declaration with
  | typedef d =>
      rcases aliasTarget_site hverify options hl hd with ⟨⟨found, hends⟩, htarget⟩
      have hfound : aliasTarget (l.site spec options) (l.site spec options).table.entries.length
          [(l.site spec options).qualifiedName] (l.site spec options).scope d.aliased =
            found.target (l.site spec options) := htarget found hends
      rw [describeDeclaration, describeTypedef, hfound]
      cases found with
      | cycle => exact answers_refuse _
      | unresolved name => exact answers_refuse _
      | builtin type =>
          rw [AliasEnd.target, ok_bind]
          dsimp only
          cases describeBuiltin? (l.site spec options).identity type with
          | none => exact answers_refuse _
          | some b => exact answers_ok _
      | declared k =>
          cases hends with
          | stops hreaches hstops =>
              cases hstops with
              | declared hnot => exact absurd (.of_reaches hreaches hnot) (hnone k)
  | _ =>
      refine absurd (.self fun d h => ?_) (hnone l)
      rw [hd] at h
      cases h

/-- Describing a declaration stops exactly if it is too large. -/
theorem describeDeclaration_eq_stopped_iff :
    describeDeclaration (l.site spec options) l.declaration = .error .stopped ↔
      spec.TooLarge options l := by
  rcases Specification.located_of_verify hverify with ⟨_, _, hunique⟩
  by_cases hstands : ∃ k, spec.StandsFor l k
  · rcases hstands with ⟨k, hstands⟩
    rw [describeDeclaration_eq_describeShape hverify hl hstands]
    constructor
    · intro h
      cases hd : k.declaration with
      | struct d =>
          rcases Specification.ancestors_of_verify hverify (hstands.mem_located hl) hd with
            ⟨ancestors, hchain, _⟩
          rw [hd] at h
          exact .struct hstands hchain
            ((describeStruct_eq_stopped_iff hverify htypedefs hl hstands hd hchain).mp h)
      | list d =>
          rw [hd] at h
          rcases (describeListDecl_eq_stopped_iff hverify htypedefs hl hstands hd).mp h with
            ⟨hwidth, hlength, hover⟩
          exact .list hstands hd hwidth hlength hover
      | _ =>
          refine absurd h (describeShape_answers hverify htypedefs hl hstands ?_ ?_)
          all_goals
            rw [hd]
            intro d hd
            cases hd
    · intro h
      cases h with
      | struct hstands' hchain hover =>
          cases hstands.unique hunique hstands'
          rcases hchain.isStruct with ⟨d, hd⟩
          rw [hd]
          exact (describeStruct_eq_stopped_iff hverify htypedefs hl hstands hd hchain).mpr hover
      | list hstands' hd hwidth hlength hover =>
          cases hstands.unique hunique hstands'
          rw [hd]
          exact (describeListDecl_eq_stopped_iff hverify htypedefs hl hstands hd).mpr
            ⟨hwidth, hlength, hover⟩
  · rw [not_exists] at hstands
    refine ⟨fun h => absurd h (describeDeclaration_answers hverify hl hstands), fun h => ?_⟩
    cases h with
    | struct hstands' _ _ => exact absurd hstands' (hstands _)
    | list hstands' _ _ _ _ => exact absurd hstands' (hstands _)

end Describing

end Wireform
