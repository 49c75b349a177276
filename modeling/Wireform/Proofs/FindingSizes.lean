import Wireform.Proofs.StructLayout
import Wireform.Proofs.TypedefChains

/-!
# Finding Sizes

The size of a type is found wherever there is one.

`FixedSizes` reads a size that was found as one that the declarations have. Here it
is the other way round: a size that the declarations have is found, and where there
is none the search ends in a refusal. What could keep it from either is a circle of
typedefs. The search does not notice one, since it remembers no names; it counts its
steps, and stops when there are none left. In a schema without such a circle it meets
each name once and has a step for every declaration, so it ends in what typedefs lead
to (`EndsIn`), as the walk that describes them does.

## Main definitions

* `Checked.Answers`: A computation that does not stop.
* `Specification.TypedefsEnd`: No typedef leads back to itself.
* `AliasEnd.size`: The answer of the search at what typedefs lead to.

## Theorems

* `Specification.Sizes.exists_endsIn`: A declaration takes what its typedefs end in
  takes.
* `Site.fixedSizeWithin_ends`: The search ends in what typedefs lead to.
* `Site.fixedSize_of_sizesType`: The size of a type is found.
* `Site.fixedSize_answers`: The search does not stop.
-/

namespace Wireform

open Relation (ReflTransGen TransGen)

namespace Checked

variable {ε α β : Type}

/-- The computation ends with a value or a refusal: it does not stop. -/
def Answers (x : Checked ε α) : Prop :=
  x ≠ .error .stopped

theorem answers_ok (a : α) : Answers (.ok a : Checked ε α) := by
  intro h
  cases h

theorem answers_refuse (cause : ε) : Answers (refuse cause : Checked ε α) := by
  intro h
  cases h

/-- A sequence stops only where one of its steps does. -/
theorem Answers.bind {x : Checked ε α} {f : α → Checked ε β} (hx : x.Answers)
    (hf : ∀ a, (f a).Answers) : Answers (x >>= f) := by
  cases x with
  | ok a => exact hf a
  | error fault =>
      rw [error_bind]
      intro h
      cases h
      exact hx rfl

/-- If only the first step can stop, the sequence stops where it does. -/
theorem bind_eq_stopped_iff {x : Checked ε α} {f : α → Checked ε β} (hf : ∀ a, (f a).Answers) :
    x >>= f = .error .stopped ↔ x = .error .stopped := by
  constructor
  · intro h
    by_contra hx
    exact Answers.bind hx hf h
  · rintro rfl
    rfl

theorem Answers.refuses_or_ok {x : Checked ε α} (h : x.Answers) :
    x.Refuses ∨ ∃ a, x = .ok a := by
  rcases x with (cause | _) | a
  · exact .inl ⟨cause, rfl⟩
  · exact absurd rfl h
  · exact .inr ⟨a, rfl⟩

end Checked

/-- No typedef leads back to itself. -/
def Specification.TypedefsEnd (spec : Specification) : Prop :=
  ∀ l ∈ spec.located, ¬ TransGen spec.Aliases l l

/-- The answer of a search for a size that leads there. -/
def AliasEnd.size (site : Site) : AliasEnd → Compiled (Option Nat)
  | .cycle => Checked.stop
  | .unresolved name => site.unresolved (.named name)
  | .builtin type => .ok type.fixedWidth?
  | .declared l => .ok (AliasTarget.declared l.scope l.declaration).size?

namespace Specification

variable {spec : Specification} {l : Located} {size : Option Nat}

theorem TypedefsEnd.not_cycle (h : spec.TypedefsEnd) : ¬ spec.EndsIn l .cycle := by
  intro hends
  cases hends with
  | cycle _ hcycle =>
      rcases TransGen.tail'_iff.mp hcycle with ⟨b, _, hlast⟩
      exact h _ hlast.mem_located hcycle
  | stops _ hstops => cases hstops

/-- Typedefs that all lead to a place where they stop do not lead back. -/
theorem TypedefsEnd.of_stops (hunique : (spec.located.map Located.qualifiedName).Nodup)
    (h : ∀ l ∈ spec.located, ∃ last found, ReflTransGen spec.Aliases l last ∧
      spec.Stops last found) : spec.TypedefsEnd := by
  intro l hl
  rcases h l hl with ⟨last, found, hreaches, hstops⟩
  exact hstops.not_cycle hunique hreaches

/-- What a declaration takes is what its typedefs end in takes. -/
theorem Sizes.exists_endsIn (h : spec.Sizes l size) :
    ∃ found, spec.EndsIn l found ∧ ∀ site, found.size site = .ok size := by
  induction h with
  | @enum l d hl =>
      have hnot : ∀ e, l.declaration ≠ .typedef e := by
        rw [hl]
        intro e he
        cases he
      have hsizes : spec.Sizes l d.size? := .enum hl
      refine ⟨.declared l, .stops .refl (.declared hnot), fun site => ?_⟩
      rw [AliasEnd.size, size?_declared hnot hsizes]
  | builtin hl haliased => exact ⟨_, .stops .refl (.builtin hl haliased), fun _ => rfl⟩
  | through hl hname hnext hresolves _ ih =>
      rcases ih with ⟨found, hends, hsize⟩
      exact ⟨found, hends.head ⟨_, _, hl, hname, hnext, hresolves⟩, hsize⟩
  | @varies l henum htypedef =>
      have hsizes : spec.Sizes l none := .varies henum htypedef
      refine ⟨.declared l, .stops .refl (.declared htypedef), fun site => ?_⟩
      rw [AliasEnd.size, size?_declared htypedef hsizes]

end Specification

section Searching

variable {spec : Specification} {options : Options} {site : Site}
  (hunique : (spec.located.map Located.qualifiedName).Nodup)
  (hpaths : ∀ l ∈ spec.located, ∀ name ∈ l.path, IsIdentifier name)
  (htable : site.table = NameTable.ofSpecification spec options)
  (htypedefs : spec.TypedefsEnd)

include hpaths htable in
theorem Site.fixedSizeWithin_of_not_resolves {l : Located} (hl : l ∈ spec.located)
    {name : String} (h : ∀ q, ¬ Resolves spec.Defines name l.path q) (steps : Nat) :
    (site.inScope l.scope).fixedSizeWithin steps (.named name) =
      site.unresolved (.named name) := by
  rw [fixedSizeWithin.eq_def]
  exact congrArg (· >>= _) (Site.resolve_of_not_resolves hpaths htable hl h)

theorem Site.fixedSizeWithin_of_builtin {type : WireType} (h : ∀ name, type ≠ .named name)
    (steps : Nat) : site.fixedSizeWithin steps type = .ok type.fixedWidth? := by
  cases type with
  | named name => exact absurd rfl (h name)
  | _ =>
      rw [fixedSizeWithin.eq_def]
      rfl

include hunique hpaths htable

theorem Site.fixedSizeWithin_of_declared {l next : Located} {name : String}
    (hl : l ∈ spec.located) (hnext : next ∈ spec.located)
    (hresolves : Resolves spec.Defines name l.path next.qualifiedName)
    (hnot : ∀ d, next.declaration ≠ .typedef d) (steps : Nat) :
    (site.inScope l.scope).fixedSizeWithin steps (.named name) =
      .ok (AliasTarget.declared next.scope next.declaration).size? := by
  have hentry := Site.resolve_of_resolves hunique hpaths htable hl hnext hresolves
  rw [fixedSizeWithin.eq_def]
  simp only [hentry, Checked.ok_bind]
  rw [show (next.entry options).declaration = next.declaration from rfl]
  cases hdecl : next.declaration with
  | typedef d => exact absurd hdecl (hnot d)
  | enum d => rcases d with ⟨name, _ | type, constants⟩ <;> rfl
  | _ => rfl

include htypedefs

/-- The search ends in what typedefs lead to, if there are enough steps for all names
    that it has not met. -/
theorem Site.fixedSizeWithin_ends {l next : Located} {name : String} {seen : List String}
    {steps : Nat} (hl : l ∈ spec.located) (hnext : next ∈ spec.located)
    (hresolves : Resolves spec.Defines name l.path next.qualifiedName)
    (hmet : spec.Met (next.qualifiedName :: seen) next)
    (hsteps : spec.located.length ≤ seen.length + steps) :
    ∃ found, spec.EndsIn next found ∧
      (site.inScope l.scope).fixedSizeWithin steps (.named name) = found.size site := by
  induction steps using Nat.strongRecOn generalizing l next name seen with
  | ind steps ih =>
      by_cases htypedef : ∃ d, next.declaration = .typedef d
      · rcases htypedef with ⟨d, hdecl⟩
        -- one more name was met, so not all steps were taken
        have hlength := hmet.length_le
        rw [List.length_cons] at hlength
        obtain ⟨k, rfl⟩ : ∃ k, steps = k + 1 := Nat.exists_eq_add_one.mpr (by omega)
        have hentry := Site.resolve_of_resolves hunique hpaths htable hl hnext hresolves
        rw [fixedSizeWithin.eq_def]
        simp only [hentry, Checked.ok_bind]
        rw [show (next.entry options).declaration = next.declaration from rfl, hdecl]
        change ∃ found, spec.EndsIn next found ∧
          (site.inScope next.scope).fixedSizeWithin k d.aliased = found.size site
        cases haliased : d.aliased with
        | named name =>
            by_cases hresolves : ∃ q, Resolves spec.Defines name next.path q
            · rcases hresolves with ⟨q, hresolves⟩
              rcases List.mem_map.mp hresolves.defined with ⟨later, hlater, rfl⟩
              have hstep : spec.Aliases next later :=
                ⟨d, name, hdecl, haliased, hlater, hresolves⟩
              -- a name that was met before would close a circle
              have hnew : later.qualifiedName ∉ next.qualifiedName :: seen := fun hseen =>
                htypedefs.not_cycle (hmet.cycle hunique hstep hseen)
              have hleft : spec.located.length ≤ (next.qualifiedName :: seen).length + k := by
                rw [List.length_cons]
                omega
              rcases ih k (Nat.lt_succ_self k) hnext hlater hresolves (hmet.step hstep hnew)
                hleft with ⟨found, hends, hsize⟩
              exact ⟨found, hends.head hstep, hsize⟩
            · rw [not_exists] at hresolves
              refine ⟨.unresolved name, .stops .refl (.unresolved hdecl haliased hresolves), ?_⟩
              exact Site.fixedSizeWithin_of_not_resolves hpaths htable hnext hresolves k
        | _ =>
            have hnot : ∀ name, d.aliased ≠ .named name := by
              rw [haliased]
              intro name hname
              cases hname
            refine ⟨.builtin d.aliased, .stops .refl (.builtin hdecl hnot), ?_⟩
            rw [← haliased]
            exact Site.fixedSizeWithin_of_builtin hnot k
      · rw [not_exists] at htypedef
        refine ⟨.declared next, .stops .refl (.declared htypedef), ?_⟩
        exact Site.fixedSizeWithin_of_declared hunique hpaths htable hl hnext hresolves htypedef _

/-- The search for the size of a name has a step for every declaration of the schema,
    so it ends in what the declaration that the name stands for leads to. -/
theorem Site.fixedSize_ends {l next : Located} {name : String} (hl : l ∈ spec.located)
    (hnext : next ∈ spec.located)
    (hresolves : Resolves spec.Defines name l.path next.qualifiedName) :
    ∃ found, spec.EndsIn next found ∧
      (site.inScope l.scope).fixedSize (.named name) = found.size site := by
  have hsteps : spec.located.length ≤ ([] : List String).length + site.table.entries.length := by
    rw [htable]
    change spec.located.length ≤ 0 + (spec.located.map (Located.entry options)).length
    rw [List.length_map]
    omega
  exact Site.fixedSizeWithin_ends hunique hpaths htable htypedefs hl hnext hresolves
    (.singleton hnext) hsteps

/-- The size of a type is found. -/
theorem Site.fixedSize_of_sizesType {l : Located} (hl : l ∈ spec.located) {type : WireType}
    {size : Option Nat} (h : spec.SizesType l.path type size) :
    (site.inScope l.scope).fixedSize type = .ok size := by
  cases type with
  | named name =>
      rcases h with ⟨next, hnext, hresolves, hsizes⟩
      rcases Site.fixedSize_ends hunique hpaths htable htypedefs hl hnext hresolves with
        ⟨found, hends, hfound⟩
      rcases hsizes.exists_endsIn with ⟨found', hends', hsize⟩
      cases hends.unique hunique hends'
      rw [hfound, hsize]
  | _ =>
      cases h
      rw [fixedSize, Site.fixedSizeWithin.eq_def]
      rfl

/-- The search for a size does not stop. It fails only where a name on the way stands
    for nothing. -/
theorem Site.fixedSize_answers {l : Located} (hl : l ∈ spec.located) (type : WireType) :
    ((site.inScope l.scope).fixedSize type).Answers := by
  cases type with
  | named name =>
      by_cases hresolves : ∃ q, Resolves spec.Defines name l.path q
      · rcases hresolves with ⟨q, hresolves⟩
        rcases List.mem_map.mp hresolves.defined with ⟨next, hnext, rfl⟩
        rcases Site.fixedSize_ends hunique hpaths htable htypedefs hl hnext hresolves with
          ⟨found, hends, hfound⟩
        rw [hfound]
        cases found with
        | cycle => exact absurd hends htypedefs.not_cycle
        | unresolved name => exact Checked.answers_refuse _
        | builtin type => exact Checked.answers_ok _
        | declared k => exact Checked.answers_ok _
      · rw [not_exists] at hresolves
        rw [fixedSize, Site.fixedSizeWithin_of_not_resolves hpaths htable hl hresolves]
        exact Checked.answers_refuse _
  | _ =>
      rw [fixedSize, Site.fixedSizeWithin.eq_def]
      exact Checked.answers_ok _

end Searching

end Wireform
