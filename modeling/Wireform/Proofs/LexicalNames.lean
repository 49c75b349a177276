import Mathlib.Order.Lattice.Nat
import Wireform.Proofs.Targets

/-!
# Names Are Lexical

What a name stands for is decided by the path it is seen from, and by nothing else.

The search takes a qualified name for its scope and cuts it at the separators, and
what it puts behind each cut is a name that may hold separators of its own. On paths
this is a matter of numbers. From a path of `n` names, the first `k` of them may be
kept in front of the name, for each `k` down from `n`, and the largest `k` that gives
something defined is the one that counts. With `k` at zero nothing is kept, so a name
that is qualified already stands for itself, if nothing further inside takes its place.

A name with separators is a path by itself. Since declarations stand in scopes with
proper names, the text that is put together can only be the name of a declaration if
its path is the kept one with the path of the name behind it.

## Main definitions

* `definedDepths`: How many names of a path may be kept in front of a name.

## Theorems

* `mem_definedDepths_concat`: What changes from one scope to the scope inside it.
* `resolves_iff_isGreatest`: A name stands for what the longest kept path gives.
* `splitPath_qualify_concat`: Where the separators of a composed name are.
* `qualify_lexical`: Names are qualified by the longest path that defines them.
-/

namespace Wireform

/-- How many of the first names of a path may be kept in front of a name for the
    result to be defined. -/
def definedDepths (Defined : String → Prop) (path : List String) (name : String) : Set Nat :=
  {k | k ≤ path.length ∧ Defined (qualify (path.take k ++ [name]))}

section Depths

variable {Defined : String → Prop} {path : List String} {scope name q : String} {k : Nat}

theorem mem_definedDepths :
    k ∈ definedDepths Defined path name ↔
      k ≤ path.length ∧ Defined (qualify (path.take k ++ [name])) :=
  Iff.rfl

/-- From a scope the same depths are found as from the scope around, and one more if
    the name is defined in the scope itself. -/
theorem mem_definedDepths_concat :
    k ∈ definedDepths Defined (path ++ [scope]) name ↔
      k ∈ definedDepths Defined path name ∨
        k = (path ++ [scope]).length ∧ Defined (qualify (path ++ [scope] ++ [name])) := by
  have hlength : (path ++ [scope]).length = path.length + 1 := List.length_append
  rw [mem_definedDepths, mem_definedDepths]
  by_cases hlast : k = (path ++ [scope]).length
  · subst hlast
    rw [List.take_length]
    constructor
    · exact fun h => .inr ⟨rfl, h.2⟩
    · rintro (⟨hle, _⟩ | h)
      · omega
      · exact ⟨Nat.le_refl _, h.2⟩
  · constructor
    · rintro ⟨hle, hdefined⟩
      rw [List.take_append_of_le_length (by omega)] at hdefined
      exact .inl ⟨by omega, hdefined⟩
    · rintro (⟨hle, hdefined⟩ | h)
      · rw [List.take_append_of_le_length hle]
        exact ⟨by omega, hdefined⟩
      · exact absurd h.1 hlast

/-- A name stands for what the longest path gives that may be kept in front of it. -/
theorem resolves_iff_isGreatest :
    Resolves Defined name path q ↔
      ∃ k, IsGreatest (definedDepths Defined path name) k ∧
        q = qualify (path.take k ++ [name]) := by
  constructor
  · intro h
    induction h with
    | @here path hd =>
        refine ⟨path.length, ⟨⟨Nat.le_refl _, ?_⟩, fun j hj => hj.1⟩, ?_⟩
        · rwa [List.take_length]
        · rw [List.take_length]
    | @outward path scope q hnot _ ih =>
        rcases ih with ⟨k, ⟨hk, hlargest⟩, rfl⟩
        refine ⟨k, ⟨mem_definedDepths_concat.mpr (.inl hk), fun j hj => ?_⟩, ?_⟩
        · rcases mem_definedDepths_concat.mp hj with hj | ⟨_, hdefined⟩
          · exact hlargest hj
          · exact absurd hdefined hnot
        · rw [List.take_append_of_le_length hk.1]
  · rintro ⟨k, hk, rfl⟩
    -- the innermost scope is dropped until the path is as long as is kept
    induction path using List.reverseRecOn with
    | nil =>
        cases Nat.le_zero.mp hk.1.1
        exact .here hk.1.2
    | append_singleton outer scope ih =>
        by_cases hdefined : Defined (qualify (outer ++ [scope] ++ [name]))
        · have hlast := hk.2 (mem_definedDepths_concat.mpr (.inr ⟨rfl, hdefined⟩))
          rw [List.take_of_length_le hlast]
          exact .here hdefined
        · have hdepths : definedDepths Defined (outer ++ [scope]) name =
              definedDepths Defined outer name := by
            ext j
            rw [mem_definedDepths_concat, or_iff_left fun h => hdefined h.2]
          rw [hdepths] at hk
          rw [List.take_append_of_le_length hk.1.1]
          exact .outward hdefined (ih hk)

/-- Where a name is defined under some kept path, it stands for something. -/
theorem exists_resolves_of_mem (h : k ∈ definedDepths Defined path name) :
    ∃ q, Resolves Defined name path q := by
  have hbound : BddAbove (definedDepths Defined path name) := ⟨path.length, fun j hj => hj.1⟩
  exact ⟨_, resolves_iff_isGreatest.mpr
    ⟨_, ⟨Nat.sSup_mem ⟨k, h⟩ hbound, fun _ hj => le_csSup hbound hj⟩, rfl⟩⟩

end Depths

section Composed

/-- A name behind a path has its own separators behind those of the path. -/
theorem splitPath_qualify_concat {path : List String} (hpath : ∀ s ∈ path, IsIdentifier s)
    (name : String) : splitPath (qualify (path ++ [name])) = path ++ splitPath name := by
  induction path with
  | nil => rw [List.nil_append, qualify_singleton, List.nil_append]
  | cons first rest ih =>
      rcases List.forall_mem_cons.mp hpath with ⟨hfirst, hrest⟩
      rw [splitPath, List.cons_append,
        toList_qualify_cons (List.append_ne_nil_of_right_ne_nil rest (List.cons_ne_nil _ _)),
        splitSeparator_word_append hfirst.ne_colon, List.map_cons, String.ofList_toList]
      exact congrArg (first :: ·) (ih hrest)

variable {spec : Specification}

/-- The declarations of a verified schema that a composed name is the name of stand
    where the path and the name lead together. -/
theorem defines_concat_iff (hverify : spec.verify = .ok ()) {path : List String}
    (hpath : ∀ s ∈ path, IsIdentifier s) (name : String) :
    spec.Defines (qualify (path ++ [name])) ↔
      ∃ l ∈ spec.located, l.path ++ [l.declaration.name] = path ++ splitPath name := by
  rcases Specification.located_of_verify hverify with ⟨hpaths, hdecls, _⟩
  have hsplit : ∀ l ∈ spec.located,
      splitPath l.qualifiedName = l.path ++ [l.declaration.name] := by
    intro l hl
    refine splitPath_qualify (List.append_ne_nil_of_right_ne_nil _ (List.cons_ne_nil _ _)) ?_
    exact List.forall_mem_append.mpr
      ⟨hpaths l hl, List.forall_mem_singleton.mpr (hdecls l hl).name⟩
  rw [Specification.Defines, List.mem_map]
  refine exists_congr fun l => and_congr_right fun hl => ?_
  constructor
  · intro h
    rw [← hsplit l hl, h, splitPath_qualify_concat hpath]
  · intro h
    rw [← qualify_splitPath l.qualifiedName, hsplit l hl, h, ← splitPath_qualify_concat hpath,
      qualify_splitPath]

end Composed

/-- Seen from a path of scopes with proper names, a name with or without separators is
    qualified by as many of the first names of the path as are possible for the result
    to be declared, down to none of them, and is not qualified only if no number of them
    will do. That a schema declares the result means that one of its declarations
    stands where the kept names and those of the name lead. -/
theorem qualify_lexical {spec : Specification} (hverify : spec.verify = .ok ())
    (options : Options) {path : List String} (hpath : ∀ s ∈ path, IsIdentifier s)
    (name : String) :
    (∀ q, (NameTable.ofSpecification spec options).qualify? (qualify path) name = some q ↔
      ∃ k, IsGreatest {k | k ≤ path.length ∧ spec.Defines (qualify (path.take k ++ [name]))} k ∧
        q = qualify (path.take k ++ [name])) ∧
    ((NameTable.ofSpecification spec options).qualify? (qualify path) name = none ↔
      ∀ k ≤ path.length, ¬ spec.Defines (qualify (path.take k ++ [name]))) ∧
    ∀ k, spec.Defines (qualify (path.take k ++ [name])) ↔
      ∃ l ∈ spec.located, l.path ++ [l.declaration.name] = path.take k ++ splitPath name := by
  have hsame : (fun q => (NameTable.ofSpecification spec options).isDefined q = true) =
      spec.Defines := by
    funext q
    rw [isDefined_ofSpecification]
  have hresolves : ∀ q, (NameTable.ofSpecification spec options).qualify? (qualify path) name =
      some q ↔ Resolves spec.Defines name path q := by
    intro q
    rw [← hsame]
    exact searchOutward_eq_some_iff _ hpath name q
  refine ⟨fun q => (hresolves q).trans resolves_iff_isGreatest, ?_, fun k => ?_⟩
  · rw [Option.eq_none_iff_forall_ne_some]
    constructor
    · intro h k hk hdefined
      rcases exists_resolves_of_mem (mem_definedDepths.mpr ⟨hk, hdefined⟩) with ⟨q, hq⟩
      exact h q ((hresolves q).mpr hq)
    · intro h q hq
      rcases resolves_iff_isGreatest.mp ((hresolves q).mp hq) with ⟨k, hk, _⟩
      exact h k hk.1.1 hk.1.2
  · exact defines_concat_iff hverify (fun s hs => hpath s (List.mem_of_mem_take hs)) name

/-- A schema in which an inner scope has a declaration of the same name. -/
def shadows : Specification where
  scope := .mk "example"
    [.mk "inner" [] [.enum { name := "Kind", constants := [{ name := "SMALL" }] }]]
    [.enum { name := "Kind", constants := [{ name := "LARGE" }] }]

-- From the inner scope, a name that starts with the name of that scope leads out of it
-- by one step and back in.
theorem qualify_lexical_shadows :
    shadows.verify = .ok () ∧ (∀ s ∈ ["example", "inner"], IsIdentifier s) ∧
      (NameTable.ofSpecification shadows {}).qualify? "example::inner" "inner::Kind" =
        some "example::inner::Kind" ∧
      (NameTable.ofSpecification shadows {}).qualify? "example::inner" "Missing" = none := by
  have hverify : shadows.verify = .ok () := by decide +kernel
  have hpath : ∀ s ∈ ["example", "inner"], IsIdentifier s := by
    intro s hs
    rw [← isIdentifier_iff]
    revert s
    decide +kernel
  have hdefines : shadows.located.map Located.qualifiedName =
      ["example::Kind", "example::inner::Kind"] := by decide +kernel
  have hgreatest : IsGreatest {k | k ≤ ["example", "inner"].length ∧
      shadows.Defines (qualify (["example", "inner"].take k ++ ["inner::Kind"]))} 1 := by
    simp only [Specification.Defines, hdefines]
    refine ⟨⟨by decide, by decide +kernel⟩, fun k hk => Nat.le_of_not_lt fun hlt => ?_⟩
    obtain rfl : k = 2 := Nat.le_antisymm hk.1 hlt
    exact absurd hk.2 (by decide +kernel)
  have hnone : ∀ k ≤ ["example", "inner"].length,
      ¬ shadows.Defines (qualify (["example", "inner"].take k ++ ["Missing"])) := by
    simp only [Specification.Defines, hdefines]
    decide +kernel
  refine ⟨hverify, hpath, ?_, ?_⟩
  · exact ((qualify_lexical hverify {} hpath "inner::Kind").1 _).mpr ⟨1, hgreatest, rfl⟩
  · exact (qualify_lexical hverify {} hpath "Missing").2.1.mpr hnone

end Wireform
