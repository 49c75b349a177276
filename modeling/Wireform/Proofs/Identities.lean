import Wireform.Proofs.Reordering
import Wireform.Proofs.Targets

/-!
# The Declarations of a Schema and Their Identities

The table of names lists the declarations of a schema, and no two of them are
confused.

A declaration stands at a place in the tree of scopes: it is one of the declarations
of the root, or it stands at a place in one of the nested scopes. Names do not tell
places apart, since scopes next to each other may have the same name, and then the
declarations in them stand on the same path. `Scope.Holds` therefore goes by
positions, and `Place.Before` orders them depth first, without mentioning the list
that the table makes.

The identity of a declaration is two texts. The namespace is put in front of the
path and the suffix behind the name, and both may hold anything, separators
included. They are the same for all declarations, so they can be taken off again.
What remains is a path of identifiers, and this can be read from its text. An empty
namespace leaves its separator behind, in front of all declarations but those of the
root, and no identifier starts with a colon.

## Main definitions

* `Place`: A position in the tree of scopes.
* `Place.Before`: Places in depth-first order.
* `Scope.Holds`: A declaration stands at a place, on a path of names.
* `Scope.places`: The places of a scope.

## Theorems

* `Place.Before.irrefl`: No place stands before itself.
* `Scope.places_pairwise`: The places are in order.
* `Scope.mem_places`: The places are those where declarations stand.
* `Scope.locate_places`: At each place stands what is listed there.
* `foldl_insertName`: Names of their own are all kept.
* `toList_display_entry`: The text of an identity.
* `display_entry_inj`: The text of an identity tells which declaration it is of.
* `names_faithful`: The table lists every declaration once, with its names, and gives
  it an identity of its own.
-/

namespace Wireform

/-- A position in a scope: among its own declarations, or in one of the nested
    scopes. -/
inductive Place where
  | own (index : Nat)
  | nested (scope : Nat) (inside : Place)

/-- Depth first: the declarations of a scope come before those of the nested
    scopes. -/
inductive Place.Before : Place → Place → Prop where
  | own {i j : Nat} (h : i < j) : Before (.own i) (.own j)
  | outer {i j : Nat} {p : Place} : Before (.own i) (.nested j p)
  | scopes {i j : Nat} {p q : Place} (h : i < j) : Before (.nested i p) (.nested j q)
  | inside {i : Nat} {p q : Place} (h : Before p q) : Before (.nested i p) (.nested i q)

/-- At a place in a scope stands a declaration. The names are those of the scopes
    around it, the outermost first. -/
inductive Scope.Holds : Scope → Place → List String → Declaration → Prop where
  | own {name : String} {scopes : List Scope} {declarations : List Declaration} {i : Nat}
      {d : Declaration} (h : declarations[i]? = some d) :
      Holds (.mk name scopes declarations) (.own i) [name] d
  | nested {name : String} {scopes : List Scope} {declarations : List Declaration} {i : Nat}
      {inner : Scope} {p : Place} {names : List String} {d : Declaration}
      (hinner : scopes[i]? = some inner) (h : inner.Holds p names d) :
      Holds (.mk name scopes declarations) (.nested i p) (name :: names) d

mutual

/-- The places of a scope, its own first. -/
def Scope.places : Scope → List Place
  | .mk _ scopes declarations =>
      (List.range declarations.length).map Place.own ++ Scope.placesFrom 0 scopes

/-- The places in nested scopes, the first of which has the given position. -/
def Scope.placesFrom (i : Nat) : List Scope → List Place
  | [] => []
  | scope :: rest => scope.places.map (Place.nested i) ++ Scope.placesFrom (i + 1) rest

end

theorem Place.Before.irrefl (p : Place) : ¬ p.Before p := by
  induction p with
  | own i =>
      intro h
      cases h with
      | own h => exact Nat.lt_irrefl i h
  | nested i p ih =>
      intro h
      cases h with
      | scopes h => exact Nat.lt_irrefl i h
      | inside h => exact ih h

namespace Scope

section Places

theorem mem_placesFrom {scopes : List Scope} {i : Nat} {p : Place} :
    p ∈ placesFrom i scopes ↔
      ∃ (k : Nat) (inner : Scope), scopes[k]? = some inner ∧
        ∃ q ∈ inner.places, p = .nested (i + k) q := by
  induction scopes generalizing i with
  | nil => simp [placesFrom]
  | cons scope rest ih =>
      rw [placesFrom, List.mem_append, List.mem_map, ih]
      constructor
      · rintro (⟨q, hq, rfl⟩ | ⟨k, inner, hinner, q, hq, rfl⟩)
        · exact ⟨0, scope, rfl, q, hq, rfl⟩
        · exact ⟨k + 1, inner, hinner, q, hq, by rw [Nat.add_assoc, Nat.add_comm 1]⟩
      · rintro ⟨k, inner, hinner, q, hq, rfl⟩
        cases k with
        | zero =>
            cases hinner
            exact .inl ⟨q, hq, rfl⟩
        | succ k =>
            refine .inr ⟨k, inner, hinner, q, hq, ?_⟩
            rw [Nat.add_assoc, Nat.add_comm 1]

mutual

/-- The places of a scope are listed depth first. -/
theorem places_pairwise : (scope : Scope) → scope.places.Pairwise Place.Before
  | .mk name scopes declarations => by
      rw [places, List.pairwise_append]
      refine ⟨?_, placesFrom_pairwise 0 scopes, ?_⟩
      · rw [List.pairwise_map]
        exact List.pairwise_lt_range.imp fun h => .own h
      · intro p hp q hq
        rcases List.mem_map.mp hp with ⟨i, _, rfl⟩
        rcases mem_placesFrom.mp hq with ⟨_, _, _, q, _, rfl⟩
        exact .outer

theorem placesFrom_pairwise (i : Nat) : (scopes : List Scope) →
    (placesFrom i scopes).Pairwise Place.Before
  | [] => List.Pairwise.nil
  | scope :: rest => by
      rw [placesFrom, List.pairwise_append, List.pairwise_map]
      refine ⟨(places_pairwise scope).imp fun h => .inside h, placesFrom_pairwise (i + 1) rest, ?_⟩
      intro p hp q hq
      rcases List.mem_map.mp hp with ⟨p, _, rfl⟩
      rcases mem_placesFrom.mp hq with ⟨k, _, _, q, _, rfl⟩
      -- the scopes that follow have higher positions
      exact .scopes (by omega)

end

/-- What stands in a scope stands at one of its places. -/
theorem Holds.mem_places {scope : Scope} {p : Place} {names : List String} {d : Declaration}
    (h : scope.Holds p names d) : p ∈ scope.places := by
  induction h with
  | own h =>
      rw [places, List.mem_append, List.mem_map]
      rcases List.getElem?_eq_some_iff.mp h with ⟨hlt, _⟩
      exact .inl ⟨_, List.mem_range.mpr hlt, rfl⟩
  | @nested _ _ _ i inner p _ _ hinner _ ih =>
      rw [places, List.mem_append]
      refine .inr (mem_placesFrom.mpr ⟨i, inner, hinner, p, ih, ?_⟩)
      rw [Nat.zero_add]

mutual

/-- At each place of a scope stands what is located there, and the path goes on with
    the names of the scopes around. -/
theorem locate_places (path : List String) : (scope : Scope) →
    List.Forall₂ (fun p l => ∃ names, scope.Holds p names l.declaration ∧ l.path = path ++ names)
      scope.places (scope.locate path)
  | .mk name scopes declarations => by
      rw [places, locate]
      refine List.rel_append ?_ ?_
      · rw [List.forall₂_map_left_iff, List.forall₂_map_right_iff, List.forall₂_iff_get]
        refine ⟨List.length_range, fun i hi hi' => ⟨[name], .own ?_, rfl⟩⟩
        rw [List.get_eq_getElem, List.get_eq_getElem, List.getElem_range]
        exact List.getElem?_eq_getElem hi'
      · refine (locateAll_placesFrom (path ++ [name]) 0 scopes).imp ?_
        rintro _ l ⟨k, inner, hinner, q, rfl, names, hholds, hpath⟩
        rw [Nat.zero_add]
        refine ⟨name :: names, .nested hinner hholds, ?_⟩
        rw [hpath, List.append_assoc, List.singleton_append]

theorem locateAll_placesFrom (path : List String) (i : Nat) : (scopes : List Scope) →
    List.Forall₂ (fun p l => ∃ (k : Nat) (inner : Scope), scopes[k]? = some inner ∧
        ∃ q, p = .nested (i + k) q ∧
          ∃ names, inner.Holds q names l.declaration ∧ l.path = path ++ names)
      (placesFrom i scopes) (locateAll path scopes)
  | [] => .nil
  | scope :: rest => by
      rw [placesFrom, locateAll]
      refine List.rel_append ?_ ?_
      · rw [List.forall₂_map_left_iff]
        exact (locate_places path scope).imp fun q l h => ⟨0, scope, rfl, q, rfl, h⟩
      · refine (locateAll_placesFrom path (i + 1) rest).imp ?_
        rintro _ l ⟨k, inner, hinner, q, rfl, h⟩
        refine ⟨k + 1, inner, hinner, q, ?_, h⟩
        rw [Nat.add_assoc, Nat.add_comm 1]

end

/-- The places of a scope are those where declarations stand. -/
theorem mem_places (scope : Scope) (p : Place) :
    p ∈ scope.places ↔ ∃ names d, scope.Holds p names d := by
  constructor
  · intro h
    rcases exists_of_forall₂ (locate_places [] scope) h with ⟨l, _, names, hholds, _⟩
    exact ⟨names, l.declaration, hholds⟩
  · rintro ⟨names, d, h⟩
    exact h.mem_places

/-- The path of a declaration starts with the scope that all others are in. -/
theorem Holds.head?_names {scope : Scope} {p : Place} {names : List String} {d : Declaration}
    (h : scope.Holds p names d) : names = scope.name :: names.tail := by
  cases h with
  | own _ => rfl
  | nested _ _ => rfl

end Places

end Scope

section Inserting

variable {α : Type}

theorem insertName_perm {name : String} {names : List (String × α)}
    (h : name ∉ names.map Prod.fst) (value : α) :
    (insertName name value names).Perm ((name, value) :: names) := by
  induction names with
  | nil => exact List.Perm.refl _
  | cons first rest ih =>
      rcases first with ⟨other, otherValue⟩
      rw [List.map_cons, List.mem_cons, not_or] at h
      rw [insertName]
      by_cases hlt : name < other
      · rw [if_pos hlt]
      · rw [if_neg hlt, if_neg h.1]
        exact ((ih h.2).cons _).trans (List.Perm.swap _ _ _)

/-- If no name occurs twice, then none is replaced. -/
theorem foldl_insertName {names : List (String × α)} (h : (names.map Prod.fst).Nodup) :
    (names.foldl (fun sorted n => insertName n.1 n.2 sorted) []).Perm names := by
  induction names using List.reverseRecOn with
  | nil => exact List.Perm.refl _
  | append_singleton names n ih =>
      rw [List.map_append, List.nodup_append] at h
      rcases h with ⟨hnodup, _, hdisjoint⟩
      have hperm := ih hnodup
      rw [List.foldl_append, List.foldl_cons, List.foldl_nil]
      have hfresh : n.1 ∉ (names.foldl (fun sorted n => insertName n.1 n.2 sorted) []).map
          Prod.fst := by
        rw [(hperm.map Prod.fst).mem_iff]
        intro hmem
        exact hdisjoint n.1 hmem n.1 (List.mem_singleton.mpr rfl) rfl
      exact (insertName_perm hfresh n.2).trans
        ((hperm.cons n).trans (List.perm_append_singleton n names).symm)

end Inserting

section Display

variable {spec : Specification} {options : Options}

theorem isEmpty_qualify_cons (nameSpace : String) (names : List String) :
    (qualify (nameSpace :: names)).isEmpty = true ↔ nameSpace = "" ∧ names = [] := by
  rw [String.isEmpty_iff]
  by_cases hlast : names = []
  · rw [hlast, qualify_singleton]
    exact (and_iff_left rfl).symm
  · constructor
    · intro hempty
      have hchars := toList_qualify_cons hlast nameSpace
      rw [hempty] at hchars
      exact absurd hchars.symm (by simp)
    · intro h
      exact absurd h.2 hlast

/-- The text of an identity: the path below the root, with the suffix behind it and the
    namespace in front. Only a declaration of the root goes without a separator, and
    only if the namespace is empty. -/
theorem toList_display_entry (options : Options) (l : Located) :
    (l.entry options).identity.display.toList =
      (if options.nameSpace = "" ∧ l.path.tail = [] then []
        else options.nameSpace.toList ++ [':', ':']) ++
      ((qualify (l.path.tail ++ [l.declaration.name])).toList ++ options.suffix.toList) := by
  rw [Located.entry, Identity.display]
  by_cases hroot : options.nameSpace = "" ∧ l.path.tail = []
  · rw [if_pos ((isEmpty_qualify_cons _ _).mpr hroot), if_pos hroot, hroot.2, List.nil_append,
      List.nil_append, qualify_singleton, String.toList_append]
  · rw [if_neg (mt (isEmpty_qualify_cons _ _).mp hroot), if_neg hroot]
    simp only [String.toList_append, scopeSeparator]
    by_cases htail : l.path.tail = []
    · simp [htail, qualify_singleton]
    · rw [toList_qualify_cons htail, toList_qualify_append htail (List.cons_ne_nil _ _),
        qualify_singleton]
      simp

/-- The declarations of a schema stand on paths of identifiers that start with the name
    of the root. -/
theorem Specification.names_of_verify (hverify : spec.verify = .ok ()) {l : Located}
    (hl : l ∈ spec.located) :
    l.path = spec.scope.name :: l.path.tail ∧
      ∀ name ∈ l.path.tail ++ [l.declaration.name], IsIdentifier name := by
  rcases Specification.located_of_verify hverify with ⟨hpaths, hdecls, _⟩
  rcases exists_of_forall₂ (Scope.locate_places [] spec.scope).flip hl with
    ⟨_, _, names, hholds, hpath⟩
  rw [List.nil_append] at hpath
  refine ⟨hpath ▸ hholds.head?_names, ?_⟩
  rw [List.forall_mem_append, List.forall_mem_singleton]
  exact ⟨fun name hname => hpaths l hl name (List.mem_of_mem_tail hname), (hdecls l hl).name⟩

/-- The text of an identity tells which declaration it is of, whatever the namespace
    and the suffix are. -/
theorem display_entry_inj (hverify : spec.verify = .ok ()) {l k : Located}
    (hl : l ∈ spec.located) (hk : k ∈ spec.located)
    (h : (l.entry options).identity.display = (k.entry options).identity.display) :
    l.qualifiedName = k.qualifiedName := by
  rcases Specification.names_of_verify hverify hl with ⟨hlroot, hlnames⟩
  rcases Specification.names_of_verify hverify hk with ⟨hkroot, hknames⟩
  have hlne : l.path.tail ++ [l.declaration.name] ≠ [] := List.concat_ne_nil _ _
  have hkne : k.path.tail ++ [k.declaration.name] ≠ [] := List.concat_ne_nil _ _
  -- it is enough to find the same text between what is put in front and behind
  have henough : (qualify (l.path.tail ++ [l.declaration.name])).toList =
      (qualify (k.path.tail ++ [k.declaration.name])).toList →
        l.qualifiedName = k.qualifiedName := by
    intro hchars
    have hsplit := congrArg splitPath (String.toList_inj.mp hchars)
    rw [splitPath_qualify hlne hlnames, splitPath_qualify hkne hknames] at hsplit
    rw [Located.qualifiedName, Located.qualifiedName, hlroot, hkroot, List.cons_append,
      List.cons_append, hsplit]
  have hchars := congrArg String.toList h
  rw [toList_display_entry, toList_display_entry, ← List.append_assoc, ← List.append_assoc]
    at hchars
  replace hchars := List.append_cancel_right hchars
  by_cases hlbare : options.nameSpace = "" ∧ l.path.tail = []
  · by_cases hkbare : options.nameSpace = "" ∧ k.path.tail = []
    · rw [if_pos hlbare, if_pos hkbare] at hchars
      exact henough hchars
    · -- one starts with a separator and the other with a name
      rw [if_pos hlbare, if_neg hkbare, hlbare.1, List.nil_append] at hchars
      refine absurd ?_ (head?_toList_qualify hlne hlnames)
      rw [hchars]
      rfl
  · by_cases hkbare : options.nameSpace = "" ∧ k.path.tail = []
    · rw [if_neg hlbare, if_pos hkbare, hkbare.1, List.nil_append] at hchars
      refine absurd ?_ (head?_toList_qualify hkne hknames)
      rw [← hchars]
      rfl
    · rw [if_neg hlbare, if_neg hkbare] at hchars
      exact henough (List.append_cancel_left hchars)

/-- No two declarations of a schema have identities with the same text. -/
theorem nodup_display (hverify : spec.verify = .ok ()) :
    (spec.located.map fun l => (l.entry options).identity.display).Nodup := by
  have hunique := (Specification.located_of_verify hverify).2.2
  rw [List.Nodup, List.pairwise_map] at hunique ⊢
  refine hunique.imp_of_mem fun hl hk hne hsame => hne ?_
  exact display_entry_inj hverify hl hk hsame

end Display

section Tabling

variable {spec : Specification} {options : Options}

/-- What is not declared is not found. -/
theorem lookup?_eq_none {table : NameTable} {q : String}
    (h : q ∉ table.entries.map (·.qualifiedName)) : table.lookup? q = none := by
  rw [NameTable.lookup?, List.find?_eq_none]
  intro e he hname
  refine h (List.mem_map.mpr ⟨e, List.mem_reverse.mp he, ?_⟩)
  exact of_decide_eq_true hname

/-- The identities of a verified schema are those of its table, under the same
    names. -/
theorem identities_eq_ok (hverify : spec.verify = .ok ()) (options : Options) :
    ∃ names, identities spec options = .ok names ∧
      names.Perm ((NameTable.ofSpecification spec options).entries.map fun e =>
        (e.qualifiedName, e.identity)) := by
  have hunique := (Specification.located_of_verify hverify).2.2
  refine ⟨_, Checked.bind_eq_ok.mpr ⟨(), verified_eq_ok.mpr hverify, rfl⟩, ?_⟩
  have hkeys : (((NameTable.ofSpecification spec options).entries.map fun e =>
      (e.qualifiedName, e.identity)).map Prod.fst).Nodup := by
    rw [NameTable.ofSpecification, List.map_map, List.map_map]
    exact hunique
  have hperm := foldl_insertName hkeys
  rw [List.foldl_map] at hperm
  exact hperm

/-- The table of a verified schema lists the declaration at every place of the tree
    once, depth first, with the names of the scopes around it. Each is found under its
    qualified name and nothing else is found, the identities are given for the same
    names, and no two declarations share an identity or its text. -/
theorem names_faithful (hverify : spec.verify = .ok ()) (options : Options) :
    (∃ places : List Place, places.Nodup ∧ places.Pairwise Place.Before ∧
      (∀ p, p ∈ places ↔ ∃ names d, spec.scope.Holds p names d) ∧
      List.Forall₂
        (fun p e => ∃ names, spec.scope.Holds p names e.declaration ∧
          e.scope = qualify names ∧ e.qualifiedName = qualify (names ++ [e.declaration.name]))
        places (NameTable.ofSpecification spec options).entries) ∧
    (∀ e ∈ (NameTable.ofSpecification spec options).entries,
      (NameTable.ofSpecification spec options).lookup? e.qualifiedName = some e) ∧
    (∀ q, q ∉ (NameTable.ofSpecification spec options).entries.map (·.qualifiedName) →
      (NameTable.ofSpecification spec options).lookup? q = none) ∧
    (∃ names, identities spec options = .ok names ∧
      names.Perm ((NameTable.ofSpecification spec options).entries.map fun e =>
        (e.qualifiedName, e.identity))) ∧
    ((NameTable.ofSpecification spec options).entries.map (·.identity)).Nodup ∧
    ((NameTable.ofSpecification spec options).entries.map (·.identity.display)).Nodup := by
  have hunique := (Specification.located_of_verify hverify).2.2
  have hpairwise := Scope.places_pairwise spec.scope
  have hdisplay : ((NameTable.ofSpecification spec options).entries.map
      (·.identity.display)).Nodup := by
    rw [NameTable.ofSpecification, List.map_map]
    exact nodup_display hverify
  refine ⟨⟨spec.scope.places, ?_, hpairwise, Scope.mem_places spec.scope, ?_⟩, ?_,
    fun q => lookup?_eq_none, identities_eq_ok hverify options, ?_, hdisplay⟩
  · refine hpairwise.imp fun {p q} hbefore hsame => ?_
    rw [hsame] at hbefore
    exact Place.Before.irrefl q hbefore
  · rw [NameTable.ofSpecification, List.forall₂_map_right_iff]
    refine (Scope.locate_places [] spec.scope).imp ?_
    rintro p l ⟨names, hholds, hpath⟩
    rw [List.nil_append] at hpath
    refine ⟨names, hholds, ?_, ?_⟩
    · rw [← hpath]
      rfl
    · rw [← hpath]
      rfl
  · intro e he
    rcases List.mem_map.mp he with ⟨l, hl, rfl⟩
    exact (lookup?_ofSpecification hunique).mpr ⟨l, hl, rfl, rfl⟩
  · refine List.Nodup.of_map Identity.display ?_
    rw [List.map_map]
    exact hdisplay

/-- A schema with two scopes of the same name next to each other, and with a name that
    is declared both in the root and in one of them. -/
def twins : Specification where
  scope := .mk "example"
    [.mk "inner" [] [.typedef { name := "Kind", aliased := .fixed .uint8 }],
      .mk "inner" [.mk "example" [] [.typedef { name := "Kind", aliased := .octets }]]
        [.typedef { name := "Other", aliased := .named "Kind" }]]
    [.typedef { name := "Kind", aliased := .fixed .int64 }]

/-- Without a namespace, and with a separator in the suffix. -/
theorem names_faithful_twins :
    twins.verify = .ok () ∧
      (NameTable.ofSpecification twins { nameSpace := "", suffix := "::FW" }).entries.map
          (·.identity.display) =
        ["Kind::FW", "::inner::Kind::FW", "::inner::Other::FW", "::inner::example::Kind::FW"] ∧
      ((NameTable.ofSpecification twins { nameSpace := "", suffix := "::FW" }).entries.map
        (·.identity.display)).Nodup := by
  have hverify : twins.verify = .ok () := by rfl
  exact ⟨hverify, by decide +kernel,
    (names_faithful hverify { nameSpace := "", suffix := "::FW" }).2.2.2.2.2⟩

end Tabling

end Wireform
