import Wireform.Proofs.Identities

/-!
# Types That Clash

When two types of a compilation have the same identity or the same builder.

Built-in types and the declarations of the root scope share a namespace. The
declarations have names of their own, and those of nested scopes stand in namespaces
further in. But nothing keeps a declaration of the root from having the name of a
built-in type once the suffix is put behind it: with the suffix `FW`, a declaration
`String8` has the identity of the built-in string.

A builder is named after its reader, with every `FW` at the end taken off. That makes
more names equal, since `Kind` and `KindFW` are two names with one stem. Builders clash
within a namespace exactly if the stems are the same.

The verifier looks at neither. What is proved here is when compilations are free of such
clashes, in terms of the names in the schema and of the suffix.

## Main definitions

* `Identity.nameSpace?`: The namespace of an identity.
* `SameStem`: Two names that differ in how often `FW` stands at their end.
* `Identity.builder`: Where the builder of a type is, and its name.

## Theorems

* `builderName_eq_iff`: Builders have the same name if readers have the same stem.
* `qualify_cons_inj`: A namespace tells the path of the scope.
* `nameSpace?_entry_eq`, `nameSpace?_entry_eq_root`: Which declarations share a
  namespace.
* `Compilation.bears_of_compile`: The identities of a compilation.
* `Compilation.nodup_identity_iff`, `Compilation.nodup_builder_iff`: When identities and
  builders are distinct.
* `clash_free_iff`: When no identity and no builder occurs twice.
* `generated_types_clash`: Schemas that compile to types that clash.
-/

namespace Wireform

/-- The namespace of an identity, if it is not of the host language. -/
def Identity.nameSpace? : Identity → Option String
  | .host _ => none
  | .generated nameSpace _ => some nameSpace

/-- The built-in suffix, a number of times. -/
def builtinSuffixes : Nat → String
  | 0 => ""
  | n + 1 => builtinSuffixes n ++ builtinSuffix

/-- The names are one name with the built-in suffix put behind it, any number of
    times each. -/
def SameStem (a b : String) : Prop :=
  ∃ stem m n, a = stem ++ builtinSuffixes m ∧ b = stem ++ builtinSuffixes n

section Stems

theorem reverse_builtinSuffixes_succ (n : Nat) :
    (builtinSuffixes (n + 1)).toList.reverse =
      'W' :: 'F' :: (builtinSuffixes n).toList.reverse := by
  rw [builtinSuffixes, String.toList_append, List.reverse_append]
  rfl

/-- However many suffixes there are, all are taken off. -/
theorem dropBuiltinSuffixes_append (n : Nat) (cs : List Char) :
    dropBuiltinSuffixes ((builtinSuffixes n).toList.reverse ++ cs) = dropBuiltinSuffixes cs := by
  induction n with
  | zero => rfl
  | succ n ih =>
      rw [reverse_builtinSuffixes_succ]
      exact ih

/-- What was taken off is the suffix, some number of times. -/
theorem append_dropBuiltinSuffixes (cs : List Char) :
    ∃ n, cs = (builtinSuffixes n).toList.reverse ++ dropBuiltinSuffixes cs := by
  fun_induction dropBuiltinSuffixes cs with
  | case1 rest ih =>
      rcases ih with ⟨n, hn⟩
      refine ⟨n + 1, ?_⟩
      rw [reverse_builtinSuffixes_succ, List.cons_append, List.cons_append, ← hn]
  | case2 cs _ => exact ⟨0, rfl⟩

/-- The stem that builders are named after. -/
theorem exists_stem (name : String) :
    ∃ n, name = String.ofList (dropBuiltinSuffixes name.toList.reverse).reverse ++
      builtinSuffixes n := by
  rcases append_dropBuiltinSuffixes name.toList.reverse with ⟨n, hn⟩
  refine ⟨n, String.toList_inj.mp ?_⟩
  have hchars := congrArg List.reverse hn
  rw [List.reverse_reverse, List.reverse_append, List.reverse_reverse] at hchars
  rw [String.toList_append, String.toList_ofList]
  exact hchars

/-- The builders of two readers have the same name exactly if the names of the readers
    have the same stem. -/
theorem builderName_eq_iff (a b : String) : builderName a = builderName b ↔ SameStem a b := by
  constructor
  · intro h
    have hchars := congrArg String.toList h
    rw [builderName, builderName, String.toList_append, String.toList_append] at hchars
    have hstem := String.toList_inj.mp (List.append_cancel_right hchars)
    rcases exists_stem a with ⟨m, hm⟩
    rcases exists_stem b with ⟨n, hn⟩
    exact ⟨_, m, n, hm, hstem ▸ hn⟩
  · rintro ⟨stem, m, n, rfl, rfl⟩
    have hdrop (k : Nat) : dropBuiltinSuffixes (stem ++ builtinSuffixes k).toList.reverse =
        dropBuiltinSuffixes stem.toList.reverse := by
      rw [String.toList_append, List.reverse_append, dropBuiltinSuffixes_append]
    rw [builderName, builderName, hdrop m, hdrop n]

instance (a b : String) : Decidable (SameStem a b) :=
  decidable_of_iff _ (builderName_eq_iff a b)

end Stems

section Namespaces

/-- Only the root scope has the namespace itself. -/
theorem qualify_cons_eq_self (nameSpace : String) (names : List String) :
    qualify (nameSpace :: names) = nameSpace ↔ names = [] := by
  constructor
  · intro h
    by_contra hne
    have hchars := congrArg String.toList h
    rw [toList_qualify_cons hne] at hchars
    simp at hchars
  · intro h
    rw [h, qualify_singleton]

/-- The namespace of a declaration tells the path of its scope below the root, whatever
    stands in front. -/
theorem qualify_cons_inj {nameSpace : String} {p q : List String}
    (hp : ∀ name ∈ p, IsIdentifier name) (hq : ∀ name ∈ q, IsIdentifier name)
    (h : qualify (nameSpace :: p) = qualify (nameSpace :: q)) : p = q := by
  by_cases hpnil : p = []
  · rw [hpnil, qualify_singleton, eq_comm, qualify_cons_eq_self] at h
    rw [hpnil, h]
  by_cases hqnil : q = []
  · rw [hqnil, qualify_singleton, qualify_cons_eq_self] at h
    rw [hqnil, h]
  have hchars := congrArg String.toList h
  rw [toList_qualify_cons hpnil, toList_qualify_cons hqnil] at hchars
  have hinner := List.append_cancel_left hchars
  simp only [List.cons.injEq, true_and] at hinner
  rw [← splitPath_qualify hpnil hp, ← splitPath_qualify hqnil hq, String.toList_inj.mp hinner]

end Namespaces

/-- The namespace that the builder of a type is in, and its name. -/
def Identity.builder (i : Identity) : Option String × Option String :=
  (i.nameSpace?, some (builderName i.simpleName))

section Compilations

variable {spec : Specification} {options : Options} {c : Compilation}

/-- Declarations are in one namespace exactly if their scopes are on the same path. -/
theorem nameSpace?_entry_eq (hverify : spec.verify = .ok ()) (options : Options) {l k : Located}
    (hl : l ∈ spec.located) (hk : k ∈ spec.located) :
    (l.entry options).identity.nameSpace? = (k.entry options).identity.nameSpace? ↔
      l.path = k.path := by
  rcases Specification.names_of_verify hverify hl with ⟨hlroot, hlnames⟩
  rcases Specification.names_of_verify hverify hk with ⟨hkroot, hknames⟩
  constructor
  · intro h
    have htail := qualify_cons_inj (List.forall_mem_append.mp hlnames).1
      (List.forall_mem_append.mp hknames).1 (Option.some.inj h)
    rw [hlroot, hkroot, htail]
  · intro h
    unfold Located.entry
    rw [h]
    rfl

/-- The declarations in the namespace of what is built in are those of the root. -/
theorem nameSpace?_entry_eq_root (hverify : spec.verify = .ok ()) (options : Options)
    {l : Located} (hl : l ∈ spec.located) :
    (l.entry options).identity.nameSpace? = some options.nameSpace ↔
      l.path = [spec.scope.name] := by
  have hroot := (Specification.names_of_verify hverify hl).1
  have hself := qualify_cons_eq_self options.nameSpace l.path.tail
  constructor
  · intro h
    rw [hroot, hself.mp (Option.some.inj h)]
  · intro h
    refine congrArg some (hself.mpr ?_)
    rw [h]
    rfl

/-- Two declarations share a builder if they are in one namespace and have one stem. -/
theorem builder_entry_eq (hverify : spec.verify = .ok ()) (options : Options) {l k : Located}
    (hl : l ∈ spec.located) (hk : k ∈ spec.located) :
    (l.entry options).identity.builder = (k.entry options).identity.builder ↔
      l.path = k.path ∧
        SameStem (l.declaration.name ++ options.suffix) (k.declaration.name ++ options.suffix) := by
  rw [Identity.builder, Identity.builder, Prod.mk.injEq, nameSpace?_entry_eq hverify options hl hk,
    Option.some.injEq, builderName_eq_iff]
  rfl

/-- A declaration shares the builder of a built-in type only in the root. -/
theorem builder_generated_eq (hverify : spec.verify = .ok ()) (options : Options) {l : Located}
    (hl : l ∈ spec.located) (name : String) :
    (Identity.generated options.nameSpace name).builder = (l.entry options).identity.builder ↔
      l.path = [spec.scope.name] ∧ SameStem name (l.declaration.name ++ options.suffix) := by
  rw [Identity.builder, Identity.builder, Prod.mk.injEq, Option.some.injEq, builderName_eq_iff,
    ← nameSpace?_entry_eq_root hverify options hl, eq_comm]
  rfl

/-- The identities of a compilation: names in the namespace for what is built in, and
    those of the targeted declarations. Builders are named after them. -/
theorem Compilation.bears_of_compile (h : compile spec options = .ok c) :
    List.Forall₂ TypeDescription.Bears c.types
      (builtinNames.map (Identity.generated options.nameSpace) ++
        (targeted spec options).map fun l => (l.entry options).identity) := by
  rcases Compilation.declarations_of_compile h with ⟨htypes, hdescribed⟩
  rw [htypes]
  refine List.rel_append (describeBuiltins_bears options.nameSpace) ?_
  rw [List.forall₂_map_right_iff]
  exact hdescribed.flip.imp fun d l hd => (describeDeclaration_describesAt _ _ d hd).2

theorem nodup_builtinNames : builtinNames.Nodup := by
  decide +kernel

/-- The builders of the built-in types do not clash with each other. -/
theorem nodup_map_builderName : (builtinNames.map builderName).Nodup := by
  decide +kernel

/-- Identities are distinct exactly if no declaration of the root, with the suffix, has
    the name of a built-in type. -/
theorem Compilation.nodup_identity_iff (h : compile spec options = .ok c) :
    (c.types.map (·.identity)).Nodup ↔
      ∀ l ∈ targeted spec options, l.path = [spec.scope.name] →
        l.declaration.name ++ options.suffix ∉ builtinNames := by
  have hverify := (compile_eq_ok h).1
  have hidentities := map_eq_map_of_forall₂ (Compilation.bears_of_compile h) fun d i hd =>
    hd.identity_eq
  rw [hidentities, List.map_id', List.nodup_append]
  constructor
  · rintro ⟨_, _, hapart⟩ l hl hroot hname
    have hspace := (nameSpace?_entry_eq_root hverify options (mem_located_of_targeted hl)).mpr hroot
    refine hapart _ (List.mem_map_of_mem hname) _ (List.mem_map_of_mem hl) ?_
    exact congrArg (Identity.generated · _) (Option.some.inj hspace).symm
  · intro hnames
    refine ⟨?_, ?_, ?_⟩
    · exact nodup_builtinNames.map fun a b hsame => (Identity.generated.inj hsame).2
    · refine List.Nodup.of_map Identity.display ?_
      rw [List.map_map]
      exact (nodup_display hverify).sublist (List.filter_sublist.map _)
    · intro i hi k hk hsame
      rcases List.mem_map.mp hi with ⟨name, hname, rfl⟩
      rcases List.mem_map.mp hk with ⟨l, hl, rfl⟩
      have hroot := (nameSpace?_entry_eq_root hverify options (mem_located_of_targeted hl)).mp
        (congrArg Identity.nameSpace? hsame).symm
      rw [(Identity.generated.inj hsame).2] at hname
      exact hnames l hl hroot hname

/-- Builders in one namespace have distinct names exactly if no two declarations of a
    scope have the same stem, and no declaration of the root has that of a built-in
    type. -/
theorem Compilation.nodup_builder_iff (h : compile spec options = .ok c) :
    (c.types.map fun d => (d.identity.nameSpace?, d.builder.map (·.name))).Nodup ↔
      ((targeted spec options).Pairwise fun l k => l.path = k.path →
        ¬ SameStem (l.declaration.name ++ options.suffix) (k.declaration.name ++ options.suffix)) ∧
      ∀ l ∈ targeted spec options, l.path = [spec.scope.name] →
        ∀ name ∈ builtinNames, ¬ SameStem name (l.declaration.name ++ options.suffix) := by
  have hverify := (compile_eq_ok h).1
  have hbuilders := map_eq_map_of_forall₂ (g := Identity.builder)
    (f := fun d => (d.identity.nameSpace?, d.builder.map (·.name)))
    (Compilation.bears_of_compile h) fun d i hd => by
      rw [hd.identity_eq, hd.builder_eq, Identity.builder]
  -- what is built in has distinct builders whatever the namespace is
  have hbuiltins : ((builtinNames.map (Identity.generated options.nameSpace)).map
      Identity.builder).Nodup := by
    refine List.Nodup.of_map Prod.snd (List.Nodup.of_map (Option.getD · "") ?_)
    simp only [List.map_map]
    exact nodup_map_builderName
  have hdeclared : (((targeted spec options).map fun l => (l.entry options).identity).map
      Identity.builder).Nodup ↔
      (targeted spec options).Pairwise fun l k => l.path = k.path →
        ¬ SameStem (l.declaration.name ++ options.suffix)
          (k.declaration.name ++ options.suffix) := by
    rw [List.Nodup, List.pairwise_map, List.pairwise_map]
    refine List.Pairwise.iff_of_mem fun {l k} hl hk => ?_
    rw [Ne, builder_entry_eq hverify options (mem_located_of_targeted hl)
      (mem_located_of_targeted hk), not_and]
  rw [hbuilders, List.map_append, List.nodup_append, hdeclared, and_iff_right hbuiltins]
  refine and_congr_right fun _ => ?_
  simp only [List.forall_mem_map]
  constructor
  · intro hapart l hl hroot name hname hstem
    have hsame := builder_generated_eq hverify options (mem_located_of_targeted hl) name
    exact hapart name hname l hl (hsame.mpr ⟨hroot, hstem⟩)
  · intro hstems name hname l hl hbuilder
    have hsame := builder_generated_eq hverify options (mem_located_of_targeted hl) name
    rcases hsame.mp hbuilder with ⟨hroot, hstem⟩
    exact hstems l hl hroot name hname hstem

/-- No two types of a compilation have the same identity exactly if no declaration of
    the root, with the suffix, has the name of a built-in type. No two types in one
    namespace have builders of the same name exactly if no two declarations of a scope
    have the same stem, and no declaration of the root has that of a built-in type. -/
theorem clash_free_iff (h : compile spec options = .ok c) :
    ((c.types.map (·.identity)).Nodup ↔
      ∀ l ∈ targeted spec options, l.path = [spec.scope.name] →
        l.declaration.name ++ options.suffix ∉ builtinNames) ∧
    ((c.types.map fun d => (d.identity.nameSpace?, d.builder.map (·.name))).Nodup ↔
      ((targeted spec options).Pairwise fun l k => l.path = k.path →
        ¬ SameStem (l.declaration.name ++ options.suffix) (k.declaration.name ++ options.suffix)) ∧
      ∀ l ∈ targeted spec options, l.path = [spec.scope.name] →
        ∀ name ∈ builtinNames, ¬ SameStem name (l.declaration.name ++ options.suffix)) :=
  ⟨Compilation.nodup_identity_iff h, Compilation.nodup_builder_iff h⟩

end Compilations

section Homonyms

/-- A schema with declarations of these names in the root, and again in a scope. -/
def homonyms (names : List String) : Specification where
  scope := .mk "example"
    [.mk "inner" [] (names.map fun name => .typedef { name, aliased := .octets })]
    (names.map fun name => .typedef { name, aliased := .fixed .uint8 })

/-- With a suffix that is not the built-in one, these names are all kept apart. -/
theorem clash_free_iff_homonyms :
    ∃ c, compile (homonyms ["String8", "Kind", "KindFW"]) { suffix := "View" } = .ok c ∧
      (c.types.map (·.identity)).Nodup ∧
      (c.types.map fun d => (d.identity.nameSpace?, d.builder.map (·.name))).Nodup := by
  have hcompiles : (compile (homonyms ["String8", "Kind", "KindFW"])
      { suffix := "View" }).isOk = true := by decide +kernel
  rcases Checked.exists_of_isOk hcompiles with ⟨c, hcompile⟩
  rcases clash_free_iff hcompile with ⟨hidentities, hbuilders⟩
  exact ⟨c, hcompile, hidentities.mpr (by decide +kernel), hbuilders.mpr (by decide +kernel)⟩

/-- A declaration with the name of a built-in type has its identity, and two declarations
    with one stem have builders of the same name. -/
theorem generated_types_clash :
    (∃ c, compile (homonyms ["String8"]) {} = .ok c ∧ ¬ (c.types.map (·.identity)).Nodup) ∧
    ∃ c, compile (homonyms ["Kind", "KindFW"]) {} = .ok c ∧
      (c.types.map (·.identity)).Nodup ∧
      ¬ (c.types.map fun d => (d.identity.nameSpace?, d.builder.map (·.name))).Nodup := by
  have hstring : (compile (homonyms ["String8"]) {}).isOk = true := by decide +kernel
  have hkinds : (compile (homonyms ["Kind", "KindFW"]) {}).isOk = true := by decide +kernel
  rcases Checked.exists_of_isOk hstring with ⟨c, hcompile⟩
  rcases Checked.exists_of_isOk hkinds with ⟨c', hcompile'⟩
  refine ⟨⟨c, hcompile, ?_⟩, c', hcompile', ?_, ?_⟩
  · rw [Compilation.nodup_identity_iff hcompile]
    decide +kernel
  · rw [Compilation.nodup_identity_iff hcompile']
    decide +kernel
  · rw [Compilation.nodup_builder_iff hcompile']
    decide +kernel

end Homonyms

end Wireform
