import Wireform.Proofs.Compiling

/-!
# Target Scopes

Target scopes select among the descriptions, and do nothing else.

A user names the scopes to generate by their qualified names, and these are texts
that may hold anything. Whether a scope is covered by one of them is decided on
texts too: the name of the scope is the target, or starts with the target and a
separator. What is meant are paths. The target, cut at its separators, is the path of
a scope around, or of the scope itself.

Texts and paths could differ where a separator can be read in two ways. In a row of
three colons, a target that ends with a colon finds its separator where cutting the
text finds another one. The names on a path are identifiers, so this does not happen:
no name has a colon, and no name is empty.

Descriptions look up names in the table of the whole schema. A declaration that is
not selected is still found there by those that are, so nothing that compiles stops
doing so when scopes are selected.

## Main definitions

* `splitPath`: A text cut at its separators.
* `TypeDescription.enclosingPath`: The path that a described declaration stands in.

## Theorems

* `splitPath_qualify`: A qualified name is cut into the names on its path.
* `qualify_splitPath`: The pieces of a text make up the text.
* `cut_separator`: Where a text can be cut after a name without colons.
* `covers_qualify`: A target covers a scope if its pieces lead to the scope.
* `compile_targets`: With target scopes, the descriptions are those of the
  declarations in these scopes.
-/

namespace Wireform

/-- A text cut at its separators, from the left. -/
def splitSeparator : List Char → List (List Char)
  | [] => [[]]
  | ':' :: ':' :: rest => [] :: splitSeparator rest
  | c :: rest => (splitSeparator rest).modifyHead (c :: ·)

/-- The names that a text has between its separators. -/
def splitPath (q : String) : List String :=
  (splitSeparator q.toList).map String.ofList

/-- The path of the scope that a described declaration stands in. -/
def TypeDescription.enclosingPath (d : TypeDescription) : List String :=
  ((d.qualifiedName.map splitPath).getD []).dropLast

section Splitting

theorem splitSeparator_ne_nil (cs : List Char) : splitSeparator cs ≠ [] := by
  fun_induction splitSeparator cs with
  | case1 => exact List.cons_ne_nil _ _
  | case2 rest _ => exact List.cons_ne_nil _ _
  | case3 c rest _ ih => exact mt List.modifyHead_eq_nil_iff.mp ih

/-- What stands before the first separator goes into the first piece. -/
theorem splitSeparator_append {word : List Char} (h : ∀ c ∈ word, c ≠ ':') (rest : List Char) :
    splitSeparator (word ++ rest) = (splitSeparator rest).modifyHead (word ++ ·) := by
  induction word with
  | nil => exact (congrFun List.modifyHead_id _).symm
  | cons c word ih =>
      rcases List.forall_mem_cons.mp h with ⟨hc, hword⟩
      rw [List.cons_append, splitSeparator, ih hword, List.modifyHead_modifyHead]
      · rfl
      · exact fun _ hcolon => absurd hcolon hc

theorem splitSeparator_word {word : List Char} (h : ∀ c ∈ word, c ≠ ':') :
    splitSeparator word = [word] := by
  have hsplit := splitSeparator_append h []
  rw [List.append_nil, splitSeparator, List.modifyHead_cons, List.append_nil] at hsplit
  exact hsplit

theorem splitSeparator_word_append {word : List Char} (h : ∀ c ∈ word, c ≠ ':')
    (rest : List Char) :
    splitSeparator (word ++ ':' :: ':' :: rest) = word :: splitSeparator rest := by
  rw [splitSeparator_append h, splitSeparator, List.modifyHead_cons, List.append_nil]

/-- The pieces make up the text again. -/
theorem intercalate_splitSeparator (cs : List Char) :
    [':', ':'].intercalate (splitSeparator cs) = cs := by
  fun_induction splitSeparator cs with
  | case1 => rfl
  | case2 rest ih =>
      rcases List.exists_cons_of_ne_nil (splitSeparator_ne_nil rest) with ⟨first, more, hsplit⟩
      rw [hsplit] at ih ⊢
      rw [List.intercalate_cons_cons, ih]
      rfl
  | case3 c rest _ ih =>
      rcases List.exists_cons_of_ne_nil (splitSeparator_ne_nil rest) with ⟨first, more, hsplit⟩
      rw [hsplit] at ih ⊢
      rw [List.modifyHead_cons, ← ih]
      -- the first piece stands in front, whether or not others follow
      cases more with
      | nil => rfl
      | cons second more => simp only [List.intercalate_cons_cons, List.cons_append]

theorem qualify_splitPath (q : String) : qualify (splitPath q) = q := by
  rw [← String.toList_inj, qualify, String.toList_intercalate, splitPath, List.map_map]
  have hid : String.toList ∘ String.ofList = id := funext fun cs => String.toList_ofList
  rw [hid, List.map_id]
  exact intercalate_splitSeparator q.toList

end Splitting

section Paths

theorem toList_qualify_cons {rest : List String} (h : rest ≠ []) (name : String) :
    (qualify (name :: rest)).toList = name.toList ++ ':' :: ':' :: (qualify rest).toList := by
  rcases List.exists_cons_of_ne_nil h with ⟨second, more, rfl⟩
  rw [qualify, String.intercalate_cons_cons, String.toList_append, String.toList_append,
    List.append_assoc]
  rfl

theorem splitPath_qualify {path : List String} (h : path ≠ [])
    (hpath : ∀ name ∈ path, IsIdentifier name) : splitPath (qualify path) = path := by
  induction path with
  | nil => exact absurd rfl h
  | cons name rest ih =>
      rcases List.forall_mem_cons.mp hpath with ⟨hname, hrest⟩
      by_cases hlast : rest = []
      · rw [hlast, qualify_singleton, splitPath, splitSeparator_word hname.ne_colon,
          List.map_singleton, String.ofList_toList]
      · rw [splitPath, toList_qualify_cons hlast, splitSeparator_word_append hname.ne_colon,
          List.map_cons, String.ofList_toList]
        exact congrArg (name :: ·) (ih hlast hrest)

/-- A qualified name goes on behind each of the scopes around. -/
theorem toList_qualify_append {outer inner : List String} (ho : outer ≠ []) (hi : inner ≠ []) :
    (qualify (outer ++ inner)).toList =
      (qualify outer).toList ++ ':' :: ':' :: (qualify inner).toList := by
  induction outer with
  | nil => exact absurd rfl ho
  | cons name rest ih =>
      rw [List.cons_append, toList_qualify_cons (List.append_ne_nil_of_right_ne_nil rest hi)]
      by_cases hlast : rest = []
      · rw [hlast, List.nil_append, qualify_singleton]
      · rw [ih hlast, toList_qualify_cons hlast, List.append_assoc, List.cons_append,
          List.cons_append]

/-- A qualified name does not start with a colon. -/
theorem head?_toList_qualify {path : List String} (h : path ≠ [])
    (hpath : ∀ name ∈ path, IsIdentifier name) : (qualify path).toList.head? ≠ some ':' := by
  rcases List.exists_cons_of_ne_nil h with ⟨name, rest, rfl⟩
  have hname := hpath name List.mem_cons_self
  rcases List.exists_cons_of_ne_nil hname.toList_ne_nil with ⟨first, more, hfirst⟩
  have hstart : (qualify (name :: rest)).toList.head? = some first := by
    by_cases hlast : rest = []
    · rw [hlast, qualify_singleton, hfirst]
      rfl
    · rw [toList_qualify_cons hlast, hfirst]
      rfl
  rw [hstart]
  intro hcolon
  exact hname.ne_colon first (hfirst ▸ List.mem_cons_self) (Option.some.inj hcolon)

/-- After a name without colons, a text that goes on with one separator only can be
    cut there, or behind it. -/
theorem cut_separator {word tail start rest : List Char} (hword : ∀ c ∈ word, c ≠ ':')
    (htail : tail.head? ≠ some ':')
    (h : word ++ ':' :: ':' :: tail = start ++ ':' :: ':' :: rest) :
    start = word ∨
      ∃ more, start = word ++ ':' :: ':' :: more ∧ tail = more ++ ':' :: ':' :: rest := by
  induction word generalizing start with
  | nil =>
      match start, h with
      | [], _ => exact .inl rfl
      | [c], h =>
          -- the separator found first would be followed by a third colon
          simp only [List.nil_append, List.singleton_append, List.cons.injEq, true_and] at h
          rw [h.2] at htail
          exact absurd rfl htail
      | c :: c' :: more, h =>
          simp only [List.nil_append, List.cons_append, List.cons.injEq] at h
          rcases h with ⟨rfl, rfl, htail⟩
          exact .inr ⟨more, rfl, htail⟩
  | cons c word ih =>
      rcases List.forall_mem_cons.mp hword with ⟨hc, hword⟩
      cases start with
      | nil => exact absurd (List.cons.inj h).1 hc
      | cons c' start =>
          rcases List.cons.inj h with ⟨rfl, hbehind⟩
          rcases ih hword hbehind with rfl | ⟨more, rfl, htail⟩
          · exact .inl rfl
          · exact .inr ⟨more, rfl, htail⟩

/-- If a qualified name has a separator behind some text, then the pieces of the text
    are the first names on the path. -/
theorem splitSeparator_isPrefix {path : List String} (h : path ≠ [])
    (hpath : ∀ name ∈ path, IsIdentifier name) {start rest : List Char}
    (hstart : (qualify path).toList = start ++ ':' :: ':' :: rest) :
    (splitSeparator start).map String.ofList <+: path := by
  induction path generalizing start with
  | nil => exact absurd rfl h
  | cons name names ih =>
      rcases List.forall_mem_cons.mp hpath with ⟨hname, hnames⟩
      by_cases hlast : names = []
      · -- a single name has no separator
        rw [hlast, qualify_singleton] at hstart
        refine absurd rfl (hname.ne_colon ':' ?_)
        rw [hstart]
        exact List.mem_append_right start List.mem_cons_self
      · rw [toList_qualify_cons hlast] at hstart
        rcases cut_separator hname.ne_colon (head?_toList_qualify hlast hnames) hstart with
          rfl | ⟨more, rfl, htail⟩
        · rw [splitSeparator_word hname.ne_colon, List.map_singleton, String.ofList_toList]
          exact List.prefix_append [name] names
        · rw [splitSeparator_word_append hname.ne_colon, List.map_cons, String.ofList_toList]
          exact List.cons_prefix_cons.mpr ⟨rfl, ih hlast hnames htail⟩

/-- A target covers a scope exactly if the pieces of the target are the first names on
    the path of the scope. -/
theorem covers_qualify {path : List String} (h : path ≠ [])
    (hpath : ∀ name ∈ path, IsIdentifier name) (target : String) :
    Options.covers target (qualify path) = true ↔ splitPath target <+: path := by
  rw [Options.covers, Bool.or_eq_true, decide_eq_true_eq, List.isPrefixOf_iff_prefix,
    String.toList_append]
  constructor
  · rintro (rfl | ⟨rest, hrest⟩)
    · exact ⟨[], by rw [List.append_nil, splitPath_qualify h hpath]⟩
    · rw [List.append_assoc] at hrest
      exact splitSeparator_isPrefix h hpath hrest.symm
  · rintro ⟨inner, rfl⟩
    by_cases hinner : inner = []
    · left
      rw [hinner, List.append_nil, qualify_splitPath]
    · right
      have hne : splitPath target ≠ [] := mt List.map_eq_nil_iff.mp (splitSeparator_ne_nil _)
      rw [toList_qualify_append hne hinner, qualify_splitPath]
      exact ⟨(qualify inner).toList, by rw [List.append_assoc]; rfl⟩

end Paths

section Selecting

variable {spec : Specification} {options : Options}

mutual

/-- A declaration stands in some scope. -/
theorem Scope.path_ne_nil_of_mem_locate (path : List String) : (scope : Scope) →
    ∀ l ∈ scope.locate path, l.path ≠ []
  | .mk name scopes declarations => by
      intro l hl
      rw [Scope.locate, List.mem_append] at hl
      rcases hl with hl | hl
      · rcases List.mem_map.mp hl with ⟨d, _, rfl⟩
        exact List.append_ne_nil_of_right_ne_nil path (List.cons_ne_nil name [])
      · exact Scope.path_ne_nil_of_mem_locateAll _ scopes l hl

theorem Scope.path_ne_nil_of_mem_locateAll (path : List String) : (scopes : List Scope) →
    ∀ l ∈ Scope.locateAll path scopes, l.path ≠ []
  | [] => fun l hl => absurd hl List.not_mem_nil
  | scope :: rest => by
      intro l hl
      rw [Scope.locateAll, List.mem_append] at hl
      rcases hl with hl | hl
      · exact Scope.path_ne_nil_of_mem_locate path scope l hl
      · exact Scope.path_ne_nil_of_mem_locateAll path rest l hl

end

/-- The description of a declaration tells the path of its scope. -/
theorem enclosingPath_of_qualifiedName (hverify : spec.verify = .ok ()) {l : Located}
    (hl : l ∈ spec.located) {d : TypeDescription} (hd : d.qualifiedName = some l.qualifiedName) :
    d.enclosingPath = l.path := by
  rcases Specification.located_of_verify hverify with ⟨hpaths, hdecls, _⟩
  have hnames : ∀ name ∈ l.path ++ [l.declaration.name], IsIdentifier name := by
    rw [List.forall_mem_append]
    exact ⟨hpaths l hl, List.forall_mem_singleton.mpr (hdecls l hl).name⟩
  have hne : l.path ++ [l.declaration.name] ≠ [] := List.concat_ne_nil _ _
  rw [TypeDescription.enclosingPath, hd, Option.map_some, Option.getD_some,
    Located.qualifiedName, splitPath_qualify hne hnames, List.dropLast_concat]

/-- With target scopes, a declaration is described if the pieces of one of them are the
    first names on its path. -/
theorem targets_scope (hverify : spec.verify = .ok ()) {l : Located} (hl : l ∈ spec.located)
    {scopes : List String} (hscopes : scopes ≠ []) :
    Options.targets { options with scopes } l.scope =
      scopes.any fun target => (splitPath target).isPrefixOf l.path := by
  have hpath := (Specification.located_of_verify hverify).1 l hl
  have hne := Scope.path_ne_nil_of_mem_locate [] spec.scope l hl
  rw [Options.targets, List.isEmpty_eq_false_iff.mpr hscopes, Bool.false_or]
  refine congrArg scopes.any (funext fun target => ?_)
  rw [Bool.eq_iff_iff, List.isPrefixOf_iff_prefix]
  exact covers_qualify hne hpath target

/-- With target scopes, a schema that compiles without them still does, and the
    descriptions of declarations are those of the whole schema whose path starts with
    the names of a target. -/
theorem compile_targets {c : Compilation}
    (h : compile spec { options with scopes := [] } = .ok c) {scopes : List String}
    (hscopes : scopes ≠ []) :
    List.Forall₂ (fun l d => d.qualifiedName = some l.qualifiedName ∧ d.enclosingPath = l.path)
      spec.located c.declarations ∧
    c.types = describeBuiltins options.nameSpace ++ c.declarations ∧
    compile spec { options with scopes } = .ok
      { nameSpace := c.nameSpace
        types := describeBuiltins options.nameSpace ++ c.declarations.filter fun d =>
          scopes.any fun target => (splitPath target).isPrefixOf d.enclosingPath } := by
  have hverify := (compile_eq_ok h).1
  rcases Compilation.declarations_of_compile h with ⟨htypes, hdescribed⟩
  -- without target scopes all declarations are described
  have hall : (spec.located.filter fun l => Options.targets { options with scopes := [] } l.scope) =
      spec.located := List.filter_true spec.located
  rw [hall] at hdescribed
  have hnamed : List.Forall₂ (fun l d =>
      describeDeclaration (l.site spec { options with scopes }) l.declaration = .ok d ∧
      l ∈ spec.located ∧ d.qualifiedName = some l.qualifiedName ∧ d.enclosingPath = l.path)
      spec.located c.declarations := by
    refine ((List.forall₂_and_left _ _).mpr ⟨fun _ hl => hl, hdescribed⟩).imp ?_
    rintro l d ⟨hl, hd⟩
    have hname := describeDeclaration_describesAs _ _ d hd
    exact ⟨hd, hl, hname, enclosingPath_of_qualifiedName hverify hl hname⟩
  refine ⟨hnamed.imp fun l d hd => hd.2.2, htypes, ?_⟩
  rw [Compilation.nameSpace_of_compile h]
  refine compile_of_described hverify ?_
  refine (List.rel_filter ?_ hnamed).imp fun l d hd => hd.1
  rintro l d ⟨_, hl, _, hpath⟩
  dsimp only
  rw [targets_scope hverify hl hscopes, hpath]

/-- A schema with two scopes of which the name of one starts with that of the other,
    and with a reference from the one to the other. -/
def neighbours : Specification where
  scope := .mk "example"
    [.mk "inner"
      [.mk "deep" [] [.typedef { name := "Far", aliased := .named "innermost::Near" }]]
      [.struct
        { name := "Here", members := [{ name := "near", type := .named "innermost::Near" }] }],
      .mk "innermost" [] [.typedef { name := "Near", aliased := .fixed .uint8 }]] []

theorem compile_targets_neighbours :
    ∃ c, compile neighbours {} = .ok c ∧
      compile neighbours { scopes := ["example::inner", "example::inner:"] } = .ok
        { nameSpace := c.nameSpace
          types := describeBuiltins ({} : Options).nameSpace ++ c.declarations.filter fun d =>
            ["example::inner", "example::inner:"].any fun target =>
              (splitPath target).isPrefixOf d.enclosingPath } := by
  have hcompiles : (compile neighbours {}).isOk = true := by decide +kernel
  rcases Checked.exists_of_isOk hcompiles with ⟨c, hcompile⟩
  have htargets := @compile_targets neighbours {} c hcompile ["example::inner", "example::inner:"]
    (List.cons_ne_nil _ _)
  exact ⟨c, hcompile, htargets.2.2⟩

end Selecting

end Wireform
