import Mathlib.Data.List.Induction
import Wireform.Schema.Naming

/-!
# What a Name Stands For

Looking a name up works on qualified names, which are cut at their separators.
What it means is simpler and does not mention characters: a name stands for what
is defined under it in the scope, or else for what it stands for in the scope
around. `Resolves` says just that on paths.

The two agree where the names on a path are identifiers. An identifier is not
empty and holds no colon, so the cuts fall exactly between the names, and no
scope is mistaken for the place outside of all scopes. Without that a scope `a:`
would be cut in the middle of its own name.

## Main definitions

* `IsIdentifier`: Names of letters, digits and underscores.
* `Resolves`: What a name stands for, seen from a path.

## Theorems

* `isIdentifier_iff`: Identifiers are recognized.
* `Resolves.unique`: A name stands for one thing.
* `qualify_concat`: The qualified name of a longer path.
* `candidates_concat`: The candidates of a scope, and those of the scope around.
* `searchOutward_eq_some_iff`: The search finds what the name stands for.
-/

namespace Wireform

section Identifiers

/-- One of `[A-Za-z_]`. -/
def IsIdentifierStart (c : Char) : Prop :=
  'A' ≤ c ∧ c ≤ 'Z' ∨ 'a' ≤ c ∧ c ≤ 'z' ∨ c = '_'

/-- One of `[A-Za-z0-9_]`. -/
def IsIdentifierPart (c : Char) : Prop :=
  IsIdentifierStart c ∨ '0' ≤ c ∧ c ≤ '9'

/-- The names that match `[A-Za-z_][A-Za-z0-9_]*`. -/
def IsIdentifier (name : String) : Prop :=
  ∃ first rest, name.toList = first :: rest ∧ IsIdentifierStart first ∧
    ∀ c ∈ rest, IsIdentifierPart c

theorem isIdentifierStart_iff (c : Char) :
    (c.isAlpha || c = '_') = true ↔ IsIdentifierStart c := by
  have hupper : c.isUpper = true ↔ 'A' ≤ c ∧ c ≤ 'Z' := decide_eq_true_iff
  have hlower : c.isLower = true ↔ 'a' ≤ c ∧ c ≤ 'z' :=
    Bool.and_eq_true_iff.trans (and_congr decide_eq_true_iff decide_eq_true_iff)
  have halpha : c.isAlpha = true ↔ c.isUpper = true ∨ c.isLower = true :=
    Bool.or_eq_true_iff
  rw [IsIdentifierStart, Bool.or_eq_true, halpha, hupper, hlower, decide_eq_true_eq, or_assoc]

theorem isIdentifierChar_iff (c : Char) : isIdentifierChar c = true ↔ IsIdentifierPart c := by
  rw [IsIdentifierPart, ← isIdentifierStart_iff]
  simp only [isIdentifierChar, Char.isAlphanum, Char.isDigit, Bool.or_eq_true,
    Bool.and_eq_true, decide_eq_true_eq]
  rw [or_right_comm]
  exact Iff.rfl

theorem isIdentifier_iff (name : String) : isIdentifier name = true ↔ IsIdentifier name := by
  rw [isIdentifier, IsIdentifier]
  cases name.toList with
  | nil => exact ⟨nofun, fun ⟨_, _, h, _⟩ => nomatch h⟩
  | cons c rest =>
      simp only [Bool.and_eq_true, isIdentifierStart_iff, List.all_eq_true, isIdentifierChar_iff]
      constructor
      · intro h
        exact ⟨c, rest, rfl, h⟩
      · rintro ⟨_, _, hsame, h⟩
        cases hsame
        exact h

theorem IsIdentifier.toList_ne_nil {name : String} (h : IsIdentifier name) :
    name.toList ≠ [] := by
  rcases h with ⟨first, rest, hname, _⟩
  rw [hname]
  exact List.cons_ne_nil first rest

theorem IsIdentifier.ne_colon {name : String} (h : IsIdentifier name) :
    ∀ c ∈ name.toList, c ≠ ':' := by
  have hcolon : ¬ IsIdentifierPart ':' := by
    unfold IsIdentifierPart IsIdentifierStart
    decide
  rcases h with ⟨first, rest, hname, hfirst, hrest⟩
  rw [hname]
  rintro c hc rfl
  rcases List.mem_cons.mp hc with rfl | hc
  · exact hcolon (.inl hfirst)
  · exact hcolon (hrest _ hc)

end Identifiers

/-- What a name stands for, seen from a path of scopes: what is defined under it
    there, or else what it stands for in the scope around. Outside of all scopes
    it can only stand for itself. -/
inductive Resolves (Defined : String → Prop) (name : String) : List String → String → Prop where
  | here {path : List String} (h : Defined (qualify (path ++ [name]))) :
      Resolves Defined name path (qualify (path ++ [name]))
  | outward {path : List String} {scope q : String}
      (h : ¬ Defined (qualify (path ++ [scope] ++ [name]))) (hq : Resolves Defined name path q) :
      Resolves Defined name (path ++ [scope]) q

/-- A name stands for one thing only. -/
theorem Resolves.unique {Defined : String → Prop} {name q q' : String} {path : List String}
    (h : Resolves Defined name path q) (h' : Resolves Defined name path q') : q = q' := by
  induction h with
  | @here path hd =>
      cases h' with
      | here _ => rfl
      | outward hnot _ => exact absurd hd hnot
  | @outward path scope q hnot _ ih =>
      -- the path of the other derivation ends in some scope as well
      generalize hlonger : path ++ [scope] = longer at h'
      cases h' with
      | here hd =>
          subst hlonger
          exact absurd hd hnot
      | outward _ hq' =>
          rw [(List.append_inj' hlonger rfl).1] at ih
          exact ih hq'

section Qualify

theorem qualify_singleton (name : String) : qualify [name] = name := by
  rw [qualify, String.intercalate_singleton]

theorem qualify_concat {path : List String} (h : path ≠ []) (name : String) :
    qualify (path ++ [name]) = qualify path ++ scopeSeparator ++ name := by
  induction path with
  | nil => exact absurd rfl h
  | cons first rest ih =>
      cases rest with
      | nil =>
          rw [qualify_singleton, List.singleton_append, qualify, String.intercalate_cons_cons,
            String.intercalate_singleton]
      | cons second rest =>
          have hrest := ih (List.cons_ne_nil second rest)
          rw [qualify] at hrest ⊢
          rw [List.cons_append, List.cons_append, String.intercalate_cons_cons,
            ← List.cons_append, hrest, qualify, qualify, String.intercalate_cons_cons]
          simp only [String.append_assoc]

theorem toList_qualify_concat {path : List String} (h : path ≠ []) (name : String) :
    (qualify (path ++ [name])).toList = (qualify path).toList ++ ':' :: ':' :: name.toList := by
  rw [qualify_concat h, String.toList_append, String.toList_append, List.append_assoc]
  rfl

theorem toList_qualify_ne_nil {path : List String} (h : path ≠ [])
    (hpath : ∀ scope ∈ path, IsIdentifier scope) : (qualify path).toList ≠ [] := by
  induction path using List.reverseRecOn with
  | nil => exact absurd rfl h
  | append_singleton outer scope _ =>
      cases outer with
      | nil =>
          rw [List.nil_append, qualify_singleton]
          exact (hpath scope List.mem_cons_self).toList_ne_nil
      | cons first rest =>
          rw [toList_qualify_concat (List.cons_ne_nil first rest)]
          exact List.append_ne_nil_of_right_ne_nil _ (List.cons_ne_nil _ _)

end Qualify

section Search

theorem outerScopes_append {word : List Char} (h : ∀ c ∈ word, c ≠ ':') (rest : List Char) :
    outerScopes (word ++ rest) = outerScopes rest := by
  induction word with
  | nil => rfl
  | cons c word ih =>
      have hc : c ≠ ':' := h c List.mem_cons_self
      have hskip : outerScopes (c :: (word ++ rest)) = outerScopes (word ++ rest) := by
        rw [outerScopes]
        exact fun _ hcolon _ => hc hcolon
      rw [List.cons_append, hskip, ih fun d hd => h d (List.mem_cons_of_mem c hd)]

/-- Around a scope is the scope that the path without its last name gives. -/
theorem enclosingScopes_concat {path : List String} {scope : String}
    (hpath : ∀ s ∈ path, IsIdentifier s) (hscope : IsIdentifier scope) :
    enclosingScopes (qualify (path ++ [scope])).toList =
      (qualify (path ++ [scope])).toList :: enclosingScopes (qualify path).toList := by
  have hcolon : ∀ c ∈ scope.toList.reverse, c ≠ ':' := fun c hc =>
    hscope.ne_colon c (List.mem_reverse.mp hc)
  -- around the outermost scope is only the place outside of all
  by_cases hp : path = []
  · subst hp
    have hend := outerScopes_append hcolon []
    rw [List.append_nil] at hend
    rw [List.nil_append, qualify_singleton, enclosingScopes, if_neg hscope.toList_ne_nil, hend]
    rfl
  · have hne := toList_qualify_ne_nil hp hpath
    -- read backwards, the last name ends at the first separator
    have hcut : outerScopes (qualify (path ++ [scope])).toList.reverse =
        (qualify path).toList :: outerScopes (qualify path).toList.reverse := by
      rw [toList_qualify_concat hp, List.reverse_append, List.reverse_cons, List.reverse_cons,
        List.append_assoc, List.append_assoc, outerScopes_append hcolon, List.singleton_append,
        List.singleton_append, outerScopes, if_neg (mt List.reverse_eq_nil_iff.mp hne),
        List.reverse_reverse]
    rw [enclosingScopes, if_neg, hcut, enclosingScopes, if_neg hne]
    rw [toList_qualify_concat hp]
    exact List.append_ne_nil_of_left_ne_nil hne _

theorem nameIn_qualify {path : List String} (hpath : ∀ s ∈ path, IsIdentifier s)
    (name : String) : nameIn (qualify path).toList name = qualify (path ++ [name]) := by
  by_cases hp : path = []
  · subst hp
    rw [List.nil_append, qualify_singleton]
    rfl
  · rw [nameIn, if_neg (toList_qualify_ne_nil hp hpath), String.ofList_toList,
      qualify_concat hp]

theorem candidates_nil (name : String) :
    candidates (qualify []) name = [qualify ([] ++ [name])] := by
  rw [List.nil_append, qualify_singleton]
  rfl

/-- A name may stand for one defined in the scope itself, or for whatever it may
    stand for in the scope around. -/
theorem candidates_concat {path : List String} {scope : String}
    (hpath : ∀ s ∈ path ++ [scope], IsIdentifier s) (name : String) :
    candidates (qualify (path ++ [scope])) name =
      qualify (path ++ [scope] ++ [name]) :: candidates (qualify path) name := by
  have hscope := hpath scope (List.mem_append_right path List.mem_cons_self)
  rw [candidates, enclosingScopes_concat (fun s hs => hpath s (List.mem_append_left _ hs)) hscope,
    List.map_cons, nameIn_qualify hpath]
  rfl

/-- The search from a scope finds what the name stands for there. -/
theorem searchOutward_eq_some_iff (isDefined : String → Bool) {path : List String}
    (hpath : ∀ s ∈ path, IsIdentifier s) (name q : String) :
    searchOutward isDefined (qualify path) name = some q ↔
      Resolves (fun q => isDefined q = true) name path q := by
  constructor
  · intro h
    -- the search moves outward, so the induction drops the innermost scope
    induction path using List.reverseRecOn with
    | nil =>
        rw [searchOutward, candidates_nil] at h
        have hname := List.mem_singleton.mp (List.mem_of_find?_eq_some h)
        subst hname
        exact .here (List.find?_some h)
    | append_singleton outer scope ih =>
        rw [searchOutward, candidates_concat hpath, List.find?_cons] at h
        by_cases hd : isDefined (qualify (outer ++ [scope] ++ [name])) = true
        · rw [hd, Option.some.injEq] at h
          subst h
          exact .here hd
        · rw [Bool.not_eq_true] at hd
          rw [hd] at h
          have houter := ih (fun s hs => hpath s (List.mem_append_left _ hs)) h
          exact .outward (by rw [hd]; exact Bool.false_ne_true) houter
  · intro h
    induction h with
    | @here path hd =>
        cases path using List.reverseRecOn with
        | nil =>
            rw [searchOutward, candidates_nil]
            exact List.find?_cons_of_pos hd
        | append_singleton outer scope =>
            rw [searchOutward, candidates_concat hpath]
            exact List.find?_cons_of_pos hd
    | @outward path scope q hd _ ih =>
        rw [searchOutward, candidates_concat hpath, List.find?_cons_of_neg hd]
        exact ih fun s hs => hpath s (List.mem_append_left _ hs)

end Search

end Wireform
