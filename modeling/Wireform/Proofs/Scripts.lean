import Mathlib.Algebra.GroupWithZero.Nat
import Mathlib.Data.List.Forall2
import Wireform.Builder
import Wireform.Proofs.Encoding
import Wireform.Proofs.Success

/-!
# Scripts That Spell a Value

The ways to write a value, and the life of a builder as one operation.

There is more than one way to write a value. Octets may come in pieces, a
string from bytes, from a region, from a text or from another encoding, and the
fields of a list from a visitor. `Spells` is the relation between values and
the scripts that write them, so that what is proved about writing is proved for
all of them. Every value has a script (`spells_script`).

A builder is started, takes the steps of a script and is built. `compose` is
all of that in one, and the same for the outermost builder and for a nested
one, which only differs in what it answers.

## Main definitions

* `Format.Spells`: The scripts that write a value.
* `Format.script`: One such script.
* `Format.compose`: Start a builder, take steps, build.

## Theorems

* `Format.spells_script`: Every value has a script.
* `Format.write_built`: A nested builder composes its value.
* `Format.compose_exactly`: The condition of the whole from its three parts.
* `Builder.run_exactly_of_family`: A script of one step.
-/

namespace Wireform

/-- The source is no visitor, and stands for the payload. -/
def Source.Gives (source : Source) (payload : Option Bytes) : Prop :=
  (∀ visitor, source ≠ .visitor visitor) ∧ source.payload = .ok payload

/-- The source gives the bytes, or is a visitor that writes and reports them. -/
def Source.Supplies (source : Source) (bytes : Bytes) : Prop :=
  source = .visitor (.honest bytes) ∨ source.Gives (some bytes)

namespace Format

/-- The steps write octets piece by piece, each behind the one before. -/
def SpellsOctets (bytes : Bytes) (steps : List Step) : Prop :=
  ∃ placement source first pieces rest, steps = .write placement source :: rest ∧
    source.Supplies first ∧ bytes = first ++ pieces.flatten ∧
    List.Forall₂ (fun piece step => ∃ source : Source, source.Supplies piece ∧
      step = .write .append source) pieces rest

/-- The steps append fields, encoded already or by a visitor. -/
def SpellsFields (count : Nat) (bytes : Bytes) (steps : List Step) : Prop :=
  ∃ pieces : List (Nat × Bytes), count = (pieces.map Prod.fst).sum ∧
    bytes = pieces.flatMap Prod.snd ∧
    List.Forall₂ (fun piece step => step = .fieldsFrom piece.1 piece.2 ∨
      step = .fields piece.1 (.honest piece.2)) pieces steps

/-- The script writes the value: numbers are set, payloads written, fields
    appended, and elements written by nested builders without settings. -/
def Spells : (format : Format) → format.Value → List Step → Prop
  | .fixed _, n, steps | .varint _, n, steps => steps = [.set n]
  | .octets, bytes, steps | .bounded _, bytes, steps => SpellsOctets bytes steps
  | .string _, payload, steps =>
      ∃ placement source, source.Gives payload ∧ steps = [.write placement source]
  | .varstring, payload, steps =>
      (∃ placement source, source.Gives payload ∧ steps = [.write placement source]) ∨
        payload = none ∧ steps = []
  | .emptyList, _, steps => ∀ step ∈ steps, ∃ visitor, step = .fields 0 visitor
  | .list _, (count, bytes), steps => SpellsFields count bytes steps
  | .array _ item, items, steps =>
      List.Forall₂ (fun v step => ∃ script, item.Spells v script ∧
        step = .item (.built item {} script)) items steps
  | .map _ key value, entries, steps =>
      List.Forall₂ (fun e step => ∃ keyScript valueScript, key.Spells e.1 keyScript ∧
        value.Spells e.2 valueScript ∧
        step = .entry (.built key {} keyScript) (.built value {} valueScript)) entries steps

/-- The plainest script for a value. -/
def script : (format : Format) → format.Value → List Step
  | .fixed _, n | .varint _, n => [.set n]
  | .octets, bytes | .bounded _, bytes => [.write .replace (.bytes bytes)]
  | .string _, none | .varstring, none => [.write .replace .null]
  | .string _, some bytes | .varstring, some bytes => [.write .replace (.bytes bytes)]
  | .emptyList, _ => []
  | .list _, (count, bytes) => [.fieldsFrom count bytes]
  | .array _ item, items => items.map fun v => .item (.built item {} (item.script v))
  | .map _ key value, entries =>
      entries.map fun e =>
        .entry (.built key {} (key.script e.1)) (.built value {} (value.script e.2))

theorem spellsOctets_single (bytes : Bytes) :
    SpellsOctets bytes [.write .replace (.bytes bytes)] := by
  refine ⟨.replace, .bytes bytes, bytes, [], [], rfl, .inr ⟨fun _ => nofun, rfl⟩, ?_, .nil⟩
  rw [List.flatten_nil, List.append_nil]

/-- Every value has a script. -/
theorem spells_script {format : Format} (v : format.Value) :
    format.Spells v (format.script v) := by
  induction format with
  | fixed kind => rfl
  | varint kind => rfl
  | octets => exact spellsOctets_single v
  | bounded width => exact spellsOctets_single v
  | string width =>
      cases v with
      | none => exact ⟨.replace, .null, ⟨fun _ => nofun, rfl⟩, rfl⟩
      | some bytes => exact ⟨.replace, .bytes bytes, ⟨fun _ => nofun, rfl⟩, rfl⟩
  | varstring =>
      cases v with
      | none => exact .inl ⟨.replace, .null, ⟨fun _ => nofun, rfl⟩, rfl⟩
      | some bytes => exact .inl ⟨.replace, .bytes bytes, ⟨fun _ => nofun, rfl⟩, rfl⟩
  | emptyList => exact fun step hstep => absurd hstep List.not_mem_nil
  | list width =>
      refine ⟨[v], ?_, ?_, .cons (.inl rfl) .nil⟩
      · rw [List.map_singleton, List.sum_singleton]
      · rw [List.flatMap_singleton]
  | array width item ih =>
      refine List.forall₂_map_right_iff.mpr (List.forall₂_same.mpr fun w _ => ?_)
      exact ⟨item.script w, ih w, rfl⟩
  | map width key value ihk ihv =>
      refine List.forall₂_map_right_iff.mpr (List.forall₂_same.mpr fun e _ => ?_)
      exact ⟨key.script e.1, value.script e.2, ihk e.1, ihv e.2, rfl⟩

/-- Start a builder in a window, take steps, and build it into a reader. -/
def compose (format : Format) (steps : List Step) (b : Buffer) (o m : Nat) :
    Outcome Refusal Buffer Reader :=
  match format.start b o m with
  | .error fault => ⟨.error fault, b⟩
  | .ok builder =>
      let written := builder.run steps
      match written.result with
      | .error fault => ⟨.error fault, written.state.cursor.buffer⟩
      | .ok _ => written.state.build

/-- A nested builder composes its value, and answers with where it ends. -/
theorem write_built (format : Format) (steps : List Step) (b : Buffer) (o m : Nat) :
    (Element.built format {} steps).write b o m =
      ⟨Reader.limit <$> (format.compose steps b o m).result,
        (format.compose steps b o m).state⟩ := by
  -- no settings change nothing
  have hid : ∀ builder : Builder, builder.configure {} = builder := by
    intro builder
    cases builder <;> rfl
  rw [Element.write, compose]
  cases format.start b o m with
  | error fault => rfl
  | ok builder =>
      simp only [hid]
      cases (builder.run steps).result with
      | error fault => rfl
      | ok _ => rfl

/-- The condition of the whole is that of its three parts. -/
theorem compose_exactly {format : Format} {steps : List Step} {b out : Buffer} {o m : Nat}
    {started written : Builder} {result : Checked Refusal Reader} {P Q R : Prop}
    (hstart : (format.start b o m).Exactly P started)
    (hrun : P → (started.run steps).Exactly Q (.ok ()) written)
    (hbuild : P → Q → written.build.Exactly R result out) :
    (format.compose steps b o m).Exactly (P ∧ Q ∧ R) result out := by
  unfold compose
  by_cases hp : P
  · rw [hstart.1 hp]
    -- a script that fails never comes to be built
    by_cases hq : Q
    · simp only [(hrun hp).1 hq]
      exact (hbuild hp hq).congr ⟨fun h => h.2.2, fun h => ⟨hp, hq, h⟩⟩
    · rcases (hrun hp).2 hq with ⟨fault, hfault⟩
      simp only [hfault]
      exact ⟨fun h => absurd h.2.1 hq, fun _ => ⟨fault, rfl⟩⟩
  · rcases hstart.2 hp with ⟨fault, hfault⟩
    rw [hfault]
    exact ⟨fun h => absurd h.1 hp, fun _ => ⟨fault, rfl⟩⟩

end Format

theorem Builder.run_exactly_single {b after : Builder} {step : Step} {P : Prop}
    (h : (b.apply step).Exactly P (.ok ()) after) :
    (b.run [step]).Exactly P (.ok ()) after := by
  have hnil : (after.run []).Exactly True (.ok ()) after :=
    Outcome.exactly_of_eq (by rw [Builder.run])
  rw [Builder.run]
  exact (h.andThen fun _ => hnil).congr ⟨fun hp => ⟨hp, trivial⟩, fun hp => hp.1⟩

/-- A script of one step that a builder of one family takes by itself. -/
theorem Builder.run_exactly_of_family {b : Builder} {step : Step} {α : Type} {shape : α → Builder}
    {taken : Outcome Refusal α Unit} {after : α} {P : Prop}
    (hstep : b.apply step = taken.mapState shape) (h : taken.Exactly P (.ok ()) after) :
    (b.run [step]).Exactly P (.ok ()) (shape after) := by
  refine run_exactly_single ?_
  rw [hstep]
  exact h.mapState shape

end Wireform
