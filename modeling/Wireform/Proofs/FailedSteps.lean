import Wireform.Proofs.InPlace
import Wireform.Proofs.WriteBack

/-!
# Failed Steps Keep What Was Built

A step that fails leaves everything that was built before it.

Numbers and strings write in place, but nothing fails once they have written, so a
step that fails has not written at all (`Builder.apply_eq`). Lists and arrays are
different: a visitor or a nested builder has written by the time it fails, and so
have encoded fields by the time that they are counted. But all of them write behind
the limit, and neither the limit nor the count has moved, so the only trace are bytes
that the next step writes over (`Builder.Tries.onBuffer_of_error`). Two families are left out on
purpose. A visitor of octets that replaces the payload writes over it, and an entry
of a map is two elements, of which one may fail.

A run that goes on after failures is `Builder.attempt`. For numbers and strings it
ends where its last successful step has left it (`Builder.attempt_of_lastTaken`),
and what that step has written does not depend on what was there before, so the
value is that of the last success. Without any, the builder is as it was started. A
string with a varint prefix is then built as null, which takes a byte, and an empty
window does not have it.

## Main definitions

* `Builder.onBuffer`: A builder with another buffer.
* `Builder.SameBuilt`: Nothing of what was built has changed.
* `Builder.Tries`: What one operation of any kind comes to.
* `Builder.withValue`: A builder that has a value, given by its bytes.
* `Builder.encodingOf`: The bytes of the value that a step sets.
* `Builder.attempt`, `Builder.lastTaken?`: A run that goes on after failures, and
  its last success.
* `Step.Sets`: The reader tells the value that a step sets.

## Theorems

* `Cursor.visit_state`: A visit leaves another buffer and nothing else.
* `Builder.Tries.onBuffer_of_error`: So does every step that fails.
* `Format.reader_of_parse`: A reader tells the number and the payload that the
  parse finds.
* `Builder.apply_eq`: A number or a string is set as a whole or not at all.
* `Builder.apply_taken`: What a step that succeeds has written.
* `Builder.attempt_of_lastTaken`, `Builder.attempt_of_none`: Where a run ends.
* `Builder.failed_steps_keep`: Failed steps change nothing, and a run of sets is
  built into the value of the last that succeeded.
-/

namespace Wireform

section Outcomes

variable {ε σ α β : Type} {fault : Fault ε}

/-- A sequence that fails stands where its first operation has left it, if the
    second changes the state only when it succeeds. -/
theorem Outcome.andThen_of_error {o : Outcome ε σ α} {next : α → σ → Outcome ε σ β}
    (hnext : ∀ a, o.result = .ok a → (next a o.state).result = .error fault →
      (next a o.state).state = o.state)
    (h : (o.andThen next).result = .error fault) : (o.andThen next).state = o.state := by
  rcases o with ⟨result, state⟩
  cases result with
  | ok a => exact hnext a rfl h
  | error fault => rfl

end Outcomes

/-- Whatever its result, a visit leaves another buffer and nothing else, and the
    buffer differs from the position on at most. -/
theorem Cursor.visit_state (c : Cursor) (position : Nat) (visitor : Visitor) :
    ∃ b, (c.visit position visitor).state = { c with buffer := b } ∧
      c.buffer.SameOutside position c.maxLimit b := by
  unfold Cursor.visit
  cases hroom : c.room position with
  | error fault => exact ⟨c.buffer, rfl, .refl _ _ _⟩
  | ok length =>
      have hlength := Cursor.room_eq_ok hroom
      have htake := List.length_take_le length visitor.bytes
      exact ⟨_, rfl, Buffer.sameOutside_overwrite c.buffer (Nat.le_refl _) (by omega)⟩

theorem Cursor.put_state (c : Cursor) (position : Nat) (bytes : Bytes) :
    ∃ b, (Outcome.ofAnswer c (c.put position bytes)).state = { c with buffer := b } ∧
      c.buffer.SameOutside position c.maxLimit b := by
  unfold Cursor.put
  cases hend : c.segmentEnd position bytes.length with
  | error fault => exact ⟨c.buffer, rfl, .refl _ _ _⟩
  | ok stop =>
      rcases Cursor.segmentEnd_eq_ok hend with ⟨rfl, hroom⟩
      exact ⟨_, rfl, Buffer.sameOutside_overwrite c.buffer (Nat.le_refl _) hroom⟩

namespace Sequence.Builder

variable {s : Sequence.Builder} {fault : Fault Refusal}

/-- Limit and count are moved after the fields were written, or not at all. -/
theorem advanced_of_error {written : Outcome Refusal Cursor Nat} {count : Nat}
    (hwritten : ∃ b, written.state = { s.cursor with buffer := b } ∧
      s.cursor.buffer.SameOutside s.cursor.limit s.cursor.maxLimit b)
    (h : ((written.mapState fun cursor => { s with cursor := cursor }).andThen fun stop s' =>
      Outcome.ofChecked s' (s'.advance count stop)).result = .error fault) :
    ∃ b, ((written.mapState fun cursor => { s with cursor := cursor }).andThen fun stop s' =>
        Outcome.ofChecked s' (s'.advance count stop)).state = { s with cursor.buffer := b } ∧
      s.cursor.buffer.SameOutside s.cursor.limit s.cursor.maxLimit b := by
  rcases hwritten with ⟨b, hstate, hframe⟩
  refine ⟨b, ?_, hframe⟩
  rw [Outcome.andThen_of_error (fun _ _ => Outcome.ofChecked_of_error) h, Outcome.mapState, hstate]

theorem item_of_error {write : Buffer → Nat → Nat → Outcome Refusal Buffer Nat}
    (h : (s.item write).result = .error fault) :
    (s.item write).state = { s with
      cursor.buffer := (write s.cursor.buffer s.cursor.limit s.cursor.maxLimit).state } := by
  unfold item at h ⊢
  refine Outcome.andThen_of_error (fun stop _ hnext => ?_) h
  -- a position before its own is refused like any other failure
  by_cases hback : stop < s.cursor.limit
  · rw [if_pos hback]
  · rw [if_neg hback] at hnext ⊢
    exact Outcome.ofChecked_of_error hnext

end Sequence.Builder

namespace Builder

/-- The builder with another buffer in place of its own. -/
def onBuffer (w : Builder) (b : Buffer) : Builder :=
  match w with
  | .fixed f => .fixed { f with cursor.buffer := b }
  | .varint v => .varint { v with cursor.buffer := b }
  | .octets o => .octets { o with cursor.buffer := b }
  | .bounded o => .bounded { o with cursor.buffer := b }
  | .string s => .string { s with cursor.buffer := b }
  | .varstring s => .varstring { s with cursor.buffer := b }
  | .emptyList e => .emptyList { e with cursor.buffer := b }
  | .list s => .list { s with cursor.buffer := b }
  | .array item s => .array item { s with cursor.buffer := b }
  | .map key value s => .map key value { s with cursor.buffer := b }

/-- The number of fields, items, or keys and values so far. -/
def fieldCount : Builder → Nat
  | .list s | .array _ s | .map _ _ s => s.count
  | _ => 0

/-- Whether a value has been set, where the format keeps track of that. -/
def isSet : Builder → Bool
  | .fixed f => f.isSet
  | .varint v => v.isSet
  | .bounded o => o.isSet
  | .string s => s.isSet
  | .varstring s => s.isSet
  | _ => false

/-- All builders but those of octets, whose visitors may write over the payload,
    and those of maps, whose entries are two elements each. -/
def isSteady : Builder → Bool
  | .octets _ | .bounded _ | .map _ _ _ => false
  | _ => true

/-- Nothing of what the first builder has built is different in the second. -/
structure SameBuilt (w w' : Builder) : Prop where
  offset : w'.cursor.offset = w.cursor.offset
  limit : w'.limit = w.limit
  fieldCount : w'.fieldCount = w.fieldCount
  isSet : w'.isSet = w.isSet
  bytes : ∀ k, w.cursor.offset ≤ k → k < w.limit →
    w'.cursor.buffer.data[k]? = w.cursor.buffer.data[k]?

/-- What an operation of any kind comes to, with its result and the state that it
    leaves. `Writes` is what whoever writes an element may do to a buffer. -/
inductive Tries (Writes : Buffer → Nat → Nat → Buffer → Prop) (w : Builder) :
    Outcome Refusal Builder Unit → Prop where
  | configure (settings : Settings) : Tries Writes w ⟨.ok (), w.configure settings⟩
  | set (value : Int) : Tries Writes w (w.set value)
  | write (placement : Placement) (source : Source) : Tries Writes w (w.write placement source)
  | fields (count : Nat) (visitor : Visitor) : Tries Writes w (w.fields count visitor)
  | fieldsFrom (count : Nat) (bytes : Bytes) : Tries Writes w (w.fieldsFrom count bytes)
  | item {write : Buffer → Nat → Nat → Outcome Refusal Buffer Nat}
      (hwrite : HasEffect Writes write) : Tries Writes w (w.item write)
  | entry {writeKey writeValue : Buffer → Nat → Nat → Outcome Refusal Buffer Nat}
      (hkey : HasEffect Writes writeKey) (hvalue : HasEffect Writes writeValue) :
      Tries Writes w (w.entry writeKey writeValue)

variable {w : Builder} {b : Buffer} {fault : Fault Refusal}

theorem onBuffer_self (w : Builder) : w.onBuffer w.cursor.buffer = w := by
  cases w <;> rfl

theorem cursor_onBuffer (w : Builder) (b : Buffer) :
    (w.onBuffer b).cursor = { w.cursor with buffer := b } := by
  cases w <;> rfl

/-- Bytes behind the limit are no part of what was built. -/
theorem sameBuilt_onBuffer {stop : Nat} (h : w.cursor.buffer.SameOutside w.limit stop b) :
    w.SameBuilt (w.onBuffer b) := by
  refine ⟨?_, ?_, ?_, ?_, fun k _ hk => ?_⟩
  · rw [cursor_onBuffer]
  · rw [limit, cursor_onBuffer, limit]
  · cases w <;> rfl
  · cases w <;> rfl
  · rw [cursor_onBuffer]
    exact h.2 k (.inl hk)

/-- Only octets take visitors, which write before their step is checked. -/
theorem write_allOrNothing_of_isSteady (hw : w.isSteady) (placement : Placement)
    (source : Source) : (w.write placement source).AllOrNothing w := by
  cases source with
  | visitor visitor =>
      cases w with
      | octets q => exact absurd hw Bool.false_ne_true
      | bounded q => exact absurd hw Bool.false_ne_true
      | _ => exact unsupported_allOrNothing _
  | _ => exact w.write_allOrNothing placement fun _ hvisitor => by cases hvisitor

/-- A step of a steady builder that fails leaves another buffer and nothing else,
    and the buffer differs behind the limit at most. -/
theorem Tries.onBuffer_of_error {Writes : Buffer → Nat → Nat → Buffer → Prop}
    (hwrites : ∀ b position maxLimit b', Writes b position maxLimit b' →
      b.SameOutside position maxLimit b')
    {out : Outcome Refusal Builder Unit} (h : w.Tries Writes out) (hw : w.isSteady)
    (herror : out.result = .error fault) :
    ∃ b, out.state = w.onBuffer b ∧
      w.cursor.buffer.SameOutside w.limit w.cursor.maxLimit b := by
  -- most steps have changed nothing at all
  have hsame : ∀ {w' : Builder}, w' = w → ∃ b, w' = w.onBuffer b ∧
      w.cursor.buffer.SameOutside w.limit w.cursor.maxLimit b :=
    fun hw' => ⟨w.cursor.buffer, hw'.trans w.onBuffer_self.symm, .refl _ _ _⟩
  cases h with
  | configure settings => cases herror
  | set value => exact hsame ((w.set_allOrNothing value).of_error herror)
  | write placement source =>
      exact hsame ((write_allOrNothing_of_isSteady hw placement source).of_error herror)
  | fields count visitor =>
      unfold Builder.fields at herror ⊢
      split at herror
      · exact hsame (Outcome.ofChecked_of_error herror)
      · next s =>
          rcases Sequence.Builder.advanced_of_error (s.cursor.visit_state _ visitor) herror with
            ⟨b, hstate, hframe⟩
          exact ⟨b, congrArg Builder.list hstate, hframe⟩
      · exact hsame rfl
  | fieldsFrom count bytes =>
      unfold Builder.fieldsFrom at herror ⊢
      split at herror
      · next s =>
          rcases Sequence.Builder.advanced_of_error (s.cursor.put_state _ bytes) herror with
            ⟨b, hstate, hframe⟩
          exact ⟨b, congrArg Builder.list hstate, hframe⟩
      · exact hsame rfl
  | item hwrite =>
      unfold Builder.item at herror ⊢
      split at herror
      · next format s =>
          exact ⟨_, congrArg (Builder.array format) (Sequence.Builder.item_of_error herror),
            hwrites _ _ _ _ (hwrite _ _ _)⟩
      · exact hsame rfl
  | entry hkey hvalue =>
      unfold Builder.entry at herror ⊢
      split at herror
      · exact absurd hw Bool.false_ne_true
      · exact hsame rfl

end Builder

section Reading

variable {b : Buffer} {format : Format} {settings : Settings} {o m : Nat}

/-- The formats that have no elements. -/
def Format.isFlat : Format → Bool
  | .array _ _ | .map _ _ _ => false
  | _ => true

theorem Format.contentOf_flat (hformat : format.isFlat) (r : Reader) :
    format.contentOf r = r.shell := by
  cases format with
  | array width item => exact absurd hformat Bool.false_ne_true
  | map width key value => exact absurd hformat Bool.false_ne_true
  | _ => rfl

theorem Reader.payload_of_shell {r : Reader} {c : Content} (h : r.shell = .ok c) :
    r.payload = .ok c.payload := by
  rcases Checked.bind_eq_ok.mp h with ⟨bytes, _, h⟩
  rcases Checked.bind_eq_ok.mp h with ⟨n, _, h⟩
  rcases Checked.bind_eq_ok.mp h with ⟨payload, hpayload, h⟩
  rcases Checked.bind_eq_ok.mp h with ⟨fields, _, h⟩
  cases h
  exact hpayload

/-- A window in which the parse finds a value without elements is accepted, and
    the reader tells the number and the payload that the parse finds. -/
theorem Format.reader_of_parse (hb : b.Addressable) (hformat : format.isFlat) (ho : o ≤ m)
    (hm : m ≤ b.size) {c : Content} (h : format.parse settings (b.segment o m) = some c) :
    ∃ r, format.wrap b settings o m = .ok r ∧ r.format = format ∧ r.number = .ok c.number ∧
      r.payload = .ok c.payload := by
  have hfollows := format.wrap_follows hb settings o m ho hm
  rw [h] at hfollows
  rcases hfollows with ⟨r, hr, _, hkind, _, _, hcontent⟩
  rw [contentOf_flat hformat] at hcontent
  exact ⟨r, hr, hkind, (Reader.of_shell hcontent).2, Reader.payload_of_shell hcontent⟩

/-- The prefix of a string and its payload are parsed as the string. Without a
    prefix there is no null. -/
theorem Strings.Builder.parse_prefixValue {width : Width} {payload : Option Bytes} {raw : Nat}
    (h : prefixValue width payload = .ok raw) :
    ∃ c, Format.parseString width (Bytes.ofNatLE width.size raw ++ payload.getD []) = some c ∧
      c.payload = payload := by
  by_cases hwidth : width = .zero
  · subst hwidth
    cases payload with
    | none => cases h
    | some bytes => exact ⟨_, rfl, rfl⟩
  · rcases prefixValue_exactly hwidth payload with ⟨raw', hraw, hbytes⟩
    rcases hraw.of_eq_ok h with ⟨hfits, rfl⟩
    rw [hbytes]
    cases payload with
    | none => exact ⟨_, Format.parseString_null hwidth, rfl⟩
    | some bytes => exact ⟨_, Format.parseString_encode hwidth hfits, rfl⟩

theorem VarStrings.Builder.parse_prefixValue {payload : Option Bytes} {raw : Nat}
    (h : prefixValue payload = .ok raw) :
    ∃ c, Format.parseVarstring (Varint.groups raw ++ payload.getD []) = some c ∧
      c.payload = payload := by
  rcases prefixValue_exactly payload with ⟨raw', hraw, hbytes⟩
  rcases hraw.of_eq_ok h with ⟨hfits, rfl⟩
  rw [hbytes]
  cases payload with
  | none => exact ⟨_, Format.parseVarstring_null, rfl⟩
  | some bytes => exact ⟨_, Format.parseVarstring_encode hfits, rfl⟩

end Reading

/-- The cursor stands in the window `[o, m)` of a buffer that is as it was. -/
structure Cursor.Opens (c : Cursor) (b : Buffer) (o m : Nat) : Prop where
  buffer : c.buffer = b
  offset : c.offset = o
  maxLimit : c.maxLimit = m
  offset_le : o ≤ m
  maxLimit_le : m ≤ b.size

theorem Cursor.opens_of_wrap {b : Buffer} {o m : Nat} {c : Cursor}
    (h : Cursor.wrap b o m = .ok c) : c.Opens b o m := by
  rcases Checked.bind_eq_ok.mp h with ⟨_, hwindow, h⟩
  rcases checkWindow_eq_ok hwindow with ⟨hle, hsize⟩
  cases h
  exact ⟨rfl, rfl, rfl, hle, hsize⟩

theorem Cursor.Opens.valid {b : Buffer} {o m : Nat} {c : Cursor} (h : c.Opens b o m)
    (hb : b.Addressable) : c.Valid := by
  refine ⟨?_, ?_⟩
  · rw [h.buffer]
    exact hb
  · rw [h.buffer, h.maxLimit]
    exact h.maxLimit_le

/-- Null takes a byte. -/
theorem VarStrings.Builder.write_null_of_full {s : VarStrings.Builder} (hs : s.cursor.Valid)
    (h : s.cursor.offset = s.cursor.maxLimit) :
    (s.write none).result =
      .error (.refused (.limitExceeded (s.cursor.maxLimit + 1) s.cursor.maxLimit)) := by
  have hlt : s.cursor.maxLimit < 2 ^ (63 : Nat) :=
    Nat.lt_of_le_of_lt hs.maxLimit_le hs.addressable
  have hlength : (Varint.groups (zigzag (-1)) ++ Option.getD none []).length = 1 := by
    decide +kernel
  have hlimit : checkLimit (s.cursor.maxLimit + 1) s.cursor.maxLimit =
      .error (.refused (.limitExceeded (s.cursor.maxLimit + 1) s.cursor.maxLimit)) := by
    unfold checkLimit
    exact if_pos (Nat.lt_succ_self _)
  have hend : s.cursor.segmentEnd s.cursor.offset
      (Varint.groups (zigzag (-1)) ++ Option.getD none []).length =
        .error (.refused (.limitExceeded (s.cursor.maxLimit + 1) s.cursor.maxLimit)) := by
    rw [hlength, Cursor.segmentEnd, h, Word.add_of_lt (by omega), Checked.ok_bind, hlimit]
    rfl
  have hassign : s.cursor.assign (prefixed (Option.getD none []) <$> prefixValue none) =
      ⟨.error (.refused (.limitExceeded (s.cursor.maxLimit + 1) s.cursor.maxLimit)), s.cursor⟩ :=
    Cursor.place_of_error hend
  rw [write, hassign]
  rfl

/-- The formats of single numbers and strings, which one step sets. -/
def Format.isSingle : Format → Bool
  | .fixed _ | .varint _ | .string _ | .varstring => true
  | _ => false

theorem Format.isFlat_of_isSingle {format : Format} (h : format.isSingle) : format.isFlat := by
  cases format with
  | array width item => exact absurd h Bool.false_ne_true
  | map width key value => exact absurd h Bool.false_ne_true
  | _ => rfl

/-- The steps that set a number or a string. -/
def Step.isValue : Step → Bool
  | .set _ | .write _ _ => true
  | _ => false

/-- The content has the value that the step sets. -/
def Step.Spells : Step → Content → Prop
  | .set n, c => c.number = some n
  | .write _ source, c => source.payload = .ok c.payload
  | _, _ => False

/-- The reader tells the value that the step sets: the number, or what the source
    stands for, null included. -/
def Step.Sets : Step → Reader → Prop
  | .set n, r => r.number = .ok (some n)
  | .write _ source, r => ∃ payload, source.payload = .ok payload ∧ r.payload = .ok payload
  | _, _ => False

theorem Step.Spells.sets {step : Step} {c : Content} (h : step.Spells c) {r : Reader}
    (hnumber : r.number = .ok c.number) (hpayload : r.payload = .ok c.payload) : step.Sets r := by
  cases step with
  | set n => exact hnumber.trans (congrArg Except.ok h)
  | write placement source => exact ⟨c.payload, h, hpayload⟩
  | _ => exact h

namespace Builder

/-- The format of what is written. -/
def format : Builder → Format
  | .fixed f => .fixed f.kind
  | .varint v => .varint v.kind
  | .octets _ => .octets
  | .bounded o => .bounded o.width
  | .string s => .string s.width
  | .varstring _ => .varstring
  | .emptyList _ => .emptyList
  | .list s => .list s.width
  | .array item s => .array s.width item
  | .map key value s => .map s.width key value

/-- The settings under which what is written is read. -/
def settings : Builder → Settings
  | .fixed f => { order := some f.order }
  | _ => {}

/-- The builder of a number or a string that has the value with these bytes. -/
def withValue (w : Builder) (bytes : Bytes) : Builder :=
  match w with
  | .fixed f => .fixed { f with cursor := f.cursor.withBytes bytes, isSet := true }
  | .varint v => .varint { v with cursor := v.cursor.withBytes bytes, isSet := true }
  | .string s => .string { s with cursor := s.cursor.withBytes bytes, isSet := true }
  | .varstring s => .varstring { s with cursor := s.cursor.withBytes bytes, isSet := true }
  | other => other

/-- Take all steps, also behind one that fails. -/
def attempt (w : Builder) : List Step → Builder
  | [] => w
  | step :: rest => (w.apply step).state.attempt rest

/-- The last of the steps that has succeeded. -/
def lastTaken? (w : Builder) : List Step → Option Step
  | [] => none
  | step :: rest =>
      ((w.apply step).state.lastTaken? rest).or
        (if (w.apply step).result.isOk then some step else none)

section Singles

variable {w : Builder} {step : Step} {bytes : Bytes}

theorem cursor_withValue (hformat : w.format.isSingle) (bytes : Bytes) :
    (w.withValue bytes).cursor = w.cursor.withBytes bytes := by
  cases w with
  | fixed f => rfl
  | varint v => rfl
  | string s => rfl
  | varstring s => rfl
  | _ => exact absurd hformat Bool.false_ne_true

theorem format_withValue (w : Builder) (bytes : Bytes) :
    (w.withValue bytes).format = w.format := by
  cases w <;> rfl

theorem build_withValue (hformat : w.format.isSingle) (bytes : Bytes) :
    (w.withValue bytes).build.result =
      w.format.wrap (w.cursor.buffer.overwrite w.cursor.offset bytes) w.settings w.cursor.offset
        (w.cursor.offset + bytes.length) := by
  cases w with
  | fixed f => rfl
  | varint v => rfl
  | string s => rfl
  | varstring s => rfl
  | _ => exact absurd hformat Bool.false_ne_true

/-- The bytes of a number. -/
def numberEncoding (w : Builder) (value : Int) : Checked Refusal Encoding :=
  match w with
  | .fixed f => f.arranged <$> f.kind.encode value
  | .varint v => Varint.encoding <$> v.kind.encode value
  | _ => Checked.refuse (.stepNotSupported w.kind)

/-- The bytes of a string, or of null. -/
def payloadEncoding (w : Builder) (payload : Option Bytes) : Checked Refusal Encoding :=
  match w with
  | .string s =>
      Strings.Builder.prefixed s.width (payload.getD []) <$>
        Strings.Builder.prefixValue s.width payload
  | .varstring _ =>
      VarStrings.Builder.prefixed (payload.getD []) <$> VarStrings.Builder.prefixValue payload
  | _ => Checked.refuse (.stepNotSupported w.kind)

/-- The bytes of the value that a step sets, for a single number or string. -/
def encodingOf (w : Builder) : Step → Checked Refusal Encoding
  | .set value => w.numberEncoding value
  | .write _ (.visitor _) => Checked.refuse (.stepNotSupported w.kind)
  | .write _ source =>
      if w.takesPayload then source.payload >>= w.payloadEncoding
      else Checked.refuse (.stepNotSupported w.kind)
  | _ => Checked.refuse (.stepNotSupported w.kind)

theorem set_eq (hformat : w.format.isSingle) (value : Int) :
    w.set value =
      Outcome.ofChecked w (w.withValue <$> w.cursor.fitting (w.numberEncoding value)) := by
  cases w with
  | fixed f => exact Cursor.assigned_eq _ _ _ _ Builder.fixed
  | varint v => exact Cursor.assigned_eq _ _ _ _ Builder.varint
  | string s => rfl
  | varstring s => rfl
  | _ => exact absurd hformat Bool.false_ne_true

theorem writePayload_eq (hformat : w.format.isSingle) (placement : Placement)
    (payload : Option Bytes) :
    w.writePayload placement payload =
      Outcome.ofChecked w (w.withValue <$> w.cursor.fitting (w.payloadEncoding payload)) := by
  cases w with
  | fixed f => rfl
  | varint v => rfl
  | string s => exact Cursor.assigned_eq _ _ _ _ Builder.string
  | varstring s => exact Cursor.assigned_eq _ _ _ _ Builder.varstring
  | _ => exact absurd hformat Bool.false_ne_true

/-- Numbers and strings are set by one write, which takes place if there is room for
    the bytes of the value. -/
theorem apply_eq (hformat : w.format.isSingle) (hstep : step.isValue) :
    w.apply step =
      Outcome.ofChecked w (w.withValue <$> w.cursor.fitting (w.encodingOf step)) := by
  cases step with
  | set value => exact set_eq hformat value
  | write placement source =>
      cases source with
      | visitor visitor =>
          cases w with
          | octets q => exact absurd hformat Bool.false_ne_true
          | bounded q => exact absurd hformat Bool.false_ne_true
          | _ => rfl
      | _ =>
          by_cases hw : w.takesPayload
          · simp only [apply, write, encodingOf, if_pos hw]
            generalize Source.payload _ = payload
            cases payload with
            | error fault => rfl
            | ok payload => exact writePayload_eq hformat placement payload
          · simp only [apply, write, encodingOf, if_neg hw]
            rfl
  | _ => exact absurd hstep Bool.false_ne_true

theorem number_of_encoding {n : Int} {e : Encoding} (h : w.numberEncoding n = .ok e) :
    ∃ c, w.format.parse w.settings e.bytes = some c ∧ c.number = some n := by
  unfold numberEncoding at h
  split at h
  · next f =>
      rcases Checked.map_eq_ok.mp h with ⟨raw, hraw, rfl⟩
      rcases (f.kind.encode_exactly n).of_eq_ok hraw with ⟨hrange, rfl⟩
      exact ⟨_, Format.parseFixed_word hrange f.order, rfl⟩
  · next v =>
      rcases Checked.map_eq_ok.mp h with ⟨raw, hraw, rfl⟩
      rcases (v.kind.encode_exactly n).of_eq_ok hraw with ⟨hrange, rfl⟩
      exact ⟨_, Format.parseVarint_groups hrange, rfl⟩
  · cases h

theorem payload_of_encoding {payload : Option Bytes} {e : Encoding}
    (h : w.payloadEncoding payload = .ok e) :
    ∃ c, w.format.parse w.settings e.bytes = some c ∧ c.payload = payload := by
  unfold payloadEncoding at h
  split at h
  · rcases Checked.map_eq_ok.mp h with ⟨raw, hraw, rfl⟩
    exact Strings.Builder.parse_prefixValue hraw
  · rcases Checked.map_eq_ok.mp h with ⟨raw, hraw, rfl⟩
    exact VarStrings.Builder.parse_prefixValue hraw
  · cases h

/-- The bytes of a value are parsed as that value. -/
theorem spells_of_encodingOf {e : Encoding} (h : w.encodingOf step = .ok e) :
    ∃ c, w.format.parse w.settings e.bytes = some c ∧ step.Spells c := by
  unfold encodingOf at h
  split at h
  · exact number_of_encoding h
  · cases h
  · split at h
    · rcases Checked.bind_eq_ok.mp h with ⟨payload, hpayload, h⟩
      rcases payload_of_encoding h with ⟨c, hparse, rfl⟩
      exact ⟨c, hparse, hpayload⟩
    · cases h
  · cases h

theorem apply_ok_iff (hw : w.cursor.Valid) (hformat : w.format.isSingle) (hstep : step.isValue) :
    (w.apply step).result = .ok () ↔
      ∃ e, w.encodingOf step = .ok e ∧
        w.cursor.offset + e.bytes.length ≤ w.cursor.maxLimit := by
  rw [apply_eq hformat hstep]
  constructor
  · intro h
    rcases Checked.map_eq_ok.mp (Outcome.ofChecked_of_ok h) with ⟨bytes, hfitting, _⟩
    rcases (Cursor.fitting_eq_ok hw).mp hfitting with ⟨⟨e, he, rfl⟩, hroom⟩
    exact ⟨e, he, hroom⟩
  · rintro ⟨e, he, hroom⟩
    rw [(Cursor.fitting_eq_ok hw).mpr ⟨⟨e, he, rfl⟩, hroom⟩]
    rfl

/-- What a step that succeeds has written: bytes at the offset that are parsed as
    its value, whatever was there before. -/
theorem apply_taken (hw : w.cursor.Valid) (hformat : w.format.isSingle) (hstep : step.isValue)
    (h : (w.apply step).result = .ok ()) :
    ∃ bytes c, (w.apply step).state = w.withValue bytes ∧
      w.cursor.offset + bytes.length ≤ w.cursor.maxLimit ∧
      w.format.parse w.settings bytes = some c ∧ step.Spells c := by
  rw [apply_eq hformat hstep] at h ⊢
  rcases Checked.map_eq_ok.mp (Outcome.ofChecked_of_ok h) with ⟨bytes, hfitting, hstate⟩
  rcases (Cursor.fitting_eq_ok hw).mp hfitting with ⟨⟨e, he, rfl⟩, hroom⟩
  rcases spells_of_encodingOf he with ⟨c, hparse, hspells⟩
  exact ⟨e.bytes, c, hstate.symm, hroom, hparse, hspells⟩

theorem apply_of_error {fault : Fault Refusal} (hformat : w.format.isSingle)
    (hstep : step.isValue) (h : (w.apply step).result = .error fault) :
    (w.apply step).state = w :=
  Outcome.AllOrNothing.of_error ⟨_, apply_eq hformat hstep⟩ h

/-- A single number or string being written in a window that lies in its buffer. -/
structure WritesSingle (format : Format) (w : Builder) : Prop where
  valid : w.cursor.Valid
  format_eq : w.format = format
  isSingle : format.isSingle

variable {format : Format}

theorem WritesSingle.single (hw : w.WritesSingle format) : w.format.isSingle :=
  hw.format_eq ▸ hw.isSingle

theorem WritesSingle.withValue (hw : w.WritesSingle format) (bytes : Bytes) :
    (w.withValue bytes).WritesSingle format := by
  refine ⟨?_, (format_withValue w bytes).trans hw.format_eq, hw.isSingle⟩
  rw [cursor_withValue hw.single]
  exact ⟨(hw.valid.overwrite _ bytes).addressable, (hw.valid.overwrite _ bytes).maxLimit_le⟩

/-- A step either succeeds or changes nothing, and then the next one finds a
    builder of the same kind. -/
theorem WritesSingle.apply (hw : w.WritesSingle format) (hstep : step.isValue) :
    (w.apply step).state.WritesSingle format := by
  cases hresult : (w.apply step).result with
  | ok _ =>
      rcases apply_taken hw.valid hw.single hstep hresult with ⟨bytes, _, hstate, _⟩
      rw [hstate]
      exact hw.withValue bytes
  | error fault =>
      rw [apply_of_error hw.single hstep hresult]
      exact hw

/-- A run without a success changes nothing. -/
theorem attempt_of_none {steps : List Step} (hw : w.WritesSingle format)
    (hsteps : ∀ s ∈ steps, s.isValue) (h : w.lastTaken? steps = none) :
    w.attempt steps = w := by
  induction steps generalizing w with
  | nil => rfl
  | cons s rest ih =>
      rcases List.forall_mem_cons.mp hsteps with ⟨hs, hrest⟩
      rcases Option.or_eq_none_iff.mp h with ⟨hlater, hnow⟩
      -- the steps behind this one change nothing, so it is left to look at this one
      rw [attempt, ih (hw.apply hs) hrest hlater]
      cases hresult : (w.apply s).result with
      | ok _ =>
          rw [hresult] at hnow
          cases hnow
      | error fault => exact apply_of_error hw.single hs hresult

/-- A run ends where its last success has left it. -/
theorem attempt_of_lastTaken {steps : List Step} (hw : w.WritesSingle format)
    (hsteps : ∀ s ∈ steps, s.isValue) (h : w.lastTaken? steps = some step) :
    ∃ w' : Builder, w'.WritesSingle format ∧ step.isValue ∧ (w'.apply step).result = .ok () ∧
      w.attempt steps = (w'.apply step).state := by
  induction steps generalizing w with
  | nil => cases h
  | cons s rest ih =>
      rcases List.forall_mem_cons.mp hsteps with ⟨hs, hrest⟩
      rw [attempt]
      cases hlater : (w.apply s).state.lastTaken? rest with
      | some t =>
          rw [lastTaken?, hlater] at h
          cases h
          exact ih (hw.apply hs) hrest hlater
      | none =>
          -- nothing behind this step has changed anything
          rw [attempt_of_none (hw.apply hs) hrest hlater]
          rw [lastTaken?, hlater, Option.none_or] at h
          cases hresult : (w.apply s).result with
          | ok _ =>
              rw [hresult] at h
              cases h
              exact ⟨w, hw, hs, hresult, rfl⟩
          | error fault =>
              rw [hresult] at h
              cases h

/-- The builder is built into a reader of the format that has the property. -/
def BuildsInto (w : Builder) (format : Format) (P : Reader → Prop) : Prop :=
  ∃ r, w.build.result = .ok r ∧ r.format = format ∧ P r

theorem WritesSingle.buildsInto_withValue (hw : w.WritesSingle format) {c : Content}
    (hroom : w.cursor.offset + bytes.length ≤ w.cursor.maxLimit)
    (hparse : w.format.parse w.settings bytes = some c) :
    (w.withValue bytes).BuildsInto format fun r =>
      r.number = .ok c.number ∧ r.payload = .ok c.payload := by
  have hflat := Format.isFlat_of_isSingle hw.single
  have hmax := hw.valid.maxLimit_le
  rw [← w.cursor.buffer.segment_overwrite (Nat.le_trans hroom hmax)] at hparse
  rcases Format.reader_of_parse (hw.valid.addressable.overwrite _ bytes) hflat
    (Nat.le_add_right _ _) (by rw [Buffer.size_overwrite]; omega) hparse with
    ⟨r, hr, hkind, hnumber, hpayload⟩
  exact ⟨r, (build_withValue hw.single bytes).trans hr, hkind.trans hw.format_eq, hnumber, hpayload⟩

/-- A step that has succeeded is built into its value. -/
theorem WritesSingle.buildsInto_taken (hw : w.WritesSingle format) (hstep : step.isValue)
    (h : (w.apply step).result = .ok ()) : (w.apply step).state.BuildsInto format step.Sets := by
  rcases apply_taken hw.valid hw.single hstep h with ⟨bytes, c, hstate, hroom, hparse, hspells⟩
  rcases hw.buildsInto_withValue hroom hparse with ⟨r, hr, hkind, hnumber, hpayload⟩
  exact ⟨r, by rw [hstate, hr], hkind, hspells.sets hnumber hpayload⟩

end Singles

section Starting

variable {format : Format} {settings : Settings} {b : Buffer} {o m : Nat} {w : Builder}

/-- The builder has just been started in the window `[o, m)`. -/
structure Fresh (format : Format) (b : Buffer) (o m : Nat) (w : Builder) : Prop where
  format_eq : w.format = format
  opens : w.cursor.Opens b o m
  unset : w.isSet = false

theorem fresh_of_start : (format.start b o m).Ensures (Fresh format b o m) := by
  have hwrap : (Cursor.wrap b o m).Ensures fun c => c.Opens b o m :=
    fun _ hc => Cursor.opens_of_wrap hc
  -- the two prefixes are passed over, and no field is there
  have hsequence : ∀ width, (Sequence.Builder.wrap width b o m).Ensures fun s =>
      s.cursor.Opens b o m ∧ s.width = width := by
    intro width s h
    rcases Checked.bind_eq_ok.mp h with ⟨c, hc, h⟩
    rcases Checked.bind_eq_ok.mp h with ⟨fields, _, h⟩
    rcases Checked.bind_eq_ok.mp h with ⟨moved, hmoved, h⟩
    rcases (c.setLimit_exactly fields).of_eq_ok hmoved with ⟨_, rfl⟩
    have hopens := Cursor.opens_of_wrap hc
    cases h
    exact ⟨⟨hopens.buffer, hopens.offset, hopens.maxLimit, hopens.offset_le,
      hopens.maxLimit_le⟩, rfl⟩
  cases format with
  | fixed kind =>
      exact .map (hwrap.bind fun c hc => Checked.ensures_bind fun _ => Checked.ensures_bind
        fun _ => Checked.ensures_ok ⟨rfl, hc, rfl⟩)
  | varint kind =>
      exact .map (Checked.ensures_bind fun _ => Checked.ensures_bind fun _ => hwrap.bind
        fun c hc => Checked.ensures_ok ⟨rfl, hc, rfl⟩)
  | octets => exact .map (hwrap.bind fun c hc => Checked.ensures_ok ⟨rfl, hc, rfl⟩)
  | bounded width =>
      exact .map (hwrap.bind fun c hc => Checked.ensures_bind fun _ => Checked.ensures_bind
        fun _ => Checked.ensures_ok ⟨rfl, hc, rfl⟩)
  | string width =>
      exact .map (hwrap.bind fun c hc => Checked.ensures_bind fun _ => Checked.ensures_bind
        fun _ => Checked.ensures_ok ⟨rfl, hc, rfl⟩)
  | varstring => exact .map (hwrap.bind fun c hc => Checked.ensures_ok ⟨rfl, hc, rfl⟩)
  | emptyList => exact .map (hwrap.bind fun c hc => Checked.ensures_ok ⟨rfl, hc, rfl⟩)
  | list width =>
      exact .map fun s hs => ⟨congrArg Format.list (hsequence width s hs).2,
        (hsequence width s hs).1, rfl⟩
  | array width item =>
      exact .map fun s hs => ⟨congrArg (Format.array · item) (hsequence width s hs).2,
        (hsequence width s hs).1, rfl⟩
  | map width key value =>
      exact .map fun s hs => ⟨congrArg (Format.map · key value) (hsequence width s hs).2,
        (hsequence width s hs).1, rfl⟩

/-- No operation gets a builder out of its buffer. -/
theorem Reached.valid {Writes : Buffer → Nat → Nat → Buffer → Prop}
    (hwrites : ∀ b position maxLimit b', Writes b position maxLimit b' →
      b.SameOutside position maxLimit b')
    (hb : b.Addressable) (h : Reached Writes b o m w) : w.cursor.Valid := by
  have hmax : m ≤ b.size := by
    induction h with
    | start h => exact (fresh_of_start _ h).opens.maxLimit_le
    | _ => assumption
  have hframed := h.framed hwrites
  refine ⟨hframed.frame.addressable hb, ?_⟩
  rw [hframed.maxLimit, hframed.frame.1]
  exact hmax

/-- A builder of the format, started in the window and told its settings. -/
def StartsAs (format : Format) (settings : Settings) (b : Buffer) (o m : Nat) (w : Builder) : Prop :=
  ∃ started, format.start b o m = .ok started ∧ w = started.configure settings

theorem format_configure (w : Builder) (settings : Settings) :
    (w.configure settings).format = w.format := by
  unfold configure
  split
  · rfl
  · split <;> rfl
  · rfl

theorem isSet_configure (w : Builder) (settings : Settings) :
    (w.configure settings).isSet = w.isSet := by
  unfold configure
  split
  · rfl
  · split <;> rfl
  · rfl

theorem StartsAs.fresh (h : StartsAs format settings b o m w) : Fresh format b o m w := by
  rcases h with ⟨started, hstart, rfl⟩
  rcases fresh_of_start started hstart with ⟨hformat, hopens, hunset⟩
  refine ⟨(format_configure _ _).trans hformat, ?_, (isSet_configure _ _).trans hunset⟩
  rw [cursor_configure]
  exact hopens

theorem Fresh.writesSingle (h : Fresh format b o m w) (hb : b.Addressable)
    (hformat : format.isSingle) : w.WritesSingle format :=
  ⟨h.opens.valid hb, h.format_eq, hformat⟩

/-- What was never set is not built, strings with a varint prefix apart. -/
theorem build_of_unset (hunset : w.isSet = false) (hformat : w.format.isSingle)
    (hkind : w.format ≠ .varstring) : w.build.result = .error (.refused .valueNotSet) := by
  cases w with
  | fixed f => simp only [build, FixedInt.Builder.build, show f.isSet = false from hunset]; rfl
  | varint v => simp only [build, VarInt.Builder.build, show v.isSet = false from hunset]; rfl
  | string s => simp only [build, Strings.Builder.build, show s.isSet = false from hunset]; rfl
  | varstring s => exact absurd rfl hkind
  | _ => exact absurd hformat Bool.false_ne_true

theorem Fresh.build_unset (h : Fresh format b o m w) (hformat : format.isSingle)
    (hkind : format ≠ .varstring) : w.build.result = .error (.refused .valueNotSet) := by
  rw [← h.format_eq] at hformat hkind
  exact build_of_unset h.unset hformat hkind

/-- A string with a varint prefix that was never set is built as null, if the
    window has a byte for that. -/
theorem Fresh.build_null (h : Fresh .varstring b o m w) (hb : b.Addressable) :
    (o < m → w.BuildsInto .varstring fun r => r.payload = .ok none) ∧
      (o = m → w.build.result = .error (.refused (.limitExceeded (m + 1) m))) := by
  have hsingle := h.writesSingle hb rfl
  rcases h with ⟨hformat, hopens, hunset⟩
  cases w with
  | varstring s =>
      have hsettle : s.settle = s.write none := by
        rw [VarStrings.Builder.settle, show s.isSet = false from hunset]
        exact if_neg Bool.false_ne_true
      have hoffset : s.cursor.offset = o := hopens.offset
      have hmax : s.cursor.maxLimit = m := hopens.maxLimit
      have hlength : (Format.encode .varstring none).length = 1 := by
        decide +kernel
      constructor
      · -- with a byte of room it is as if null had been set
        intro hroom
        have hbyte : s.cursor.offset + (Format.encode .varstring none).length ≤
            s.cursor.maxLimit := by
          omega
        have hwrite := (VarStrings.Builder.write_exactly hsingle.valid none).1 ⟨trivial, hbyte⟩
        rcases hsingle.buildsInto_withValue hbyte Format.parseVarstring_null with
          ⟨r, hr, hkind, _, hnull⟩
        refine ⟨r, ?_, hkind, hnull⟩
        rw [← hr, build, hsettle, hwrite]
        rfl
      · intro hempty
        have hwrite := VarStrings.Builder.write_null_of_full hsingle.valid
          (by omega)
        rw [build, hsettle, hwrite, hmax]
        rfl
  | _ => cases hformat

end Starting

/-- A step that fails leaves the limit, the count, whether a value was set and all
    bytes up to the limit as they were, for every format but octets and maps, and
    whatever nested builders have written by then. So a run of sets that goes on
    after failures is built into the value of the last that succeeded. If none did,
    there is no value, or null, which takes a byte of the window. -/
theorem failed_steps_keep :
    (∀ (depth : Nat) (w : Builder) (out : Outcome Refusal Builder Unit) (fault : Fault Refusal),
      w.isSteady → w.Tries (WritesWithin depth) out → out.result = .error fault →
      w.SameBuilt out.state) ∧
    ∀ (format : Format) (settings : Settings) (b : Buffer) (o m : Nat) (w : Builder)
      (steps : List Step), format.isSingle → b.Addressable →
      StartsAs format settings b o m w → (∀ s ∈ steps, s.isValue) →
      (∀ step, w.lastTaken? steps = some step →
        (w.attempt steps).BuildsInto format step.Sets) ∧
      (w.lastTaken? steps = none →
        (format ≠ .varstring →
          (w.attempt steps).build.result = .error (.refused .valueNotSet)) ∧
        (format = .varstring → o < m →
          (w.attempt steps).BuildsInto .varstring fun r => r.payload = .ok none) ∧
        (format = .varstring → o = m →
          (w.attempt steps).build.result = .error (.refused (.limitExceeded (m + 1) m)))) := by
  refine ⟨fun depth w out fault hw htries herror => ?_,
    fun format settings b o m w steps hformat hb hstart hsteps => ?_⟩
  · rcases htries.onBuffer_of_error (WritesWithin.sameOutside depth) hw herror with
      ⟨b, hstate, hframe⟩
    rw [hstate]
    exact sameBuilt_onBuffer hframe
  · have hfresh := hstart.fresh
    have hw := hfresh.writesSingle hb hformat
    refine ⟨fun step hlast => ?_, fun hnone => ?_⟩
    · rcases attempt_of_lastTaken hw hsteps hlast with ⟨w', hw', hvalue, htaken, hend⟩
      rw [hend]
      exact hw'.buildsInto_taken hvalue htaken
    · rw [attempt_of_none hw hsteps hnone]
      refine ⟨hfresh.build_unset hformat, fun hkind => ?_, fun hkind => ?_⟩
      · subst hkind
        exact (hfresh.build_null hb).1
      · subst hkind
        exact (hfresh.build_null hb).2

-- An array of which the second item fills the window and fails, and a string of
-- which the second value is too long and the third no string.
theorem failed_steps_keep_greedy :
    afterString.SameBuilt (afterString.item greedyOctets.write).state ∧
      ((Builder.string ⟨.eight, ⟨.ofBytes [9, 9, 9, 9], 1, 4, 1⟩, false⟩).attempt
        [.write .replace (.bytes [104, 105]), .write .replace (.bytes [1, 2, 3]),
          .set 5]).BuildsInto (.string .eight) fun r => r.payload = .ok (some [104, 105]) := by
  have hgreedy : greedyOctets.NestsWithin 1 := by
    intro s hs e he
    rw [List.mem_singleton.mp hs] at he
    cases he
  have herror : (afterString.item greedyOctets.write).result =
      .error (.refused (.limitExceeded 15 8)) := by
    rfl
  have hb : (Buffer.ofBytes [9, 9, 9, 9]).Addressable := by
    unfold Buffer.Addressable
    decide
  refine ⟨failed_steps_keep.1 1 afterString _ _ rfl (.item (Element.hasEffect_write hgreedy))
    herror, ?_⟩
  have hlast := (failed_steps_keep.2 (.string .eight) {} (.ofBytes [9, 9, 9, 9]) 1 4 _
    [.write .replace (.bytes [104, 105]), .write .replace (.bytes [1, 2, 3]), .set 5] rfl hb
    ⟨_, rfl, rfl⟩ (by simp only [List.forall_mem_cons, Step.isValue]; simp)).1
      (.write .replace (.bytes [104, 105])) rfl
  rcases hlast with ⟨r, hr, hkind, payload, hpayload, hread⟩
  cases hpayload
  exact ⟨r, hr, hkind, hread⟩

-- In an empty window there is no room for null.
theorem unset_string_without_room :
    StartsAs .varstring {} (.ofBytes [0]) 0 0 (.varstring ⟨⟨.ofBytes [0], 0, 0, 0⟩, false⟩) ∧
      (Builder.varstring ⟨⟨.ofBytes [0], 0, 0, 0⟩, false⟩).lastTaken?
        [.write .replace (.bytes [97])] = none ∧
      ((Builder.varstring ⟨⟨.ofBytes [0], 0, 0, 0⟩, false⟩).attempt
        [.write .replace (.bytes [97])]).build.result =
          .error (.refused (.limitExceeded 1 0)) := by
  refine ⟨⟨_, rfl, rfl⟩, ?_, ?_⟩
  · exact Option.isNone_iff_eq_none.mp (by decide +kernel)
  · decide +kernel

end Builder

end Wireform
