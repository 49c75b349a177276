import Wireform.Proofs.Framing
import Wireform.Proofs.Writing

/-!
# Nothing Fails After a Write

Builders write in place. A step checks what it is to write, writes it, and then
moves the limit behind it, which is a check of its own. Bounded octets do more in
between: they compute the length back from the position, compare it with the bound
again and patch the prefix. If one of these later checks failed, the step would be
refused and its bytes would stand in the buffer all the same.

They never fail. A number, a string or plain octets move the limit to the end of
what they have just written, and that end was checked before the write, because the
size that was reckoned up front is the number of bytes. The length that bounded
octets compute back is the one they had compared with the bound, and the prefix lies
before the payload. So each step of these families is all or nothing: it has the
form of an operation that changes its state only when it succeeds
(`Outcome.AllOrNothing`), although it is not written in that form.

Visitors are not all or nothing, and neither are the elements of arrays and maps.
They have written before their own report is looked at.

## Main definitions

* `Outcome.AllOrNothing`: An operation that changes its state only when it succeeds.
* `Cursor.fitting`: The bytes of an encoding that has room.

## Theorems

* `Outcome.allOrNothing_iff`: A fault leaves the state as it was.
* `Cursor.place_allOrNothing`: A write and a limit that is not beyond it.
* `Cursor.assign_eq`: An encoding is assigned as a whole.
* `Bounded.Builder.write_allOrNothing`: The second look at the bound comes to the
  same.
* `Sequence.Builder.fieldsFrom_of_refused`: Encoded fields that are refused.
* `Builder.set_allOrNothing`, `Builder.writePayload_allOrNothing`: All builders that
  take a number or a payload.
-/

namespace Wireform

section Outcomes

variable {ε σ τ α : Type} {o : Outcome ε σ Unit} {before : σ}

/-- The operation is one that changes its state only when it succeeds. -/
def Outcome.AllOrNothing (o : Outcome ε σ Unit) (before : σ) : Prop :=
  ∃ x : Checked ε σ, o = Outcome.ofChecked before x

/-- An operation that changes its state only when it succeeds, and did not. -/
theorem Outcome.ofChecked_of_error {x : Checked ε σ} {fault : Fault ε}
    (h : (Outcome.ofChecked before x).result = .error fault) :
    (Outcome.ofChecked before x).state = before := by
  cases x with
  | ok after => cases h
  | error fault => rfl

theorem Outcome.ofChecked_of_ok {x : Checked ε σ}
    (h : (Outcome.ofChecked before x).result = .ok ()) :
    x = .ok (Outcome.ofChecked before x).state := by
  cases x with
  | ok after => rfl
  | error fault => cases h

theorem Outcome.ofChecked_eq_error {x : Checked ε σ} {fault : Fault ε}
    (h : (Outcome.ofChecked before x).result = .error fault) : x = .error fault := by
  cases x with
  | ok after => cases h
  | error fault =>
      cases h
      rfl

theorem Outcome.allOrNothing_iff :
    o.AllOrNothing before ↔ ∀ fault, o.result = .error fault → o.state = before := by
  constructor
  · rintro ⟨x, rfl⟩ fault herror
    exact ofChecked_of_error herror
  · intro h
    rcases o with ⟨result, state⟩
    cases result with
    | ok _ => exact ⟨.ok state, rfl⟩
    | error fault => exact ⟨.error fault, congrArg (Outcome.mk _) (h fault rfl)⟩

namespace Outcome.AllOrNothing

theorem of_error (h : o.AllOrNothing before) {fault : Fault ε} (herror : o.result = .error fault) :
    o.state = before :=
  allOrNothing_iff.mp h fault herror

/-- A test in front changes nothing. -/
theorem check_andThen {test : Checked ε α} {next : α → σ → Outcome ε σ Unit}
    (h : ∀ a, test = .ok a → (next a before).AllOrNothing before) :
    ((Outcome.check before test).andThen next).AllOrNothing before := by
  cases test with
  | ok a => exact h a rfl
  | error fault => exact ⟨.error fault, rfl⟩

theorem mapState (h : o.AllOrNothing before) (f : σ → τ) :
    (o.mapState f).AllOrNothing (f before) :=
  allOrNothing_iff.mpr fun _ herror => congrArg f (h.of_error herror)

/-- What cannot fail may follow. -/
theorem onSuccess (h : o.AllOrNothing before) (change : σ → σ) :
    (o.onSuccess change).AllOrNothing before := by
  rcases h with ⟨x, rfl⟩
  cases x with
  | ok after => exact ⟨.ok (change after), rfl⟩
  | error fault => exact ⟨.error fault, rfl⟩

end Outcome.AllOrNothing

end Outcomes

namespace Cursor

variable {c : Cursor}

theorem setLimit_of_le {limit : Nat} (h : limit ≤ c.maxLimit) :
    c.setLimit limit = .ok { c with limit } :=
  (c.setLimit_exactly limit).1 h

/-- A segment that ends no later has its end too, in any buffer of the same size. -/
theorem segmentEnd_of_le {buffer : Buffer} {position length stop : Nat}
    (h : c.segmentEnd position length = .ok stop) (hsize : buffer.size = c.buffer.size)
    {p n : Nat} (hle : p + n ≤ stop) : { c with buffer }.segmentEnd p n = .ok (p + n) := by
  rcases Checked.bind_eq_ok.mp h with ⟨sum, hsum, h⟩
  rcases Checked.bind_eq_ok.mp h with ⟨_, hlimit, h⟩
  rcases (Word.add_exactly position length).of_eq_ok hsum with ⟨hword, rfl⟩
  have hmax := checkLimit_eq_ok hlimit
  by_cases hinside : position + length ≤ c.buffer.size
  · rw [if_pos hinside] at h
    cases h
    rw [segmentEnd, Word.add_of_lt (by omega), Checked.ok_bind,
      (checkLimit_exactly _ c.maxLimit).1 (by omega), Checked.ok_bind, hsize,
      if_pos (by omega)]
    rfl
  · rw [if_neg hinside] at h
    cases h

/-- Bytes are written once their end was found, and if the new limit is in the
    window, nothing is left to fail. -/
theorem place_of_ok {position limit stop : Nat} {bytes : Bytes}
    (hend : c.segmentEnd position bytes.length = .ok stop) (hlimit : limit ≤ c.maxLimit) :
    c.place position bytes limit =
      ⟨.ok (), { c with buffer := c.buffer.overwrite position bytes, limit }⟩ := by
  rw [place, store, hend]
  exact congrArg (Outcome.ofChecked _)
    (setLimit_of_le (c := { c with buffer := c.buffer.overwrite position bytes }) hlimit)

theorem place_of_error {position limit : Nat} {bytes : Bytes} {fault : Fault Refusal}
    (hend : c.segmentEnd position bytes.length = .error fault) :
    c.place position bytes limit = ⟨.error fault, c⟩ := by
  rw [place, store, hend]
  rfl

theorem place_allOrNothing {position limit : Nat} {bytes : Bytes}
    (h : position + bytes.length ≤ c.maxLimit → limit ≤ c.maxLimit) :
    (c.place position bytes limit).AllOrNothing c := by
  cases hend : c.segmentEnd position bytes.length with
  | error fault => exact ⟨.error fault, place_of_error hend⟩
  | ok stop =>
      rcases segmentEnd_eq_ok hend with ⟨rfl, hroom⟩
      exact ⟨.ok _, place_of_ok hend (h hroom)⟩

/-- The bytes of an encoding, if there is one and it has room. -/
def fitting (c : Cursor) (encoding : Checked Refusal Encoding) : Checked Refusal Bytes := do
  let e ← encoding
  let _ ← c.segmentEnd c.offset e.bytes.length
  return e.bytes

/-- An encoding is assigned as a whole or not at all. Its size is that of its bytes,
    so its end was checked before it was written. -/
theorem assign_eq (c : Cursor) (encoding : Checked Refusal Encoding) :
    c.assign encoding = Outcome.ofChecked c (c.withBytes <$> c.fitting encoding) := by
  cases encoding with
  | error fault => rfl
  | ok e =>
      have hassign : c.assign (.ok e) = c.place c.offset e.bytes (c.offset + e.bytes.length) := by
        rw [e.length_bytes]
        rfl
      rw [hassign, fitting, Checked.ok_bind]
      cases hend : c.segmentEnd c.offset e.bytes.length with
      | error fault => exact place_of_error hend
      | ok stop =>
          rcases segmentEnd_eq_ok hend with ⟨rfl, hroom⟩
          exact place_of_ok hend hroom

/-- So is a builder around the cursor that keeps track of what was assigned. -/
theorem assigned_eq {σ τ : Type} (c : Cursor) (encoding : Checked Refusal Encoding)
    (around : Cursor → σ) (change : σ → σ) (shape : σ → τ) :
    (((c.assign encoding).mapState around).onSuccess change).mapState shape =
      Outcome.ofChecked (shape (around c))
        ((fun bytes => shape (change (around (c.withBytes bytes)))) <$> c.fitting encoding) := by
  rw [assign_eq]
  cases c.fitting encoding <;> rfl

theorem fitting_eq_ok (hc : c.Valid) {encoding : Checked Refusal Encoding} {bytes : Bytes} :
    c.fitting encoding = .ok bytes ↔
      (∃ e, encoding = .ok e ∧ e.bytes = bytes) ∧ c.offset + bytes.length ≤ c.maxLimit := by
  constructor
  · intro h
    rcases Checked.bind_eq_ok.mp h with ⟨e, he, h⟩
    rcases Checked.bind_eq_ok.mp h with ⟨stop, hstop, h⟩
    rcases segmentEnd_eq_ok hstop with ⟨rfl, hroom⟩
    cases h
    exact ⟨⟨e, he, rfl⟩, hroom⟩
  · rintro ⟨⟨e, rfl, rfl⟩, hroom⟩
    rw [fitting, Checked.ok_bind, (segmentEnd_exactly hc _ _).1 hroom]
    rfl

end Cursor

theorem Octets.Builder.write_allOrNothing (q : Octets.Builder) (placement : Placement)
    (bytes : Bytes) : (q.write placement bytes).AllOrNothing q :=
  (Cursor.place_allOrNothing id).mapState Octets.Builder.mk

namespace Bounded.Builder

variable {q : Bounded.Builder} {placement : Placement} {bytes : Bytes}

/-- The prefix is patched last, and the limit that follows it is known to be in the
    window. -/
theorem settle_allOrNothing {stop : Nat} (hstop : stop ≤ q.cursor.maxLimit) :
    (q.settle stop).AllOrNothing q :=
  .check_andThen fun _ _ => ((Cursor.place_allOrNothing fun _ => hstop).mapState _).onSuccess _

theorem settle_of_ok {stop length found : Nat} (hlength : q.lengthTo stop = .ok length)
    (hend : q.cursor.segmentEnd q.cursor.offset (Bytes.ofNatLE q.width.size length).length =
      .ok found) (hstop : stop ≤ q.cursor.maxLimit) :
    q.settle stop = ⟨.ok (), q.settledAt stop length⟩ := by
  rw [settle, hlength]
  simp only [Outcome.check, Outcome.andThen, Outcome.onSuccess, Outcome.mapState,
    Cursor.place_of_ok hend hstop]
  rfl

theorem checkAdded_eq_ok (h : q.checkAdded placement bytes = .ok ()) :
    q.start placement + bytes.length ≤ q.bound := by
  rcases Checked.bind_eq_ok.mp h with ⟨length, hlength, h⟩
  rw [← Word.add_eq_ok hlength]
  exact ((q.checkBound_exactly length).of_eq_ok h).1

/-- Bytes that have no room are not written. -/
theorem write_of_error {fault : Fault Refusal} (hadded : q.checkAdded placement bytes = .ok ())
    (hend : q.cursor.segmentEnd (q.position placement) bytes.length = .error fault) :
    q.write placement bytes = ⟨.error fault, q⟩ := by
  have hput : q.cursor.put (q.position placement) bytes = .error fault := by
    rw [Cursor.put, hend]
    rfl
  simp only [write, hadded, hput, Outcome.check, Outcome.ofAnswer, Outcome.andThen,
    Outcome.mapState]

/-- Bytes that were written are taken into account: their end was found when they
    were written, and their length was compared with the bound before. -/
theorem write_of_ok {stop : Nat} (hadded : q.checkAdded placement bytes = .ok ())
    (hend : q.cursor.segmentEnd (q.position placement) bytes.length = .ok stop) :
    q.write placement bytes = ⟨.ok (), q.extended (q.start placement) bytes⟩ := by
  rcases Cursor.segmentEnd_eq_ok hend with ⟨hstop, hroom⟩
  rw [position, Nat.add_assoc] at hstop
  have hput : q.cursor.put (q.position placement) bytes =
      .ok (stop, (q.stored (q.start placement) bytes).cursor) := by
    rw [Cursor.put, hend]
    rfl
  have hlength : (q.stored (q.start placement) bytes).lengthTo stop =
      .ok (q.start placement + bytes.length) := by
    rw [hstop]
    exact ((q.stored (q.start placement) bytes).lengthTo_exactly _).1 (checkAdded_eq_ok hadded)
  -- the prefix ends before the payload does
  have hprefix := Cursor.segmentEnd_of_le hend
    (q.cursor.buffer.size_overwrite (q.position placement) bytes) (p := q.cursor.offset)
    (n := (Bytes.ofNatLE q.width.size (q.start placement + bytes.length)).length)
    (by rw [Bytes.length_ofNatLE]; omega)
  have hsettle := settle_of_ok hlength hprefix hroom
  rw [extended, ← hstop, ← hsettle]
  simp only [write, hadded, hput, Outcome.check, Outcome.ofAnswer, Outcome.andThen,
    Outcome.mapState]
  rfl

theorem write_allOrNothing (q : Bounded.Builder) (placement : Placement) (bytes : Bytes) :
    (q.write placement bytes).AllOrNothing q := by
  cases hadded : q.checkAdded placement bytes with
  | error fault =>
      rw [write, hadded]
      exact ⟨.error fault, rfl⟩
  | ok _ =>
      cases hend : q.cursor.segmentEnd (q.position placement) bytes.length with
      | error fault => exact ⟨.error fault, write_of_error hadded hend⟩
      | ok stop => exact ⟨.ok _, write_of_ok hadded hend⟩

end Bounded.Builder

namespace Sequence.Builder

variable {s : Sequence.Builder} {count : Nat} {cause : Refusal}

theorem advance_ne_refused {stop : Nat} (hstop : stop ≤ s.cursor.maxLimit) :
    s.advance count stop ≠ .error (.refused cause) := by
  rw [advance, Cursor.setLimit_of_le hstop, Checked.ok_bind, Word.add, Word.fit]
  intro hrefused
  split at hrefused <;> cases hrefused

/-- Encoded fields that are refused have not been written. Once they are, only their
    count can leave the 64-bit range, which is no refusal. -/
theorem fieldsFrom_of_refused {bytes : Bytes}
    (h : (s.fieldsFrom count bytes).result = .error (.refused cause)) :
    (s.fieldsFrom count bytes).state = s := by
  unfold fieldsFrom at h ⊢
  cases hend : s.cursor.segmentEnd s.cursor.limit bytes.length with
  | error fault =>
      rw [Cursor.put, hend]
      rfl
  | ok stop =>
      rcases Cursor.segmentEnd_eq_ok hend with ⟨rfl, hroom⟩
      rw [Cursor.put, hend] at h
      have hrefused : Sequence.Builder.advance
          { s with cursor.buffer := s.cursor.buffer.overwrite s.cursor.limit bytes } count
          (s.cursor.limit + bytes.length) = .error (.refused cause) :=
        Outcome.ofChecked_eq_error h
      exact absurd hrefused (advance_ne_refused hroom)

end Sequence.Builder

namespace Builder

theorem unsupported_allOrNothing (w : Builder) : w.unsupported.AllOrNothing w :=
  ⟨.error _, rfl⟩

theorem set_allOrNothing (w : Builder) (value : Int) : (w.set value).AllOrNothing w := by
  unfold set
  split
  · exact ⟨_, Cursor.assigned_eq _ _ _ _ Builder.fixed⟩
  · exact ⟨_, Cursor.assigned_eq _ _ _ _ Builder.varint⟩
  · exact w.unsupported_allOrNothing

theorem writePayload_allOrNothing (w : Builder) (placement : Placement)
    (payload : Option Bytes) : (w.writePayload placement payload).AllOrNothing w := by
  unfold writePayload
  split
  · next q => exact (q.write_allOrNothing placement _).mapState Builder.octets
  · next q => exact (q.write_allOrNothing placement _).mapState Builder.bounded
  · exact ⟨_, Cursor.assigned_eq _ _ _ _ Builder.string⟩
  · exact ⟨_, Cursor.assigned_eq _ _ _ _ Builder.varstring⟩
  · exact w.unsupported_allOrNothing

/-- Only visitors write before their step is checked. -/
theorem write_allOrNothing (w : Builder) (placement : Placement) {source : Source}
    (hsource : ∀ visitor, source ≠ .visitor visitor) :
    (w.write placement source).AllOrNothing w := by
  unfold write
  split
  · exact absurd rfl (hsource _)
  · split
    · exact .check_andThen fun payload _ => w.writePayload_allOrNothing placement payload
    · exact w.unsupported_allOrNothing

end Builder

end Wireform
