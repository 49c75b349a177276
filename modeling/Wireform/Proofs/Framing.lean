import Wireform.Builder
import Wireform.Proofs.Segments

/-!
# Builders Keep to Their Window

Whatever a builder is made to do, it writes into its own window only.

A builder owns the bytes from its offset to its maximal limit, and nothing else
of the buffer. A step may fail, and it may have written before it failed. A
visitor may write what it likes into the slice it is given and report any number.
An array hands the whole buffer to whoever writes an item. So the statement has
to cover the states that builders get into, not only those that succeed:
`Builder.Reached` has a constructor for every operation and takes the state it
leaves, whatever its result.

The items of an array and the entries of a map are written by builders in turn.
`WritesWithin` says what such a writer may do at a given depth of nesting: it
starts builders at the position it was given, one after the other, makes them
take steps, leaves them or builds them, and answers as it likes. The induction is
on that depth. Its step is `Builder.Reached.framed`, which takes for granted that
elements are written inside their window and shows it of the builder around.

## Main definitions

* `Buffer.SameOutside`: Nothing has changed but between two positions.
* `HasEffect`: What a writer of elements may do to a buffer.
* `Cursor.Framed`: A cursor that has kept to its window.
* `Builder.Reached`: The states that a builder gets into.
* `Leaves`, `WritesWithin`: What is left behind by whoever writes an element.
* `Element.NestsWithin`: The scripted elements that builders alone write.

## Theorems

* `Cursor.Framed.put`, `Cursor.Framed.place`, `Cursor.Framed.visit`: Writes at a
  position of the window.
* `Builder.Reached.framed`: Every operation keeps to the window.
* `Builder.build_sameOutside`: So does building.
* `WritesWithin.sameOutside`: So do nested builders, at any depth.
* `Element.hasEffect_write`: Scripted elements are among what is covered.
* `Builder.keeps_window`: Builders write into their own window only.
-/

namespace Wireform

/-- Nothing of the buffer has changed but the bytes in `[start, stop)`. -/
def Buffer.SameOutside (b : Buffer) (start stop : Nat) (b' : Buffer) : Prop :=
  b'.size = b.size ∧ ∀ k, k < start ∨ stop ≤ k → b'.data[k]? = b.data[k]?

section Frames

variable {b b' b'' : Buffer} {i j : Nat}

theorem Buffer.SameOutside.refl (b : Buffer) (i j : Nat) : b.SameOutside i j b :=
  ⟨rfl, fun _ _ => rfl⟩

theorem Buffer.SameOutside.trans (h : b.SameOutside i j b') (h' : b'.SameOutside i j b'') :
    b.SameOutside i j b'' :=
  ⟨h'.1.trans h.1, fun k hk => (h'.2 k hk).trans (h.2 k hk)⟩

theorem Buffer.SameOutside.mono (h : b.SameOutside i j b') {i' j' : Nat} (hi : i' ≤ i)
    (hj : j ≤ j') : b.SameOutside i' j' b' :=
  ⟨h.1, fun k hk => h.2 k (by omega)⟩

theorem Buffer.SameOutside.addressable (h : b.SameOutside i j b') (hb : b.Addressable) :
    b'.Addressable := by
  unfold Buffer.Addressable
  rw [h.1]
  exact hb

theorem Buffer.SameOutside.segment_eq (h : b.SameOutside i j b') {start stop : Nat}
    (hstop : stop ≤ i) : b'.segment start stop = b.segment start stop := by
  refine List.ext_getElem? fun k => ?_
  rw [getElem?_segment, getElem?_segment]
  by_cases hk : start + k < stop
  · rw [if_pos hk, if_pos hk]
    exact h.2 _ (.inl (by omega))
  · rw [if_neg hk, if_neg hk]

theorem Buffer.sameOutside_overwrite (b : Buffer) {position : Nat} {bytes : Bytes}
    (hi : i ≤ position) (hj : position + bytes.length ≤ j) :
    b.SameOutside i j (b.overwrite position bytes) := by
  refine ⟨Buffer.size_overwrite b position bytes, fun k hk => ?_⟩
  rw [Buffer.getElem?_overwrite, if_neg (by omega)]

end Frames

/-- Whatever buffer, position and maximal limit it is given, the writer of an
    element leaves a buffer that the relation allows. -/
def HasEffect (Writes : Buffer → Nat → Nat → Buffer → Prop)
    (write : Buffer → Nat → Nat → Outcome Refusal Buffer Nat) : Prop :=
  ∀ b position maxLimit, Writes b position maxLimit (write b position maxLimit).state

theorem HasEffect.imp {Writes Writes' : Buffer → Nat → Nat → Buffer → Prop}
    {write : Buffer → Nat → Nat → Outcome Refusal Buffer Nat} (h : HasEffect Writes write)
    (himp : ∀ b position maxLimit b', Writes b position maxLimit b' →
      Writes' b position maxLimit b') : HasEffect Writes' write :=
  fun b position maxLimit => himp b position maxLimit _ (h b position maxLimit)

section Outcomes

variable {ε σ α β : Type} (P : σ → Prop)

/-- A property of the state that a success brings about, and that held before. -/
theorem Outcome.ofChecked_state {before : σ} {x : Checked ε σ} (hbefore : P before)
    (hafter : ∀ after, x = .ok after → P after) : P (Outcome.ofChecked before x).state := by
  cases x with
  | ok after => exact hafter after rfl
  | error fault => exact hbefore

/-- A property that holds where the sequence stands, and after the next
    operation if it comes to that. -/
theorem Outcome.andThen_state {o : Outcome ε σ α} {next : α → σ → Outcome ε σ β}
    (ho : P o.state) (hnext : ∀ a, o.result = .ok a → P (next a o.state).state) :
    P (o.andThen next).state := by
  rcases o with ⟨result, state⟩
  cases result with
  | ok a => exact hnext a rfl
  | error fault => exact ho

/-- An operation that may have left a state behind, followed by one that changes
    it only when it succeeds. -/
theorem Outcome.andThen_ofChecked_state {o : Outcome ε σ α} {next : α → σ → Checked ε σ}
    (ho : P o.state) (hnext : ∀ a after, o.result = .ok a → next a o.state = .ok after → P after) :
    P (o.andThen fun a state => Outcome.ofChecked state (next a state)).state :=
  andThen_state P ho fun a ha => ofChecked_state P ho fun after hafter => hnext a after ha hafter

/-- A change that cannot fail keeps what it keeps. -/
theorem Outcome.onSuccess_state {o : Outcome ε σ α} {change : σ → σ} (ho : P o.state)
    (hchange : ∀ state, P state → P (change state)) : P (o.onSuccess change).state :=
  andThen_state P ho fun _ _ => hchange o.state ho

end Outcomes

/-- A cursor in the window `[o, m)` of a buffer that has kept to it: its position
    lies in the window, and nothing else of the buffer has changed. -/
structure Cursor.Framed (c : Cursor) (b : Buffer) (o m : Nat) : Prop where
  offset : c.offset = o
  maxLimit : c.maxLimit = m
  offset_le : o ≤ c.limit
  limit_le : c.limit ≤ m
  frame : b.SameOutside o m c.buffer

theorem Word.le_of_sub_eq_ok {ε : Type} {n k d : Nat}
    (h : (Word.sub n k : Checked ε Nat) = .ok d) : k ≤ n := by
  rw [Word.sub] at h
  split at h
  · assumption
  · cases h

namespace Cursor

variable {b : Buffer} {o m : Nat} {c c' : Cursor}

theorem checkWindow_eq_ok {capacity offset maxLimit : Nat}
    (h : checkWindow capacity offset maxLimit = .ok ()) :
    offset ≤ maxLimit ∧ maxLimit ≤ capacity := by
  rw [checkWindow] at h
  split at h
  · cases h
  · split at h
    · cases h
    · omega

theorem checkLimit_eq_ok {limit maxLimit : Nat} (h : checkLimit limit maxLimit = .ok ()) :
    limit ≤ maxLimit := by
  rw [checkLimit] at h
  split at h
  · cases h
  · omega

theorem framed_of_wrap (h : Cursor.wrap b o m = .ok c) : c.Framed b o m := by
  rcases Checked.bind_eq_ok.mp h with ⟨_, hwindow, h⟩
  have hle := (checkWindow_eq_ok hwindow).1
  rw [← Except.ok.inj h]
  exact ⟨rfl, rfl, Nat.le_refl o, hle, .refl b o m⟩

theorem segmentEnd_eq_ok {position length stop : Nat}
    (h : c.segmentEnd position length = .ok stop) :
    stop = position + length ∧ stop ≤ c.maxLimit := by
  rcases Checked.bind_eq_ok.mp h with ⟨sum, hsum, h⟩
  rcases Checked.bind_eq_ok.mp h with ⟨_, hlimit, h⟩
  split at h
  · rw [← Except.ok.inj h]
    exact ⟨Word.add_eq_ok hsum, checkLimit_eq_ok hlimit⟩
  · exact nomatch h

theorem room_eq_ok {position length : Nat} (h : c.room position = .ok length) :
    position + length = c.maxLimit := by
  rcases Checked.bind_eq_ok.mp h with ⟨_, hlimit, h⟩
  have hle := checkLimit_eq_ok hlimit
  split at h
  · rw [← Except.ok.inj h]
    omega
  · exact nomatch h

namespace Framed

/-- Writing inside the window keeps to it. -/
theorem overwrite (h : c.Framed b o m) {position : Nat} {bytes : Bytes} (hposition : o ≤ position)
    (hstop : position + bytes.length ≤ m) :
    Framed { c with buffer := c.buffer.overwrite position bytes } b o m :=
  ⟨h.offset, h.maxLimit, h.offset_le, h.limit_le,
    h.frame.trans (Buffer.sameOutside_overwrite c.buffer hposition hstop)⟩

theorem setLimit (h : c.Framed b o m) {stop : Nat} (hstop : o ≤ stop)
    (hc : c.setLimit stop = .ok c') : c'.Framed b o m := by
  rcases Checked.bind_eq_ok.mp hc with ⟨_, hlimit, hc⟩
  have hle := checkLimit_eq_ok hlimit
  rw [h.maxLimit] at hle
  rw [← Except.ok.inj hc]
  exact ⟨h.offset, h.maxLimit, hstop, hle, h.frame⟩

theorem store (h : c.Framed b o m) {position : Nat} {bytes : Bytes} (hposition : o ≤ position)
    (hc : c.store position bytes = .ok c') : c'.Framed b o m := by
  rcases Checked.bind_eq_ok.mp hc with ⟨stop, hstop, hc⟩
  rcases segmentEnd_eq_ok hstop with ⟨hend, hle⟩
  have hmax := h.maxLimit
  rw [← Except.ok.inj hc]
  exact h.overwrite hposition (by omega)

theorem put (h : c.Framed b o m) {position : Nat} (hposition : o ≤ position) (bytes : Bytes) :
    (Outcome.ofAnswer c (c.put position bytes)).state.Framed b o m ∧
      ∀ stop, (Outcome.ofAnswer c (c.put position bytes)).result = .ok stop → o ≤ stop := by
  have hmax := h.maxLimit
  rw [Cursor.put]
  cases hsum : c.segmentEnd position bytes.length with
  | error fault =>
      refine ⟨h, fun stop hstop => ?_⟩
      cases hstop
  | ok sum =>
      rcases segmentEnd_eq_ok hsum with ⟨hend, hle⟩
      refine ⟨h.overwrite hposition (by omega), fun stop hstop => ?_⟩
      cases hstop
      omega

/-- The position is moved behind what was written, if that was a success. -/
theorem moved {α : Type} {written : Outcome Refusal Cursor α} {target : α → Nat}
    (h : written.state.Framed b o m)
    (htarget : ∀ a, written.result = .ok a → o ≤ target a) :
    (written.andThen fun a c =>
      Outcome.ofChecked c (c.setLimit (target a))).state.Framed b o m :=
  Outcome.andThen_ofChecked_state (fun c : Cursor => c.Framed b o m) h
    fun a _ ha hmoved => h.setLimit (htarget a ha) hmoved

theorem place (h : c.Framed b o m) {position : Nat} (hposition : o ≤ position) (bytes : Bytes)
    {limit : Nat} (hlimit : o ≤ limit) : (c.place position bytes limit).state.Framed b o m := by
  have hstored := Outcome.ofChecked_state (fun c : Cursor => c.Framed b o m) h
    fun after hafter => h.store hposition (hafter : c.store position bytes = .ok after)
  exact hstored.moved fun _ _ => hlimit

theorem assign (h : c.Framed b o m) (encoding : Checked Refusal Encoding) :
    (c.assign encoding).state.Framed b o m := by
  have hoffset := h.offset
  exact Outcome.andThen_state (fun c : Cursor => c.Framed b o m) h fun e _ =>
    h.place (Nat.le_of_eq hoffset.symm) e.bytes (hoffset ▸ Nat.le_add_right _ _)

/-- Whatever a visitor does with the slice it is given, it keeps to the window,
    and the position it reports lies behind its own. -/
theorem visitIn (h : c.Framed b o m) {position length : Nat} (visitor : Visitor)
    (hposition : o ≤ position) (hlength : position + length ≤ m) :
    (c.visitIn position length visitor).state.Framed b o m ∧
      ∀ stop, (c.visitIn position length visitor).result = .ok stop → o ≤ stop := by
  constructor
  · -- of what the visitor has, only as much as fits the slice is written
    refine h.overwrite hposition ?_
    have htake := List.length_take_le length visitor.bytes
    omega
  · intro stop hstop
    rcases Checked.bind_eq_ok.mp hstop with ⟨sum, hsum, hstop⟩
    rcases Checked.bind_eq_ok.mp hstop with ⟨_, _, hstop⟩
    have hreport := Word.add_eq_ok hsum
    cases Except.ok.inj hstop
    omega

theorem visitRoom (h : c.Framed b o m) {position : Nat} (visitor : Visitor)
    (hposition : o ≤ position) {part : Nat → Nat} (hpart : ∀ n, part n ≤ n)
    {visited : Outcome Refusal Cursor Nat}
    (hvisited : visited = match c.room position with
      | .ok length => c.visitIn position (part length) visitor
      | .error fault => ⟨.error fault, c⟩) :
    visited.state.Framed b o m ∧ ∀ stop, visited.result = .ok stop → o ≤ stop := by
  cases hroom : c.room position with
  | error fault =>
      rw [hroom] at hvisited
      rw [hvisited]
      exact ⟨h, nofun⟩
  | ok length =>
      rw [hroom] at hvisited
      have hlength := room_eq_ok hroom
      have hle := hpart length
      have hmax := h.maxLimit
      rw [hvisited]
      exact h.visitIn visitor hposition (by omega)

theorem visit (h : c.Framed b o m) {position : Nat} (visitor : Visitor)
    (hposition : o ≤ position) :
    (c.visit position visitor).state.Framed b o m ∧
      ∀ stop, (c.visit position visitor).result = .ok stop → o ≤ stop :=
  h.visitRoom visitor hposition Nat.le_refl rfl

theorem visitCapped (h : c.Framed b o m) {position : Nat} (cap : Nat) (visitor : Visitor)
    (hposition : o ≤ position) :
    (c.visitCapped position cap visitor).state.Framed b o m ∧
      ∀ stop, (c.visitCapped position cap visitor).result = .ok stop → o ≤ stop :=
  h.visitRoom visitor hposition (fun n => Nat.min_le_left n cap) rfl

end Framed

end Cursor

section Families

variable {b : Buffer} {o m : Nat}

theorem Octets.Builder.offset_le_position {w : Octets.Builder} (h : w.cursor.Framed b o m)
    (placement : Placement) : o ≤ w.position placement := by
  cases placement with
  | replace => exact Nat.le_of_eq h.offset.symm
  | append => exact h.offset_le

theorem Octets.Builder.write_framed {w : Octets.Builder} (h : w.cursor.Framed b o m)
    (placement : Placement) (bytes : Bytes) :
    (w.write placement bytes).state.cursor.Framed b o m := by
  have hposition := offset_le_position h placement
  exact h.place hposition bytes (Nat.le_trans hposition (Nat.le_add_right _ _))

theorem Octets.Builder.visit_framed {w : Octets.Builder} (h : w.cursor.Framed b o m)
    (placement : Placement) (visitor : Visitor) :
    (w.visit placement visitor).state.cursor.Framed b o m := by
  rcases h.visit visitor (offset_le_position h placement) with ⟨hvisited, hstop⟩
  exact hvisited.moved hstop

/-- Every payload lies behind the prefix. -/
theorem Bounded.Builder.offset_le_position {w : Bounded.Builder} (h : w.cursor.Framed b o m)
    (placement : Placement) : o ≤ w.position placement := by
  have hoffset := h.offset
  unfold Bounded.Builder.position
  omega

theorem Bounded.Builder.lengthTo_eq_ok {w : Bounded.Builder} {stop length : Nat}
    (h : w.lengthTo stop = .ok length) :
    stop = w.cursor.offset + w.width.size + length ∧ length ≤ w.bound := by
  rcases Checked.bind_eq_ok.mp h with ⟨difference, hdifference, h⟩
  rcases Checked.bind_eq_ok.mp h with ⟨_, hbound, h⟩
  have hle := Word.le_of_sub_eq_ok hdifference
  rw [Word.sub, if_pos hle] at hdifference
  rw [checkBound] at hbound
  split at hbound
  · cases hbound
  · cases h
    cases hdifference
    omega

theorem Bounded.Builder.settle_framed {w : Bounded.Builder} (h : w.cursor.Framed b o m)
    (stop : Nat) : (w.settle stop).state.cursor.Framed b o m := by
  refine Outcome.andThen_state (fun w : Bounded.Builder => w.cursor.Framed b o m) h
    fun length hlength => ?_
  have hend := (lengthTo_eq_ok hlength).1
  have hoffset := h.offset
  refine Outcome.onSuccess_state (fun w : Bounded.Builder => w.cursor.Framed b o m) ?_ fun _ => id
  exact h.place (Nat.le_of_eq hoffset.symm) _ (by omega)

theorem Bounded.Builder.write_framed {w : Bounded.Builder} (h : w.cursor.Framed b o m)
    (placement : Placement) (bytes : Bytes) :
    (w.write placement bytes).state.cursor.Framed b o m := by
  refine Outcome.andThen_state (fun w : Bounded.Builder => w.cursor.Framed b o m) h fun _ _ => ?_
  have hwritten := (h.put (offset_le_position h placement) bytes).1
  exact Outcome.andThen_state (fun w : Bounded.Builder => w.cursor.Framed b o m) hwritten
    fun stop _ => settle_framed hwritten stop

theorem Bounded.Builder.visit_framed {w : Bounded.Builder} (h : w.cursor.Framed b o m)
    (placement : Placement) (visitor : Visitor) :
    (w.visit placement visitor).state.cursor.Framed b o m := by
  rw [Bounded.Builder.visit]
  cases w.allowance placement with
  | error fault => exact h
  | ok cap =>
      have hvisited := (h.visitCapped cap visitor (offset_le_position h placement)).1
      exact Outcome.andThen_state (fun w : Bounded.Builder => w.cursor.Framed b o m) hvisited
        fun stop _ => settle_framed hvisited stop

theorem VarStrings.Builder.write_framed {w : VarStrings.Builder} (h : w.cursor.Framed b o m)
    (payload : Option Bytes) : (w.write payload).state.cursor.Framed b o m :=
  Outcome.onSuccess_state (fun w : VarStrings.Builder => w.cursor.Framed b o m) (h.assign _)
    fun _ => id

/-- What was never set is written as null when it is built. -/
theorem VarStrings.Builder.settle_framed {w : VarStrings.Builder} (h : w.cursor.Framed b o m) :
    w.settle.state.cursor.Framed b o m := by
  rw [settle]
  split
  · exact h
  · exact write_framed h none

end Families

namespace Sequence.Builder

variable {b : Buffer} {o m : Nat} {w w' : Sequence.Builder}

theorem advance_framed (h : w.cursor.Framed b o m) {count stop : Nat} (hstop : o ≤ stop)
    (hadvance : w.advance count stop = .ok w') : w'.cursor.Framed b o m := by
  rcases Checked.bind_eq_ok.mp hadvance with ⟨moved, hmoved, hadvance⟩
  rcases Checked.bind_eq_ok.mp hadvance with ⟨total, _, hadvance⟩
  rw [← Except.ok.inj hadvance]
  exact h.setLimit hstop hmoved

/-- Fields are taken into account behind what was written, if that was a success. -/
theorem advanced_framed {written : Outcome Refusal Cursor Nat} (count : Nat)
    (h : written.state.Framed b o m) (hstop : ∀ stop, written.result = .ok stop → o ≤ stop) :
    ((written.mapState fun cursor => { w with cursor := cursor }).andThen fun stop written =>
      Outcome.ofChecked written (written.advance count stop)).state.cursor.Framed b o m :=
  Outcome.andThen_ofChecked_state (fun w : Sequence.Builder => w.cursor.Framed b o m) h
    fun stop _ hresult hadvanced => advance_framed h (hstop stop hresult) hadvanced

theorem fields_framed (h : w.cursor.Framed b o m) (count : Nat) (visitor : Visitor) :
    (w.fields count visitor).state.cursor.Framed b o m := by
  rcases h.visit visitor h.offset_le with ⟨hvisited, hstop⟩
  exact advanced_framed count hvisited hstop

theorem fieldsFrom_framed (h : w.cursor.Framed b o m) (count : Nat) (bytes : Bytes) :
    (w.fieldsFrom count bytes).state.cursor.Framed b o m := by
  rcases h.put h.offset_le bytes with ⟨hwritten, hstop⟩
  exact advanced_framed count hwritten hstop

/-- An element that is written inside what is left of the window keeps to the
    window. A position before its own is refused. -/
theorem item_framed (h : w.cursor.Framed b o m)
    {write : Buffer → Nat → Nat → Outcome Refusal Buffer Nat}
    (hwrite : w.cursor.buffer.SameOutside w.cursor.limit w.cursor.maxLimit
      (write w.cursor.buffer w.cursor.limit w.cursor.maxLimit).state) :
    (w.item write).state.cursor.Framed b o m := by
  have hnested := hwrite.mono h.offset_le (Nat.le_of_eq h.maxLimit)
  have hwritten : Cursor.Framed { w.cursor with
      buffer := (write w.cursor.buffer w.cursor.limit w.cursor.maxLimit).state } b o m :=
    ⟨h.offset, h.maxLimit, h.offset_le, h.limit_le, h.frame.trans hnested⟩
  have hoffset := h.offset_le
  rw [item]
  refine Outcome.andThen_state (fun w : Sequence.Builder => w.cursor.Framed b o m) hwritten
    fun stop _ => ?_
  by_cases hback : stop < w.cursor.limit
  · rw [if_pos hback]
    exact hwritten
  · rw [if_neg hback]
    exact Outcome.ofChecked_state (fun w : Sequence.Builder => w.cursor.Framed b o m) hwritten
      fun _ hadvanced => advance_framed hwritten (by omega) hadvanced

theorem finish_framed {c : Cursor} (h : w.cursor.Framed b o m) (hfinish : w.finish = .ok c) :
    c.Framed b o m := by
  rcases Checked.bind_eq_ok.mp hfinish with ⟨body, _, hfinish⟩
  rcases Checked.bind_eq_ok.mp hfinish with ⟨length, _, hfinish⟩
  dsimp only at hfinish
  split at hfinish
  · exact nomatch hfinish
  · split at hfinish
    · exact nomatch hfinish
    · exact h.store (Nat.le_of_eq h.offset.symm) hfinish

end Sequence.Builder

/-- A builder of any format starts inside the window it is given. -/
theorem Format.start_framed {format : Format} {b : Buffer} {o m : Nat} :
    (format.start b o m).Ensures fun w => w.cursor.Framed b o m := by
  have hwrap : (Cursor.wrap b o m).Ensures fun c => c.Framed b o m :=
    fun _ hc => Cursor.framed_of_wrap hc
  -- room for the two prefixes is passed over
  have hsequence : ∀ width, (Sequence.Builder.wrap width b o m).Ensures
      fun w => w.cursor.Framed b o m := by
    intro width w h
    rcases Checked.bind_eq_ok.mp h with ⟨c, hc, h⟩
    rcases Checked.bind_eq_ok.mp h with ⟨fields, hfields, h⟩
    rcases Checked.bind_eq_ok.mp h with ⟨moved, hmoved, h⟩
    have hsum := Word.add_eq_ok hfields
    rw [← Except.ok.inj h]
    exact (Cursor.framed_of_wrap hc).setLimit (by omega) hmoved
  cases format with
  | fixed kind =>
      exact .map (hwrap.bind fun c hc => Checked.ensures_bind fun _ => Checked.ensures_bind
        fun _ => Checked.ensures_ok hc)
  | varint kind =>
      exact .map (Checked.ensures_bind fun _ => Checked.ensures_bind fun _ => hwrap.bind
        fun c hc => Checked.ensures_ok hc)
  | octets => exact .map (hwrap.bind fun c hc => Checked.ensures_ok hc)
  | bounded width =>
      exact .map (hwrap.bind fun c hc => Checked.ensures_bind fun _ => Checked.ensures_bind
        fun _ => Checked.ensures_ok hc)
  | string width =>
      exact .map (hwrap.bind fun c hc => Checked.ensures_bind fun _ => Checked.ensures_bind
        fun _ => Checked.ensures_ok hc)
  | varstring => exact .map (hwrap.bind fun c hc => Checked.ensures_ok hc)
  | emptyList => exact .map (hwrap.bind fun c hc => Checked.ensures_ok hc)
  | list width => exact .map (hsequence width)
  | array width item => exact .map (hsequence width)
  | map width key value => exact .map (hsequence width)

namespace Builder

variable {b : Buffer} {o m : Nat} {w : Builder}

theorem cursor_configure (w : Builder) (settings : Settings) :
    (w.configure settings).cursor = w.cursor := by
  unfold configure
  split
  · rfl
  · split <;> rfl
  · rfl

theorem set_framed (h : w.cursor.Framed b o m) (value : Int) :
    (w.set value).state.cursor.Framed b o m := by
  unfold set
  split
  · exact Outcome.onSuccess_state (fun w : FixedInt.Builder => w.cursor.Framed b o m) (h.assign _)
      fun _ => id
  · exact Outcome.onSuccess_state (fun w : VarInt.Builder => w.cursor.Framed b o m) (h.assign _)
      fun _ => id
  · exact h

theorem visit_framed (h : w.cursor.Framed b o m) (placement : Placement) (visitor : Visitor) :
    (w.visit placement visitor).state.cursor.Framed b o m := by
  unfold visit
  split
  · exact Octets.Builder.visit_framed h placement visitor
  · exact Bounded.Builder.visit_framed h placement visitor
  · exact h

theorem writePayload_framed (h : w.cursor.Framed b o m) (placement : Placement)
    (payload : Option Bytes) :
    (w.writePayload placement payload).state.cursor.Framed b o m := by
  unfold writePayload
  split
  · exact Octets.Builder.write_framed h placement _
  · exact Bounded.Builder.write_framed h placement _
  · exact Outcome.onSuccess_state (fun w : Strings.Builder => w.cursor.Framed b o m) (h.assign _)
      fun _ => id
  · exact VarStrings.Builder.write_framed h payload
  · exact h

theorem write_framed (h : w.cursor.Framed b o m) (placement : Placement) (source : Source) :
    (w.write placement source).state.cursor.Framed b o m := by
  unfold write
  split
  · exact visit_framed h placement _
  · split
    · exact Outcome.andThen_state (fun w : Builder => w.cursor.Framed b o m) h
        fun payload _ => writePayload_framed h placement payload
    · exact h

theorem fields_framed (h : w.cursor.Framed b o m) (count : Nat) (visitor : Visitor) :
    (w.fields count visitor).state.cursor.Framed b o m := by
  unfold fields
  split
  · refine Outcome.ofChecked_state (fun w : Builder => w.cursor.Framed b o m) h fun _ hfields => ?_
    rcases Checked.map_eq_ok.mp hfields with ⟨w', hw, rfl⟩
    rw [EmptyList.Builder.fields] at hw
    split at hw
    · exact nomatch hw
    · rw [← Except.ok.inj hw]
      exact h
  · exact Sequence.Builder.fields_framed h count visitor
  · exact h

theorem fieldsFrom_framed (h : w.cursor.Framed b o m) (count : Nat) (bytes : Bytes) :
    (w.fieldsFrom count bytes).state.cursor.Framed b o m := by
  unfold fieldsFrom
  split
  · exact Sequence.Builder.fieldsFrom_framed h count bytes
  · exact h

/-- Building patches what belongs to the window, or nothing. -/
theorem build_sameOutside (h : w.cursor.Framed b o m) : b.SameOutside o m w.build.state := by
  have hfinish : ∀ (before : Cursor) (format : Format) (x : Checked Refusal Cursor),
      before.Framed b o m → (∀ c, x = .ok c → c.Framed b o m) →
      b.SameOutside o m (build.finish before.buffer format x).state := by
    intro before format x hbefore hx
    cases x with
    | ok c => exact (hx c rfl).frame
    | error fault => exact hbefore.frame
  cases w with
  | varstring s =>
      have hsettled := VarStrings.Builder.settle_framed h
      refine hfinish _ .varstring _ hsettled fun c hc => ?_
      rcases Checked.map_eq_ok.mp hc with ⟨_, _, rfl⟩
      exact hsettled
  | emptyList e => exact hfinish _ .emptyList _ h (Checked.ensures_ok h)
  | list s => exact hfinish _ _ _ h fun c hc => Sequence.Builder.finish_framed h hc
  | array item s => exact hfinish _ _ _ h fun c hc => Sequence.Builder.finish_framed h hc
  | map key value s => exact hfinish _ _ _ h fun c hc => Sequence.Builder.finish_framed h hc
  | _ => exact h.frame

/-- An element that is written inside what is left of the window. -/
theorem item_framed (h : w.cursor.Framed b o m)
    {write : Buffer → Nat → Nat → Outcome Refusal Buffer Nat}
    (hwrite : HasEffect Buffer.SameOutside write) :
    (w.item write).state.cursor.Framed b o m := by
  unfold item
  split
  · exact Sequence.Builder.item_framed h (hwrite _ _ _)
  · exact h

theorem entry_framed (h : w.cursor.Framed b o m)
    {writeKey writeValue : Buffer → Nat → Nat → Outcome Refusal Buffer Nat}
    (hkey : HasEffect Buffer.SameOutside writeKey)
    (hvalue : HasEffect Buffer.SameOutside writeValue) :
    (w.entry writeKey writeValue).state.cursor.Framed b o m := by
  unfold entry
  split
  · -- the value starts where the key has ended
    have hfirst := Sequence.Builder.item_framed h (hkey _ _ _)
    exact Outcome.andThen_state (fun w : Sequence.Builder => w.cursor.Framed b o m) hfirst
      fun _ _ => Sequence.Builder.item_framed hfirst (hvalue _ _ _)
  · exact h

end Builder

/-- The states of builders that were started in the window `[o, m)` of a buffer,
    after any operations and whatever the results of these. `Writes` is what
    whoever writes an element may do to a buffer, at a position and up to a
    maximal limit. -/
inductive Builder.Reached (Writes : Buffer → Nat → Nat → Buffer → Prop) (b : Buffer) (o m : Nat) :
    Builder → Prop where
  | start {format : Format} {w : Builder} (h : format.start b o m = .ok w) :
      Reached Writes b o m w
  | configure {w : Builder} (hw : Reached Writes b o m w) (settings : Settings) :
      Reached Writes b o m (w.configure settings)
  | set {w : Builder} (hw : Reached Writes b o m w) (value : Int) :
      Reached Writes b o m (w.set value).state
  | write {w : Builder} (hw : Reached Writes b o m w) (placement : Placement) (source : Source) :
      Reached Writes b o m (w.write placement source).state
  | fields {w : Builder} (hw : Reached Writes b o m w) (count : Nat) (visitor : Visitor) :
      Reached Writes b o m (w.fields count visitor).state
  | fieldsFrom {w : Builder} (hw : Reached Writes b o m w) (count : Nat) (bytes : Bytes) :
      Reached Writes b o m (w.fieldsFrom count bytes).state
  | item {w : Builder} (hw : Reached Writes b o m w)
      {write : Buffer → Nat → Nat → Outcome Refusal Buffer Nat}
      (hwrite : HasEffect Writes write) : Reached Writes b o m (w.item write).state
  | entry {w : Builder} (hw : Reached Writes b o m w)
      {writeKey writeValue : Buffer → Nat → Nat → Outcome Refusal Buffer Nat}
      (hkey : HasEffect Writes writeKey) (hvalue : HasEffect Writes writeValue) :
      Reached Writes b o m (w.entry writeKey writeValue).state

/-- What is left of a buffer by whoever works with builders of the given states at
    one position, one after the other. A builder is left as it stands, or is
    built. -/
inductive Leaves (States : Buffer → Nat → Nat → Builder → Prop) (b : Buffer)
    (position maxLimit : Nat) : Buffer → Prop where
  | untouched : Leaves States b position maxLimit b
  | left {b' : Buffer} {w : Builder} (h : Leaves States b position maxLimit b')
      (hw : States b' position maxLimit w) : Leaves States b position maxLimit w.cursor.buffer
  | built {b' : Buffer} {w : Builder} (h : Leaves States b position maxLimit b')
      (hw : States b' position maxLimit w) : Leaves States b position maxLimit w.build.state

/-- What whoever writes an element may do with builders nested up to a depth. -/
def WritesWithin : Nat → Buffer → Nat → Nat → Buffer → Prop
  | 0 => fun b _ _ b' => b' = b
  | depth + 1 => Leaves (Builder.Reached (WritesWithin depth))

section Nesting

variable {b : Buffer} {o m : Nat} {w : Builder}

/-- Every operation keeps to the window if the writers of elements keep to
    theirs. -/
theorem Builder.Reached.framed {Writes : Buffer → Nat → Nat → Buffer → Prop}
    (hwrites : ∀ b position maxLimit b', Writes b position maxLimit b' →
      b.SameOutside position maxLimit b')
    (h : Builder.Reached Writes b o m w) : w.cursor.Framed b o m := by
  induction h with
  | start h => exact Format.start_framed _ h
  | configure _ settings ih =>
      rw [Builder.cursor_configure]
      exact ih
  | set _ value ih => exact Builder.set_framed ih value
  | write _ placement source ih => exact Builder.write_framed ih placement source
  | fields _ count visitor ih => exact Builder.fields_framed ih count visitor
  | fieldsFrom _ count bytes ih => exact Builder.fieldsFrom_framed ih count bytes
  | item _ hwrite ih => exact Builder.item_framed ih (hwrite.imp hwrites)
  | entry _ hkey hvalue ih =>
      exact Builder.entry_framed ih (hkey.imp hwrites) (hvalue.imp hwrites)

/-- Elements are written inside their window, at any depth of nesting. -/
theorem WritesWithin.sameOutside (depth : Nat) (b : Buffer) (position maxLimit : Nat)
    (b' : Buffer) (h : WritesWithin depth b position maxLimit b') :
    b.SameOutside position maxLimit b' := by
  -- on the depth, and at each depth on the builders that are used
  induction depth generalizing b position maxLimit b' with
  | zero =>
      rw [show b' = b from h]
      exact .refl b position maxLimit
  | succ depth ih =>
      induction h with
      | untouched => exact .refl b position maxLimit
      | left _ hw ihLeaves =>
          have hframed := Builder.Reached.framed ih hw
          exact ihLeaves.trans hframed.frame
      | built _ hw ihLeaves =>
          have hframed := Builder.Reached.framed ih hw
          exact ihLeaves.trans (Builder.build_sameOutside hframed)

end Nesting

section Scripts

/-- The elements that a step writes. -/
def Step.elements : Step → List Element
  | .item element => [element]
  | .entry key value => [key, value]
  | _ => []

/-- The element is written by builders alone, nested up to a depth. -/
def Element.NestsWithin : Nat → Element → Prop
  | depth + 1, .built _ _ steps => ∀ s ∈ steps, ∀ e ∈ s.elements, e.NestsWithin depth
  | _, _ => False

variable {Writes : Buffer → Nat → Nat → Buffer → Prop} {b : Buffer} {o m : Nat} {w : Builder}

theorem Builder.Reached.apply (hw : Builder.Reached Writes b o m w) {s : Step}
    (hs : ∀ e ∈ s.elements, HasEffect Writes e.write) :
    Builder.Reached Writes b o m (w.apply s).state := by
  cases s with
  | configure settings => exact hw.configure settings
  | set value => exact hw.set value
  | write placement source => exact hw.write placement source
  | fields count visitor => exact hw.fields count visitor
  | fieldsFrom count bytes => exact hw.fieldsFrom count bytes
  | item element => exact hw.item (hs element List.mem_cons_self)
  | entry key value =>
      exact hw.entry (hs key List.mem_cons_self)
        (hs value (List.mem_cons_of_mem key List.mem_cons_self))

theorem Builder.Reached.run (hw : Builder.Reached Writes b o m w) {steps : List Step}
    (hsteps : ∀ s ∈ steps, ∀ e ∈ s.elements, HasEffect Writes e.write) :
    Builder.Reached Writes b o m (w.run steps).state := by
  induction steps generalizing w with
  | nil => exact hw
  | cons s rest ih =>
      rcases List.forall_mem_cons.mp hsteps with ⟨hs, hrest⟩
      have hfirst := hw.apply hs
      exact Outcome.andThen_state (Builder.Reached Writes b o m) hfirst fun _ _ => ih hfirst hrest

/-- A script run by a nested builder is one of the things that may be done at its
    depth. -/
theorem Element.hasEffect_write {depth : Nat} {e : Element} (h : e.NestsWithin depth) :
    HasEffect (WritesWithin depth) e.write := by
  induction depth generalizing e with
  | zero => exact h.elim
  | succ depth ih =>
      cases e with
      | raw bytes advance => exact h.elim
      | built format settings steps =>
          intro b position maxLimit
          rw [Element.write]
          cases hstart : format.start b position maxLimit with
          | error fault => exact .untouched
          | ok w =>
              have hreached := ((Builder.Reached.start hstart).configure settings).run
                fun s hs e he => ih (h s hs e he)
              -- a script that fails leaves the builder, any other one is built
              simp only
              split
              · exact .left .untouched hreached
              · exact .built .untouched hreached

end Scripts

/-- Whatever a builder is made to do, its position stays in its window, and no
    byte outside of the window changes, not even when it is built. Its elements
    may be written by builders nested to any depth. -/
theorem Builder.keeps_window {b : Buffer} {o m depth : Nat} {w : Builder}
    (h : Builder.Reached (WritesWithin depth) b o m w) :
    o ≤ w.limit ∧ w.limit ≤ m ∧ w.cursor.offset = o ∧ w.cursor.maxLimit = m ∧
      b.SameOutside o m w.cursor.buffer ∧ b.SameOutside o m w.build.state := by
  have hframed := Builder.Reached.framed (WritesWithin.sameOutside depth) h
  exact ⟨hframed.offset_le, hframed.limit_le, hframed.offset, hframed.maxLimit, hframed.frame,
    Builder.build_sameOutside hframed⟩

/-- A string of two bytes. -/
def shortString : Element :=
  .built (.string .eight) {} [.write .replace (.bytes [104, 105])]

/-- Octets from a visitor that fills whatever it is given and then reports more
    than that. -/
def greedyOctets : Element :=
  .built .octets {} [.write .append (.visitor ⟨List.replicate 9 7, 9⟩)]

/-- An array that has taken a string, in the middle of ten bytes. -/
def afterString : Builder :=
  (Builder.apply (.array .octets ⟨.eight, ⟨Buffer.ofBytes (List.replicate 10 255), 1, 8, 3⟩, 0⟩)
    (.item shortString)).state

/-- The second item fills the window and fails. Nothing else has changed. -/
theorem Builder.keeps_window_of_failure :
    (afterString.apply (.item greedyOctets)).result.isOk = false ∧
      (afterString.apply (.item greedyOctets)).state.cursor.buffer.toBytes =
        [255, 255, 255, 2, 104, 105, 7, 7, 255, 255] ∧
      1 ≤ (afterString.apply (.item greedyOctets)).state.limit ∧
      (afterString.apply (.item greedyOctets)).state.limit ≤ 8 ∧
      (Buffer.ofBytes (List.replicate 10 255)).SameOutside 1 8
        (afterString.apply (.item greedyOctets)).state.build.state := by
  have hstart : (Format.array .eight .octets).start (Buffer.ofBytes (List.replicate 10 255)) 1 8 =
      .ok (.array .octets ⟨.eight, ⟨Buffer.ofBytes (List.replicate 10 255), 1, 8, 3⟩, 0⟩) := rfl
  -- neither of the two elements writes elements of its own
  have hshort : shortString.NestsWithin 1 := by
    intro s hs e he
    rw [List.mem_singleton.mp hs] at he
    exact nomatch he
  have hgreedy : greedyOctets.NestsWithin 1 := by
    intro s hs e he
    rw [List.mem_singleton.mp hs] at he
    exact nomatch he
  have hfirst := (Builder.Reached.start hstart).item (Element.hasEffect_write hshort)
  have hreached := hfirst.item (Element.hasEffect_write hgreedy)
  rcases Builder.keeps_window hreached with ⟨hoffset, hmax, _, _, _, hbuild⟩
  exact ⟨by decide +kernel, by decide +kernel, hoffset, hmax, hbuild⟩

end Wireform
