import Wireform.Proofs.Payloads

/-!
# A Refused Visitor Has Written Already

Octets that a visitor was to replace, and what is left of them when it is refused.

A visitor writes into the window first, and its report is checked afterwards. When
it was to append, it has written behind the limit and nobody sees it. When it was to
replace the payload, it has written over the payload, and a refusal does not bring
the old bytes back. Neither the limit nor the prefix has moved, so what is built
then has the old length: the front is what the visitor wrote, and the rest is what
the visitor did not get to (`Bytes.overlay`). The payload survives exactly if the
visitor has happened to write its own front again.

This is so in every state that a builder of octets gets into and that is built at
all, whatever has been done to it before.

## Theorems

* `Bytes.overlay_eq_self_iff`: When writing over bytes changes nothing.
* `Format.parse_overlay`: What is written behind a prefix is parsed as a payload of
  the old length.
* `Builder.replace_refused`: What a refused visitor leaves.
* `Builder.refused_visit_overlays`: What is built then.
-/

namespace Wireform

namespace Bytes

/-- To cut off bytes that were written over is to write over fewer of them. -/
theorem take_overlay (old new : Bytes) (n : Nat) :
    (overlay old new).take n = overlay (old.take n) new := by
  refine List.ext_getElem? fun k => ?_
  rw [List.getElem?_take, getElem?_overlay, getElem?_overlay, List.length_take,
    List.getElem?_take]
  by_cases hn : k < n
  · rw [if_pos hn, if_pos hn]
    by_cases hk : k < new.length ∧ k < old.length
    · rw [if_pos hk, if_pos (by omega)]
    · rw [if_neg hk, if_neg (by omega)]
  · rw [if_neg hn, if_neg hn, if_neg (by omega)]

theorem overlay_eq_self_iff (old new : Bytes) :
    overlay old new = old ↔ new.take old.length <+: old := by
  constructor
  · intro h
    exact ⟨old.drop new.length, h⟩
  · rintro ⟨rest, hrest⟩
    -- what follows the new bytes is what was there
    have hdrop := congrArg (List.drop (new.take old.length).length) hrest
    rw [List.drop_left, List.length_take] at hdrop
    have hsame : old.drop (min old.length new.length) = old.drop new.length := by
      by_cases hlength : new.length ≤ old.length
      · rw [Nat.min_eq_right hlength]
      · rw [Nat.min_eq_left (by omega), List.drop_length, List.drop_of_length_le (by omega)]
    rw [overlay, ← hsame, ← hdrop, hrest]

end Bytes

namespace Format

variable {format : Format} {input new payload : Bytes} {c : Content}

/-- The number of bytes in front of the payload. -/
def prefixSize : Format → Nat
  | .bounded width => width.size
  | _ => 0

theorem prefixSize_le (h : format.parse {} input = some c) (hformat : format.isOctets) :
    format.prefixSize ≤ input.length := by
  cases format with
  | octets => exact Nat.zero_le _
  | bounded width =>
      by_cases hwidth : width = .zero
      · subst hwidth
        exact Nat.zero_le _
      · rw [parse, parseBounded, if_neg hwidth] at h
        rcases Option.bind_eq_some_iff.mp h with ⟨head, hhead, _⟩
        exact (Bytes.front?_eq_some.mp hhead).1
  | _ => exact absurd hformat Bool.false_ne_true

theorem parseBounded_overlay {width : Width} {bound : Nat} (hwidth : width ≠ .zero)
    (h : parseBounded width bound input = some c) (hpayload : c.payload = some payload)
    (new : Bytes) :
    ∃ c', parseBounded width bound
        (input.take width.size ++ Bytes.overlay (input.drop width.size) new) = some c' ∧
      c'.payload = some (payload.overlay new) := by
  rw [parseBounded, if_neg hwidth] at h
  rcases Option.bind_eq_some_iff.mp h with ⟨head, hhead, h⟩
  rcases Bytes.front?_eq_some.mp hhead with ⟨hsize, hhead'⟩
  have hlength := Bytes.length_of_front? hhead
  by_cases hbound : Bytes.toNatLE head > bound
  · rw [if_pos hbound] at h
    cases h
  · rw [if_neg hbound] at h
    rcases Option.bind_eq_some_iff.mp h with ⟨bytes, hbytes, h⟩
    rcases Bytes.front?_eq_some.mp hbytes with ⟨hroom, hbytes'⟩
    cases h
    cases hpayload
    -- the prefix is the same, and there are as many bytes behind it
    have hall : (head ++ Bytes.overlay (input.drop width.size) new).length = input.length := by
      rw [List.length_append, Bytes.length_overlay, List.length_drop]
      omega
    rw [← hhead', parseBounded, if_neg hwidth, Bytes.front?_append hlength, Option.bind_eq_bind,
      Option.bind_some, if_neg hbound, Bytes.front?, if_pos (by omega)]
    refine ⟨_, rfl, congrArg some ?_⟩
    rw [hbytes', List.drop_take, List.drop_take, List.drop_left' hlength, Bytes.take_overlay]

/-- Bytes written behind the prefix do not change the length of the payload that is
    parsed. -/
theorem parse_overlay (hformat : format.isOctets) (h : format.parse {} input = some c)
    (hpayload : c.payload = some payload) (new : Bytes) :
    ∃ c', format.parse {} (input.take format.prefixSize ++
        Bytes.overlay (input.drop format.prefixSize) new) = some c' ∧
      c'.payload = some (payload.overlay new) := by
  cases format with
  | octets =>
      cases h
      cases hpayload
      exact ⟨_, rfl, rfl⟩
  | bounded width =>
      rw [prefixSize]
      by_cases hwidth : width = .zero
      · subst hwidth
        cases h
        cases hpayload
        exact ⟨_, rfl, congrArg some (Bytes.take_overlay input new _)⟩
      · rw [parse] at h ⊢
        exact parseBounded_overlay hwidth h hpayload new
  | _ => exact absurd hformat Bool.false_ne_true

end Format

section Visits

variable {placement : Placement} {v : Visitor} {fault : Fault Refusal}

theorem Octets.Builder.visit_of_error {q : Octets.Builder}
    (h : (q.visit placement v).result = .error fault) :
    (q.visit placement v).state = ⟨(q.cursor.visit (q.position placement) v).state⟩ := by
  unfold visit at h ⊢
  exact congrArg Builder.mk
    (Outcome.andThen_of_error (fun _ _ => Outcome.ofChecked_of_error) h)

/-- A visitor that reports more than the window has is refused. -/
theorem Cursor.visitCapped_le {c : Cursor} {position cap stop : Nat}
    (h : (c.visitCapped position cap v).result = .ok stop) :
    stop ≤ (c.visitCapped position cap v).state.maxLimit := by
  unfold visitCapped at h ⊢
  cases hroom : c.room position with
  | error fault => rw [hroom] at h; cases h
  | ok length =>
      rw [hroom] at h
      rcases Checked.bind_eq_ok.mp h with ⟨sum, _, h⟩
      rcases Checked.bind_eq_ok.mp h with ⟨_, hlimit, h⟩
      cases h
      exact checkLimit_eq_ok hlimit

theorem Bounded.Builder.visit_of_error {q : Bounded.Builder} {cap : Nat}
    (hcap : q.allowance placement = .ok cap) (h : (q.visit placement v).result = .error fault) :
    (q.visit placement v).state =
      { q with cursor := (q.cursor.visitCapped (q.position placement) cap v).state } := by
  unfold visit at h ⊢
  rw [hcap] at h ⊢
  exact Outcome.andThen_of_error
    (fun _ hstop => (settle_allOrNothing (Cursor.visitCapped_le hstop)).of_error) h

end Visits

namespace Builder

variable {w : Builder} {v : Visitor} {payload : Bytes}

/-- What a refused visitor leaves that was to replace the payload: its bytes behind
    the prefix, as many as it was shown room for, and all else as it was. -/
theorem replace_refused (hformat : w.format.isOctets) (hw : w.cursor.Valid)
    (hposition : w.cursor.offset + w.format.prefixSize ≤ w.cursor.maxLimit)
    (h : (w.write .replace (.visitor v)).result.Refuses) :
    ∃ seen, w.offered (.write .replace (.visitor v)) = some seen ∧
      (w.write .replace (.visitor v)).state = w.onBuffer (w.cursor.buffer.overwrite
        (w.cursor.offset + w.format.prefixSize) (v.bytes.take seen)) := by
  rcases h with ⟨cause, hcause⟩
  have hroom := (Cursor.room_exactly hw _).1 hposition
  cases w with
  | octets q =>
      replace hroom : q.cursor.room (q.position .replace) = .ok _ := hroom
      refine ⟨q.cursor.maxLimit - q.position .replace, ?_, ?_⟩
      · rw [offered, hroom]
        rfl
      · refine congrArg Builder.octets ((Octets.Builder.visit_of_error hcause).trans ?_)
        rw [Cursor.visit, hroom]
        rfl
  | bounded q =>
      replace hroom : q.cursor.room (q.position .replace) = .ok _ := hroom
      have hcap : q.allowance .replace = .ok q.bound := Word.sub_of_le (Nat.zero_le _)
      refine ⟨min (q.cursor.maxLimit - q.position .replace) q.bound, ?_, ?_⟩
      · rw [offered, hcap, hroom]
        rfl
      · refine congrArg Builder.bounded ((Bounded.Builder.visit_of_error hcap hcause).trans ?_)
        rw [Cursor.visitCapped, hroom]
        rfl
  | _ => exact absurd hformat Bool.false_ne_true

theorem format_onBuffer (w : Builder) (b : Buffer) : (w.onBuffer b).format = w.format := by
  cases w <;> rfl

theorem isSet_onBuffer (w : Builder) (b : Buffer) : (w.onBuffer b).isSet = w.isSet := by
  cases w <;> rfl

/-- A builder is built in one way. -/
theorem Yields.unique {payload' : Bytes} (h : w.Yields payload) (h' : w.Yields payload') :
    payload = payload' := by
  rcases h with ⟨r, hr, _, hpayload⟩
  rcases h' with ⟨r', hr', _, hpayload'⟩
  rw [hr] at hr'
  cases hr'
  rw [hpayload] at hpayload'
  exact Option.some.inj (Except.ok.inj hpayload')

/-- Bytes behind the prefix of octets that are built are written over the payload. -/
theorem Yields.overwrite (hformat : w.format.isOctets) (hw : w.cursor.Valid)
    (hle : w.cursor.offset ≤ w.limit) (hlimit : w.limit ≤ w.cursor.maxLimit)
    (h : w.Yields payload) (new : Bytes) :
    w.cursor.offset + w.format.prefixSize ≤ w.cursor.maxLimit ∧
      (w.onBuffer (w.cursor.buffer.overwrite (w.cursor.offset + w.format.prefixSize)
        new)).Yields (payload.overlay new) := by
  have hsize := Nat.le_trans hlimit hw.maxLimit_le
  rcases (yields_iff hformat hw hle hlimit payload).mp h with ⟨hset, c, hparse, hpayload⟩
  have hfront := Format.prefixSize_le hparse hformat
  rw [Buffer.length_segment _ hsize] at hfront
  refine ⟨by omega, (yields_iff ?_ ?_ ?_ ?_ _).mpr ⟨?_, ?_⟩⟩
  · rw [format_onBuffer]
    exact hformat
  · rw [cursor_onBuffer]
    exact hw.overwrite _ new
  · rw [limit, cursor_onBuffer]
    exact hle
  · rw [limit, cursor_onBuffer]
    exact hlimit
  · rw [format_onBuffer, isSet_onBuffer]
    exact hset
  · -- the segment up to the limit is the prefix and what lies over the payload
    have hsegment := w.cursor.buffer.segment_overwrite_overlay (i := w.cursor.offset) new
      (Nat.le_add_right _ w.format.prefixSize) (by omega) hsize
    rw [← Buffer.segment_take _ (by omega : _ ≤ w.limit), ← Buffer.segment_drop] at hsegment
    rw [format_onBuffer, limit, cursor_onBuffer]
    simp only []
    rw [show w.cursor.limit = w.limit from rfl, hsegment]
    exact Format.parse_overlay hformat hparse hpayload new

/-- A visitor that was to replace the payload of octets and is refused has written
    over the payload, up to the room that it was shown. The payload is as it was
    exactly if the visitor wrote what was there. -/
theorem refused_visit_overlays {b : Buffer} {o m depth : Nat} (hb : b.Addressable)
    (hreached : Reached (WritesWithin depth) b o m w) (hformat : w.format.isOctets)
    (hpayload : w.Yields payload) (hrefused : (w.write .replace (.visitor v)).result.Refuses) :
    ∃ seen, w.offered (.write .replace (.visitor v)) = some seen ∧
      (w.write .replace (.visitor v)).state.Yields (payload.overlay (v.bytes.take seen)) ∧
      ((w.write .replace (.visitor v)).state.Yields payload ↔
        (v.bytes.take seen).take payload.length <+: payload) := by
  have hvalid := hreached.valid (WritesWithin.sameOutside depth) hb
  rcases hreached.framed (WritesWithin.sameOutside depth) with ⟨hoffset, hmax, hle, hlimit, _⟩
  rw [← hoffset] at hle
  rw [← hmax] at hlimit
  have hbuilt := hpayload.overwrite hformat hvalid hle hlimit
  rcases replace_refused hformat hvalid (hbuilt []).1 hrefused with ⟨seen, hseen, hstate⟩
  have hyields := (hbuilt (v.bytes.take seen)).2
  rw [← hstate] at hyields
  refine ⟨seen, hseen, hyields, ?_⟩
  rw [← Bytes.overlay_eq_self_iff]
  constructor
  · intro hkept
    exact hyields.unique hkept
  · intro hsame
    rw [hsame] at hyields
    exact hyields

-- A visitor of bounded octets writes one byte and reports more than the bound.
theorem refused_visit_overlays_bounded :
    (threeOctets.write .replace (.visitor ⟨[9], 5⟩)).state.Yields [9, 2, 3] ∧
      ¬ (threeOctets.write .replace (.visitor ⟨[9], 5⟩)).state.Yields [1, 2, 3] := by
  have hb : (Buffer.ofBytes (List.replicate 9 0)).Addressable := by
    unfold Buffer.Addressable
    decide
  have hstart : (Format.bounded .eight).start (.ofBytes (List.replicate 9 0)) 1 8 =
      .ok (.bounded ⟨.eight, 255, 0, ⟨.ofBytes (List.replicate 9 0), 1, 8, 1⟩, false⟩) := rfl
  have hreached : Reached (WritesWithin 0) (.ofBytes (List.replicate 9 0)) 1 8 threeOctets :=
    ((Reached.start hstart).configure { bound := some 4 }).write .replace (.visitor ⟨[1, 2, 3], 3⟩)
  have hyields : threeOctets.Yields [1, 2, 3] := ⟨_, rfl, rfl, rfl⟩
  have hrefused : (threeOctets.write .replace (.visitor ⟨[9], 5⟩)).result.Refuses :=
    ⟨.lengthExceeded 5 4, rfl⟩
  rcases refused_visit_overlays hb hreached rfl hyields hrefused with ⟨seen, hseen, hafter, hkept⟩
  cases hseen
  exact ⟨hafter, fun hsame => absurd (hkept.mp hsame) (by decide)⟩

/-- Three octets that fill their window. -/
def fullOctets : Builder :=
  ((Builder.octets ⟨⟨.ofBytes [0, 0, 0], 0, 3, 0⟩⟩).write .replace (.bytes [1, 2, 3])).state

-- A visitor writes three others over them and reports one more than there is room
-- for.
theorem refused_visit_damages :
    fullOctets.Yields [1, 2, 3] ∧
      (fullOctets.write .replace (.visitor ⟨[9, 9, 9], 4⟩)).result =
        .error (.refused (.limitExceeded 4 3)) ∧
      (fullOctets.write .replace (.visitor ⟨[9, 9, 9], 4⟩)).state.Yields [9, 9, 9] :=
  ⟨⟨_, rfl, rfl, rfl⟩, rfl, ⟨_, rfl, rfl, rfl⟩⟩

end Builder

end Wireform
