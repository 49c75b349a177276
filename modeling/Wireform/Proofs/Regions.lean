import Wireform.Proofs.Tracking

/-!
# Regions of Other Bytes

Octets and strings may be written from a region of other bytes, given by an offset
and a length.

A region that lies in its source is written as the slice that it names: the step is
the same as with the bytes of the slice, in every state that a builder gets into. A
region that reaches past the end of its source is refused, and nothing is changed.
These two cases would be all, were it not for the way in which the end is found: it
is the sum of two words of the caller, and the sum is formed before it is compared.
Where it is no word, the step stops. The state is left alone in that case as well.

That the bytes of a slice never stop a step is a fact about the builders. No buffer
and no source fills more than half of the words, so no position behind a payload
overflows, provided that the builder stands inside of its window. Octets stand there
by `Cursor.Framed`, and bounded octets by `Bounded.Builder.Tracks`.

## Main definitions

* `Format.hasPayload`: The formats that are written from bytes.

## Theorems

* `region_of_le`, `region_refused`, `region_overflows`: The three kinds of regions.
* `Cursor.segmentEnd_ne_stop`: The end of bytes that are held in memory is a word.
* `Builder.Reached.writePayload_ne_stop`: Bytes that are held in memory never stop a
  step.
* `Builder.region_is_slice`: What a region does to a builder.
-/

namespace Wireform

section Regions

variable {data : Bytes} {offset length : Nat}

theorem region_of_le (hdata : data.length < 2 ^ (63 : Nat)) (h : offset + length ≤ data.length) :
    region data offset length = .ok ((data.drop offset).take length) := by
  rw [region, Word.add_of_lt (by omega), Checked.ok_bind, checkLimit_of_le h]
  rfl

theorem region_refused (hlt : offset + length < 2 ^ (64 : Nat))
    (h : data.length < offset + length) :
    region data offset length =
      .error (.refused (.limitExceeded (offset + length) data.length)) := by
  rw [region, Word.add_of_lt hlt, Checked.ok_bind, checkLimit, if_pos h]
  rfl

theorem region_overflows (h : 2 ^ (64 : Nat) ≤ offset + length) :
    region data offset length = Checked.stop := by
  rw [region, Word.add_overflows h]
  rfl

end Regions

section Families

theorem Checked.bind_ne_stop {ε α β : Type} {x : Checked ε α} {f : α → Checked ε β}
    (hx : x ≠ stop) (hf : ∀ a, x = .ok a → f a ≠ stop) : (x >>= f) ≠ stop := by
  rcases x with fault | a
  · intro hc
    cases hc
    exact hx rfl
  · exact hf a rfl

theorem Checked.map_ne_stop {ε α β : Type} {x : Checked ε α} (hx : x ≠ stop) (f : α → β) :
    f <$> x ≠ stop := by
  refine bind_ne_stop hx fun a _ hc => ?_
  cases hc

theorem Outcome.ofChecked_ne_stop {ε σ : Type} {before : σ} {x : Checked ε σ}
    (h : x ≠ Checked.stop) : (Outcome.ofChecked before x).result ≠ Checked.stop := by
  rcases x with fault | after
  · intro hc
    cases hc
    exact h rfl
  · intro hc
    cases hc

/-- Bytes that are held in memory end at a word, from wherever in the window. -/
theorem Cursor.segmentEnd_ne_stop {c : Cursor} (hc : c.Valid) {position : Nat}
    (hposition : position ≤ c.maxLimit) {bytes : Bytes} (hbytes : bytes.length < 2 ^ (63 : Nat)) :
    c.segmentEnd position bytes.length ≠ Checked.stop := by
  by_cases hroom : position + bytes.length ≤ c.maxLimit
  · rw [(segmentEnd_exactly hc _ _).1 hroom]
    intro hstop
    cases hstop
  · exact (segmentEnd_refuses hc hposition hbytes (Nat.lt_of_not_le hroom)).ne_stop

theorem Cursor.fitting_ne_stop {c : Cursor} (hc : c.Valid) (hoffset : c.offset ≤ c.maxLimit)
    {encoding : Checked Refusal Encoding} (hencoding : encoding ≠ Checked.stop)
    (hbytes : ∀ e, encoding = .ok e → e.bytes.length < 2 ^ (63 : Nat)) :
    c.fitting encoding ≠ Checked.stop := by
  refine Checked.bind_ne_stop hencoding fun e he => ?_
  refine Checked.bind_ne_stop (segmentEnd_ne_stop hc hoffset (hbytes e he)) fun _ _ hstop => ?_
  cases hstop

theorem Octets.Builder.write_ne_stop {q : Octets.Builder} (hq : q.cursor.Valid)
    {placement : Placement} (hposition : q.position placement ≤ q.cursor.maxLimit) {bytes : Bytes}
    (hbytes : bytes.length < 2 ^ (63 : Nat)) : (q.write placement bytes).result ≠ Checked.stop := by
  have hend := Cursor.segmentEnd_ne_stop hq hposition hbytes
  cases hfound : q.cursor.segmentEnd (q.position placement) bytes.length with
  | error fault =>
      rw [write, Cursor.place_of_error hfound]
      intro hstop
      cases hstop
      exact hend hfound
  | ok stop =>
      rcases Cursor.segmentEnd_eq_ok hfound with ⟨rfl, hroom⟩
      rw [write, Cursor.place_of_ok hfound hroom]
      intro hstop
      cases hstop

theorem Strings.Builder.prefixValue_ne_stop (width : Width) (payload : Option Bytes) :
    prefixValue width payload ≠ Checked.stop := by
  intro hc
  unfold prefixValue at hc
  split at hc
  · split at hc <;> cases hc
  · split at hc <;> cases hc

/-- A prefix is checked before there are bytes to put, so it does not make them too
    many. -/
theorem Strings.Builder.length_of_prefixValue {width : Width} {payload : Option Bytes} {raw : Nat}
    (h : prefixValue width payload = .ok raw)
    (hpayload : (payload.getD []).length < 2 ^ (63 : Nat)) :
    (Bytes.ofNatLE width.size raw ++ payload.getD []).length < 2 ^ (63 : Nat) := by
  have hsize := width.size_le
  have hmax := width.maxValue_lt
  rw [List.length_append, Bytes.length_ofNatLE]
  cases payload with
  | none =>
      rw [Option.getD_none, List.length_nil]
      omega
  | some bytes =>
      by_cases hwidth : width = .zero
      · subst hwidth
        rw [Width.size, Nat.zero_add]
        exact hpayload
      · rw [prefixValue] at h
        split at h
        · cases h
        · next hlength =>
            rw [Option.getD_some]
            have hlt : bytes.length < width.maxValue :=
              Nat.lt_of_not_le fun hc => hlength ⟨hwidth, hc⟩
            omega

theorem VarStrings.Builder.prefixValue_ne_stop (payload : Option Bytes) :
    prefixValue payload ≠ Checked.stop := by
  intro hc
  unfold prefixValue at hc
  split at hc
  · cases hc
  · split at hc <;> cases hc

theorem VarStrings.Builder.length_of_prefixValue {payload : Option Bytes} {raw : Nat}
    (h : prefixValue payload = .ok raw) :
    (Varint.groups raw ++ payload.getD []).length < 2 ^ (63 : Nat) := by
  have hraw : raw < 2 * 2 ^ (31 : Nat) ∧ (payload.getD []).length < 2 ^ (31 : Nat) := by
    cases payload with
    | none =>
        cases h
        decide
    | some bytes =>
        rw [prefixValue] at h
        split at h
        · cases h
        · next hlength =>
            cases h
            rw [maxLength] at hlength
            exact ⟨zigzag_lt _ (by omega) (by omega), by rw [Option.getD_some]; omega⟩
  have hsize : Varint.encodedSize raw ≤ 5 := Varint.encodedSize_le (by decide) (by omega)
  rw [List.length_append, Varint.length_groups]
  omega

end Families

/-- The formats of octets and strings, which are written from bytes. -/
def Format.hasPayload : Format → Bool
  | .octets | .bounded _ | .string _ | .varstring => true
  | _ => false

namespace Builder

variable {b : Buffer} {o m depth : Nat} {w : Builder} {placement : Placement} {source : Source}

theorem takesPayload_eq (w : Builder) : w.takesPayload = w.format.hasPayload := by
  cases w <;> rfl

theorem payloadEncoding_ne_stop (w : Builder) (payload : Option Bytes) :
    w.payloadEncoding payload ≠ Checked.stop := by
  unfold payloadEncoding
  split
  · exact Checked.map_ne_stop (Strings.Builder.prefixValue_ne_stop _ payload) _
  · exact Checked.map_ne_stop (VarStrings.Builder.prefixValue_ne_stop payload) _
  · intro hstop
    cases hstop

theorem length_of_payloadEncoding {payload : Option Bytes} {e : Encoding}
    (h : w.payloadEncoding payload = .ok e) (hpayload : (payload.getD []).length < 2 ^ (63 : Nat)) :
    e.bytes.length < 2 ^ (63 : Nat) := by
  unfold payloadEncoding at h
  split at h
  · rcases Checked.map_eq_ok.mp h with ⟨raw, hraw, rfl⟩
    exact Strings.Builder.length_of_prefixValue hraw hpayload
  · rcases Checked.map_eq_ok.mp h with ⟨raw, hraw, rfl⟩
    exact VarStrings.Builder.length_of_prefixValue hraw
  · cases h

/-- Bytes that are held in memory never stop a step, whatever the builder has been
    made to do before. -/
theorem Reached.writePayload_ne_stop (hb : b.Addressable)
    (h : Reached (WritesWithin depth) b o m w) {payload : Option Bytes}
    (hpayload : (payload.getD []).length < 2 ^ (63 : Nat)) :
    (w.writePayload placement payload).result ≠ Checked.stop := by
  have hvalid := h.valid (WritesWithin.sameOutside depth) hb
  have hframed := h.framed (WritesWithin.sameOutside depth)
  -- the positions at which the families write lie in the window
  have hoffset : w.cursor.offset ≤ w.cursor.maxLimit := by
    rw [hframed.offset, hframed.maxLimit]
    exact Nat.le_trans hframed.offset_le hframed.limit_le
  -- strings write an encoding at the offset
  have hsingle : w.format.isSingle → (w.writePayload placement payload).result ≠ Checked.stop := by
    intro hformat
    rw [writePayload_eq hformat]
    exact Outcome.ofChecked_ne_stop (Checked.map_ne_stop (Cursor.fitting_ne_stop hvalid hoffset
      (w.payloadEncoding_ne_stop payload) fun e he => length_of_payloadEncoding he hpayload) _)
  cases w with
  | octets q =>
      have hlimit : q.cursor.limit ≤ q.cursor.maxLimit :=
        Nat.le_trans hframed.limit_le (Nat.le_of_eq hframed.maxLimit.symm)
      refine Octets.Builder.write_ne_stop hvalid ?_ hpayload
      cases placement with
      | replace => exact hoffset
      | append => exact hlimit
  | bounded q => exact ((h.tracks hb).write_decides placement hpayload).ne_stop
  | string s => exact hsingle rfl
  | varstring s => exact hsingle rfl
  | _ => intro hstop; cases hstop

/-- In every state of a builder of octets or strings, a region of other bytes is
    written like the slice that it names, and the step does not stop. A region past
    the end of the bytes is refused and changes nothing. A region whose end is no
    word stops, and changes nothing either. -/
theorem region_is_slice (hb : b.Addressable) (h : Reached (WritesWithin depth) b o m w)
    (hformat : w.format.hasPayload) (placement : Placement) {data : Bytes}
    (hdata : data.length < 2 ^ (63 : Nat)) (offset length : Nat) :
    (offset + length ≤ data.length →
      w.write placement (.region data offset length) =
          w.write placement (.bytes ((data.drop offset).take length)) ∧
        (w.write placement (.region data offset length)).result ≠ Checked.stop) ∧
    (data.length < offset + length → offset + length < 2 ^ (64 : Nat) →
      w.write placement (.region data offset length) =
        ⟨.error (.refused (.limitExceeded (offset + length) data.length)), w⟩) ∧
    (2 ^ (64 : Nat) ≤ offset + length →
      w.write placement (.region data offset length) = ⟨Checked.stop, w⟩) := by
  have hwrite : w.write placement (.region data offset length) =
      (Outcome.check w (some <$> region data offset length)).andThen fun payload w =>
        w.writePayload placement payload := by
    refine write_eq (w.takesPayload_eq.trans hformat) placement fun v hv => ?_
    cases hv
  refine ⟨fun hle => ?_, fun hend hlt => ?_, fun hover => ?_⟩
  · have hbytes : (((data.drop offset).take length)).length < 2 ^ (63 : Nat) := by
      rw [List.length_take, List.length_drop]
      omega
    have hslice : w.write placement (.bytes ((data.drop offset).take length)) =
        w.writePayload placement ((data.drop offset).take length) := by
      refine write_eq (w.takesPayload_eq.trans hformat) placement fun v hv => ?_
      cases hv
    rw [hwrite, hslice, region_of_le hdata hle]
    exact ⟨rfl, h.writePayload_ne_stop hb hbytes⟩
  · rw [hwrite, region_refused hlt hend]
    rfl
  · rw [hwrite, region_overflows hover]
    rfl

-- Bounded octets that were told a bound of two when they had three bytes: a slice, a
-- region that ends at the largest word, and one that ends behind it.
theorem region_is_slice_lowered :
    ∃ w, Reached (WritesWithin 0) (.ofBytes [0, 0, 0, 0]) 0 4 w ∧ w.isSet ∧
      w.write .append (.region [7, 8, 9] 1 2) = w.write .append (.bytes [8, 9]) ∧
      (w.write .append (.region [7, 8, 9] 1 2)).result ≠ Checked.stop ∧
      w.write .append (.region [7, 8, 9] 2 (Word.max - 2)) =
        ⟨.error (.refused (.limitExceeded Word.max 3)), w⟩ ∧
      w.write .append (.region [7, 8, 9] 2 (Word.max - 1)) = ⟨Checked.stop, w⟩ := by
  have hb : (Buffer.ofBytes [0, 0, 0, 0]).Addressable := by
    unfold Buffer.Addressable
    decide
  have hstart : (Format.bounded .eight).start (.ofBytes [0, 0, 0, 0]) 0 4 =
      .ok (.bounded ⟨.eight, 255, 0, ⟨.ofBytes [0, 0, 0, 0], 0, 4, 0⟩, false⟩) := rfl
  have hreached : Reached (WritesWithin 0) (.ofBytes [0, 0, 0, 0]) 0 4 _ :=
    ((Reached.start hstart).write .replace (.bytes [1, 2, 3])).configure { bound := some 2 }
  have hdata : ([7, 8, 9] : Bytes).length < 2 ^ (63 : Nat) := by decide
  refine ⟨_, hreached, rfl, ?_, ?_, ?_, ?_⟩
  · exact ((region_is_slice hb hreached rfl .append hdata 1 2).1 (by decide)).1
  · exact ((region_is_slice hb hreached rfl .append hdata 1 2).1 (by decide)).2
  · exact (region_is_slice hb hreached rfl .append hdata 2 (Word.max - 2)).2.1 (by decide)
      (by decide)
  · exact (region_is_slice hb hreached rfl .append hdata 2 (Word.max - 1)).2.2 (by decide)

-- One byte at the largest offset, for a family of octets and one of strings. The offset
-- before it is refused.
theorem region_end_overflows :
    (do
      let w ← Format.octets.start (.ofBytes [0, 0]) 0 2
      (w.write .replace (.region [1, 2] Word.max 1)).result) = Checked.stop ∧
    (do
      let w ← (Format.string .eight).start (.ofBytes [0, 0]) 0 2
      (w.write .replace (.region [1, 2] Word.max 1)).result) = Checked.stop ∧
    (do
      let w ← Format.octets.start (.ofBytes [0, 0]) 0 2
      (w.write .replace (.region [1, 2] (Word.max - 1) 1)).result) =
        .error (.refused (.limitExceeded Word.max 2)) :=
  ⟨rfl, rfl, rfl⟩

end Builder

end Wireform
