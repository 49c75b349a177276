import Wireform.Proofs.Entries
import Wireform.Proofs.Starting

/-!
# Bounded Octets Keep Track of Their Length

The length that a builder of bounded octets has in mind is the one that its prefix
says.

The builder may be told another bound at any time, and a visitor may write bytes
and then be refused. Neither touches the prefix, the limit or the length. Every
step that succeeds ends in `Bounded.Builder.settle`, which brings all three up to
date together. So they agree in every state that a builder gets into
(`Bounded.Builder.Tracks`). The bound is no part of the agreement: it limits the
steps to come, and it may lie below the length that is already there.

What a step can do is said once. It succeeds and settles at a length within the
bound, or it fails and has written behind the prefix at most
(`Bounded.Builder.Tracks.write_cases`).

## Main definitions

* `Bounded.Builder.Tracks`: The length, the prefix and the limit agree.
* `Bounded.Builder.Settles`: What a success leads to.

## Theorems

* `Bounded.Builder.Tracks.stored`, `Bounded.Builder.Tracks.settledAt`: Writing a
  payload and taking it into account.
* `Bounded.Builder.visit_overdrawn`, `Bounded.Builder.Tracks.visit_overflows`,
  `Bounded.Builder.Tracks.visit_decided`: What a visitor comes to.
* `Bounded.Builder.Tracks.write_decides`: Bytes that are held in memory are taken
  or refused.
* `Bounded.Builder.Tracks.write_cases`: What any step comes to.
* `Bounded.Builder.Tracks.build`: What is built.
* `Builder.Reached.tracks`: Builders keep track whatever they are made to do.
-/

namespace Wireform

namespace Bounded.Builder

variable {q : Bounded.Builder} {placement : Placement}

/-- There is room for the payload of the length that the builder has in mind. Once
    something has succeeded, the prefix says this length, and the limit lies behind
    the payload. -/
structure Tracks (q : Bounded.Builder) : Prop where
  valid : q.cursor.Valid
  room : q.cursor.offset + q.width.size + q.length ≤ q.cursor.maxLimit
  bound_le : q.bound ≤ defaultBound q.width
  length_le : q.length ≤ defaultBound q.width
  limit : q.isSet → q.cursor.limit = q.cursor.offset + q.width.size + q.length
  told : q.isSet → q.cursor.buffer.segment q.cursor.offset (q.cursor.offset + q.width.size) =
    Bytes.ofNatLE q.width.size q.length

theorem Tracks.bound_lt (h : q.Tracks) : q.bound < 2 ^ (64 : Nat) :=
  Nat.lt_of_le_of_lt h.bound_le (defaultBound_lt q.width)

theorem Tracks.maxLimit_lt (h : q.Tracks) : q.cursor.maxLimit < 2 ^ (63 : Nat) :=
  Nat.lt_of_le_of_lt h.valid.maxLimit_le h.valid.addressable

theorem start_le (q : Bounded.Builder) (placement : Placement) :
    q.start placement ≤ q.length := by
  cases placement with
  | replace => exact Nat.zero_le _
  | append => exact Nat.le_refl _

theorem Tracks.position_le (h : q.Tracks) (placement : Placement) :
    q.position placement ≤ q.cursor.maxLimit := by
  have hroom := h.room
  have hstart := q.start_le placement
  rw [position]
  omega

/-- Another bound changes nothing that is there. -/
theorem Tracks.withBound (h : q.Tracks) (bound : Nat) : (q.withBound bound).Tracks :=
  ⟨h.valid, h.room, Nat.min_le_right _ _, h.length_le, h.limit, h.told⟩

/-- Bytes behind the prefix are not looked at until they are taken into account. -/
theorem Tracks.stored (h : q.Tracks) (start : Nat) (bytes : Bytes) :
    (q.stored start bytes).Tracks := by
  refine ⟨h.valid.overwrite _ bytes, h.room, h.bound_le, h.length_le, h.limit, fun hset => ?_⟩
  have hsame : q.cursor.buffer.SameOutside (q.cursor.offset + q.width.size + start) _
      (q.stored start bytes).cursor.buffer :=
    q.cursor.buffer.sameOutside_overwrite (Nat.le_refl _) (Nat.le_refl _)
  exact (hsame.segment_eq (Nat.le_add_right _ _)).trans (h.told hset)

theorem Tracks.settledAt (h : q.Tracks) {length : Nat} (hbound : length ≤ q.bound)
    (hroom : q.cursor.offset + q.width.size + length ≤ q.cursor.maxLimit) :
    (q.settledAt (q.cursor.offset + q.width.size + length) length).Tracks := by
  have hvalid := h.valid.overwrite q.cursor.offset (Bytes.ofNatLE q.width.size length)
  have hsize := h.valid.maxLimit_le
  refine ⟨⟨hvalid.addressable, hvalid.maxLimit_le⟩, hroom, h.bound_le,
    Nat.le_trans hbound h.bound_le, fun _ => rfl, fun _ => ?_⟩
  -- what was just written is there
  have hlength := Bytes.length_ofNatLE q.width.size length
  have hwritten := q.cursor.buffer.segment_overwrite
    (show q.cursor.offset + (Bytes.ofNatLE q.width.size length).length ≤ _ by omega)
  rw [hlength] at hwritten
  exact hwritten

/-- A payload beyond the bound is refused before its prefix is patched. -/
theorem settle_beyond {length : Nat} (h : q.bound < length) :
    q.settle (q.cursor.offset + q.width.size + length) =
      ⟨.error (.refused (.lengthExceeded length q.bound)), q⟩ := by
  rw [settle, lengthTo, Word.sub_of_le (Nat.le_add_right _ _), Nat.add_sub_cancel_left,
    Checked.ok_bind, checkBound, if_pos h]
  rfl

/-- Bytes that are held in memory are taken or refused, and no sum overflows. -/
theorem Tracks.write_decides (h : q.Tracks) (placement : Placement) {bytes : Bytes}
    (hbytes : bytes.length < 2 ^ (63 : Nat)) :
    (q.write placement bytes).result.Decides
      (q.start placement + bytes.length ≤ q.bound ∧
        q.cursor.offset + q.width.size + (q.start placement + bytes.length)
          ≤ q.cursor.maxLimit) := by
  refine ⟨fun hp => ⟨(), ?_⟩, fun hp => ?_⟩
  · rw [(write_exactly h.valid h.bound_lt placement bytes).1 hp]
  refine write_refuses h.valid (h.position_le placement) hbytes ?_
  rw [position, Nat.add_assoc]
  exact hp

/-- A bound that was lowered below the payload leaves a visitor nothing, and even
    less. -/
theorem visit_overdrawn (h : q.bound < q.start placement) (v : Visitor) :
    q.visit placement v = ⟨Checked.stop, q⟩ := by
  have hsub : q.allowance placement = Checked.stop := by
    rw [allowance, Word.sub, if_neg (Nat.not_le_of_lt h)]
    rfl
  rw [visit, hsub]
  rfl

/-- A visitor has written by the time that its report is looked at. -/
theorem Tracks.visit_eq (h : q.Tracks) (hstart : q.start placement ≤ q.bound) (v : Visitor) :
    ∃ bytes, q.visit placement v =
      (Outcome.mk
        (do
          let stop ← Word.add (q.position placement) v.report
          checkLimit stop q.cursor.maxLimit
          return stop)
        (q.stored (q.start placement) bytes)).andThen fun stop written =>
          written.settle stop := by
  have hroom := (Cursor.room_exactly h.valid _).1 (h.position_le placement)
  refine ⟨v.bytes.take (min (q.cursor.maxLimit - q.position placement)
    (q.bound - q.start placement)), ?_⟩
  rw [visit, allowance, Word.sub_of_le hstart]
  simp only [Cursor.visitCapped, hroom]
  rfl

theorem Tracks.visit_overflows (h : q.Tracks) (hstart : q.start placement ≤ q.bound)
    {v : Visitor} (hreport : 2 ^ (64 : Nat) ≤ q.position placement + v.report) :
    ∃ bytes, q.visit placement v = ⟨Checked.stop, q.stored (q.start placement) bytes⟩ := by
  rcases h.visit_eq hstart v with ⟨bytes, hvisit⟩
  refine ⟨bytes, ?_⟩
  rw [hvisit, Word.add_overflows hreport]
  rfl

/-- A report that is a position is taken, if the bound and the window allow it, and
    refused otherwise. -/
theorem Tracks.visit_decided (h : q.Tracks) (hstart : q.start placement ≤ q.bound)
    {v : Visitor} (hreport : q.position placement + v.report < 2 ^ (64 : Nat)) :
    ∃ bytes, let length := q.start placement + v.report
      let stop := q.cursor.offset + q.width.size + length
      (length ≤ q.bound ∧ stop ≤ q.cursor.maxLimit ∧
        q.visit placement v =
          ⟨.ok (), (q.stored (q.start placement) bytes).settledAt stop length⟩) ∨
      ∃ cause, q.visit placement v =
        ⟨.error (.refused cause), q.stored (q.start placement) bytes⟩ := by
  rcases h.visit_eq hstart v with ⟨bytes, hvisit⟩
  have hstored := h.stored (q.start placement) bytes
  have hassoc : q.position placement + v.report =
      q.cursor.offset + q.width.size + (q.start placement + v.report) := by
    rw [position, Nat.add_assoc]
  refine ⟨bytes, ?_⟩
  simp only
  rw [Word.add_of_lt hreport, Checked.ok_bind, hassoc] at hvisit
  -- the window is looked at first, and the bound when the payload is settled
  by_cases hlimit : q.cursor.offset + q.width.size + (q.start placement + v.report)
      ≤ q.cursor.maxLimit
  · rw [checkLimit_of_le hlimit] at hvisit
    by_cases hbound : q.start placement + v.report ≤ q.bound
    · left
      refine ⟨hbound, hlimit, hvisit.trans ?_⟩
      exact (settle_exactly hstored.valid (q.start placement + v.report)).1 ⟨hbound, hlimit⟩
    · -- the window has room for more than the bound allows
      exact .inr ⟨_, hvisit.trans (settle_beyond (Nat.lt_of_not_le hbound))⟩
  · right
    rcases checkLimit_refuses (Nat.lt_of_not_le hlimit) with ⟨cause, hcause⟩
    rw [hcause] at hvisit
    exact ⟨cause, hvisit⟩

/-- The second builder is the first after a success: it has a payload within the
    bound, and the settings are the same. -/
structure Settles (q q' : Bounded.Builder) : Prop where
  tracks : q'.Tracks
  isSet : q'.isSet
  length_le : q'.length ≤ q.bound
  bound : q'.bound = q.bound

theorem Tracks.settles (h : q.Tracks) (start : Nat) (bytes : Bytes) {length : Nat}
    (hbound : length ≤ q.bound)
    (hroom : q.cursor.offset + q.width.size + length ≤ q.cursor.maxLimit) :
    q.Settles ((q.stored start bytes).settledAt
      (q.cursor.offset + q.width.size + length) length) :=
  ⟨(h.stored start bytes).settledAt hbound hroom, rfl, hbound, rfl⟩

theorem Tracks.visit_cases (h : q.Tracks) (placement : Placement) (v : Visitor) :
    (∃ q', q.visit placement v = ⟨.ok (), q'⟩ ∧ q.Settles q') ∨
      ∃ fault start bytes, q.visit placement v = ⟨.error fault, q.stored start bytes⟩ := by
  by_cases hstart : q.start placement ≤ q.bound
  · by_cases hreport : q.position placement + v.report < 2 ^ (64 : Nat)
    · rcases h.visit_decided hstart hreport with
        ⟨bytes, ⟨hbound, hroom, hvisit⟩ | ⟨cause, hvisit⟩⟩
      · exact .inl ⟨_, hvisit, h.settles _ bytes hbound hroom⟩
      · exact .inr ⟨_, _, _, hvisit⟩
    · rcases h.visit_overflows hstart (Nat.le_of_not_lt hreport) with ⟨bytes, hvisit⟩
      exact .inr ⟨_, _, _, hvisit⟩
  · exact .inr ⟨_, 0, [], visit_overdrawn (Nat.lt_of_not_le hstart) v⟩

/-- Bytes are written and settled, or not written at all. -/
theorem Tracks.bytes_cases (h : q.Tracks) (placement : Placement) (bytes : Bytes) :
    (∃ q', q.write placement bytes = ⟨.ok (), q'⟩ ∧ q.Settles q') ∨
      ∃ fault, q.write placement bytes = ⟨.error fault, q⟩ := by
  have hexactly := write_exactly h.valid h.bound_lt placement bytes
  rcases q.write_allOrNothing placement bytes with ⟨x, hwrite⟩
  cases x with
  | error fault => exact .inr ⟨fault, hwrite⟩
  | ok q' =>
      rcases hexactly.of_ok (congrArg Outcome.result hwrite) with ⟨hcondition, _⟩
      exact .inl ⟨_, hexactly.1 hcondition, h.settles _ _ hcondition.1 hcondition.2⟩

/-- What a step comes to, whatever its source. It succeeds at a length within the
    bound, or it fails and has written behind the prefix at most. -/
theorem Tracks.write_cases (h : q.Tracks) (placement : Placement) (source : Source) :
    (∃ q', (Builder.bounded q).write placement source = ⟨.ok (), .bounded q'⟩ ∧ q.Settles q') ∨
      ∃ fault start bytes, (Builder.bounded q).write placement source =
        ⟨.error fault, .bounded (q.stored start bytes)⟩ := by
  cases source with
  | visitor v =>
      rw [Wireform.Builder.write, Wireform.Builder.visit]
      rcases h.visit_cases placement v with ⟨q', hvisit, hq'⟩ | ⟨fault, start, bytes, hvisit⟩
      · rw [hvisit]
        exact .inl ⟨q', rfl, hq'⟩
      · rw [hvisit]
        exact .inr ⟨fault, start, bytes, rfl⟩
  | _ =>
      -- a step without a visitor that fails has written nothing
      rw [Wireform.Builder.write_eq rfl placement fun _ hvisitor => by cases hvisitor]
      generalize Source.payload _ = payload
      cases payload with
      | error fault => exact .inr ⟨fault, 0, [], rfl⟩
      | ok payload =>
          rcases h.bytes_cases placement (payload.getD []) with ⟨q', hwrite, hq'⟩ | ⟨fault, hwrite⟩
          · exact .inl ⟨q', congrArg (Outcome.mapState Wireform.Builder.bounded) hwrite, hq'⟩
          · exact .inr ⟨fault, 0, [], congrArg (Outcome.mapState Wireform.Builder.bounded) hwrite⟩

/-- What the prefix says is the length that the builder has in mind. -/
theorem Tracks.measure (h : q.Tracks) (hset : q.isSet) :
    Reader.measure q.width (defaultBound q.width)
      ⟨q.cursor.buffer, q.cursor.offset, q.cursor.limit⟩ = .ok q.length := by
  have hlimit := h.limit hset
  have hroom := h.room
  have hlength := h.length_le
  have hlt := h.maxLimit_lt
  have hsize := h.valid.maxLimit_le
  by_cases hwidth : q.width = .zero
  · -- without a prefix, the octets run to the limit
    rw [Reader.measure, if_pos hwidth, Window.remaining]
    have hzero : q.width.size = 0 := by rw [hwidth]; rfl
    rw [hlimit, hzero, Nat.add_zero, Nat.add_sub_cancel_left, Nat.min_eq_left hlength]
  · have hpow : q.length < 256 ^ q.width.size := by
      rw [defaultBound_eq hwidth] at hlength
      exact Nat.lt_of_le_of_lt hlength q.width.maxValue_lt_pow
    rw [Reader.measure, if_neg hwidth]
    simp only []
    rw [Word.add_of_lt (by omega), Checked.ok_bind, checkLimit_of_le (by omega), Checked.ok_bind,
      q.width.read_eq h.valid.addressable (by omega), Checked.ok_bind, h.told hset,
      Bytes.toNatLE_ofNatLE hpow, if_neg (Nat.not_lt.mpr hlength), Word.add_of_lt (by omega),
      Checked.ok_bind, checkLimit_of_le (by omega)]
    rfl

theorem Tracks.build (h : q.Tracks) (hset : q.isSet) :
    (Builder.bounded q).build.result =
      .ok (.bounded ⟨q.width, q.bound,
        ⟨q.cursor.buffer, q.cursor.offset, q.cursor.limit⟩, q.length⟩) := by
  have hlimit := h.limit hset
  have hroom := h.room
  have hsize := h.valid.maxLimit_le
  rw [Builder.build_bounded hset, Reader.wrap, Window.wrap_of_le (by omega) (by omega),
    Checked.ok_bind, h.measure hset]
  rfl

end Bounded.Builder

namespace Builder

variable {b : Buffer} {o m : Nat} {w : Builder}

/-- What keeps its format makes bounded octets of nothing else. -/
theorem eq_bounded_of_format {w w' : Builder} {q : Bounded.Builder}
    (hformat : w'.format = w.format) (h : Builder.bounded q = w') : ∃ q', w = .bounded q' := by
  subst h
  cases w with
  | bounded q' => exact ⟨q', rfl⟩
  | _ => cases hformat

theorem tracks_of_start (hb : b.Addressable) {width : Width} {q : Bounded.Builder}
    (h : (Format.bounded width).start b o m = .ok (.bounded q)) : q.Tracks ∧ q.isSet = false := by
  rcases fresh_of_start _ h with ⟨_, hopens, hunset⟩
  rcases Checked.map_eq_ok.mp h with ⟨q', hq, hsame⟩
  cases hsame
  rcases Checked.bind_eq_ok.mp hq with ⟨c, _, hq⟩
  rcases Checked.bind_eq_ok.mp hq with ⟨payload, hpayload, hq⟩
  rcases Checked.bind_eq_ok.mp hq with ⟨_, hlimit, hq⟩
  have hroom := Cursor.checkLimit_eq_ok hlimit
  have hsum := Word.add_eq_ok hpayload
  cases hq
  have hoffset : c.offset = o := hopens.offset
  have hmax : c.maxLimit = m := hopens.maxLimit
  refine ⟨⟨hopens.valid hb, ?_, Nat.le_refl _, Nat.zero_le _, fun hc => ?_, fun hc => ?_⟩, rfl⟩
  · simp only
    omega
  · cases hc
  · cases hc

theorem configure_bounded (q : Bounded.Builder) (settings : Settings) :
    ∃ bound, (Builder.bounded q).configure settings = .bounded { q with bound } ∧
      (q.Tracks → Bounded.Builder.Tracks { q with bound }) := by
  unfold configure
  cases settings.bound with
  | some bound => exact ⟨_, rfl, fun h => h.withBound bound⟩
  | none => exact ⟨q.bound, rfl, id⟩

/-- A builder of bounded octets keeps track whatever it is made to do. -/
theorem Reached.tracks {Writes : Buffer → Nat → Nat → Buffer → Prop} (hb : b.Addressable)
    {q : Bounded.Builder} (h : Reached Writes b o m (.bounded q)) : q.Tracks := by
  generalize hw : Builder.bounded q = w at h
  -- only settings and writes do anything to bounded octets, the rest is refused
  induction h generalizing q with
  | start h =>
      rw [← hw] at h
      rw [← (fresh_of_start _ h).format_eq] at h
      exact (tracks_of_start hb h).1
  | @configure w _ settings ih =>
      rcases eq_bounded_of_format (format_configure w settings) hw with ⟨q', rfl⟩
      rcases configure_bounded q' settings with ⟨bound, hbound, htracks⟩
      rw [hbound] at hw
      cases hw
      exact htracks (ih rfl)
  | @set w _ value ih =>
      rcases eq_bounded_of_format (format_set w value) hw with ⟨q', rfl⟩
      exact ih hw
  | @write w _ placement source ih =>
      rcases eq_bounded_of_format (format_write w placement source) hw with ⟨q', rfl⟩
      have hq' := ih rfl
      rcases hq'.write_cases placement source with
        ⟨after, hwrite, hafter⟩ | ⟨fault, start, bytes, hwrite⟩
      · rw [hwrite] at hw
        cases hw
        exact hafter.tracks
      · rw [hwrite] at hw
        cases hw
        exact hq'.stored start bytes
  | @fields w _ count visitor ih =>
      rcases eq_bounded_of_format (format_fields w count visitor) hw with ⟨q', rfl⟩
      exact ih hw
  | @fieldsFrom w _ count bytes ih =>
      rcases eq_bounded_of_format (format_fieldsFrom w count bytes) hw with ⟨q', rfl⟩
      exact ih hw
  | @item w _ write _ ih =>
      rcases eq_bounded_of_format (format_item w write) hw with ⟨q', rfl⟩
      exact ih hw
  | @entry w _ writeKey writeValue _ _ ih =>
      rcases eq_bounded_of_format (format_entry w writeKey writeValue) hw with ⟨q', rfl⟩
      exact ih hw

end Builder

end Wireform
