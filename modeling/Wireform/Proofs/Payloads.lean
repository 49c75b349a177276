import Wireform.Proofs.FailedSteps

/-!
# Octets Are a Byte String

Builders of octets, with and without a bound, refine a byte string.

Eight operations write octets: the payload is replaced or appended to, with bytes,
a region, another reader or a visitor. What they come to is said in terms of the
payload alone. A draft is the payload so far, or nothing before the first success.
Replacing makes it the new bytes, appending puts them behind, and a step succeeds
exactly if the payload it leads to is within the bound and has room in the window
behind its prefix (`Format.Admits`).

The buffer remembers more than the draft: a payload that was replaced by a shorter
one leaves its end behind, and a patched prefix its value before. So the relation
between a builder and its draft looks at a segment of the buffer only
(`Bounded.Builder.Carries`). A write is seen through that segment by
`Buffer.segment_overwrite_overlay`.

A visitor takes part if it writes exactly the bytes it reports. It cannot tell
from a write of these bytes then (`Builder.Carries.write_received`), and since it was shown
no more than what the bound and the window leave, it succeeds.

## Main definitions

* `Bytes.overlay`: Bytes written over the front of others.
* `Format.Admits`, `Format.layout`: The payloads that are taken, and their
  encodings.
* `Placement.onto`: What a step makes of a draft.
* `Builder.Receives`: The bytes that a step brings.
* `Builder.Drafted`: The runs of a builder, with the drafts that they lead to.

## Theorems

* `Buffer.segment_overwrite_overlay`: What a write changes in a segment.
* `Octets.Builder.Carries.extended`, `Bounded.Builder.Carries.extended`: A step that
  succeeds.
* `Builder.Carries.write`: When it does.
* `Builder.Carries.yields`: What is built.
* `Builder.octets_refine`: The builder of octets and its draft go together.
-/

namespace Wireform

/-- The old bytes with the new ones over their front, as far as they reach. -/
def Bytes.overlay (old new : Bytes) : Bytes :=
  new.take old.length ++ old.drop new.length

namespace Bytes

theorem length_overlay (old new : Bytes) : (overlay old new).length = old.length := by
  rw [overlay, List.length_append, List.length_take, List.length_drop]
  omega

theorem getElem?_overlay (old new : Bytes) (k : Nat) :
    (overlay old new)[k]? = if k < new.length ∧ k < old.length then new[k]? else old[k]? := by
  rw [overlay]
  by_cases hk : k < new.length ∧ k < old.length
  · rw [if_pos hk, List.getElem?_append_left (by rw [List.length_take]; omega),
      List.getElem?_take, if_pos hk.2]
  · rw [if_neg hk]
    by_cases hold : k < old.length
    · rw [List.getElem?_append_right (by rw [List.length_take]; omega), List.getElem?_drop,
        List.length_take, show new.length + (k - min old.length new.length) = k by omega]
    · rw [List.getElem?_eq_none (by omega : old.length ≤ k),
        List.getElem?_eq_none (by
          rw [List.length_append, List.length_take, List.length_drop]
          omega)]

/-- As many bytes as there were replace all of them. -/
theorem overlay_of_length_eq {old new : Bytes} (h : old.length = new.length) :
    overlay old new = new := by
  rw [overlay, h, List.take_length, List.drop_of_length_le (by omega), List.append_nil]

theorem overlay_of_length_le {old new : Bytes} (h : new.length ≤ old.length) :
    overlay old new = new ++ old.drop new.length := by
  rw [overlay, List.take_of_length_le h]

end Bytes

namespace Buffer

/-- A segment after a write that begins inside of it. -/
theorem segment_overwrite_overlay (b : Buffer) {i j k : Nat} (bytes : Bytes) (hij : i ≤ j)
    (hjk : j ≤ k) (hk : k ≤ b.size) :
    (b.overwrite j bytes).segment i k = b.segment i j ++ (b.segment j k).overlay bytes := by
  have hfront := b.length_segment (i := i) (Nat.le_trans hjk hk)
  have hback := b.length_segment (i := j) hk
  refine List.ext_getElem? fun n => ?_
  rw [getElem?_segment, getElem?_overwrite]
  by_cases hn : n < j - i
  · -- in front of the write
    rw [if_pos (by omega), if_neg (by omega), List.getElem?_append_left (by omega),
      getElem?_segment, if_pos (by omega)]
  · rw [List.getElem?_append_right (by omega), hfront, Bytes.getElem?_overlay, getElem?_segment,
      hback, show j + (n - (j - i)) = i + n by omega]
    by_cases hend : i + n < k
    · rw [if_pos hend, if_pos hend]
      by_cases hnew : n - (j - i) < bytes.length
      · rw [if_pos (by omega), if_pos (by omega), show i + n - j = n - (j - i) by omega]
      · rw [if_neg (by omega), if_neg (by omega)]
    · rw [if_neg hend, if_neg (by omega), if_neg hend]

/-- Bytes written behind a segment continue it. -/
theorem segment_overwrite_behind (b : Buffer) {i j : Nat} {bytes : Bytes} (hij : i ≤ j)
    (h : j + bytes.length ≤ b.size) :
    (b.overwrite j bytes).segment i (j + bytes.length) = b.segment i j ++ bytes := by
  rw [segment_overwrite_overlay b bytes hij (Nat.le_add_right _ _) h,
    Bytes.overlay_of_length_eq (b.length_segment_add h)]

/-- Bytes written over the front of a segment leave the rest. -/
theorem segment_overwrite_before (b : Buffer) {i k : Nat} {bytes : Bytes}
    (h : i + bytes.length ≤ k) (hk : k ≤ b.size) :
    (b.overwrite i bytes).segment i k = bytes ++ b.segment (i + bytes.length) k := by
  have hlength := b.length_segment (i := i) hk
  rw [segment_overwrite_overlay b bytes (Nat.le_refl i) (by omega) hk, segment_self,
    List.nil_append, Bytes.overlay_of_length_le (by omega), segment_drop]

end Buffer

/-- What a step makes of a draft. -/
def Placement.onto : Placement → Option Bytes → Bytes → Bytes
  | .replace, _, bytes => bytes
  | .append, draft, bytes => draft.getD [] ++ bytes

namespace Format

/-- The formats of octets, with and without a bound. -/
def isOctets : Format → Bool
  | .octets | .bounded _ => true
  | _ => false

/-- The payload is within the bound, and has room in the window behind its
    prefix. -/
def Admits (format : Format) (settings : Settings) (o m : Nat) (payload : Bytes) : Prop :=
  match format with
  | .bounded width =>
      payload.length ≤
        Bounded.effectiveBound width (settings.bound.getD (Bounded.defaultBound width)) ∧
      o + width.size + payload.length ≤ m
  | _ => o + payload.length ≤ m

/-- The payload behind its length, if the format has a prefix. -/
def layout (format : Format) (payload : Bytes) : Bytes :=
  match format with
  | .bounded width => Bytes.word width.size payload.length ++ payload
  | _ => payload

end Format

namespace Octets.Builder

variable {q : Octets.Builder} {o m : Nat} {draft : Option Bytes}

/-- The builder after bytes were written. -/
def extended (q : Octets.Builder) (placement : Placement) (bytes : Bytes) : Octets.Builder :=
  ⟨{ q.cursor with
      buffer := q.cursor.buffer.overwrite (q.position placement) bytes
      limit := q.position placement + bytes.length }⟩

theorem write_exactly (hq : q.cursor.Valid) (placement : Placement) (bytes : Bytes) :
    (q.write placement bytes).Exactly
      (q.position placement + bytes.length ≤ q.cursor.maxLimit) (.ok ())
      (q.extended placement bytes) := by
  unfold write
  exact ((Cursor.place_exactly hq _ bytes _).mapState Builder.mk).congr
    ⟨fun h => ⟨h, h⟩, fun h => h.1⟩

theorem visit_exactly (hq : q.cursor.Valid) (placement : Placement) (bytes : Bytes) :
    (q.visit placement (.honest bytes)).Exactly
      (q.position placement + bytes.length ≤ q.cursor.maxLimit) (.ok ())
      (q.extended placement bytes) := by
  unfold visit
  exact (((Cursor.visit_exactly hq _ bytes).andThen fun _ =>
    Outcome.exactly_ofChecked _ (Cursor.setLimit_exactly _ _)).mapState Builder.mk).congr
      ⟨fun h => ⟨h, h⟩, fun h => h.1⟩

/-- The builder has the draft between its offset and its limit. -/
structure Carries (o m : Nat) (draft : Option Bytes) (q : Octets.Builder) : Prop where
  valid : q.cursor.Valid
  offset : q.cursor.offset = o
  maxLimit : q.cursor.maxLimit = m
  limit : q.cursor.limit = o + (draft.getD []).length
  limit_le : q.cursor.limit ≤ m
  held : q.cursor.buffer.segment o q.cursor.limit = draft.getD []

theorem Carries.position_add (h : q.Carries o m draft) (placement : Placement) (bytes : Bytes) :
    q.position placement + bytes.length = o + (placement.onto draft bytes).length := by
  cases placement with
  | replace => rw [position, h.offset, Placement.onto]
  | append => rw [position, h.limit, Placement.onto, List.length_append, Nat.add_assoc]

theorem Carries.extended (h : q.Carries o m draft) {placement : Placement} {bytes : Bytes}
    (hroom : o + (placement.onto draft bytes).length ≤ m) :
    (q.extended placement bytes).Carries o m (some (placement.onto draft bytes)) := by
  have hadd := h.position_add placement bytes
  have hsize := h.valid.maxLimit_le
  have hmax := h.maxLimit
  have hlimit := h.limit
  refine ⟨⟨(h.valid.overwrite _ bytes).addressable, (h.valid.overwrite _ bytes).maxLimit_le⟩,
    h.offset, hmax, hadd, ?_, ?_⟩
  · simp only [Builder.extended]
    omega
  · simp only [Builder.extended, Option.getD_some]
    cases placement with
    | replace =>
        rw [position, h.offset]
        exact Buffer.segment_overwrite _ (by rw [Placement.onto] at hroom; omega)
    | append =>
        rw [position, Buffer.segment_overwrite_behind _ (by omega) (by
          rw [position] at hadd
          omega), h.held]
        rfl

end Octets.Builder

/-- Every bound is a word. -/
theorem Bounded.defaultBound_lt (width : Width) : defaultBound width < 2 ^ (64 : Nat) := by
  cases width <;> decide

namespace Bounded.Builder

variable {q : Bounded.Builder} {bound o m : Nat} {draft : Option Bytes}

/-- The builder has the draft behind its prefix, and the prefix says how long it
    is. Before the first success it has neither. -/
structure Carries (bound o m : Nat) (draft : Option Bytes) (q : Bounded.Builder) : Prop where
  valid : q.cursor.Valid
  offset : q.cursor.offset = o
  maxLimit : q.cursor.maxLimit = m
  bound_eq : q.bound = bound
  isSet : q.isSet = draft.isSome
  length : q.length = (draft.getD []).length
  length_le : (draft.getD []).length ≤ bound
  room : o + q.width.size + (draft.getD []).length ≤ m
  unset : draft = none → q.cursor.limit = o
  held : ∀ payload, draft = some payload →
    q.cursor.limit = o + q.width.size + payload.length ∧
      q.cursor.buffer.segment o q.cursor.limit =
        Bytes.word q.width.size payload.length ++ payload

theorem Carries.start_add (h : q.Carries bound o m draft) (placement : Placement)
    (bytes : Bytes) :
    q.start placement + bytes.length = (placement.onto draft bytes).length := by
  cases placement with
  | replace => rw [start, Placement.onto, Nat.zero_add]
  | append => rw [start, h.length, Placement.onto, List.length_append]

/-- The payload that was written and that a step builds on. -/
theorem Carries.segment_start (h : q.Carries bound o m draft) (placement : Placement)
    (bytes : Bytes) :
    q.cursor.buffer.segment (o + q.width.size) (o + q.width.size + q.start placement) ++ bytes =
      placement.onto draft bytes := by
  cases placement with
  | replace => rw [start, Nat.add_zero, Buffer.segment_self, List.nil_append, Placement.onto]
  | append =>
      rw [start, h.length, Placement.onto]
      cases hdraft : draft with
      | none => rw [Option.getD_none, List.length_nil, Nat.add_zero, Buffer.segment_self]
      | some payload =>
          rcases h.held payload hdraft with ⟨hlimit, hheld⟩
          have hdrop := congrArg (List.drop q.width.size) hheld
          rw [Buffer.segment_drop, hlimit, List.drop_left' (Bytes.length_word _ _)] at hdrop
          rw [Option.getD_some, hdrop]

theorem Carries.extended (h : q.Carries bound o m draft) {placement : Placement} {bytes : Bytes}
    (hbound : (placement.onto draft bytes).length ≤ bound)
    (hroom : o + q.width.size + (placement.onto draft bytes).length ≤ m) :
    (q.extended (q.start placement) bytes).Carries bound o m
      (some (placement.onto draft bytes)) := by
  have hadd := h.start_add placement bytes
  have hmax := h.maxLimit
  have hoffset := h.offset
  have hsize := h.valid.maxLimit_le
  have hvalid : (q.extended (q.start placement) bytes).cursor.Valid := by
    have hstored := h.valid.overwrite (q.cursor.offset + q.width.size + q.start placement) bytes
    have hsettled := hstored.overwrite q.cursor.offset
      (Bytes.ofNatLE q.width.size (q.start placement + bytes.length))
    exact ⟨hsettled.addressable, hsettled.maxLimit_le⟩
  refine ⟨hvalid, hoffset, hmax, h.bound_eq, rfl, hadd, hbound, hroom, fun hnone => ?_,
    fun payload hpayload => ?_⟩
  · cases hnone
  · cases hpayload
    simp only [Builder.extended, settledAt, stored]
    rw [hoffset, hadd]
    refine ⟨rfl, ?_⟩
    -- first the prefix, which was written last, then the payload
    rw [Buffer.segment_overwrite_before _ (by rw [Bytes.length_ofNatLE]; omega) (by
        rw [Buffer.size_overwrite]; omega),
      Bytes.length_ofNatLE, Bytes.ofNatLE_eq_word, ← hadd, ← Nat.add_assoc,
      Buffer.segment_overwrite_behind _ (Nat.le_add_right _ _) (by omega), h.segment_start, hadd]

end Bounded.Builder

section Sources

variable {c : Cursor} {position length : Nat} {v v' : Visitor} {bytes : Bytes}

/-- Of a visitor only the part of its bytes counts that it is given room for. -/
theorem Cursor.visitIn_congr (hbytes : v.bytes.take length = v'.bytes.take length)
    (hreport : v.report = v'.report) :
    c.visitIn position length v = c.visitIn position length v' := by
  unfold Cursor.visitIn
  rw [hbytes, hreport]

/-- Bytes that are held in memory and have no room are refused, and nothing
    overflows. -/
theorem Cursor.segmentEnd_refuses (hc : c.Valid) (hposition : position ≤ c.maxLimit)
    (hbytes : bytes.length < 2 ^ (63 : Nat)) (h : c.maxLimit < position + bytes.length) :
    (c.segmentEnd position bytes.length).Refuses := by
  have hlt : c.maxLimit < 2 ^ (63 : Nat) := Nat.lt_of_le_of_lt hc.maxLimit_le hc.addressable
  unfold segmentEnd
  rw [Word.add_of_lt (by omega), Checked.ok_bind]
  exact (checkLimit_refuses h).bind _

end Sources

theorem Octets.Builder.Carries.write_refuses {q : Octets.Builder} {o m : Nat}
    {draft : Option Bytes} (h : q.Carries o m draft) {placement : Placement} {bytes : Bytes}
    (hbytes : bytes.length < 2 ^ (63 : Nat))
    (hroom : ¬ o + (placement.onto draft bytes).length ≤ m) :
    (q.write placement bytes).result.Refuses := by
  have hadd := h.position_add placement bytes
  have hmax := h.maxLimit
  have hposition : q.position placement ≤ q.cursor.maxLimit := by
    have hle := h.limit_le
    have hlimit := h.limit
    have hoffset := h.offset
    cases placement with
    | replace => rw [position]; omega
    | append => rw [position]; omega
  rcases Cursor.segmentEnd_refuses h.valid hposition hbytes (by omega) with ⟨cause, hcause⟩
  refine ⟨cause, ?_⟩
  rw [write, Cursor.place_of_error hcause]
  rfl

/-- A payload beyond the bound or the window is refused, and nothing overflows: the
    builder stands in its window, and no window is as large as that. -/
theorem Bounded.Builder.write_refuses {q : Bounded.Builder} {placement : Placement}
    {bytes : Bytes} (hq : q.cursor.Valid) (hposition : q.position placement ≤ q.cursor.maxLimit)
    (hbytes : bytes.length < 2 ^ (63 : Nat))
    (h : ¬ (q.start placement + bytes.length ≤ q.bound ∧
      q.position placement + bytes.length ≤ q.cursor.maxLimit)) :
    (q.write placement bytes).result.Refuses := by
  have hlt : q.cursor.maxLimit < 2 ^ (63 : Nat) := Nat.lt_of_le_of_lt hq.maxLimit_le hq.addressable
  have hstart : q.start placement ≤ q.position placement := by
    rw [position]
    omega
  have hadded : q.checkAdded placement bytes =
      q.checkBound (q.start placement + bytes.length) := by
    rw [checkAdded, Word.add_of_lt (by omega), Checked.ok_bind]
  by_cases hbound : q.start placement + bytes.length ≤ q.bound
  · -- within the bound there is no room
    rcases Cursor.segmentEnd_refuses hq hposition hbytes (by omega) with ⟨cause, hcause⟩
    rw [write_of_error (hadded.trans ((q.checkBound_exactly _).1 hbound)) hcause]
    exact ⟨cause, rfl⟩
  · rw [write, hadded, checkBound, if_pos (by omega)]
    exact ⟨_, rfl⟩

theorem Bounded.Builder.Carries.write_refuses {q : Bounded.Builder} {bound o m : Nat}
    {draft : Option Bytes} (h : q.Carries bound o m draft) {placement : Placement} {bytes : Bytes}
    (hbytes : bytes.length < 2 ^ (63 : Nat))
    (hadmits : ¬ ((placement.onto draft bytes).length ≤ bound ∧
      o + q.width.size + (placement.onto draft bytes).length ≤ m)) :
    (q.write placement bytes).result.Refuses := by
  have hadd := h.start_add placement bytes
  have hmax := h.maxLimit
  have hoffset := h.offset
  have hbound := h.bound_eq
  have hroom := h.room
  have hposition : q.position placement = o + q.width.size + q.start placement := by
    rw [position, hoffset]
  have hstart : q.start placement ≤ (draft.getD []).length := by
    cases placement with
    | replace => exact Nat.zero_le _
    | append => exact Nat.le_of_eq h.length
  exact Bounded.Builder.write_refuses h.valid (by omega) hbytes fun hc =>
    hadmits ⟨by omega, by omega⟩

namespace Builder

/-- The bytes that a step brings: those that its source gives, or those that its
    visitor writes, if it reports as many. -/
def Receives (w : Builder) (placement : Placement) (source : Source) (bytes : Bytes) : Prop :=
  source.Gives (some bytes) ∨
    ∃ v seen, source = .visitor v ∧ w.offered (.write placement source) = some seen ∧
      v.bytes.take seen = bytes ∧ v.report = bytes.length

/-- The runs of a builder of octets, with the draft that each leads to. A step that
    fails leaves the draft alone. -/
inductive Drafted (started : Builder) : Option Bytes → Builder → Prop where
  | start : Drafted started none started
  | taken {draft : Option Bytes} {w : Builder} {placement : Placement} {source : Source}
      {bytes : Bytes} (h : Drafted started draft w) (hsource : w.Receives placement source bytes)
      (hok : (w.write placement source).result = .ok ()) :
      Drafted started (some (placement.onto draft bytes)) (w.write placement source).state
  | failed {draft : Option Bytes} {w : Builder} {placement : Placement} {source : Source}
      {bytes : Bytes} {fault : Fault Refusal} (h : Drafted started draft w)
      (hsource : w.Receives placement source bytes)
      (herror : (w.write placement source).result = .error fault) :
      Drafted started draft (w.write placement source).state

/-- The builder has the draft where its format says. -/
inductive Carries (settings : Settings) (o m : Nat) (draft : Option Bytes) :
    Format → Builder → Prop where
  | octets {q : Octets.Builder} (h : q.Carries o m draft) :
      Carries settings o m draft .octets (.octets q)
  | bounded {q : Bounded.Builder} {width : Width} (hwidth : q.width = width)
      (h : q.Carries (Bounded.effectiveBound width
        (settings.bound.getD (Bounded.defaultBound width))) o m draft) :
      Carries settings o m draft (.bounded width) (.bounded q)

variable {format : Format} {settings : Settings} {b : Buffer} {o m : Nat}
  {draft : Option Bytes} {w : Builder} {placement : Placement} {source : Source} {bytes : Bytes}

theorem write_octets_exactly {q : Octets.Builder} (hq : q.cursor.Valid)
    (hsource : source.Supplies bytes) (placement : Placement) :
    ((Builder.octets q).write placement source).Exactly
      (q.position placement + bytes.length ≤ q.cursor.maxLimit) (.ok ())
      (.octets (q.extended placement bytes)) := by
  rcases hsource with rfl | hgives
  · exact (Octets.Builder.visit_exactly hq placement bytes).mapState Builder.octets
  · rw [write_of_gives rfl hgives]
    exact (Octets.Builder.write_exactly hq placement bytes).mapState Builder.octets

/-- Bytes from any source lead from one draft to the next, exactly if the new one is
    admitted. -/
theorem Carries.write_supplied (h : Carries settings o m draft format w)
    (hsource : source.Supplies bytes) (placement : Placement) :
    ∃ after, (w.write placement source).Exactly
        (format.Admits settings o m (placement.onto draft bytes)) (.ok ()) after ∧
      (format.Admits settings o m (placement.onto draft bytes) →
        Carries settings o m (some (placement.onto draft bytes)) format after) := by
  cases h with
  | @octets q h =>
      refine ⟨.octets (q.extended placement bytes), ?_, fun hadmits => .octets (h.extended hadmits)⟩
      refine (write_octets_exactly h.valid hsource placement).congr ?_
      rw [h.position_add, h.maxLimit]
      exact Iff.rfl
  | @bounded q width hwidth h =>
      subst hwidth
      have hadd := h.start_add placement bytes
      -- a bound is a word, so lengths within it are added without overflow
      have hlt : q.bound < 2 ^ (64 : Nat) := by
        have hdefault := Bounded.defaultBound_lt q.width
        rw [h.bound_eq, Bounded.effectiveBound]
        omega
      have hstart : q.start placement ≤ q.bound := by
        rw [h.bound_eq]
        cases placement with
        | replace => exact Nat.zero_le _
        | append => exact Nat.le_trans (Nat.le_of_eq h.length) h.length_le
      refine ⟨.bounded (q.extended (q.start placement) bytes), ?_, fun hadmits =>
        .bounded rfl (h.extended hadmits.1 hadmits.2)⟩
      refine (write_bounded_exactly h.valid hlt placement hstart hsource).congr ?_
      rw [hadd, h.bound_eq, h.offset, h.maxLimit]
      exact Iff.rfl

/-- A visitor that writes what it reports cannot be told from one that has just
    these bytes, and it was shown no more than what is admitted. -/
theorem Carries.write_received (h : Carries settings o m draft format w)
    (hsource : w.Receives placement source bytes) :
    source.Gives (some bytes) ∨
      w.write placement source = w.write placement (.visitor (.honest bytes)) ∧
        format.Admits settings o m (placement.onto draft bytes) := by
  rcases hsource with hgives | ⟨v, seen, rfl, hseen, hbytes, hreport⟩
  · exact .inl hgives
  · right
    have hlength : bytes.length ≤ seen := by
      rw [← hbytes]
      exact List.length_take_le seen v.bytes
    have hcongr : ∀ (c : Cursor) (position : Nat),
        c.visitIn position seen v = c.visitIn position seen (.honest bytes) := by
      intro c position
      refine Cursor.visitIn_congr ?_ hreport
      rw [Visitor.honest, hbytes, List.take_of_length_le hlength]
    cases h with
    | @octets q h =>
        have hadd := h.position_add placement bytes
        have hmax := h.maxLimit
        rw [offered] at hseen
        cases hroom : q.cursor.room (q.position placement) with
        | error fault => rw [hroom] at hseen; cases hseen
        | ok length =>
            rw [hroom] at hseen
            cases hseen
            have hlimit := Cursor.room_eq_ok hroom
            refine ⟨?_, ?_⟩
            · simp only [Builder.write, Builder.visit, Octets.Builder.visit, Cursor.visit, hroom, hcongr]
            · show o + _ ≤ m
              omega
    | @bounded q width hwidth h =>
        subst hwidth
        have hadd := h.start_add placement bytes
        have hmax := h.maxLimit
        have hoffset := h.offset
        rw [offered] at hseen
        split at hseen
        · next cap length hcap hroom =>
            cases hseen
            -- what it was shown is the smaller of what the window and the bound leave
            have hlimit := Cursor.room_eq_ok hroom
            have hstart := Word.le_of_sub_eq_ok hcap
            have hbound := h.bound_eq
            rw [Bounded.Builder.allowance, Word.sub_of_le hstart] at hcap
            cases hcap
            rw [Bounded.Builder.position] at hlimit
            refine ⟨?_, ?_, ?_⟩
            · simp only [Builder.write, Builder.visit, Bounded.Builder.visit,
                Bounded.Builder.allowance, Word.sub_of_le hstart, Cursor.visitCapped, hroom, hcongr]
            · omega
            · omega
        · cases hseen

/-- One step of a run: it succeeds exactly if the new draft is admitted, the builder
    then has it, and otherwise nothing at all has changed. -/
theorem Carries.write (h : Carries settings o m draft format w)
    (hsource : w.Receives placement source bytes) :
    ((w.write placement source).result = .ok () ↔
        format.Admits settings o m (placement.onto draft bytes)) ∧
      ((w.write placement source).result = .ok () →
        Carries settings o m (some (placement.onto draft bytes)) format
          (w.write placement source).state) ∧
      ∀ fault, (w.write placement source).result = .error fault →
        (w.write placement source).state = w := by
  have hstep : ∀ source' : Source, source'.Supplies bytes →
      ((w.write placement source').result = .ok () ↔
        format.Admits settings o m (placement.onto draft bytes)) ∧
      ((w.write placement source').result = .ok () →
        Carries settings o m (some (placement.onto draft bytes)) format
          (w.write placement source').state) := by
    intro source' hsupplies
    rcases h.write_supplied hsupplies placement with ⟨after, hexactly, hafter⟩
    by_cases hadmits : format.Admits settings o m (placement.onto draft bytes)
    · rw [hexactly.1 hadmits]
      exact ⟨⟨fun _ => hadmits, fun _ => rfl⟩, fun _ => hafter hadmits⟩
    · rcases hexactly.2 hadmits with ⟨fault, hfault⟩
      rw [hfault]
      refine ⟨⟨fun hok => ?_, fun hc => absurd hc hadmits⟩, fun hok => ?_⟩
      · cases hok
      · cases hok
  -- a visitor is compared with an honest one, which cannot fail here
  rcases h.write_received hsource with hgives | ⟨hsame, hadmits⟩
  · rcases hstep source (.inr hgives) with ⟨hiff, hcarries⟩
    exact ⟨hiff, hcarries, fun _ herror =>
      (w.write_allOrNothing placement hgives.1).of_error herror⟩
  · rcases hstep (.visitor (.honest bytes)) (.inl rfl) with ⟨hiff, hcarries⟩
    rw [hsame]
    refine ⟨hiff, hcarries, fun fault herror => ?_⟩
    rw [hiff.mpr hadmits] at herror
    cases herror

/-- A step that does not succeed is refused. -/
theorem Carries.write_refuses (h : Carries settings o m draft format w)
    (hsource : w.Receives placement source bytes) (hbytes : bytes.length < 2 ^ (63 : Nat))
    (hadmits : ¬ format.Admits settings o m (placement.onto draft bytes)) :
    (w.write placement source).result.Refuses := by
  rcases h.write_received hsource with hgives | ⟨_, hc⟩
  · cases h with
    | @octets q h =>
        rcases h.write_refuses hbytes hadmits with ⟨cause, hcause⟩
        rw [write_of_gives rfl hgives]
        exact ⟨cause, hcause⟩
    | @bounded q width hwidth h =>
        subst hwidth
        rcases h.write_refuses hbytes hadmits with ⟨cause, hcause⟩
        rw [write_of_gives rfl hgives]
        exact ⟨cause, hcause⟩
  · exact absurd hc hadmits

/-- A builder that was just started has no draft. -/
theorem carries_of_startsAs (hb : b.Addressable) (hformat : format.isOctets)
    (h : StartsAs format settings b o m w) : Carries settings o m none format w := by
  rcases h with ⟨started, hstart, rfl⟩
  have hopens := (fresh_of_start started hstart).opens
  have hwrap := Cursor.wrap_of_le hopens.offset_le hopens.maxLimit_le
  cases format with
  | octets =>
      rcases Checked.map_eq_ok.mp hstart with ⟨q, hq, rfl⟩
      rw [Octets.Builder.wrap, hwrap, Checked.ok_bind] at hq
      cases hq
      exact .octets ⟨hopens.valid hb, rfl, rfl, rfl, hopens.offset_le, Buffer.segment_self _ _⟩
  | bounded width =>
      rcases Checked.map_eq_ok.mp hstart with ⟨q, hq, rfl⟩
      rw [Bounded.Builder.wrap, hwrap, Checked.ok_bind] at hq
      rcases Checked.bind_eq_ok.mp hq with ⟨payload, hpayload, hq⟩
      rcases Checked.bind_eq_ok.mp hq with ⟨_, hlimit, hq⟩
      have hroom := Cursor.checkLimit_eq_ok hlimit
      have hsum := Word.add_eq_ok hpayload
      cases hq
      have hcarries : ∀ bound, Bounded.Builder.Carries bound o m none
          ⟨width, bound, 0, ⟨b, o, m, o⟩, false⟩ := by
        intro bound
        refine ⟨hopens.valid hb, rfl, rfl, rfl, rfl, rfl, Nat.zero_le _, ?_, fun _ => rfl,
          fun payload hnone => ?_⟩
        · simp only [Option.getD_none, List.length_nil]
          omega
        · cases hnone
      -- without a setting the bound is the largest that the prefix describes
      rw [configure]
      cases hbound : settings.bound with
      | none =>
          refine .bounded rfl ?_
          rw [hbound, Option.getD_none, Bounded.effectiveBound, Nat.min_self]
          exact hcarries _
      | some bound =>
          refine .bounded rfl ?_
          rw [hbound, Option.getD_some]
          exact hcarries _
  | _ => exact absurd hformat Bool.false_ne_true

theorem Drafted.carries {started : Builder} (hb : b.Addressable) (hformat : format.isOctets)
    (hstart : StartsAs format settings b o m started) (h : Drafted started draft w) :
    Carries settings o m draft format w := by
  induction h with
  | start => exact carries_of_startsAs hb hformat hstart
  | taken _ hsource hok ih => exact (ih.write hsource).2.1 hok
  | failed _ hsource herror ih =>
      rw [(ih.write hsource).2.2 _ herror]
      exact ih

/-- The builder is built into a reader with the payload. -/
def Yields (w : Builder) (payload : Bytes) : Prop :=
  w.BuildsInto w.format fun r => r.payload = .ok (some payload)

/-- Readers of a format without elements tell the payload that the parse finds. -/
theorem wrap_payload_iff (settings : Settings) (hb : b.Addressable) (hformat : format.isFlat)
    (ho : o ≤ m) (hm : m ≤ b.size) (payload : Option Bytes) :
    (∃ r, format.wrap b settings o m = .ok r ∧ r.format = format ∧ r.payload = .ok payload) ↔
      ∃ c, format.parse settings (b.segment o m) = some c ∧ c.payload = payload := by
  constructor
  · rintro ⟨r, hr, hkind, hpayload⟩
    rcases Format.wrap_eq_ok hb hr with ⟨c, hparse, _, _, _, _, _, _, hcontent⟩
    rw [Reader.content, hkind, Format.contentOf_flat hformat] at hcontent
    rw [Reader.payload_of_shell hcontent] at hpayload
    exact ⟨c, hparse, Except.ok.inj hpayload⟩
  · rintro ⟨c, hparse, rfl⟩
    rcases Format.reader_of_parse hb hformat ho hm hparse with ⟨r, hr, hkind, _, hpayload⟩
    exact ⟨r, hr, hkind, hpayload⟩

/-- Bounded octets are read under the largest bound, and the reader then takes the
    bound of the builder. -/
theorem build_bounded {q : Bounded.Builder} (hset : q.isSet) :
    (Builder.bounded q).build.result =
      (fun r => Reader.bounded { r with bound := q.bound }) <$> Bounded.Reader.wrap q.width
        (Bounded.defaultBound q.width) q.cursor.buffer q.cursor.offset q.cursor.limit := by
  simp only [build, Bounded.Builder.build, if_pos hset]
  cases Bounded.Reader.wrap q.width (Bounded.defaultBound q.width) q.cursor.buffer
    q.cursor.offset q.cursor.limit <;> rfl

theorem wrap_bounded (width : Width) (b : Buffer) (o m : Nat) :
    (Format.bounded width).wrap b {} o m =
      Reader.bounded <$> Bounded.Reader.wrap width (Bounded.defaultBound width) b o m := by
  rw [Format.wrap, Option.getD_none, Bounded.effectiveBound, Nat.min_self]

/-- The bound of a reader is no part of what it tells. -/
theorem build_bounded_iff {q : Bounded.Builder} (hset : q.isSet) (payload : Option Bytes) :
    (∃ r, (Builder.bounded q).build.result = .ok r ∧ r.format = .bounded q.width ∧
        r.payload = .ok payload) ↔
      ∃ r, (Format.bounded q.width).wrap q.cursor.buffer {} q.cursor.offset q.cursor.limit = .ok r ∧
        r.format = .bounded q.width ∧ r.payload = .ok payload := by
  rw [build_bounded hset, wrap_bounded]
  cases Bounded.Reader.wrap q.width (Bounded.defaultBound q.width) q.cursor.buffer
    q.cursor.offset q.cursor.limit with
  | error fault =>
      constructor
      · rintro ⟨r, hr, _⟩
        cases hr
      · rintro ⟨r, hr, _⟩
        cases hr
  | ok reader =>
      constructor
      · rintro ⟨r, hr, hkind, hpayload⟩
        cases hr
        exact ⟨_, rfl, hkind, hpayload⟩
      · rintro ⟨r, hr, hkind, hpayload⟩
        cases hr
        exact ⟨_, rfl, hkind, hpayload⟩

/-- What is built from octets is what the parse finds between offset and limit. A
    builder with a bound must have taken a step before. -/
theorem yields_iff (hformat : w.format.isOctets) (hw : w.cursor.Valid)
    (hle : w.cursor.offset ≤ w.limit) (hlimit : w.limit ≤ w.cursor.maxLimit) (payload : Bytes) :
    w.Yields payload ↔ (w.format = .octets ∨ w.isSet) ∧
      ∃ c, w.format.parse {} (w.cursor.buffer.segment w.cursor.offset w.limit) = some c ∧
        c.payload = some payload := by
  have hsize := Nat.le_trans hlimit hw.maxLimit_le
  have hflat : w.format.isFlat := by
    cases w with
    | octets q => rfl
    | bounded q => rfl
    | _ => exact absurd hformat Bool.false_ne_true
  have hiff := wrap_payload_iff {} hw.addressable hflat hle hsize (some payload)
  cases w with
  | octets q => exact hiff.trans ⟨fun hc => ⟨.inl rfl, hc⟩, fun hc => hc.2⟩
  | bounded q =>
      by_cases hset : q.isSet
      · exact ((build_bounded_iff hset _).trans hiff).trans
          ⟨fun hc => ⟨.inr hset, hc⟩, fun hc => hc.2⟩
      · constructor
        · rintro ⟨r, hr, _⟩
          simp only [build, Bounded.Builder.build, if_neg hset] at hr
          cases hr
        · rintro ⟨hc | hc, _⟩
          · cases hc
          · exact absurd hc hset
  | _ => exact absurd hformat Bool.false_ne_true

theorem Carries.format_eq (h : Carries settings o m draft format w) : w.format = format := by
  cases h with
  | octets h => rfl
  | bounded hwidth h => exact congrArg Format.bounded hwidth

theorem Carries.offset (h : Carries settings o m draft format w) : w.cursor.offset = o := by
  cases h with
  | octets h => exact h.offset
  | bounded hwidth h => exact h.offset

/-- The payload stands behind its prefix, up to the limit. -/
theorem Carries.held (h : Carries settings o m draft format w)
    (hdraft : format = .octets ∨ draft ≠ none) :
    w.limit = o + (format.layout (draft.getD [])).length ∧
      w.cursor.buffer.segment o w.limit = format.layout (draft.getD []) := by
  cases h with
  | octets h => exact ⟨h.limit, h.held⟩
  | @bounded q width hwidth h =>
      subst hwidth
      cases draft with
      | none =>
          rcases hdraft with hformat | hnone
          · cases hformat
          · exact absurd rfl hnone
      | some payload =>
          rcases h.held payload rfl with ⟨hlimit, hheld⟩
          refine ⟨?_, hheld⟩
          rw [Format.layout, List.length_append, Bytes.length_word, ← Nat.add_assoc]
          exact hlimit

theorem Carries.limit_of_none (h : Carries settings o m none format w) : w.limit = o := by
  cases h with
  | octets h => exact h.limit
  | bounded hwidth h => exact h.unset rfl

/-- A payload of a length that the prefix counts is parsed from its layout. -/
theorem parse_layout {width : Width} {payload : Bytes}
    (hlength : payload.length ≤ Bounded.defaultBound width) :
    ∃ c, (Format.bounded width).parse {} ((Format.bounded width).layout payload) = some c ∧
      c.payload = some payload := by
  have hbound : Bounded.effectiveBound width (Bounded.defaultBound width) =
      Bounded.defaultBound width := Nat.min_self _
  rw [Format.parse, Format.layout, Option.getD_none, hbound]
  by_cases hwidth : width = .zero
  · subst hwidth
    exact ⟨_, rfl, congrArg some (List.take_of_length_le hlength)⟩
  · rw [Bounded.defaultBound_eq hwidth] at hlength ⊢
    exact ⟨_, Format.parseBounded_encode hwidth hlength hlength, rfl⟩

theorem Carries.valid (h : Carries settings o m draft format w) : w.cursor.Valid := by
  cases h with
  | octets h => exact h.valid
  | bounded hwidth h => exact h.valid

theorem Carries.limit_le (h : Carries settings o m draft format w) :
    w.limit ≤ w.cursor.maxLimit := by
  cases h with
  | octets h => exact Nat.le_trans h.limit_le (Nat.le_of_eq h.maxLimit.symm)
  | @bounded q width hwidth h =>
      have hroom := h.room
      have hmax : (Builder.bounded q).cursor.maxLimit = m := h.maxLimit
      cases draft with
      | none =>
          have hlimit : (Builder.bounded q).limit = o := h.unset rfl
          omega
      | some payload =>
          have hlimit : (Builder.bounded q).limit = _ := (h.held payload rfl).1
          rw [Option.getD_some] at hroom
          omega

/-- The draft is what is built. -/
theorem Carries.yields (h : Carries settings o m draft format w)
    (hdraft : format = .octets ∨ draft ≠ none) : w.Yields (draft.getD []) := by
  rcases h.held hdraft with ⟨hlimit, hheld⟩
  have hvalid := h.valid
  have hoffset := h.offset
  have hle := h.limit_le
  cases h with
  | @octets q h =>
      refine (yields_iff rfl hvalid (by omega) hle _).mpr ⟨.inl rfl, _, rfl, ?_⟩
      rw [hoffset, hheld]
      rfl
  | @bounded q width hwidth h =>
      subst hwidth
      have hset : q.isSet = true := by
        rw [h.isSet]
        cases draft with
        | none => exact (hdraft.elim (fun hc => by cases hc) (absurd rfl))
        | some payload => rfl
      have hlength := Nat.le_trans h.length_le (Nat.min_le_right _ _)
      refine (yields_iff rfl hvalid (by omega) hle _).mpr ⟨.inr hset, ?_⟩
      rw [hoffset, hheld]
      exact parse_layout hlength

/-- A builder with a bound that has no draft is not built. -/
theorem Carries.build_unset (h : Carries settings o m none format w) (hformat : format ≠ .octets) :
    w.build.result = .error (.refused .valueNotSet) := by
  cases h with
  | octets h => exact absurd rfl hformat
  | @bounded q width hwidth h =>
      have hset : q.isSet = false := h.isSet
      simp only [build, Bounded.Builder.build, hset]
      rfl

/-- Builders of octets go together with a draft. The draft stands behind its length
    between the offset and the limit. The next step succeeds exactly if the payload
    that it makes of the draft is within the bound and has room, and is refused
    otherwise with everything as it was. And what is built has the draft for a
    payload; only a builder with a bound and without any success is not built. -/
theorem octets_refine {started : Builder} (hformat : format.isOctets) (hb : b.Addressable)
    (hstart : StartsAs format settings b o m started) (h : Drafted started draft w) :
    w.cursor.offset = o ∧ (draft = none → w.limit = o) ∧
      (∀ payload, draft = some payload →
        w.limit = o + (format.layout payload).length ∧
          w.cursor.buffer.segment o w.limit = format.layout payload) ∧
      (∀ placement source bytes, w.Receives placement source bytes →
        ((w.write placement source).result = .ok () ↔
          format.Admits settings o m (placement.onto draft bytes)) ∧
        (¬ format.Admits settings o m (placement.onto draft bytes) → bytes.length < 2 ^ (63 : Nat) →
          (w.write placement source).result.Refuses) ∧
        ∀ fault, (w.write placement source).result = .error fault →
          (w.write placement source).state = w) ∧
      (w.build.result = .error (.refused .valueNotSet) ↔ format ≠ .octets ∧ draft = none) ∧
      (format = .octets ∨ draft ≠ none →
        w.BuildsInto format fun r => r.payload = .ok (some (draft.getD []))) := by
  have hcarries := h.carries hb hformat hstart
  have hyields : format = .octets ∨ draft ≠ none →
      w.BuildsInto format fun r => r.payload = .ok (some (draft.getD [])) := by
    intro hdraft
    have hbuilt := hcarries.yields hdraft
    rw [Yields, hcarries.format_eq] at hbuilt
    exact hbuilt
  refine ⟨hcarries.offset, ?_, ?_, ?_, ?_, hyields⟩
  · rintro rfl
    exact hcarries.limit_of_none
  · rintro payload rfl
    exact hcarries.held (.inr (Option.some_ne_none payload))
  · intro placement source bytes hsource
    rcases hcarries.write hsource with ⟨hiff, _, hsame⟩
    exact ⟨hiff, fun hadmits hbytes => hcarries.write_refuses hsource hbytes hadmits, hsame⟩
  · constructor
    · intro hunset
      by_contra hdraft
      rcases hyields (by
        by_cases hkind : format = .octets
        · exact .inl hkind
        · exact .inr fun hnone => hdraft ⟨hkind, hnone⟩) with ⟨r, hr, _⟩
      rw [hunset] at hr
      cases hr
    · rintro ⟨hkind, rfl⟩
      exact hcarries.build_unset hkind

/-- Octets of at most four bytes that a visitor has set to three. -/
def threeOctets : Builder :=
  ((Builder.bounded ⟨.eight, 4, 0, ⟨.ofBytes (List.replicate 9 0), 1, 8, 1⟩, false⟩).write .replace
    (.visitor ⟨[1, 2, 3], 3⟩)).state

-- Two more bytes are one too many, and one more is not.
theorem octets_refine_bounded :
    ((threeOctets.write .append (.bytes [4, 5])).state.write .append (.bytes [4])).state.BuildsInto
        (.bounded .eight) (fun r => r.payload = .ok (some [1, 2, 3, 4])) ∧
      (threeOctets.write .append (.bytes [4, 5])).result.Refuses := by
  have hb : (Buffer.ofBytes (List.replicate 9 0)).Addressable := by
    unfold Buffer.Addressable
    decide
  have hstart : StartsAs (.bounded .eight) { bound := some 4 } (.ofBytes (List.replicate 9 0)) 1 8
      (.bounded ⟨.eight, 4, 0, ⟨.ofBytes (List.replicate 9 0), 1, 8, 1⟩, false⟩) :=
    ⟨_, rfl, rfl⟩
  have hvisit : (Builder.bounded ⟨.eight, 4, 0, ⟨.ofBytes (List.replicate 9 0), 1, 8, 1⟩,
      false⟩).Receives .replace (.visitor ⟨[1, 2, 3], 3⟩) [1, 2, 3] :=
    .inr ⟨_, 4, rfl, rfl, rfl, rfl⟩
  have hbytes : ∀ (w : Builder) (bytes : Bytes), w.Receives .append (.bytes bytes) bytes := by
    intro w bytes
    refine .inl ⟨fun v hv => ?_, rfl⟩
    cases hv
  have hthree : Drafted _ (some [1, 2, 3]) threeOctets := .taken .start hvisit rfl
  have hfails := hthree.failed (hbytes _ [4, 5]) rfl
  have htaken := hfails.taken (hbytes _ [4]) rfl
  refine ⟨(octets_refine rfl hb hstart htaken).2.2.2.2.2 (.inr (Option.some_ne_none _)), ?_⟩
  refine ((octets_refine rfl hb hstart hthree).2.2.2.1 .append _ _ (hbytes _ [4, 5])).2.1 ?_ ?_
  · rintro ⟨hlength, _⟩
    exact absurd hlength (by decide)
  · decide

end Builder

end Wireform
