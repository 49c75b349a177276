import Wireform.Proofs.Reading
import Wireform.Proofs.Scripts

/-!
# Numbers and Payloads Are Written

A script that spells a value leaves the reference encoding of the value in the
buffer, or fails. This module says so for the formats without parts.

Numbers and strings are written by one step that checks its value, its room and
its limit. Octets are the first with a history: they come in pieces, and the
prefix is brought up to date after each. The state between two pieces is
explicit (`Bounded.Builder.holding`), and appending a piece leads from one such
state to the next. A piece that does not fit means that the payload as a whole
does not, because lengths only grow, so the conditions of the pieces collapse
into one condition on the payload.

## Main definitions

* `Format.Written`: A script writes a value, exactly when the value fits.
* `Bounded.Builder.holding`: The state of a builder between two pieces.

## Theorems

* `written_fixed`, `written_varint`: Numbers.
* `written_string`, `written_varstring`: Strings, null among them.
* `written_varstring_unset`: A string that is null because nothing was written.
* `Builder.run_append_exactly`: Taking pieces one after the other.
* `written_bounded`: Octets.
-/

namespace Wireform

/-- In every window the script writes the encoding of the value and is built
    into the reader over it, if the value fits and there is room for it, and
    fails otherwise. -/
def Format.Written (format : Format) (v : format.Value) (steps : List Step) : Prop :=
  ∀ (b : Buffer) (o m : Nat), b.Addressable → o ≤ m → m ≤ b.size →
    (format.compose steps b o m).Exactly
      (format.Fits v ∧ o + (format.encode v).length ≤ m)
      (format.wrap (b.overwrite o (format.encode v)) {} o (o + (format.encode v).length))
      (b.overwrite o (format.encode v))

theorem Cursor.wrap_of_le {b : Buffer} {o m : Nat} (ho : o ≤ m) (hm : m ≤ b.size) :
    Cursor.wrap b o m = .ok ⟨b, o, m, o⟩ := by
  rw [Cursor.wrap, checkWindow_of_le ho hm]
  rfl

section Numbers

variable {b : Buffer} {o m : Nat}

theorem FixedInt.Builder.wrap_exactly (hb : b.Addressable) (ho : o ≤ m) (hm : m ≤ b.size)
    (kind : FixedInt) :
    (wrap kind b o m).Exactly (o + kind.width ≤ m) ⟨kind, .native, ⟨b, o, m, o⟩, false⟩ := by
  rw [wrap, Cursor.wrap_of_le ho hm, Checked.ok_bind]
  exact moveBy_exactly (hb.lt_of_le hm) o kind.width _

theorem FixedInt.encode_exactly (kind : FixedInt) (n : Int) :
    (kind.encode n).Exactly (kind.InRange n) (n % kind.modulus).toNat :=
  Checked.exactly_of_ite _ ⟨_, rfl⟩

theorem VarInt.encode_exactly (kind : VarInt) (n : Int) :
    (kind.encode n).Exactly (kind.InRange n) (kind.represent n) :=
  Checked.exactly_of_ite _ ⟨_, rfl⟩

theorem FixedInt.Builder.set_exactly {w : Builder} (hw : w.cursor.Valid) (n : Int) :
    (w.set n).Exactly
      (w.kind.InRange n ∧ w.cursor.offset + w.kind.width ≤ w.cursor.maxLimit) (.ok ())
      { w with
        cursor := w.cursor.withBytes
          (w.order.arrange (Bytes.ofNatLE w.kind.width (n % w.kind.modulus).toNat)),
        isSet := true } := by
  have hassign := Cursor.assign_exactly hw ((w.kind.encode_exactly n).map w.arranged)
  rw [Encoding.length_bytes] at hassign
  exact (hassign.mapState _).onSuccess _

theorem Builder.apply_set_fixed (w : FixedInt.Builder) (n : Int) :
    (Builder.fixed w).apply (.set n) = (w.set n).mapState .fixed := by
  rw [Builder.apply, Builder.set]

theorem Builder.apply_set_varint (w : VarInt.Builder) (n : Int) :
    (Builder.varint w).apply (.set n) = (w.set n).mapState .varint := by
  rw [Builder.apply, Builder.set]

theorem written_fixed (kind : FixedInt) (n : Int) :
    (Format.fixed kind).Written n [.set n] := by
  intro b o m hb ho hm
  have hlen : (Format.encode (.fixed kind) n).length = kind.width := Bytes.length_word _ _
  have hset := FixedInt.Builder.set_exactly
    (w := ⟨kind, .native, ⟨b, o, m, o⟩, false⟩) ⟨hb, hm⟩ n
  simp only [ByteOrder.arrange, Bytes.ofNatLE_eq_word] at hset
  have hstart : ((Format.fixed kind).start b o m).Exactly (o + kind.width ≤ m) _ :=
    (FixedInt.Builder.wrap_exactly hb ho hm kind).map Builder.fixed
  have hrun := Builder.run_exactly_of_family (Builder.apply_set_fixed _ n) hset
  refine (Format.compose_exactly hstart (fun _ => hrun) fun _ _ =>
    Outcome.exactly_of_eq rfl).congr ?_
  rw [hlen]
  exact ⟨fun h => ⟨h.2, h, trivial⟩, fun h => h.2.1⟩

theorem VarInt.Builder.wrap_exactly (hb : b.Addressable) (ho : o ≤ m) (hm : m ≤ b.size)
    (kind : VarInt) :
    (wrap kind b o m).Exactly (o + 1 ≤ m) ⟨kind, ⟨b, o, m, o⟩, false⟩ := by
  rw [wrap, Cursor.wrap_of_le ho hm]
  exact moveBy_exactly (hb.lt_of_le hm) o 1 _

theorem VarInt.Builder.set_exactly {w : Builder} (hw : w.cursor.Valid) (n : Int) :
    (w.set n).Exactly
      (w.kind.InRange n ∧
        w.cursor.offset + Varint.encodedSize (w.kind.represent n) ≤ w.cursor.maxLimit) (.ok ())
      { w with
        cursor := w.cursor.withBytes (Varint.groups (w.kind.represent n)),
        isSet := true } := by
  have hassign := Cursor.assign_exactly hw ((w.kind.encode_exactly n).map Varint.encoding)
  rw [Encoding.length_bytes] at hassign
  exact (hassign.mapState _).onSuccess _

theorem written_varint (kind : VarInt) (n : Int) :
    (Format.varint kind).Written n [.set n] := by
  intro b o m hb ho hm
  have hlen : (Format.encode (.varint kind) n).length =
      Varint.encodedSize (kind.represent n) := by
    rw [Format.encode, ← Varint.groups_eq_septets, Varint.length_groups]
  -- starting asks for one byte, and every varint has one
  have hpos := Varint.encodedSize_pos (kind.represent n)
  have hset := VarInt.Builder.set_exactly (w := ⟨kind, ⟨b, o, m, o⟩, false⟩) ⟨hb, hm⟩ n
  simp only [Varint.groups_eq_septets] at hset
  have hstart : ((Format.varint kind).start b o m).Exactly (o + 1 ≤ m) _ :=
    (VarInt.Builder.wrap_exactly hb ho hm kind).map Builder.varint
  have hrun := Builder.run_exactly_of_family (Builder.apply_set_varint _ n) hset
  refine (Format.compose_exactly hstart (fun _ => hrun) fun _ _ =>
    Outcome.exactly_of_eq rfl).congr ?_
  rw [hlen]
  exact ⟨fun h => ⟨by omega, h, trivial⟩, fun h => h.2.1⟩

end Numbers

section Strings

variable {b : Buffer} {o m : Nat}

/-- A step that has no visitor finds its payload first, and writes it then. -/
theorem Builder.write_eq {w : Builder} (hw : w.takesPayload) (placement : Placement)
    {source : Source} (hsource : ∀ v, source ≠ .visitor v) :
    w.write placement source =
      (Outcome.check w source.payload).andThen fun payload w =>
        w.writePayload placement payload := by
  unfold Builder.write
  split
  · exact absurd rfl (hsource _)
  · rw [if_pos hw]

theorem Builder.write_of_gives {w : Builder} (hw : w.takesPayload) {source : Source}
    {payload : Option Bytes} (hsource : source.Gives payload) (placement : Placement) :
    w.write placement source = w.writePayload placement payload := by
  rw [write_eq hw placement hsource.1, hsource.2]
  rfl

theorem Builder.apply_write_of_gives {w : Builder} (hw : w.takesPayload) {source : Source}
    {payload : Option Bytes} (hsource : source.Gives payload) (placement : Placement) :
    w.apply (.write placement source) = w.writePayload placement payload := by
  rw [Builder.apply, write_of_gives hw hsource]

theorem Strings.Builder.wrap_exactly (hb : b.Addressable) (ho : o ≤ m) (hm : m ≤ b.size)
    (width : Width) :
    (wrap width b o m).Exactly (o + width.size ≤ m) ⟨width, ⟨b, o, m, o⟩, false⟩ := by
  rw [wrap, Cursor.wrap_of_le ho hm, Checked.ok_bind]
  exact moveBy_exactly (hb.lt_of_le hm) o width.size _

/-- The encoding of a string is its prefix and its payload. -/
theorem Strings.Builder.prefixValue_exactly {width : Width} (hwidth : width ≠ .zero)
    (payload : Option Bytes) :
    ∃ raw, (prefixValue width payload).Exactly (Format.Fits (.string width) payload) raw ∧
      Bytes.ofNatLE width.size raw ++ payload.getD [] =
        Format.encode (.string width) payload := by
  cases payload with
  | none =>
      refine ⟨width.maxValue, ?_, ?_⟩
      · rw [prefixValue, if_neg hwidth]
        exact Checked.exactly_ok _
      · rw [Bytes.ofNatLE_eq_word, Option.getD_none, List.append_nil]
        rfl
  | some bytes =>
      refine ⟨bytes.length, ?_, ?_⟩
      · rw [prefixValue]
        refine (Checked.exactly_ite ⟨_, rfl⟩ fun _ => Checked.exactly_ok _).congr ?_
        rw [Format.Fits]
        exact ⟨fun h => ⟨fun hc => by omega, trivial⟩,
          fun h => Nat.lt_of_not_le fun hc => h.1 ⟨hwidth, hc⟩⟩
      · rw [Bytes.ofNatLE_eq_word, Option.getD_some]
        rfl

theorem Strings.Builder.write_exactly {w : Builder} (hw : w.cursor.Valid)
    (hwidth : w.width ≠ .zero) (payload : Option Bytes) :
    (w.write payload).Exactly
      (Format.Fits (.string w.width) payload ∧
        w.cursor.offset + (Format.encode (.string w.width) payload).length ≤ w.cursor.maxLimit)
      (.ok ())
      { w with
        cursor := w.cursor.withBytes (Format.encode (.string w.width) payload),
        isSet := true } := by
  rcases prefixValue_exactly hwidth payload with ⟨raw, hraw, hbytes⟩
  rw [← hbytes]
  exact ((Cursor.assign_exactly hw (hraw.map (prefixed w.width (payload.getD [])))).mapState
    _).onSuccess _

theorem written_string {width : Width} (hwidth : width ≠ .zero) (payload : Option Bytes)
    {source : Source} (hsource : source.Gives payload) (placement : Placement) :
    (Format.string width).Written payload [.write placement source] := by
  intro b o m hb ho hm
  -- room for the whole is room for the prefix, which is asked for first
  have hlen : width.size ≤ (Format.encode (.string width) payload).length := by
    cases payload with
    | none => exact Nat.le_of_eq (Bytes.length_word _ _).symm
    | some bytes =>
        rw [Format.encode, List.length_append, Bytes.length_word]
        exact Nat.le_add_right _ _
  have hstart : ((Format.string width).start b o m).Exactly (o + width.size ≤ m) _ :=
    (Strings.Builder.wrap_exactly hb ho hm width).map Builder.string
  have hwrite := Strings.Builder.write_exactly (w := ⟨width, ⟨b, o, m, o⟩, false⟩) ⟨hb, hm⟩
    hwidth payload
  have hstep := Builder.apply_write_of_gives (w := .string ⟨width, ⟨b, o, m, o⟩, false⟩) rfl hsource
    placement
  have hrun := Builder.run_exactly_of_family hstep hwrite
  exact (Format.compose_exactly hstart (fun _ => hrun) fun _ _ =>
    Outcome.exactly_of_eq rfl).congr ⟨fun h => ⟨by omega, h, trivial⟩, fun h => h.2.1⟩

theorem VarStrings.Builder.prefixValue_exactly (payload : Option Bytes) :
    ∃ raw, (prefixValue payload).Exactly (Format.Fits .varstring payload) raw ∧
      Varint.groups raw ++ payload.getD [] = Format.encode .varstring payload := by
  cases payload with
  | none =>
      refine ⟨zigzag (-1), Checked.exactly_ok _, ?_⟩
      rw [Varint.groups_eq_septets, Option.getD_none, List.append_nil]
      rfl
  | some bytes =>
      refine ⟨zigzag bytes.length, ?_, ?_⟩
      · rw [prefixValue]
        refine (Checked.exactly_ite ⟨_, rfl⟩ fun _ => Checked.exactly_ok _).congr ?_
        rw [Format.Fits, maxLength]
        exact ⟨fun h => ⟨by omega, trivial⟩, fun h => by omega⟩
      · rw [Varint.groups_eq_septets, Option.getD_some]
        rfl

theorem VarStrings.Builder.write_exactly {w : Builder} (hw : w.cursor.Valid)
    (payload : Option Bytes) :
    (w.write payload).Exactly
      (Format.Fits .varstring payload ∧
        w.cursor.offset + (Format.encode .varstring payload).length ≤ w.cursor.maxLimit) (.ok ())
      { w with
        cursor := w.cursor.withBytes (Format.encode .varstring payload),
        isSet := true } := by
  rcases prefixValue_exactly payload with ⟨raw, hraw, hbytes⟩
  rw [← hbytes]
  exact ((Cursor.assign_exactly hw (hraw.map (prefixed (payload.getD [])))).mapState _).onSuccess _

theorem VarStrings.Builder.wrap_exactly (ho : o ≤ m) (hm : m ≤ b.size) :
    (wrap b o m).Exactly True ⟨⟨b, o, m, o⟩, false⟩ := by
  rw [wrap, Cursor.wrap_of_le ho hm]
  exact Checked.exactly_ok _

theorem written_varstring (payload : Option Bytes) {source : Source}
    (hsource : source.Gives payload) (placement : Placement) :
    Format.varstring.Written payload [.write placement source] := by
  intro b o m hb ho hm
  have hstart : (Format.varstring.start b o m).Exactly True _ :=
    (VarStrings.Builder.wrap_exactly ho hm).map Builder.varstring
  have hwrite := VarStrings.Builder.write_exactly (w := ⟨⟨b, o, m, o⟩, false⟩) ⟨hb, hm⟩ payload
  have hstep := Builder.apply_write_of_gives (w := .varstring ⟨⟨b, o, m, o⟩, false⟩) rfl hsource
    placement
  have hrun := Builder.run_exactly_of_family hstep hwrite
  exact (Format.compose_exactly hstart (fun _ => hrun) fun _ _ =>
    Outcome.exactly_of_eq rfl).congr ⟨fun h => ⟨trivial, h, trivial⟩, fun h => h.2.1⟩

/-- Left unset, the string is null, and written only when it is built. -/
theorem written_varstring_unset : Format.varstring.Written none [] := by
  intro b o m hb ho hm
  have hstart : (Format.varstring.start b o m).Exactly True _ :=
    (VarStrings.Builder.wrap_exactly ho hm).map Builder.varstring
  have hwrite := VarStrings.Builder.write_exactly (w := ⟨⟨b, o, m, o⟩, false⟩) ⟨hb, hm⟩ none
  refine (Format.compose_exactly hstart
    (fun _ => Outcome.exactly_of_eq (by rw [Builder.run])) fun _ _ => ?_).congr
      ⟨fun h => ⟨trivial, trivial, h⟩, fun h => h.2.2⟩
  constructor
  · -- building writes the null that was left out
    intro h
    rw [Builder.build, VarStrings.Builder.settle, if_neg Bool.false_ne_true, hwrite.1 h]
    rfl
  · intro h
    rcases hwrite.2 h with ⟨fault, hfault⟩
    refine ⟨fault, ?_⟩
    rw [Builder.build, VarStrings.Builder.settle, if_neg Bool.false_ne_true, hfault]
    rfl

end Strings

section Bounded

namespace Bounded.Builder

variable {b : Buffer} {o m : Nat}

/-- The builder after a payload that ends at `stop` was taken into account. -/
def settledAt (w : Builder) (stop length : Nat) : Builder :=
  { w with
    cursor.buffer := w.cursor.buffer.overwrite w.cursor.offset
      (Bytes.ofNatLE w.width.size length),
    cursor.limit := stop,
    length := length,
    isSet := true }

theorem checkBound_exactly (w : Builder) (length : Nat) :
    (w.checkBound length).Exactly (length ≤ w.bound) () := by
  unfold checkBound
  exact (Checked.exactly_ite ⟨_, rfl⟩ fun _ => Checked.exactly_ok _).congr
    ⟨fun h => ⟨by omega, trivial⟩, fun h => by omega⟩

/-- The length is computed back from the position. -/
theorem lengthTo_exactly (w : Builder) (length : Nat) :
    (w.lengthTo (w.cursor.offset + w.width.size + length)).Exactly (length ≤ w.bound) length := by
  unfold lengthTo
  rw [Word.sub_of_le (Nat.le_add_right _ _), Nat.add_sub_cancel_left, Checked.ok_bind]
  exact (w.checkBound_exactly length).bind_ok _

theorem settle_exactly {w : Builder} (hw : w.cursor.Valid) (length : Nat) :
    (w.settle (w.cursor.offset + w.width.size + length)).Exactly
      (length ≤ w.bound ∧ w.cursor.offset + w.width.size + length ≤ w.cursor.maxLimit) (.ok ())
      (w.settledAt (w.cursor.offset + w.width.size + length) length) := by
  have hplace := Cursor.place_exactly hw w.cursor.offset (Bytes.ofNatLE w.width.size length)
    (w.cursor.offset + w.width.size + length)
  rw [Bytes.length_ofNatLE] at hplace
  unfold settle
  exact ((Outcome.exactly_check w (w.lengthTo_exactly length)).andThen fun _ =>
    (hplace.mapState _).onSuccess _).congr
      ⟨fun h => ⟨h.1, Nat.le_trans (Nat.le_add_right _ _) h.2, h.2⟩, fun h => ⟨h.1, h.2.2⟩⟩

/-- The builder with bytes written behind the payload up to `start`, which are
    not taken into account yet. -/
def stored (w : Builder) (start : Nat) (bytes : Bytes) : Builder :=
  let position := w.cursor.offset + w.width.size + start
  { w with cursor := { w.cursor with buffer := w.cursor.buffer.overwrite position bytes } }

/-- The builder after bytes were written behind the payload up to `start`. -/
def extended (w : Builder) (start : Nat) (bytes : Bytes) : Builder :=
  (w.stored start bytes).settledAt
    (w.cursor.offset + w.width.size + (start + bytes.length)) (start + bytes.length)

theorem write_exactly {w : Builder} (hw : w.cursor.Valid) (hbound : w.bound < 2 ^ (64 : Nat))
    (placement : Placement) (bytes : Bytes) :
    (w.write placement bytes).Exactly
      (w.start placement + bytes.length ≤ w.bound ∧
        w.cursor.offset + w.width.size + (w.start placement + bytes.length) ≤ w.cursor.maxLimit)
      (.ok ()) (w.extended (w.start placement) bytes) := by
  have hsettle := settle_exactly (w := w.stored (w.start placement) bytes)
    (hw.overwrite _ _) (w.start placement + bytes.length)
  have hassoc : w.position placement + bytes.length =
      w.cursor.offset + w.width.size + (w.start placement + bytes.length) := by
    rw [position, Nat.add_assoc]
  have hput := Cursor.put_exactly hw (w.position placement) bytes
  rw [hassoc] at hput
  have hadded : (w.checkAdded placement bytes).Exactly
      (w.start placement + bytes.length < 2 ^ (64 : Nat) ∧
        w.start placement + bytes.length ≤ w.bound)
      () :=
    Checked.Exactly.bind (Word.add_exactly _ _) fun _ => w.checkBound_exactly _
  unfold write
  exact ((Outcome.exactly_check w hadded).andThen fun _ =>
    ((Outcome.exactly_ofAnswer _ hput).mapState _).andThen fun _ => hsettle).congr
      ⟨fun h => ⟨⟨by omega, h.1⟩, h.2, h⟩, fun h => h.2.2⟩

theorem visit_exactly {w : Builder} (hw : w.cursor.Valid) (placement : Placement)
    (hstart : w.start placement ≤ w.bound) (bytes : Bytes) :
    (w.visit placement (.honest bytes)).Exactly
      (w.start placement + bytes.length ≤ w.bound ∧
        w.cursor.offset + w.width.size + (w.start placement + bytes.length) ≤ w.cursor.maxLimit)
      (.ok ()) (w.extended (w.start placement) bytes) := by
  have hassoc : w.position placement + bytes.length =
      w.cursor.offset + w.width.size + (w.start placement + bytes.length) := by
    rw [position, Nat.add_assoc]
  unfold visit
  rw [allowance, Word.sub_of_le hstart]
  simp only []
  by_cases hcap : bytes.length ≤ w.bound - w.start placement
  · have hvisit := Cursor.visitCapped_exactly hw (w.position placement) fun _ => hcap
    rw [hassoc] at hvisit
    have hsettle := settle_exactly (w := w.stored (w.start placement) bytes)
      (hw.overwrite _ _) (w.start placement + bytes.length)
    exact ((hvisit.mapState _).andThen fun _ => hsettle).congr ⟨fun h => ⟨h.2, h⟩, fun h => h.2⟩
  · -- the visitor has seen less than it reports, and the length is refused
    refine ⟨fun h => absurd h.1 (by omega), fun _ => ?_⟩
    rcases hvisit : (w.cursor.visitCapped (w.position placement)
      (w.bound - w.start placement) (.honest bytes)).result with fault | stop
    · refine ⟨fault, ?_⟩
      simp only [Outcome.andThen, Outcome.mapState, hvisit]
    · rcases Cursor.visitCapped_eq_ok hvisit with ⟨hstop, left, hstate⟩
      have hstop' : stop = w.cursor.offset + w.width.size + (w.start placement + bytes.length) :=
        hstop.trans hassoc
      rcases (settle_exactly (w := w.stored (w.start placement) left) (hw.overwrite _ _)
        (w.start placement + bytes.length)).2 (fun h => absurd h.1 (by
          simp only [stored]
          omega)) with ⟨fault, hfault⟩
      refine ⟨fault, ?_⟩
      simp only [Outcome.andThen, Outcome.mapState, hvisit, hstate, hstop']
      exact hfault

theorem wrap_exactly (hb : b.Addressable) (ho : o ≤ m) (hm : m ≤ b.size) {width : Width}
    (hwidth : width ≠ .zero) :
    (wrap width b o m).Exactly (o + width.size ≤ m)
      ⟨width, width.maxValue, 0, ⟨b, o, m, o⟩, false⟩ := by
  rw [wrap, Cursor.wrap_of_le ho hm, Checked.ok_bind, defaultBound_eq hwidth]
  exact moveBy_exactly (hb.lt_of_le hm) o width.size _

/-- The builder that holds a payload, with its prefix. -/
def holding (b : Buffer) (o m : Nat) (width : Width) (payload : Bytes) : Builder :=
  ⟨width, width.maxValue, payload.length,
    ⟨b.overwrite o (Format.encode (.bounded width) payload), o, m,
      o + width.size + payload.length⟩, true⟩

theorem extended_started (width : Width) (bytes : Bytes) :
    extended ⟨width, width.maxValue, 0, ⟨b, o, m, o⟩, false⟩ 0 bytes =
      holding b o m width bytes := by
  have hfront := b.overwrite_front o (Bytes.word width.size bytes.length) bytes
  rw [Bytes.length_word] at hfront
  simp only [extended, settledAt, stored, holding, Format.encode, Nat.add_zero, Nat.zero_add,
    Bytes.ofNatLE_eq_word, hfront]

theorem extended_holding (width : Width) (payload bytes : Bytes) :
    (holding b o m width payload).extended payload.length bytes =
      holding b o m width (payload ++ bytes) := by
  -- the new bytes continue the old ones, and the prefix is put over the old one
  have happend := b.overwrite_append o (Format.encode (.bounded width) payload) bytes
  have hpatch := b.overwrite_patch o (Bytes.word width.size payload.length)
    (Bytes.word width.size (payload ++ bytes).length) (payload ++ bytes)
    ((Bytes.length_word _ _).trans (Bytes.length_word _ _).symm)
  rw [Format.encode, List.length_append, Bytes.length_word, ← Nat.add_assoc] at happend
  simp only [extended, settledAt, stored, holding, Format.encode, Bytes.ofNatLE_eq_word, happend,
    ← List.length_append, List.append_assoc, hpatch]

/-- The builder reads what it holds under the largest bound and keeps its own,
    which is the same. -/
theorem build_holding (b : Buffer) (o m : Nat) {width : Width} (hwidth : width ≠ .zero)
    (payload : Bytes) :
    (Builder.bounded (.holding b o m width payload)).build =
      ⟨(Format.bounded width).wrap (b.overwrite o (Format.encode (.bounded width) payload)) {} o
        (o + width.size + payload.length),
      b.overwrite o (Format.encode (.bounded width) payload)⟩ := by
  simp only [Wireform.Builder.build, holding, build, if_true, Format.wrap, Option.getD_none,
    defaultBound_eq hwidth, effectiveBound_maxValue hwidth]
  refine congrArg (Outcome.mk · _) ?_
  -- binding and keeping the bound apart from binding with the bound
  unfold Reader.wrap
  rcases Window.wrap _ o (o + width.size + payload.length) with fault | window
  · rfl
  · simp only [Checked.ok_bind]
    rcases Reader.measure width width.maxValue window with fault | length <;> rfl

end Bounded.Builder

namespace Builder

variable {b : Buffer} {o m : Nat}

/-- Bytes from any source extend bounded octets, exactly where bound and room
    allow it. -/
theorem write_bounded_exactly {w : Bounded.Builder} (hw : w.cursor.Valid)
    (hbound : w.bound < 2 ^ (64 : Nat)) (placement : Placement)
    (hstart : w.start placement ≤ w.bound)
    {source : Source} {bytes : Bytes} (hsource : source.Supplies bytes) :
    ((Builder.bounded w).write placement source).Exactly
      (w.start placement + bytes.length ≤ w.bound ∧
        w.cursor.offset + w.width.size + (w.start placement + bytes.length) ≤ w.cursor.maxLimit)
      (.ok ()) (.bounded (w.extended (w.start placement) bytes)) := by
  rcases hsource with rfl | hgives
  · exact (Bounded.Builder.visit_exactly hw placement hstart bytes).mapState Builder.bounded
  · rw [write_of_gives rfl hgives]
    exact (Bounded.Builder.write_exactly hw hbound placement bytes).mapState Builder.bounded

/-- Appending pieces one after the other is appending all of them. -/
theorem run_append_exactly (hb : b.Addressable) (hm : m ≤ b.size) (width : Width)
    {pieces : List Bytes} {steps : List Step}
    (h : List.Forall₂ (fun piece step => ∃ source : Source, source.Supplies piece ∧
      step = .write .append source) pieces steps)
    (payload : Bytes) (hfits : payload.length ≤ width.maxValue)
    (hroom : o + width.size + payload.length ≤ m) :
    ((Builder.bounded (.holding b o m width payload)).run steps).Exactly
      ((payload ++ pieces.flatten).length ≤ width.maxValue ∧
        o + width.size + (payload ++ pieces.flatten).length ≤ m)
      (.ok ()) (.bounded (.holding b o m width (payload ++ pieces.flatten))) := by
  induction h generalizing payload with
  | nil =>
      rw [List.flatten_nil, List.append_nil]
      exact (Outcome.exactly_of_eq (by rw [Builder.run])).congr
        ⟨fun _ => trivial, fun _ => ⟨hfits, hroom⟩⟩
  | @cons piece step pieces steps hstep _ ih =>
      rcases hstep with ⟨source, hsource, rfl⟩
      have hvalid : (Bounded.Builder.holding b o m width payload).cursor.Valid :=
        Cursor.Valid.overwrite (c := ⟨b, o, m, _⟩) ⟨hb, hm⟩ o _
      have hmax : (Bounded.Builder.holding b o m width payload).bound < 2 ^ (64 : Nat) :=
        Nat.lt_trans width.maxValue_lt (by decide)
      have hwrite := write_bounded_exactly hvalid hmax .append hfits hsource
      have hstart : (Bounded.Builder.holding b o m width payload).start .append =
          payload.length := rfl
      rw [hstart, Bounded.Builder.extended_holding] at hwrite
      rw [Builder.run, Builder.apply]
      rw [List.flatten_cons, ← List.append_assoc]
      refine (hwrite.andThen fun hpiece => ih (payload ++ piece) ?_ ?_).congr ?_
      · rw [List.length_append]
        exact hpiece.1
      · rw [List.length_append]
        exact hpiece.2
      · -- what fits at the end fits on the way
        refine ⟨fun h => ⟨?_, h⟩, fun h => h.2⟩
        simp only [List.length_append] at h
        simp only [Bounded.Builder.holding]
        omega

end Builder

/-- Octets that come in pieces from any sources are written as one payload. -/
theorem written_bounded {width : Width} (hwidth : width ≠ .zero) {bytes : Bytes}
    {steps : List Step} (h : Format.SpellsOctets bytes steps) :
    (Format.bounded width).Written bytes steps := by
  intro b o m hb ho hm
  rcases h with ⟨placement, source, first, pieces, rest, rfl, hsource, rfl, hrest⟩
  have hlen : (Format.encode (.bounded width) (first ++ pieces.flatten)).length =
      width.size + (first ++ pieces.flatten).length := by
    rw [Format.encode, List.length_append, Bytes.length_word]
  have hstart : ((Format.bounded width).start b o m).Exactly (o + width.size ≤ m) _ :=
    (Bounded.Builder.wrap_exactly hb ho hm hwidth).map Builder.bounded
  have hmax : width.maxValue < 2 ^ (64 : Nat) := Nat.lt_trans width.maxValue_lt (by decide)
  -- the first piece starts the payload, wherever it is said to go
  have hzero : Bounded.Builder.start ⟨width, width.maxValue, 0, ⟨b, o, m, o⟩, false⟩ placement =
      0 := by
    cases placement <;> rfl
  have hfirst := Builder.write_bounded_exactly
    (w := ⟨width, width.maxValue, 0, ⟨b, o, m, o⟩, false⟩) ⟨hb, hm⟩ hmax placement
    (by rw [hzero]; exact Nat.zero_le _) hsource
  rw [hzero, Bounded.Builder.extended_started] at hfirst
  have hrun : (Builder.run (.bounded ⟨width, width.maxValue, 0, ⟨b, o, m, o⟩, false⟩)
      (.write placement source :: rest)).Exactly
      ((first ++ pieces.flatten).length ≤ width.maxValue ∧
        o + width.size + (first ++ pieces.flatten).length ≤ m)
      (.ok ()) (.bounded (.holding b o m width (first ++ pieces.flatten))) := by
    rw [Builder.run, Builder.apply]
    refine (hfirst.andThen fun h => Builder.run_append_exactly hb hm width hrest first
      (by simpa only [Nat.zero_add] using h.1) (by simpa only [Nat.zero_add] using h.2)).congr ?_
    refine ⟨fun h => ⟨?_, h⟩, fun h => h.2⟩
    simp only [List.length_append] at h
    simp only []
    omega
  have hbuild := Bounded.Builder.build_holding b o m hwidth (first ++ pieces.flatten)
  rw [hlen, ← Nat.add_assoc]
  refine (Format.compose_exactly hstart (fun _ => hrun) fun _ _ =>
    Outcome.exactly_of_eq hbuild).congr ?_
  exact ⟨fun h => ⟨by omega, h, trivial⟩, fun h => h.2.1⟩

end Bounded

end Wireform
