import Wireform.Proofs.Minimality
import Wireform.Proofs.Writing

/-!
# Numbers That Were Read Can Be Written

What a reader of an integer accepts, a builder of the same type can write again,
with one exception.

The other direction, that a written number is read, starts from a value that the
builder has checked. Here nothing was checked: the bytes are any that a reader
accepts, and the number in them has to pass the test of the builder, which is a
test of its range. For types of fixed width every word stands for a value of the
range, in either byte order. For varints the scan bounds the number behind the
value, and for three of the four types that bound is the range, so that padded
encodings and those of the extreme values are no exception. What is written is
never longer, since the shortest encoding is written.

The nullable type is the exception. It is read from any number of 32 bits and
wraps around, but only -1 and numbers of 28 bits are written, so that an encoding
of a number above `2 ^ 28` is accepted and its value is refused
(`Format.Unwritable`).

## Main definitions

* `Format.isInteger`: The formats of single integers.
* `Format.Unwritable`: The encodings that are read and cannot be written.

## Theorems

* `Format.integer_of_wrap`, `Format.wrap_of_parse`: A bound reader tells what the
  parse finds.
* `Format.parseFixed_word`, `Format.parseVarint_groups`: What is written for a
  number of the range is parsed as that number.
* `compose_set_fixed`, `compose_set_varint`: A number of the range is written.
* `compose_set_varint_refused`: A number outside of it is refused.
* `Format.write_back`: Every accepted number can be written back, but for those
  of the nullable type above its range.
-/

namespace Wireform

/-- The formats of single integers. -/
def Format.isInteger : Format → Bool
  | .fixed _ | .varint _ => true
  | _ => false

/-- An encoding of the nullable type whose number is above the greatest that is
    written. -/
def Format.Unwritable (format : Format) (bytes : Bytes) : Prop :=
  format = .varint .varuint32n ∧ 2 ^ (28 : Nat) < bytes.groupSum

section Reading

variable {b : Buffer} {format : Format} {settings : Settings} {o m : Nat}

/-- What a reader tells of itself it tells by its accessors. -/
theorem Reader.of_shell {r : Reader} {c : Content} (h : r.shell = .ok c) :
    r.bytes = .ok c.bytes ∧ r.number = .ok c.number := by
  rcases Checked.bind_eq_ok.mp h with ⟨bytes, hbytes, h⟩
  rcases Checked.bind_eq_ok.mp h with ⟨n, hn, h⟩
  rcases Checked.bind_eq_ok.mp h with ⟨payload, _, h⟩
  rcases Checked.bind_eq_ok.mp h with ⟨fields, _, h⟩
  cases h
  exact ⟨hbytes, hn⟩

theorem Format.contentOf_integer (hformat : format.isInteger) (r : Reader) :
    format.contentOf r = r.shell := by
  cases format with
  | fixed kind => rfl
  | varint kind => rfl
  | _ => exact absurd hformat Bool.false_ne_true

/-- The reader of an integer that has accepted a window tells the bytes and the
    number that the parse finds there. -/
theorem Format.integer_of_wrap (hb : b.Addressable) (hformat : format.isInteger) {r : Reader}
    (h : format.wrap b settings o m = .ok r) :
    ∃ c, format.parse settings (b.segment o m) = some c ∧ r.bytes = .ok c.bytes ∧
      r.number = .ok c.number ∧ r.size = c.size := by
  rcases wrap_eq_ok hb h with ⟨c, hparse, _, _, hwindow, hkind, hlimit, _, hcontent⟩
  rw [Reader.content, hkind, contentOf_integer hformat] at hcontent
  rcases Reader.of_shell hcontent with ⟨hbytes, hnumber⟩
  have hoffset : r.offset = o := congrArg Window.offset hwindow
  exact ⟨c, hparse, hbytes, hnumber, by rw [Reader.size]; omega⟩

/-- A window in which the parse finds an integer is accepted. -/
theorem Format.wrap_of_parse (hb : b.Addressable) (hformat : format.isInteger) (ho : o ≤ m)
    (hm : m ≤ b.size) {c : Content} (h : format.parse settings (b.segment o m) = some c) :
    ∃ r, format.wrap b settings o m = .ok r ∧ r.number = .ok c.number ∧ r.size = c.size := by
  have hfollows := format.wrap_follows hb settings o m ho hm
  rw [h] at hfollows
  rcases hfollows with ⟨r, hr, _⟩
  rcases integer_of_wrap hb hformat hr with ⟨found, hfound, _, hnumber, hsize⟩
  rw [h, Option.some.injEq] at hfound
  subst hfound
  exact ⟨r, hr, hnumber, hsize⟩

theorem Format.parseFixed_number {kind : FixedInt} {order : ByteOrder} {input : Bytes}
    {c : Content} (h : parseFixed kind order input = some c) :
    ∃ raw, c.number = some (kind.decode raw) := by
  rcases Option.bind_eq_some_iff.mp h with ⟨bytes, _, h⟩
  cases h
  exact ⟨_, rfl⟩

theorem VarInt.two_pow_bits_le (kind : VarInt) : 2 ^ kind.bits ≤ Word.bound := by
  cases kind <;> decide

/-- The scan has bounded the number behind the value, and the encoding is at least
    as long as the shortest of that number. -/
theorem Format.parseVarint_eq_some {kind : VarInt} {input : Bytes} {c : Content}
    (h : parseVarint kind input = some c) :
    c.number = some (kind.decode c.bytes.groupSum) ∧ c.bytes.groupSum < 2 ^ kind.bits ∧
      Varint.encodedSize c.bytes.groupSum ≤ c.size := by
  unfold parseVarint at h
  split at h
  · next size hscan =>
      cases h
      have haccepted := VarInt.accepted_of_scanBytes hscan
      have hfits := haccepted.fits
      refine ⟨?_, hfits, ?_⟩
      · rw [← Varint.groupSum_eq,
          Nat.mod_eq_of_lt (Nat.lt_of_lt_of_le hfits kind.two_pow_bits_le)]
      · rw [Content.size, List.length_take_of_le (VarInt.scanBytes_size hscan).2]
        exact Varint.encodedSize_le_of_accepted haccepted
  · cases h
  · cases h

end Reading

section Writing

variable {b : Buffer} {o m : Nat} {n : Int}

theorem Builder.run_configure (w : Builder) (settings : Settings) (steps : List Step) :
    w.run (.configure settings :: steps) = (w.configure settings).run steps := by
  rw [run, apply]
  rfl

theorem Builder.configure_varint (w : VarInt.Builder) (settings : Settings) :
    (Builder.varint w).configure settings = .varint w :=
  rfl

/-- The condition of a script that is preceded by settings. -/
theorem Format.compose_configure_exactly {format : Format} (settings : Settings)
    {steps : List Step} {out : Buffer} {started written : Builder}
    {result : Checked Refusal Reader} {P Q R : Prop}
    (hstart : (format.start b o m).Exactly P started)
    (hrun : P → ((started.configure settings).run steps).Exactly Q (.ok ()) written)
    (hbuild : P → Q → written.build.Exactly R result out) :
    (format.compose (.configure settings :: steps) b o m).Exactly (P ∧ Q ∧ R) result out := by
  refine compose_exactly hstart (fun hp => ?_) hbuild
  rw [Builder.run_configure]
  exact hrun hp

/-- An integer that the parse finds in some bytes is read where they are written. -/
theorem Format.wrap_overwrite {format : Format} {settings : Settings} (hb : b.Addressable)
    (hformat : format.isInteger) {bytes : Bytes} {c : Content}
    (hroom : o + bytes.length ≤ b.size) (h : format.parse settings bytes = some c) :
    ∃ r, format.wrap (b.overwrite o bytes) settings o (o + bytes.length) = .ok r ∧
      r.number = .ok c.number ∧ r.size = c.size := by
  rw [← b.segment_overwrite hroom] at h
  rw [← b.size_overwrite o bytes] at hroom
  exact wrap_of_parse (hb.overwrite o bytes) hformat (Nat.le_add_right _ _) hroom h

theorem ByteOrder.arrange_arrange (order : ByteOrder) (bytes : Bytes) :
    order.arrange (order.arrange bytes) = bytes := by
  cases order with
  | native => rfl
  | network => exact List.reverse_reverse bytes

/-- The word of a number of the range, in some byte order, is parsed as that number
    in the same order. -/
theorem Format.parseFixed_word {kind : FixedInt} (hrange : kind.InRange n) (order : ByteOrder) :
    parseFixed kind order
        (order.arrange (Bytes.ofNatLE kind.width (n % kind.modulus).toNat)) =
      some { bytes := order.arrange (Bytes.ofNatLE kind.width (n % kind.modulus).toNat),
             number := some n } := by
  have hlength : (order.arrange
      (Bytes.ofNatLE kind.width (n % kind.modulus).toNat)).length = kind.width := by
    rw [ByteOrder.length_arrange, Bytes.length_ofNatLE]
  have hfront := Bytes.front?_append hlength []
  rw [List.append_nil] at hfront
  rw [parseFixed, hfront, Option.bind_eq_bind, Option.bind_some, ByteOrder.arrange_arrange,
    Bytes.toNatLE_ofNatLE (kind.word_lt n), FixedInt.decode_word hrange]
  rfl

/-- The shortest encoding of a number of the range is parsed as that number. -/
theorem Format.parseVarint_groups {kind : VarInt} (hrange : kind.InRange n) :
    parseVarint kind (Varint.groups (kind.represent n)) =
      some { bytes := Varint.groups (kind.represent n), number := some n } := by
  have hlt := VarInt.represent_lt hrange
  have hbound := Nat.lt_of_lt_of_le hlt kind.two_pow_bits_le
  rw [parseVarint, VarInt.scanBytes_groups hlt]
  simp only []
  rw [List.take_length, Varint.ofGroups_groups, Nat.mod_eq_of_lt hbound,
    VarInt.decode_represent hrange]

/-- Setting a number of fixed width takes one of the range, and room for it. -/
theorem compose_set_fixed_exactly {kind : FixedInt} (settings : Settings) (hb : b.Addressable)
    (ho : o ≤ m) (hm : m ≤ b.size) (n : Int) :
    let order := settings.order.getD .native
    let written := Builder.fixed ⟨kind, order, Cursor.withBytes ⟨b, o, m, o⟩
      (order.arrange (Bytes.ofNatLE kind.width (n % kind.modulus).toNat)), true⟩
    ((Format.fixed kind).compose [.configure settings, .set n] b o m).Exactly
      (kind.InRange n ∧ o + kind.width ≤ m) written.build.result written.build.state := by
  have hset := FixedInt.Builder.set_exactly
    (w := ⟨kind, settings.order.getD .native, ⟨b, o, m, o⟩, false⟩) ⟨hb, hm⟩ n
  have hstart : ((Format.fixed kind).start b o m).Exactly (o + kind.width ≤ m) _ :=
    (FixedInt.Builder.wrap_exactly hb ho hm kind).map Builder.fixed
  have hrun := Builder.run_exactly_of_family (Builder.apply_set_fixed _ n) hset
  exact (Format.compose_configure_exactly settings hstart (fun _ => hrun) fun _ _ =>
    Outcome.exactly_of_eq rfl).congr ⟨fun h => ⟨h.2, h, trivial⟩, fun h => h.2.1⟩

/-- Setting a number of variable width does so too. -/
theorem compose_set_varint_exactly {kind : VarInt} (settings : Settings) (hb : b.Addressable)
    (ho : o ≤ m) (hm : m ≤ b.size) (n : Int) :
    let written := Builder.varint ⟨kind, Cursor.withBytes ⟨b, o, m, o⟩
      (Varint.groups (kind.represent n)), true⟩
    ((Format.varint kind).compose [.configure settings, .set n] b o m).Exactly
      (kind.InRange n ∧ o + Varint.encodedSize (kind.represent n) ≤ m) written.build.result
      written.build.state := by
  have hpos := Varint.encodedSize_pos (kind.represent n)
  have hset := VarInt.Builder.set_exactly (w := ⟨kind, ⟨b, o, m, o⟩, false⟩) ⟨hb, hm⟩ n
  have hstart : ((Format.varint kind).start b o m).Exactly (o + 1 ≤ m) _ :=
    (VarInt.Builder.wrap_exactly hb ho hm kind).map Builder.varint
  have hrun := Builder.run_exactly_of_family (Builder.apply_set_varint _ n) hset
  exact (Format.compose_configure_exactly settings hstart (fun _ => hrun) fun _ _ =>
    Outcome.exactly_of_eq rfl).congr ⟨fun h => ⟨by omega, h, trivial⟩, fun h => h.2.1⟩

/-- A number of the range is written in the order that is set, and read back in
    the same. -/
theorem compose_set_fixed {kind : FixedInt} (settings : Settings) (hb : b.Addressable)
    (hrange : kind.InRange n) (hroom : o + kind.width ≤ m) (hm : m ≤ b.size) :
    ∃ r out, (Format.fixed kind).compose [.configure settings, .set n] b o m = ⟨.ok r, out⟩ ∧
      r.number = .ok (some n) ∧ r.size = kind.width := by
  have hcompose := (compose_set_fixed_exactly settings hb (by omega) hm n).1 ⟨hrange, hroom⟩
  have hparse : (Format.fixed kind).parse settings _ = _ :=
    Format.parseFixed_word hrange (settings.order.getD .native)
  generalize hbytes : (settings.order.getD .native).arrange
    (Bytes.ofNatLE kind.width (n % kind.modulus).toNat) = bytes at hcompose hparse
  have hlength : bytes.length = kind.width := by
    rw [← hbytes, ByteOrder.length_arrange, Bytes.length_ofNatLE]
  rcases Format.wrap_overwrite (o := o) hb rfl (by omega) hparse with ⟨r, hr, hnumber, hsize⟩
  refine ⟨r, b.overwrite o bytes, ?_, hnumber, hsize.trans hlength⟩
  rw [hcompose, ← hr]
  rfl

/-- A number of the range is written in its shortest encoding, and read back. -/
theorem compose_set_varint {kind : VarInt} (settings : Settings) (hb : b.Addressable)
    (hrange : kind.InRange n) (hroom : o + Varint.encodedSize (kind.represent n) ≤ m)
    (hm : m ≤ b.size) :
    ∃ r out, (Format.varint kind).compose [.configure settings, .set n] b o m = ⟨.ok r, out⟩ ∧
      r.number = .ok (some n) ∧ r.size = Varint.encodedSize (kind.represent n) := by
  have hlength := Varint.length_groups (kind.represent n)
  have hcompose := (compose_set_varint_exactly settings hb (by omega) hm n).1 ⟨hrange, hroom⟩
  have hparse : (Format.varint kind).parse settings _ = _ := Format.parseVarint_groups hrange
  rcases Format.wrap_overwrite (o := o) hb rfl (by omega) hparse with ⟨r, hr, hnumber, hsize⟩
  refine ⟨r, b.overwrite o (Varint.groups (kind.represent n)), ?_, hnumber, hsize.trans hlength⟩
  rw [hcompose, ← hr]
  rfl

/-- A number outside of the range is refused, if there is room for any number. -/
theorem compose_set_varint_refused {kind : VarInt} (settings : Settings) (hb : b.Addressable)
    (hrange : ¬ kind.InRange n) (hroom : o + 1 ≤ m) (hm : m ≤ b.size) :
    ((Format.varint kind).compose [.configure settings, .set n] b o m).result =
      .error (.refused (.valueOutOfRange kind.name n)) := by
  have hstart : (Format.varint kind).start b o m = .ok (.varint ⟨kind, ⟨b, o, m, o⟩, false⟩) :=
    ((VarInt.Builder.wrap_exactly hb (by omega) hm kind).map Builder.varint).1 hroom
  have hencode : kind.encode n = .error (.refused (.valueOutOfRange kind.name n)) := by
    rw [VarInt.encode]
    exact if_neg hrange
  have hrun : ((Builder.varint ⟨kind, ⟨b, o, m, o⟩, false⟩).run
      [.configure settings, .set n]).result =
        .error (.refused (.valueOutOfRange kind.name n)) := by
    rw [Builder.run_configure, Builder.configure_varint, Builder.run, Builder.apply_set_varint,
      VarInt.Builder.set, hencode]
    rfl
  unfold Format.compose
  rw [hstart]
  simp only [hrun]

end Writing

namespace Format

variable {format : Format} {settings : Settings} {b : Buffer} {o m : Nat} {r : Reader}

/-- Every number that a reader of an integer has accepted can be written back, in
    any window that has as much room as its encoding took, and is read again from
    there in no more bytes. The exception is the nullable type above `2 ^ 28`,
    which is read and then refused as out of its range. -/
theorem write_back (hformat : format.isInteger) (hb : b.Addressable)
    (h : format.wrap b settings o m = .ok r) :
    ∃ n bytes, r.number = .ok (some n) ∧ r.bytes = .ok bytes ∧
      ∀ (b' : Buffer) (o' m' : Nat), b'.Addressable → o' + r.size ≤ m' → m' ≤ b'.size →
        (¬ format.Unwritable bytes →
          ∃ r' out, format.compose [.configure settings, .set n] b' o' m' = ⟨.ok r', out⟩ ∧
            r'.number = .ok (some n) ∧ r'.size ≤ r.size) ∧
        (format.Unwritable bytes →
          (format.compose [.configure settings, .set n] b' o' m').result =
            .error (.refused (.valueOutOfRange "varuint32n" n))) := by
  rcases integer_of_wrap hb hformat h with ⟨c, hparse, hbytes, hnumber, hsize⟩
  cases format with
  | fixed kind =>
      have hwidth : c.size = kind.width := parseFixed_size hparse
      rcases parseFixed_number hparse with ⟨raw, hraw⟩
      refine ⟨kind.decode raw, c.bytes, by rw [hnumber, hraw], hbytes, ?_⟩
      intro b' o' m' hb' hroom hm'
      rw [hsize, hwidth] at hroom
      refine ⟨fun _ => ?_, fun hunwritable => ?_⟩
      · rcases compose_set_fixed settings hb' (kind.inRange_decode raw) hroom hm' with
          ⟨r', out, hcompose, hnumber', hsize'⟩
        exact ⟨r', out, hcompose, hnumber', by omega⟩
      · cases hunwritable.1
  | varint kind =>
      rcases parseVarint_eq_some hparse with ⟨hraw, hlt, hleast⟩
      refine ⟨kind.decode c.bytes.groupSum, c.bytes, by rw [hnumber, hraw], hbytes, ?_⟩
      intro b' o' m' hb' hroom hm'
      have hpos := Varint.encodedSize_pos c.bytes.groupSum
      have hrange := VarInt.inRange_decode_iff hlt
      refine ⟨fun hwritable => ?_, fun hunwritable => ?_⟩
      · have hin : kind.InRange (kind.decode c.bytes.groupSum) := by
          refine hrange.mpr fun hkind => Nat.le_of_not_lt fun habove => ?_
          exact hwritable ⟨by rw [hkind], habove⟩
        have hsame := VarInt.represent_decode hlt hin
        rcases compose_set_varint (o := o') settings hb' hin (by rw [hsame]; omega) hm' with
          ⟨r', out, hcompose, hnumber', hsize'⟩
        rw [hsame] at hsize'
        exact ⟨r', out, hcompose, hnumber', by omega⟩
      · rcases hunwritable with ⟨hkind, habove⟩
        cases hkind
        refine compose_set_varint_refused settings hb' (fun hin => ?_) (by omega) hm'
        have hle := hrange.mp hin rfl
        omega
  | _ => exact absurd hformat Bool.false_ne_true

-- Minus one, in three bytes behind another one, where one byte would do.
theorem write_back_padded :
    ∃ r out, (Format.varint .varint32).compose [.configure {}, .set (-1)]
        (.ofBytes [9, 9, 9, 9]) 1 4 = ⟨.ok r, out⟩ ∧
      r.number = .ok (some (-1)) ∧ r.size ≤ 3 := by
  have hb : (Buffer.ofBytes [7, 0x81, 0x80, 0, 7]).Addressable := by
    unfold Buffer.Addressable
    decide
  have hb' : (Buffer.ofBytes [9, 9, 9, 9]).Addressable := by
    unfold Buffer.Addressable
    decide
  have hwrap : (Format.varint .varint32).wrap (.ofBytes [7, 0x81, 0x80, 0, 7]) {} 1 5 =
      .ok (.varint ⟨.varint32, ⟨.ofBytes [7, 0x81, 0x80, 0, 7], 1, 5⟩, 3⟩) := by
    rfl
  rcases write_back rfl hb hwrap with ⟨n, bytes, hnumber, _, hwrite⟩
  have hn : -1 = n := Option.some.inj (Except.ok.inj hnumber)
  subst hn
  exact (hwrite _ 1 4 hb' (by decide) (by decide)).1 fun hunwritable => by cases hunwritable.1

-- Five bytes that are read as -2, which cannot be written.
theorem nullable_not_written_back :
    ∃ r, (Format.varint .varuint32n).wrap (.ofBytes [255, 255, 255, 255, 15]) {} 0 5 = .ok r ∧
      r.number = .ok (some (-2)) ∧ r.size = 5 ∧
      ((Format.varint .varuint32n).compose [.set (-2)] (.ofBytes (List.replicate 5 0)) 0 5).result =
        .error (.refused (.valueOutOfRange "varuint32n" (-2))) := by
  refine ⟨.varint ⟨.varuint32n, ⟨.ofBytes [255, 255, 255, 255, 15], 0, 5⟩, 5⟩, ?_, ?_, ?_, ?_⟩
  · rfl
  · rfl
  · rfl
  · rfl

end Format

end Wireform
