import Wireform.Proofs.Scanning

/-!
# Readers Follow the Parser

Binding a reader to a window, and reading out everything it tells, is parsing
the bytes of that window.

`Follows` is the relation between the two. Where the parser finds nothing the
binding refuses, so it does not stop either; where it finds a content, the
reader is bound, ends where the content ends, and its accessors yield exactly
that content. This module proves it for the families without elements, each
by comparing the bounds checks of its binding with those of the parser, and
prepares the list-shaped families up to their fields. Elements are the matter
of `Proofs.Nesting`.

## Main definitions

* `Follows`: A binding has the outcome of a parse.
* `SequenceFollows`: The same for the two prefixes of a list-shaped value.

## Theorems

* `follows_of_shell`: A reader without elements follows what it tells.
* `follows_of_payload`: So does one with a payload behind a prefix.
* `follows_fixed`, `follows_varint`: Numbers.
* `follows_octets`, `follows_bounded`: Octets.
* `follows_string`, `follows_varstring`: Strings.
* `follows_emptyList`, `follows_sequence`: Lists.
-/

namespace Wireform

namespace Buffer

theorem front?_segment_of_le (b : Buffer) {o m n : Nat} (hm : m ≤ b.size) (h : o + n ≤ m) :
    (b.segment o m).front? n = some (b.segment o (o + n)) := by
  refine Bytes.front?_eq_some.mpr ⟨?_, (b.segment_take h).symm⟩
  rw [b.length_segment hm]
  omega

theorem front?_segment_of_lt (b : Buffer) {o m n : Nat} (hm : m ≤ b.size) (ho : o ≤ m)
    (h : m < o + n) : (b.segment o m).front? n = none := by
  rw [Bytes.front?, if_neg (by rw [b.length_segment hm]; omega)]

end Buffer

/-- The binding of a reader of the format to `[o, m)` has the outcome of a
    parse: it refuses where nothing was found, and otherwise the reader ends
    with the content and tells it. -/
def Follows (b : Buffer) (format : Format) (o m : Nat) (binding : Checked Refusal Reader) :
    Option Content → Prop
  | none => binding.Refuses
  | some c => ∃ r, binding = .ok r ∧ r.window = ⟨b, o, m⟩ ∧ r.format = format ∧
      r.limit = o + c.size ∧ o + c.size ≤ m ∧ format.contentOf r = .ok c

theorem Reader.shell_eq {r : Reader} {n : Option Int} {p : Option Bytes} {f : Bytes}
    (hlo : r.offset ≤ r.limit) (hhi : r.limit ≤ r.window.buffer.size) (hn : r.number = .ok n)
    (hp : r.payload = .ok p) (hf : r.fields = .ok f) :
    r.shell = .ok { bytes := r.window.buffer.segment r.offset r.limit, number := n,
                    payload := p, count := r.fieldCount, fields := f } := by
  rw [shell, bytes, Buffer.slice_eq _ hlo hhi, hn, hp, hf]
  rfl

/-- A reader without elements follows a parse that ends with it and holds what
    its accessors tell. -/
theorem follows_of_shell {b : Buffer} {o m : Nat} {format : Format} {r : Reader}
    {n : Option Int} {p : Option Bytes} {f : Bytes} (hm : m ≤ b.size)
    (hshell : format.contentOf r = r.shell) (hw : r.window = ⟨b, o, m⟩)
    (hformat : r.format = format) (hlo : o ≤ r.limit) (hhi : r.limit ≤ m)
    (hn : r.number = .ok n) (hp : r.payload = .ok p) (hf : r.fields = .ok f) :
    Follows b format o m (.ok r)
      (some { bytes := b.segment o r.limit, number := n, payload := p, count := r.fieldCount,
              fields := f }) := by
  have hsize : (b.segment o r.limit).length = r.limit - o := b.length_segment (by omega)
  refine ⟨r, rfl, hw, hformat, ?_, ?_, ?_⟩
  · rw [Content.size, hsize]
    omega
  · rw [Content.size, hsize]
    omega
  · have hoffset : r.offset = o := congrArg Window.offset hw
    have hbuffer : r.window.buffer = b := congrArg Window.buffer hw
    rw [hshell, Reader.shell_eq (by omega) (by rw [hbuffer]; omega) hn hp hf, hbuffer, hoffset]

section Leaves

variable {b : Buffer} {o m : Nat}

/-- A payload of known length behind a prefix of `n` bytes: the reader is bound
    if there is room for it, and the parse takes the same bytes. -/
theorem follows_of_payload {format : Format} {r : Reader} {binding : Checked Refusal Reader}
    {n length : Nat} (ho : o ≤ m) (hm : m ≤ b.size)
    (hroom : o + n + length ≤ m → binding = .ok r)
    (hshort : m < o + n + length → binding.Refuses) (hshell : format.contentOf r = r.shell)
    (hw : r.window = ⟨b, o, m⟩) (hformat : r.format = format)
    (hlimit : r.limit = o + n + length) (hn : r.number = .ok none)
    (hp : r.payload = some <$> b.slice (o + n) (o + n + length)) (hf : r.fields = .ok [])
    (hcount : r.fieldCount = 0) :
    Follows b format o m binding
      ((Bytes.front? (n + length) (b.segment o m)).bind fun all =>
        some { bytes := all, payload := some (all.drop n) }) := by
  by_cases hstop : o + n + length ≤ m
  · rw [b.slice_eq (by omega) (by omega)] at hp
    have h := follows_of_shell hm hshell hw hformat (by omega) (by omega) hn hp hf
    rw [hlimit, hcount] at h
    rw [hroom hstop, b.front?_segment_of_le hm (by omega), Option.bind_some, b.segment_drop,
      ← Nat.add_assoc]
    exact h
  · rw [b.front?_segment_of_lt hm ho (by omega)]
    exact hshort (by omega)

theorem follows_fixed (hb : b.Addressable) (ho : o ≤ m) (hm : m ≤ b.size) (kind : FixedInt)
    (order : ByteOrder) :
    Follows b (.fixed kind) o m (.fixed <$> FixedInt.Reader.wrap kind order b o m)
      (Format.parseFixed kind order (b.segment o m)) := by
  unfold Buffer.Addressable at hb
  have hwidth : kind.width ≤ 8 := by cases kind <;> decide
  rw [FixedInt.Reader.wrap, Window.wrap_of_le ho hm, Checked.ok_bind,
    Word.add_of_lt (by omega), Checked.ok_bind, Format.parseFixed]
  by_cases h : o + kind.width ≤ m
  · rw [checkLimit_of_le h, b.front?_segment_of_le hm h]
    refine follows_of_shell hm rfl rfl rfl (Nat.le_add_right _ _) h ?_ rfl rfl
    -- a word of at most eight bytes fits 64 bits
    have hraw : Bytes.toNatLE (order.arrange (b.segment o (o + kind.width))) < Word.bound := by
      refine Nat.lt_of_lt_of_le (Bytes.toNatLE_lt _) ?_
      rw [ByteOrder.length_arrange, b.length_segment_add (by omega)]
      exact Nat.pow_le_pow_right (by decide) hwidth
    simp only [Reader.number, FixedInt.Reader.value, readUnsigned]
    rw [Word.add_of_lt (by omega), Checked.ok_bind, b.slice_eq (by omega) (by omega)]
    simp only [Checked.ok_bind, pure, Except.pure, Checked.ok_map, Nat.mod_eq_of_lt hraw]
  · rw [b.front?_segment_of_lt hm ho (by omega)]
    exact ((checkLimit_refuses (by omega)).bind _).map _

theorem follows_varint (hb : b.Addressable) (ho : o ≤ m) (hm : m ≤ b.size) (kind : VarInt) :
    Follows b (.varint kind) o m (.varint <$> VarInt.Reader.wrap kind b o m)
      (Format.parseVarint kind (b.segment o m)) := by
  have hb' : b.size < 2 ^ (63 : Nat) := hb
  have hlen := b.length_segment (i := o) hm
  rw [VarInt.Reader.wrap, Window.wrap_of_le ho hm, Checked.ok_bind, Word.add_of_lt (by omega),
    Checked.ok_bind, Format.parseVarint]
  by_cases hone : o + 1 ≤ m
  · rw [checkLimit_of_le hone, Checked.ok_bind, kind.scan_eq hb ho hm, Checked.ok_bind]
    rcases hscan : kind.scanBytes (b.segment o m) with size | _ | _
    · have hsize := VarInt.scanBytes_size hscan
      have hten := VarInt.scanBytes_le_ten hscan
      simp only []
      rw [b.segment_take (by omega : o + size ≤ m)]
      refine follows_of_shell hm rfl rfl rfl (Nat.le_add_right _ _)
        (by simp only [Reader.limit, VarInt.Reader.limit]; omega) ?_ rfl rfl
      simp only [Reader.number, VarInt.Reader.value]
      rw [Varint.decodeAt_eq hb hten (by omega)]
      rfl
    · simp only []
      rw [Word.add_of_lt (by omega), Checked.ok_bind]
      exact (Checked.refuses_refuse _).map _
    · exact (Checked.refuses_refuse _).map _
  · -- a scan of nothing ends before the integer does
    have hnil : b.segment o m = [] := List.eq_nil_of_length_eq_zero (by omega)
    have hscan : kind.scanBytes [] = .truncated := by cases kind <;> rfl
    rw [hnil, hscan]
    exact ((checkLimit_refuses (by omega)).bind _).map _

theorem follows_octets (ho : o ≤ m) (hm : m ≤ b.size) :
    Follows b .octets o m (.octets <$> Octets.Reader.wrap b o m)
      (some { bytes := b.segment o m, payload := some (b.segment o m) }) := by
  rw [Octets.Reader.wrap, Window.wrap_of_le ho hm]
  refine follows_of_shell hm rfl rfl rfl ho (Nat.le_refl m) rfl ?_ rfl
  simp only [Reader.payload, Octets.Reader.value]
  rw [b.slice_eq ho hm]
  rfl

theorem follows_emptyList (ho : o ≤ m) (hm : m ≤ b.size) :
    Follows b .emptyList o m (.emptyList <$> Window.wrap b o m) (some { bytes := [] }) := by
  have h : Follows b .emptyList o m (.ok (.emptyList ⟨b, o, m⟩))
      (some { bytes := b.segment o o }) :=
    follows_of_shell hm rfl rfl rfl (Nat.le_refl o) ho rfl rfl rfl
  rw [b.segment_self] at h
  rw [Window.wrap_of_le ho hm]
  exact h

/-- Octets with a prefix are measured by it; without one they take what the
    bound allows of the window. -/
theorem follows_bounded (hb : b.Addressable) (ho : o ≤ m) (hm : m ≤ b.size) (width : Width)
    (bound : Nat) :
    Follows b (.bounded width) o m (.bounded <$> Bounded.Reader.wrap width bound b o m)
      (Format.parseBounded width bound (b.segment o m)) := by
  have hb' : b.size < 2 ^ (63 : Nat) := hb
  have hsize := width.size_le
  rw [Bounded.Reader.wrap, Window.wrap_of_le ho hm, Checked.ok_bind, Bounded.Reader.measure,
    Format.parseBounded]
  by_cases hw : width = .zero
  · subst hw
    rw [if_pos rfl, if_pos rfl]
    -- without a prefix the bound cuts the window, which may be shorter
    have htake : (b.segment o m).take bound = b.segment o (o + min (m - o) bound) := by
      rw [← b.segment_take (by omega : o + min (m - o) bound ≤ m), Nat.min_comm,
        ← b.length_segment (i := o) hm, List.take_eq_take_min]
    rw [htake]
    refine follows_of_shell hm rfl rfl rfl ?_ ?_ rfl ?_ rfl
    · exact Nat.le_add_right o _
    · simp only [Reader.limit, Bounded.Reader.limit, Window.remaining, Width.size]
      omega
    · simp only [Reader.payload, Bounded.Reader.value, Bounded.Reader.payload, Window.remaining,
        Width.size, Nat.add_zero]
      rw [b.slice_eq (by omega) (by omega)]
      rfl
  · rw [if_neg hw, if_neg hw]
    simp only []
    rw [Word.add_of_lt (by omega), Checked.ok_bind]
    by_cases hhead : o + width.size ≤ m
    · rw [checkLimit_of_le hhead, Checked.ok_bind, width.read_eq hb (by omega), Checked.ok_bind,
        b.front?_segment_of_le hm hhead]
      simp only [Option.bind_eq_bind, Option.bind_some]
      have hlt := width.toNatLE_segment_lt (by omega : o + width.size ≤ b.size)
      generalize Bytes.toNatLE (b.segment o (o + width.size)) = length at hlt ⊢
      -- the prefix is read alike, so both sides branch on the same length
      by_cases hbound : length > bound
      · rw [if_pos hbound, if_pos hbound]
        exact ((Checked.refuses_refuse _).bind _).map _
      · rw [if_neg hbound, if_neg hbound, Word.add_of_lt (by omega), Checked.ok_bind]
        refine follows_of_payload (r := .bounded ⟨width, bound, ⟨b, o, m⟩, length⟩) ho hm
          (fun hstop => ?_) (fun hstop => ?_) rfl rfl rfl rfl rfl rfl rfl rfl
        · rw [checkLimit_of_le hstop]
          rfl
        · exact (((checkLimit_refuses hstop).bind _).bind _).map _
    · rw [b.front?_segment_of_lt hm ho (by omega)]
      exact (((checkLimit_refuses (by omega)).bind _).bind _).map _

theorem follows_string (hb : b.Addressable) (ho : o ≤ m) (hm : m ≤ b.size) (width : Width) :
    Follows b (.string width) o m (.string <$> Strings.Reader.wrap width b o m)
      (Format.parseString width (b.segment o m)) := by
  have hb' : b.size < 2 ^ (63 : Nat) := hb
  have hsize := width.size_le
  rw [Strings.Reader.wrap, Window.wrap_of_le ho hm, Checked.ok_bind, Strings.Reader.measure,
    Format.parseString]
  by_cases hw : width = .zero
  · subst hw
    rw [if_pos rfl, if_pos rfl]
    -- without a prefix the string is the window
    have hend : o + 0 + (m - o) = m := by omega
    have h : Follows b (.string .zero) o m
        (.ok (.string ⟨.zero, ⟨b, o, m⟩, some (m - o)⟩))
        (some { bytes := b.segment o (o + 0 + (m - o)), payload := some (b.segment o m) }) := by
      refine follows_of_shell hm rfl rfl rfl (Nat.le_add_right _ _) (Nat.le_of_eq hend) rfl ?_ rfl
      simp only [Reader.payload, Strings.Reader.payload, Width.size, Nat.add_zero]
      rw [b.slice_eq (by omega) (by omega), Nat.add_sub_cancel' ho]
      rfl
    rw [hend] at h
    exact h
  · rw [if_neg hw, if_neg hw]
    simp only []
    rw [Word.add_of_lt (by omega), Checked.ok_bind]
    by_cases hhead : o + width.size ≤ m
    · rw [checkLimit_of_le hhead, Checked.ok_bind, width.read_eq hb (by omega), Checked.ok_bind,
        b.front?_segment_of_le hm hhead]
      simp only [Option.bind_eq_bind, Option.bind_some]
      have hlt := width.toNatLE_segment_lt (by omega : o + width.size ≤ b.size)
      generalize Bytes.toNatLE (b.segment o (o + width.size)) = length at hlt ⊢
      -- all ones are null, and null is the prefix alone
      by_cases hnull : length = width.maxValue
      · rw [if_pos hnull, if_pos hnull]
        exact follows_of_shell hm rfl rfl rfl (Nat.le_add_right o width.size) hhead rfl rfl rfl
      · rw [if_neg hnull, if_neg hnull, Word.add_of_lt (by omega), Checked.ok_bind]
        refine follows_of_payload (r := .string ⟨width, ⟨b, o, m⟩, some length⟩) ho hm
          (fun hstop => ?_) (fun hstop => ?_) rfl rfl rfl rfl rfl rfl rfl rfl
        · rw [checkLimit_of_le hstop]
          rfl
        · exact (((checkLimit_refuses hstop).bind _).bind _).map _
    · rw [b.front?_segment_of_lt hm ho (by omega)]
      exact (((checkLimit_refuses (by omega)).bind _).bind _).map _

theorem unzigzag_toNat_lt (n : Nat) : (unzigzag (n % 2 ^ (32 : Nat))).toNat < 2 ^ (32 : Nat) := by
  have hlt : n % 2 ^ (32 : Nat) < 2 ^ (32 : Nat) := Nat.mod_lt _ (by decide)
  unfold unzigzag
  split <;> omega

theorem follows_varstring (hb : b.Addressable) (ho : o ≤ m) (hm : m ≤ b.size) :
    Follows b .varstring o m (.varstring <$> VarStrings.Reader.wrap b o m)
      (Format.parseVarstring (b.segment o m)) := by
  have hb' : b.size < 2 ^ (63 : Nat) := hb
  have hlen := b.length_segment (i := o) hm
  rw [VarStrings.Reader.wrap, Window.wrap_of_le ho hm, Checked.ok_bind,
    VarStrings.Reader.measure, Format.parseVarstring]
  simp only []
  rw [Word.add_of_lt (by omega), Checked.ok_bind]
  by_cases hone : o + 1 ≤ m
  · rw [checkLimit_of_le hone, Checked.ok_bind, Varint.scan32,
      Varint.scan_eq Varint.lastMask32 hb ho hm (by decide) (by decide), Checked.ok_bind]
    rcases hscan : Varint.scanBytes Varint.maxSize32 Varint.lastMask32 0 (b.segment o m)
      with size | _ | _
    · have hsize := (Varint.scanBytes_size hscan).2
      have hfive : size ≤ 5 := Varint.scanBytes_le_maxSize (by decide) hscan
      simp only []
      rw [Varint.decodeAt_eq hb (by omega) (by omega), Checked.ok_bind,
        b.segment_take (by omega : o + size ≤ m)]
      have hlt := unzigzag_toNat_lt (Varint.ofGroups (b.segment o (o + size)) % Word.bound)
      generalize unzigzag (Varint.ofGroups (b.segment o (o + size)) % Word.bound % 2 ^ (32 : Nat))
        = length at hlt ⊢
      -- -1 is null; what is below cannot be a length
      by_cases hnull : length = -1
      · rw [if_pos hnull, if_pos hnull]
        have hend : o + size ≤ m := by omega
        exact follows_of_shell hm rfl rfl rfl (Nat.le_add_right o size) hend rfl rfl rfl
      · rw [if_neg hnull, if_neg hnull]
        by_cases hneg : length < -1
        · rw [if_pos hneg, if_pos hneg]
          exact ((Checked.refuses_refuse _).bind _).map _
        · rw [if_neg hneg, if_neg hneg, Word.add_of_lt (by omega), Checked.ok_bind,
            Word.add_of_lt (by omega), Checked.ok_bind]
          refine follows_of_payload (r := .varstring ⟨⟨b, o, m⟩, size, some length.toNat⟩) ho hm
            (fun hstop => ?_) (fun hstop => ?_) rfl rfl rfl rfl rfl rfl rfl rfl
          · rw [checkLimit_of_le hstop]
            rfl
          · exact (((checkLimit_refuses hstop).bind _).bind _).map _
    · simp only []
      rw [Word.add_of_lt (by omega), Checked.ok_bind]
      exact ((Checked.refuses_refuse _).bind _).map _
    · exact ((Checked.refuses_refuse _).bind _).map _
  · have hnil : b.segment o m = [] := List.eq_nil_of_length_eq_zero (by omega)
    rw [hnil]
    exact (((checkLimit_refuses (by omega)).bind _).bind _).map _

/-- What binding a list-shaped value has in common with the parse of its
    prefixes. -/
def SequenceFollows (b : Buffer) (width : SequenceWidth) (o m : Nat)
    (binding : Checked Refusal Sequence) : Option Content → Prop
  | none => binding.Refuses
  | some c => ∃ s, binding = .ok s ∧ s.width = width ∧ s.window = ⟨b, o, m⟩ ∧
      s.fieldsOffset ≤ s.limit ∧ s.limit ≤ m ∧
      c = { bytes := b.segment o s.limit, count := s.count,
            fields := b.segment s.fieldsOffset s.limit }

theorem follows_sequence (hb : b.Addressable) (ho : o ≤ m) (hm : m ≤ b.size)
    (width : SequenceWidth) :
    SequenceFollows b width o m (Sequence.wrap width b o m)
      (Format.parseSequence width (b.segment o m)) := by
  have hb' : b.size < 2 ^ (63 : Nat) := hb
  have hsize := width.size_le
  rw [Sequence.wrap, Window.wrap_of_le ho hm, Checked.ok_bind, Sequence.measure,
    Format.parseSequence]
  simp only []
  rw [Word.add_of_lt (by omega), Checked.ok_bind]
  by_cases hhead : o + 2 * width.size ≤ m
  · rw [checkLimit_of_le hhead, Checked.ok_bind, width.read_eq hb (by omega), Checked.ok_bind,
      b.front?_segment_of_le hm hhead]
    simp only [Option.bind_eq_bind, Option.bind_some]
    rw [b.segment_take (by omega : o + width.size ≤ o + 2 * width.size), b.segment_drop,
      show o + 2 * width.size = o + width.size + width.size by omega]
    have hlt := width.toNatLE_segment_lt (by omega : o + width.size ≤ b.size)
    generalize Bytes.toNatLE (b.segment o (o + width.size)) = length at hlt ⊢
    -- the length covers the count, so it is at least that long
    by_cases hshort : length < width.size
    · rw [if_pos hshort, if_pos hshort]
      exact Checked.refuses_refuse _
    · rw [if_neg hshort, if_neg hshort, Word.add_of_lt (by omega), Checked.ok_bind,
        Word.add_of_lt (by omega), Checked.ok_bind]
      by_cases hstop : o + width.size + length ≤ m
      · rw [checkLimit_of_le hstop, Checked.ok_bind, width.read_eq hb (by omega),
          b.front?_segment_of_le hm (by omega), Option.bind_some, b.segment_drop, ← Nat.add_assoc]
        refine ⟨_, rfl, rfl, rfl, ?_, hstop, rfl⟩
        simp only [Sequence.fieldsOffset, Sequence.limit]
        omega
      · rw [b.front?_segment_of_lt hm ho (by omega)]
        exact (checkLimit_refuses (by omega)).bind _
  · rw [b.front?_segment_of_lt hm ho (by omega)]
    exact (checkLimit_refuses (by omega)).bind _

end Leaves

end Wireform
