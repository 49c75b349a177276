import Wireform.Output.Builtin
import Wireform.Proofs.Acceptance

/-!
# Described Limits Are the Readers' Limits

What a description says about where an encoding ends is where readers end.

The description of a built-in type names a rule: a width, a prefix, a varint. The
reader of that type measures its window with code that knows nothing of rules.
`LimitRule.limitIn` gives the rules a meaning of their own, on the bytes of a
window and its two ends, and the theorem says that a reader which accepts a window
ends where the rule says.

The comparison goes through the reference parser. A reader that is bound has parsed
the bytes of its window, so all there is to know is how many bytes each parser
uses, and no statement below looks at a buffer. Two of these sizes need an
argument. A scan of continuation bits stops at the largest size whether or not the
last byte continues, and it is the mask of that byte that rules out that it does.
And a string's varint is cut to 32 bits before it becomes a length, which loses
nothing, again by the mask.

## Main definitions

* `Bytes.continued`: The size of a varint, by its continuation bits.
* `LimitRule.limitIn`: Where a rule says that an encoding ends.
* `WireType.ReadAs`: The readers of built-in types.
* `WireType.declaredBound`: The bound that a type declares.

## Theorems

* `Varint.eq_continued_of_scanBytes`: A scan ends with the first clear
  continuation bit.
* `WireType.limit_eq_limitIn`: Described limits are the readers' limits.
-/

namespace Wireform

/-- The number of bytes up to the first with a clear continuation bit, that one
    included. -/
def Bytes.continued (bytes : Bytes) : Nat :=
  (bytes.takeWhile fun byte => byte &&& 0x80 ≠ 0).length + 1

/-- Where the rule says that the encoding ends which stands in front of the bytes
    of the window `[o, m)`. In a nullable type the largest prefix stands for null,
    which has no bytes. The rules for what is declared in a schema say nothing by
    themselves. -/
def LimitRule.limitIn (rule : LimitRule) (nullable : Bool) (window : Bytes) (o m : Nat) :
    Option Nat :=
  match rule with
  | .fixed width => some (o + width)
  | .varint _ _ maxSize _ =>
      if window.continued ≤ maxSize then some (o + window.continued) else none
  | .prefixed size =>
      let n := Bytes.toNatLE (window.take size)
      some (o + size + if nullable && n = 256 ^ size - 1 then 0 else n)
  | .varintPrefixed =>
      let n := unzigzag (Varint.ofGroups (window.take window.continued))
      if n = -1 then some (o + window.continued)
      else if n < 0 then none
      else some (o + window.continued + n.toNat)
  | .remaining none => some m
  | .remaining (some bound) => some (min m (o + bound))
  | .sequence size => some (o + size + Bytes.toNatLE (window.take size))
  | .empty => some o
  | .members | .dispatch _ => none

/-- The readers of built-in types. What reads the elements of an array or of a map
    makes no difference to where it ends. -/
inductive WireType.ReadAs : WireType → Format → Prop where
  | fixed (kind : FixedInt) : ReadAs (.fixed kind) (.fixed kind)
  | varint (kind : VarInt) : ReadAs (.varint kind) (.varint kind)
  | octets : ReadAs .octets .octets
  | bounded (width : Width) (max : Option Nat) : ReadAs (.boundedOctets width max) (.bounded width)
  | string (width : Width) : ReadAs (.string width) (.string width)
  | varstring : ReadAs .varstring .varstring
  | emptyList : ReadAs (.list .zero) .emptyList
  | list (width : SequenceWidth) : ReadAs (.list width.width) (.list width)
  | array (width : SequenceWidth) (type : WireType) (item : Format) :
      ReadAs (.array width.width type) (.array width item)
  | map (width : SequenceWidth) (keyType valueType : WireType) (key value : Format) :
      ReadAs (.map width.width keyType valueType) (.map width key value)

/-- The bound that a type declares. -/
def WireType.declaredBound : WireType → Option Nat
  | .boundedOctets _ max => max
  | _ => none

namespace Varint

/-- A mask with the continuation bit. -/
theorem continuation_of_mask {byte lastMask : UInt8} (hmask : lastMask &&& 0x80 = 0x80)
    (h : byte &&& lastMask = 0) : byte &&& 0x80 = 0 := by
  rw [← hmask, ← UInt8.and_assoc, h, UInt8.zero_and]

theorem continued_of_clear {byte : UInt8} (h : byte &&& 0x80 = 0) (rest : Bytes) :
    Bytes.continued (byte :: rest) = 1 := by
  rw [Bytes.continued, List.takeWhile_cons_of_neg (by simpa using h)]
  rfl

theorem continued_of_set {byte : UInt8} (h : byte &&& 0x80 ≠ 0) (rest : Bytes) :
    Bytes.continued (byte :: rest) = rest.continued + 1 := by
  rw [Bytes.continued, List.takeWhile_cons_of_pos (by simpa using h)]
  rfl

/-- A scan ends with the first clear continuation bit, as the last byte that it
    may look at has none. -/
theorem eq_continued_of_scanBytes {maxSize size n : Nat} {lastMask : UInt8} {bytes : Bytes}
    (hmask : lastMask &&& 0x80 = 0x80)
    (h : scanBytes maxSize lastMask size bytes = .complete n) : n = size + bytes.continued := by
  induction bytes generalizing size with
  | nil => cases h
  | cons byte rest ih =>
      simp only [scanBytes] at h
      by_cases hlast : size + 1 = maxSize
      · rw [if_pos hlast] at h
        by_cases hbits : byte &&& lastMask = 0
        · rw [if_neg (not_not_intro hbits)] at h
          cases h
          rw [continued_of_clear (continuation_of_mask hmask hbits)]
        · rw [if_pos hbits] at h
          cases h
      · rw [if_neg hlast] at h
        by_cases hend : byte &&& 0x80 = 0
        · rw [if_pos hend] at h
          cases h
          rw [continued_of_clear hend]
        · rw [if_neg hend] at h
          have hrest := ih h
          rw [continued_of_set hend]
          omega

end Varint

namespace Format

theorem parseVarint_size {kind : VarInt} {input : Bytes} {c : Content}
    (h : parseVarint kind input = some c) :
    c.size = input.continued ∧ input.continued ≤ kind.maxSize := by
  unfold parseVarint at h
  cases hscan : kind.scanBytes input with
  | complete size =>
      rw [hscan] at h
      cases h
      have hlength := List.length_take_of_le (VarInt.scanBytes_size hscan).2
      have hsize : size = input.continued ∧ size ≤ kind.maxSize := by
        -- the masks and sizes are those of 32 or of 64 bits
        cases kind
        all_goals
          have hcontinued := Varint.eq_continued_of_scanBytes (by decide) hscan
          exact ⟨by omega, Varint.scanBytes_le_maxSize (by decide) hscan⟩
      exact ⟨hlength.trans hsize.1, hsize.1 ▸ hsize.2⟩
  | truncated =>
      rw [hscan] at h
      exact nomatch h
  | overflow =>
      rw [hscan] at h
      exact nomatch h

theorem parseBounded_size {width : Width} (hw : width ≠ .zero) {bound : Nat} {input : Bytes}
    {c : Content} (h : parseBounded width bound input = some c) :
    c.size = width.size + Bytes.toNatLE (input.take width.size) := by
  rw [parseBounded, if_neg hw] at h
  rcases Option.bind_eq_some_iff.mp h with ⟨head, hhead, h⟩
  rcases Bytes.front?_eq_some.mp hhead with ⟨_, rfl⟩
  split at h
  · cases h
  · rcases Option.bind_eq_some_iff.mp h with ⟨bytes, hbytes, h⟩
    cases h
    exact Bytes.length_of_front? hbytes

theorem parseString_size {width : Width} (hw : width ≠ .zero) {input : Bytes} {c : Content}
    (h : parseString width input = some c) :
    c.size = width.size + if Bytes.toNatLE (input.take width.size) = width.maxValue then 0
      else Bytes.toNatLE (input.take width.size) := by
  rw [parseString, if_neg hw] at h
  rcases Option.bind_eq_some_iff.mp h with ⟨head, hhead, h⟩
  have hlength := Bytes.length_of_front? hhead
  rcases Bytes.front?_eq_some.mp hhead with ⟨_, rfl⟩
  by_cases hnull : Bytes.toNatLE (input.take width.size) = width.maxValue
  · rw [if_pos hnull] at h ⊢
    cases h
    exact hlength
  · rw [if_neg hnull] at h ⊢
    rcases Option.bind_eq_some_iff.mp h with ⟨bytes, hbytes, h⟩
    cases h
    exact Bytes.length_of_front? hbytes

theorem parseVarstring_size {input : Bytes} {c : Content} (h : parseVarstring input = some c) :
    ∃ n : Int, n = unzigzag (Varint.ofGroups (input.take input.continued)) ∧ -1 ≤ n ∧
      c.size = input.continued + n.toNat := by
  unfold parseVarstring at h
  cases hscan : Varint.scanBytes Varint.maxSize32 Varint.lastMask32 0 input with
  | complete size =>
      rw [hscan] at h
      have hcontinued := Varint.eq_continued_of_scanBytes (by decide) hscan
      have hgroups := ((Varint.scanBytes_iff Varint.masksRest32).mp hscan).fits
      rw [Varint.groupSum_eq] at hgroups
      rw [Nat.zero_add] at hcontinued
      have hlength : (input.take size).length = size :=
        List.length_take_of_le (by simpa only [Nat.zero_add] using (Varint.scanBytes_size hscan).2)
      -- the number is not cut by taking it as a word, nor as one of 32 bits
      have hcut : Varint.ofGroups (input.take size) % Word.bound % 2 ^ (32 : Nat) =
          Varint.ofGroups (input.take size) := by
        rw [Nat.mod_eq_of_lt (show _ < Word.bound by unfold Word.bound; omega),
          Nat.mod_eq_of_lt (by omega)]
      simp only [hcut] at h
      rw [← hcontinued]
      refine ⟨_, rfl, ?_⟩
      generalize unzigzag (Varint.ofGroups (input.take size)) = n at h ⊢
      by_cases hnull : n = -1
      · rw [if_pos hnull] at h
        cases h
        subst hnull
        exact ⟨Int.le_refl _, hlength⟩
      · rw [if_neg hnull] at h
        by_cases hneg : n < -1
        · rw [if_pos hneg] at h
          exact nomatch h
        · rw [if_neg hneg] at h
          rcases Option.bind_eq_some_iff.mp h with ⟨bytes, hbytes, h⟩
          cases h
          exact ⟨by omega, Bytes.length_of_front? hbytes⟩
  | truncated =>
      rw [hscan] at h
      exact nomatch h
  | overflow =>
      rw [hscan] at h
      exact nomatch h

theorem parseSequence_size {width : SequenceWidth} {input : Bytes} {c : Content}
    (h : parseSequence width input = some c) :
    c.size = width.size + Bytes.toNatLE (input.take width.size) := by
  rcases Option.bind_eq_some_iff.mp h with ⟨head, hhead, h⟩
  rcases Bytes.front?_eq_some.mp hhead with ⟨_, rfl⟩
  rw [List.take_take, Nat.min_eq_left (by omega)] at h
  dsimp only at h
  split at h
  · exact nomatch h
  · rcases Option.bind_eq_some_iff.mp h with ⟨bytes, hbytes, h⟩
    cases h
    exact Bytes.length_of_front? hbytes

/-- Looking at the elements does not change where an array or a map ends. -/
theorem parse_array_size {width : SequenceWidth} {item : Format} {settings : Settings}
    {input : Bytes} {c : Content} (h : (Format.array width item).parse settings input = some c) :
    c.size = width.size + Bytes.toNatLE (input.take width.size) := by
  rw [parse] at h
  rcases Option.bind_eq_some_iff.mp h with ⟨shell, hshell, h⟩
  rcases Option.bind_eq_some_iff.mp h with ⟨items, _, h⟩
  have hsize := parseSequence_size hshell
  cases h
  exact hsize

theorem parse_map_size {width : SequenceWidth} {key value : Format} {settings : Settings}
    {input : Bytes} {c : Content} (h : (Format.map width key value).parse settings input = some c) :
    c.size = width.size + Bytes.toNatLE (input.take width.size) := by
  rw [parse] at h
  rcases Option.bind_eq_some_iff.mp h with ⟨shell, hshell, h⟩
  split at h
  · cases h
  · rcases Option.bind_eq_some_iff.mp h with ⟨entries, _, h⟩
    have hsize := parseSequence_size hshell
    cases h
    exact hsize

end Format

section Rules

theorem Width.maxValue_eq {width : Width} (hw : width ≠ .zero) :
    width.maxValue = 256 ^ width.size - 1 := by
  cases width with
  | zero => exact absurd rfl hw
  | _ => rfl

namespace WireType

theorem limitRule?_varint (kind : VarInt) : ∃ bits zigzag bias,
    (WireType.varint kind).limitRule? = some (.varint bits zigzag kind.maxSize bias) := by
  cases kind <;> exact ⟨_, _, _, rfl⟩

theorem limitRule?_bounded {width : Width} (hw : width ≠ .zero) (max : Option Nat) :
    (WireType.boundedOctets width max).limitRule? = some (.prefixed width.size) := by
  cases width with
  | zero => exact absurd rfl hw
  | _ => rfl

theorem limitRule?_string {width : Width} (hw : width ≠ .zero) :
    (WireType.string width).limitRule? = some (.prefixed width.size) := by
  cases width with
  | zero => exact absurd rfl hw
  | _ => rfl

theorem limitRule?_list (width : SequenceWidth) :
    (WireType.list width.width).limitRule? = some (.sequence width.size) := by
  cases width <;> rfl

end WireType

end Rules

section Limits

/-- The rule of the type gives the end of what the parser of the format finds in
    the bytes of a window. -/
theorem WireType.limitIn_of_parse {type : WireType} {format : Format} (hread : type.ReadAs format)
    {order : Option ByteOrder} {window : Bytes} {o m : Nat} (hlength : o + window.length = m)
    (hm : m < 2 ^ (63 : Nat)) {c : Content}
    (h : format.parse ⟨order, type.declaredBound⟩ window = some c) :
    ∃ rule, type.limitRule? = some rule ∧
      rule.limitIn type.isString window o m = some (o + c.size) := by
  cases hread with
  | fixed kind =>
      have hsize : c.size = kind.width := Format.parseFixed_size h
      exact ⟨_, WireType.limitRule?_of_fixedWidth? (WireType.fixedWidth?_fixed kind),
        by rw [LimitRule.limitIn, hsize]⟩
  | varint kind =>
      rcases Format.parseVarint_size h with ⟨hsize, hle⟩
      rcases WireType.limitRule?_varint kind with ⟨bits, zigzag, bias, hrule⟩
      exact ⟨_, hrule, by rw [LimitRule.limitIn, if_pos hle, hsize]⟩
  | octets =>
      cases h
      exact ⟨_, rfl, by rw [LimitRule.limitIn, Content.size, hlength]⟩
  | bounded width max =>
      by_cases hw : width = .zero
      · subst hw
        cases h
        refine ⟨_, rfl, ?_⟩
        -- the largest bound is beyond every window, so it is as good as none
        have hword : Bounded.defaultBound .zero = 2 ^ (64 : Nat) - 1 := rfl
        cases max with
        | none =>
            simp only [LimitRule.limitIn, declaredBound, Content.size, List.length_take,
              Bounded.effectiveBound, hword, Option.getD_none, Option.some.injEq]
            omega
        | some bound =>
            simp only [LimitRule.limitIn, declaredBound, Content.size, List.length_take,
              Bounded.effectiveBound, hword, Option.getD_some, Option.some.injEq]
            omega
      · have hsize := Format.parseBounded_size hw h
        refine ⟨_, WireType.limitRule?_bounded hw max, ?_⟩
        rw [LimitRule.limitIn, hsize, Nat.add_assoc]
        rfl
  | string width =>
      by_cases hw : width = .zero
      · subst hw
        cases h
        exact ⟨_, rfl, by rw [LimitRule.limitIn, Content.size, hlength]⟩
      · have hsize := Format.parseString_size hw h
        refine ⟨_, WireType.limitRule?_string hw, ?_⟩
        simp only [LimitRule.limitIn, WireType.isString, Bool.true_and, decide_eq_true_eq]
        rw [hsize, Width.maxValue_eq hw, Nat.add_assoc]
  | varstring =>
      rcases Format.parseVarstring_size h with ⟨n, hn, hge, hsize⟩
      refine ⟨_, rfl, ?_⟩
      rw [LimitRule.limitIn, ← hn, hsize]
      by_cases hnull : n = -1
      · subst hnull
        rfl
      · simp only [if_neg hnull, if_neg (show ¬ n < 0 by omega), Nat.add_assoc]
  | emptyList =>
      cases h
      exact ⟨_, rfl, rfl⟩
  | list width =>
      have hsize := Format.parseSequence_size h
      exact ⟨_, WireType.limitRule?_list width, by rw [LimitRule.limitIn, hsize, Nat.add_assoc]⟩
  | array width type item =>
      have hsize := Format.parse_array_size h
      exact ⟨_, rfl, by rw [LimitRule.limitIn, Width.bytes_eq_size, hsize, Nat.add_assoc]; rfl⟩
  | map width keyType valueType key value =>
      have hsize := Format.parse_map_size h
      exact ⟨_, rfl, by rw [LimitRule.limitIn, Width.bytes_eq_size, hsize, Nat.add_assoc]; rfl⟩

/-- A reader of a built-in type that accepts a window ends where the described
    rule says, read on the bytes of that window. A declared bound is given to the
    reader. -/
theorem WireType.limit_eq_limitIn {type : WireType} {format : Format} (hread : type.ReadAs format)
    {b : Buffer} (hb : b.Addressable) (order : Option ByteOrder) {o m : Nat} {r : Reader}
    (h : format.wrap b ⟨order, type.declaredBound⟩ o m = .ok r) :
    ∃ rule, type.limitRule? = some rule ∧
      rule.limitIn type.isString (b.segment o m) o m = some r.limit := by
  rcases Format.wrap_eq_ok hb h with ⟨c, hparse, ho, hm, _, _, hlimit, _, _⟩
  have hlength : o + (b.segment o m).length = m := by
    rw [b.length_segment hm]
    omega
  have hsize : b.size < 2 ^ (63 : Nat) := hb
  rw [hlimit]
  exact limitIn_of_parse hread hlength (by omega) hparse

/-- The null string, in a window that goes on behind it. -/
theorem WireType.limit_eq_limitIn_null :
    ∃ r rule, (Format.string .eight).wrap (Buffer.ofBytes [7, 255, 1, 2]) {} 1 4 = .ok r ∧
      r.limit = 2 ∧ (WireType.string .eight).limitRule? = some rule ∧
      rule.limitIn true [255, 1, 2] 1 4 = some r.limit := by
  have hb : (Buffer.ofBytes [7, 255, 1, 2]).Addressable := by
    unfold Buffer.Addressable
    decide
  have h : (Format.string .eight).wrap (Buffer.ofBytes [7, 255, 1, 2]) {} 1 4 =
      .ok (.string ⟨.eight, ⟨Buffer.ofBytes [7, 255, 1, 2], 1, 4⟩, none⟩) := rfl
  rcases WireType.limit_eq_limitIn (.string .eight) hb none h with ⟨rule, hrule, hlimit⟩
  exact ⟨_, rule, h, rfl, hrule, hlimit⟩

end Limits

end Wireform
