import Wireform.Proofs.Content

/-!
# A Reference Parser

The wire formats as parsers of byte lists.

A reader works on positions in a buffer and keeps apart what it checks when it
is bound from what it reads out later. Here the same formats are read in one
go from a list: `Format.parse` takes the bytes of a window from its start and
yields the content found there, or nothing. There is no position, no failing
arithmetic and no second visit to the elements, so the laws of the format
itself can be proved by looking at lists. That readers follow this parser is a
theorem of its own.

The law that matters is `Format.parse_prefixDetermined`. A parse that has
succeeded depends on the bytes it has used and on nothing behind them, unless
the format ends where its window ends. No induction over the format is needed for it: an
array cuts its fields out by its own length, so whatever its elements depend
on lies inside the bytes the array has used.

## Main definitions

* `Bytes.front?`: A given number of bytes from the front.
* `Varint.scanBytes`: The end of a variable-width integer in a list.
* `Format.parse`: The reference parser.
* `Format.isDelimited`: The formats that say themselves where they end.
* `PrefixDetermined`: A parser that looks at no byte behind those it uses.

## Theorems

* `Format.parse_prefixDetermined`: A format that says where it ends is
  determined by the bytes its parse has used.
* `Format.parse_isPrefix`: A parse uses bytes from the front.
-/

namespace Wireform

/-- The first `n` bytes, if there are so many. -/
def Bytes.front? (n : Nat) (bytes : Bytes) : Option Bytes :=
  if n ≤ bytes.length then some (bytes.take n) else none

namespace Varint

/-- Follow the continuation bits at the front of some bytes, of which `size`
    have been seen already. -/
def scanBytes (maxSize : Nat) (lastMask : UInt8) : (size : Nat) → Bytes → Scan
  | _, [] => .truncated
  | size, byte :: rest =>
      if size + 1 = maxSize then
        if byte &&& lastMask ≠ 0 then .overflow else .complete (size + 1)
      else if byte &&& 0x80 = 0 then .complete (size + 1)
      else scanBytes maxSize lastMask (size + 1) rest

end Varint

/-- The end of an integer of the type at the front of some bytes. -/
def VarInt.scanBytes (kind : VarInt) (bytes : Bytes) : Varint.Scan :=
  match kind with
  | .varuint32 | .varuint32n | .varint32 =>
      Varint.scanBytes Varint.maxSize32 Varint.lastMask32 0 bytes
  | .varint64 => Varint.scanBytes Varint.maxSize64 Varint.lastMask64 0 bytes

namespace Format

/-- An integer of fixed width. -/
def parseFixed (kind : FixedInt) (order : ByteOrder) (input : Bytes) : Option Content := do
  let bytes ← input.front? kind.width
  return { bytes, number := some (kind.decode (Bytes.toNatLE (order.arrange bytes))) }

/-- An integer of variable width. -/
def parseVarint (kind : VarInt) (input : Bytes) : Option Content :=
  match kind.scanBytes input with
  | .complete size =>
      let bytes := input.take size
      some { bytes, number := some (kind.decode (Varint.ofGroups bytes % Word.bound)) }
  | .truncated | .overflow => none

/-- Octets up to a bound. -/
def parseBounded (width : Width) (bound : Nat) (input : Bytes) : Option Content :=
  if width = .zero then some { bytes := input.take bound, payload := some (input.take bound) }
  else do
    let head ← input.front? width.size
    if Bytes.toNatLE head > bound then none
    else do
      let bytes ← input.front? (width.size + Bytes.toNatLE head)
      return { bytes, payload := some (bytes.drop width.size) }

/-- A string with a prefix of fixed width. -/
def parseString (width : Width) (input : Bytes) : Option Content :=
  if width = .zero then some { bytes := input, payload := some input }
  else do
    let head ← input.front? width.size
    if Bytes.toNatLE head = width.maxValue then return { bytes := head }
    else do
      let bytes ← input.front? (width.size + Bytes.toNatLE head)
      return { bytes, payload := some (bytes.drop width.size) }

/-- A string with a varint in front. -/
def parseVarstring (input : Bytes) : Option Content :=
  match Varint.scanBytes Varint.maxSize32 Varint.lastMask32 0 input with
  | .complete size =>
      let length := unzigzag (Varint.ofGroups (input.take size) % Word.bound % 2 ^ (32 : Nat))
      if length = -1 then some { bytes := input.take size }
      else if length < -1 then none
      else do
        let bytes ← input.front? (size + length.toNat)
        return { bytes, payload := some (bytes.drop size) }
  | .truncated | .overflow => none

/-- The two prefixes and the fields of a list-shaped value. -/
def parseSequence (width : SequenceWidth) (input : Bytes) : Option Content := do
  let head ← input.front? (2 * width.size)
  let length := Bytes.toNatLE (head.take width.size)
  if length < width.size then none
  else do
    let bytes ← input.front? (width.size + length)
    return { bytes, count := Bytes.toNatLE (head.drop width.size),
             fields := bytes.drop (2 * width.size) }

/-- A number of values one after the other. -/
def parseMany {α : Type} (next : Bytes → Option (α × Nat)) : Nat → Bytes → Option (List α)
  | 0, _ => some []
  | count + 1, input => do
      let (value, size) ← next input
      let rest ← parseMany next count (input.drop size)
      return value :: rest

/-- What a parser finds, with its size. -/
def sized (p : Bytes → Option Content) (input : Bytes) : Option (Content × Nat) :=
  (p input).map fun c => (c, c.size)

/-- What two parsers find one behind the other, with the size of both. -/
def paired (p q : Bytes → Option Content) (input : Bytes) :
    Option ((Content × Content) × Nat) := do
  let k ← p input
  let v ← q (input.drop k.size)
  return ((k, v), k.size + v.size)

/-- The content at the front of some bytes, if they start with an encoding of
    the format. -/
def parse : Format → Settings → Bytes → Option Content
  | .fixed kind, settings, input => parseFixed kind (settings.order.getD .native) input
  | .varint kind, _, input => parseVarint kind input
  | .octets, _, input => some { bytes := input, payload := some input }
  | .bounded width, settings, input =>
      let bound := Bounded.effectiveBound width (settings.bound.getD (Bounded.defaultBound width))
      parseBounded width bound input
  | .string width, _, input => parseString width input
  | .varstring, _, input => parseVarstring input
  | .emptyList, _, _ => some { bytes := [] }
  | .list width, _, input => parseSequence width input
  | .array width item, _, input => do
      let shell ← parseSequence width input
      let items ← parseMany (sized (item.parse {})) shell.count shell.fields
      return { shell with items }
  | .map width key value, _, input => do
      let shell ← parseSequence width input
      if shell.count % 2 ≠ 0 then none
      else do
        let entries ← parseMany (paired (key.parse {}) (value.parse {})) (shell.count / 2)
          shell.fields
        return { shell with entries }

/-- Whether an encoding of the format says itself where it ends. Octets and
    strings without a prefix end where their window ends. -/
def isDelimited : Format → Bool
  | .octets | .bounded .zero | .string .zero => false
  | _ => true

end Format

namespace Bytes

theorem front?_eq_some {n : Nat} {bytes front : Bytes} :
    bytes.front? n = some front ↔ n ≤ bytes.length ∧ front = bytes.take n := by
  unfold front?
  by_cases h : n ≤ bytes.length
  · rw [if_pos h, Option.some.injEq]
    exact ⟨fun he => ⟨h, he.symm⟩, fun he => he.2.symm⟩
  · rw [if_neg h]
    exact ⟨fun he => (nomatch he), fun he => absurd he.1 h⟩

theorem length_of_front? {n : Nat} {bytes front : Bytes} (h : bytes.front? n = some front) :
    front.length = n := by
  rcases front?_eq_some.mp h with ⟨hn, rfl⟩
  exact List.length_take_of_le hn

theorem isPrefix_of_front? {n : Nat} {bytes front : Bytes} (h : bytes.front? n = some front) :
    front <+: bytes := by
  rcases front?_eq_some.mp h with ⟨_, rfl⟩
  exact List.take_prefix n bytes

theorem front?_append {n : Nat} {front : Bytes} (h : front.length = n) (rest : Bytes) :
    (front ++ rest).front? n = some front := by
  refine front?_eq_some.mpr ⟨?_, ?_⟩
  · rw [List.length_append]
    omega
  · rw [List.take_append_of_le_length (by omega), List.take_of_length_le (by omega)]

/-- A shorter front is found again in a longer one, whatever follows that. -/
theorem front?_append_of_le {n k : Nat} {bytes short long : Bytes}
    (hs : bytes.front? n = some short) (hl : bytes.front? k = some long) (hnk : n ≤ k)
    (rest : Bytes) : (long ++ rest).front? n = some short := by
  have hlen := length_of_front? hl
  rcases front?_eq_some.mp hs with ⟨_, rfl⟩
  rcases front?_eq_some.mp hl with ⟨_, rfl⟩
  refine front?_eq_some.mpr ⟨?_, ?_⟩
  · rw [List.length_append]
    omega
  · rw [List.take_append_of_le_length (by omega), List.take_take, Nat.min_eq_left hnk]

end Bytes

namespace Varint

/-- A complete scan ends within the bytes, behind those seen before. -/
theorem scanBytes_size {maxSize : Nat} {lastMask : UInt8} {size n : Nat} {bytes : Bytes}
    (h : scanBytes maxSize lastMask size bytes = .complete n) :
    size < n ∧ n ≤ size + bytes.length := by
  induction bytes generalizing size with
  | nil => exact absurd h (by simp only [scanBytes, reduceCtorEq, not_false_eq_true])
  | cons byte rest ih =>
      rw [List.length_cons]
      simp only [scanBytes] at h
      split at h
      · split at h
        · exact nomatch h
        · cases h
          omega
      · split at h
        · cases h
          omega
        · have := ih h
          omega

/-- A complete scan looks at no byte behind the one that ends the integer. -/
theorem scanBytes_append {maxSize : Nat} {lastMask : UInt8} {size n : Nat} {bytes : Bytes}
    (h : scanBytes maxSize lastMask size bytes = .complete n) (rest : Bytes) :
    scanBytes maxSize lastMask size (bytes.take (n - size) ++ rest) = .complete n := by
  induction bytes generalizing size with
  | nil => exact absurd h (by simp only [scanBytes, reduceCtorEq, not_false_eq_true])
  | cons byte tail ih =>
      have hsize := scanBytes_size h
      rw [show n - size = n - (size + 1) + 1 by omega, List.take_succ_cons, List.cons_append]
      simp only [scanBytes] at h ⊢
      by_cases hlast : size + 1 = maxSize
      · rw [if_pos hlast] at h ⊢
        exact h
      · rw [if_neg hlast] at h ⊢
        by_cases hend : byte &&& 0x80 = 0
        · rw [if_pos hend] at h ⊢
          exact h
        · rw [if_neg hend] at h ⊢
          exact ih h

end Varint

namespace VarInt

theorem scanBytes_size {kind : VarInt} {n : Nat} {bytes : Bytes}
    (h : kind.scanBytes bytes = .complete n) : 0 < n ∧ n ≤ bytes.length := by
  cases kind <;> simpa only [Nat.zero_add] using Varint.scanBytes_size h

theorem scanBytes_append {kind : VarInt} {n : Nat} {bytes : Bytes}
    (h : kind.scanBytes bytes = .complete n) (rest : Bytes) :
    kind.scanBytes (bytes.take n ++ rest) = .complete n := by
  cases kind <;> exact Varint.scanBytes_append h rest

end VarInt

/-- What the parser finds stands in front, and it finds the same wherever
    these bytes stand in front of others. -/
def PrefixDetermined (p : Bytes → Option Content) : Prop :=
  ∀ input c, p input = some c → c.bytes <+: input ∧ ∀ rest, p (c.bytes ++ rest) = some c

/-- Looking further into what was found, without using more bytes, keeps a
    parser determined. -/
theorem PrefixDetermined.bind {p : Bytes → Option Content} (hp : PrefixDetermined p)
    {look : Content → Option Content} (hlook : ∀ c d, look c = some d → d.bytes = c.bytes) :
    PrefixDetermined fun input => (p input).bind look := by
  intro input d hd
  rcases Option.bind_eq_some_iff.mp hd with ⟨c, hc, hcd⟩
  rcases hp input c hc with ⟨hstarts, happ⟩
  rw [hlook c d hcd]
  refine ⟨hstarts, fun rest => ?_⟩
  simp only [happ rest, Option.bind_some, hcd]

namespace Format

theorem parseFixed_size {kind : FixedInt} {order : ByteOrder} {input : Bytes} {c : Content}
    (h : parseFixed kind order input = some c) : c.size = kind.width := by
  rcases Option.bind_eq_some_iff.mp h with ⟨bytes, hbytes, h⟩
  cases h
  exact Bytes.length_of_front? hbytes

theorem parseFixed_determined (kind : FixedInt) (order : ByteOrder) :
    PrefixDetermined (parseFixed kind order) := by
  intro input c hc
  rcases Option.bind_eq_some_iff.mp hc with ⟨bytes, hbytes, hc⟩
  cases hc
  refine ⟨Bytes.isPrefix_of_front? hbytes, fun rest => ?_⟩
  rw [parseFixed, Bytes.front?_append (Bytes.length_of_front? hbytes)]
  rfl

theorem parseVarint_determined (kind : VarInt) : PrefixDetermined (parseVarint kind) := by
  intro input c hc
  unfold parseVarint at hc
  split at hc
  · next size hscan =>
      cases hc
      refine ⟨List.take_prefix size input, fun rest => ?_⟩
      have hlen := List.length_take_of_le (VarInt.scanBytes_size hscan).2
      rw [parseVarint, VarInt.scanBytes_append hscan]
      simp only [List.take_left' hlen]
  · exact nomatch hc
  · exact nomatch hc

theorem parseBounded_determined {width : Width} (hw : width ≠ .zero) (bound : Nat) :
    PrefixDetermined (parseBounded width bound) := by
  intro input c hc
  rw [parseBounded, if_neg hw] at hc
  rcases Option.bind_eq_some_iff.mp hc with ⟨head, hhead, hc⟩
  by_cases hbound : Bytes.toNatLE head > bound
  · rw [if_pos hbound] at hc
    exact nomatch hc
  · rw [if_neg hbound] at hc
    rcases Option.bind_eq_some_iff.mp hc with ⟨bytes, hbytes, hc⟩
    cases hc
    refine ⟨Bytes.isPrefix_of_front? hbytes, fun rest => ?_⟩
    -- the prefix lies in the bytes that were used
    rw [parseBounded, if_neg hw, Bytes.front?_append_of_le hhead hbytes (by omega)]
    simp only [Option.bind_eq_bind, Option.bind_some]
    rw [if_neg hbound, Bytes.front?_append (Bytes.length_of_front? hbytes)]
    rfl

theorem parseString_determined {width : Width} (hw : width ≠ .zero) :
    PrefixDetermined (parseString width) := by
  intro input c hc
  rw [parseString, if_neg hw] at hc
  rcases Option.bind_eq_some_iff.mp hc with ⟨head, hhead, hc⟩
  by_cases hnull : Bytes.toNatLE head = width.maxValue
  · -- the null string is its prefix alone
    rw [if_pos hnull] at hc
    cases hc
    refine ⟨Bytes.isPrefix_of_front? hhead, fun rest => ?_⟩
    rw [parseString, if_neg hw, Bytes.front?_append (Bytes.length_of_front? hhead)]
    simp only [Option.bind_eq_bind, Option.bind_some]
    rw [if_pos hnull]
    rfl
  · rw [if_neg hnull] at hc
    rcases Option.bind_eq_some_iff.mp hc with ⟨bytes, hbytes, hc⟩
    cases hc
    refine ⟨Bytes.isPrefix_of_front? hbytes, fun rest => ?_⟩
    rw [parseString, if_neg hw, Bytes.front?_append_of_le hhead hbytes (by omega)]
    simp only [Option.bind_eq_bind, Option.bind_some]
    rw [if_neg hnull, Bytes.front?_append (Bytes.length_of_front? hbytes)]
    rfl

theorem parseVarstring_determined : PrefixDetermined parseVarstring := by
  intro input c hc
  unfold parseVarstring at hc
  split at hc
  · next size hscan =>
      have hsize : size ≤ input.length := by
        simpa only [Nat.zero_add] using (Varint.scanBytes_size hscan).2
      have hlen := List.length_take_of_le hsize
      have hagain := fun rest => Varint.scanBytes_append hscan rest
      simp only [Nat.sub_zero] at hagain
      simp only [] at hc
      split at hc
      · next hnull =>
          cases hc
          refine ⟨List.take_prefix size input, fun rest => ?_⟩
          rw [parseVarstring, hagain]
          simp only [List.take_left' hlen]
          rw [if_pos hnull]
      · next hnull =>
          split at hc
          · exact nomatch hc
          · next hneg =>
              rcases Option.bind_eq_some_iff.mp hc with ⟨bytes, hbytes, hc⟩
              cases hc
              refine ⟨Bytes.isPrefix_of_front? hbytes, fun rest => ?_⟩
              -- the integer in front lies inside the bytes used
              have hbytesLen := Bytes.length_of_front? hbytes
              have hfront : bytes.take size = input.take size := by
                rw [(Bytes.front?_eq_some.mp hbytes).2, List.take_take, Nat.min_eq_left (by omega)]
              have hsplit : bytes ++ rest = input.take size ++ (bytes.drop size ++ rest) := by
                rw [← hfront, ← List.append_assoc, List.take_append_drop]
              have hhead : (bytes ++ rest).take size = input.take size := by
                rw [hsplit, List.take_left' hlen]
              have hscan' := hagain (bytes.drop size ++ rest)
              rw [← hsplit] at hscan'
              rw [parseVarstring, hscan']
              simp only [hhead]
              rw [if_neg hnull, if_neg hneg, Bytes.front?_append hbytesLen]
              rfl
  · exact nomatch hc
  · exact nomatch hc

theorem parseSequence_determined (width : SequenceWidth) :
    PrefixDetermined (parseSequence width) := by
  intro input c hc
  rcases Option.bind_eq_some_iff.mp hc with ⟨head, hhead, hc⟩
  simp only [] at hc
  by_cases hshort : Bytes.toNatLE (head.take width.size) < width.size
  · rw [if_pos hshort] at hc
    exact nomatch hc
  · rw [if_neg hshort] at hc
    rcases Option.bind_eq_some_iff.mp hc with ⟨bytes, hbytes, hc⟩
    cases hc
    refine ⟨Bytes.isPrefix_of_front? hbytes, fun rest => ?_⟩
    rw [parseSequence, Bytes.front?_append_of_le hhead hbytes (by omega)]
    simp only [Option.bind_eq_bind, Option.bind_some]
    rw [if_neg hshort, Bytes.front?_append (Bytes.length_of_front? hbytes)]
    rfl

/-- The parse of an array or a map looks into the fields of its shell, which
    keeps the bytes it has used. -/
theorem parse_prefixDetermined {format : Format} (h : format.isDelimited) (settings : Settings) :
    PrefixDetermined (format.parse settings) := by
  cases format with
  | fixed kind => exact parseFixed_determined kind _
  | varint kind => exact parseVarint_determined kind
  | octets => exact absurd h Bool.false_ne_true
  | bounded width =>
      refine parseBounded_determined (fun hw => ?_) _
      subst hw
      exact absurd h Bool.false_ne_true
  | string width =>
      refine parseString_determined (fun hw => ?_)
      subst hw
      exact absurd h Bool.false_ne_true
  | varstring => exact parseVarstring_determined
  | emptyList =>
      intro input c hc
      cases hc
      exact ⟨List.nil_prefix, fun _ => rfl⟩
  | list width => exact parseSequence_determined width
  | array width item =>
      refine (parseSequence_determined width).bind fun shell c hc => ?_
      rcases Option.bind_eq_some_iff.mp hc with ⟨items, _, hc⟩
      cases hc
      rfl
  | map width key value =>
      refine (parseSequence_determined width).bind fun shell c hc => ?_
      by_cases hodd : shell.count % 2 ≠ 0
      · rw [if_pos hodd] at hc
        exact nomatch hc
      · rw [if_neg hodd] at hc
        rcases Option.bind_eq_some_iff.mp hc with ⟨entries, _, hc⟩
        cases hc
        rfl

/-- What a parse uses stands in front of its input, for every format. -/
theorem parse_isPrefix {format : Format} {settings : Settings} {input : Bytes} {c : Content}
    (h : format.parse settings input = some c) : c.bytes <+: input := by
  by_cases hd : format.isDelimited
  · exact (parse_prefixDetermined hd settings input c h).1
  · unfold isDelimited at hd
    split at hd
    · cases h
      exact List.prefix_rfl
    · cases h
      exact List.take_prefix _ input
    · cases h
      exact List.prefix_rfl
    · exact absurd rfl hd

end Format

end Wireform
