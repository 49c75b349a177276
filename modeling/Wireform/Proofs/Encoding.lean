import Wireform.Proofs.Numbers

/-!
# The Reference Encoding

Values of every format and the bytes they stand for, without a buffer.

A builder writes into a window step by step, moves back to patch prefixes, and
lets nested builders write into the same buffer. What it is supposed to leave
there is said here by one recursion over the format: digits by place for
numbers, a length in front of a payload, a length and a count in front of
fields. `Fits` collects what the prefixes can express, at every depth.

The other half is that nothing is lost. `parse_encode` says that the reference
parser finds a value in its encoding. Together with the fact that readers
follow the parser it becomes a statement on readers, and it is the only
induction over values that reading needs.

## Main definitions

* `Format.Value`: The values of a format.
* `Format.encode`: The bytes of a value.
* `Format.Fits`: Numbers, lengths and counts are in range, at every depth.
* `Format.value`: The value that a content holds.
* `Format.isSelfDelimiting`: The format says where it ends, at every depth.
* `Format.Recovers`: A value is found in its encoding.

## Theorems

* `Format.parseMany_flatMap`: Encodings in a row are parsed one by one.
* `Format.parse_encode`: The value is found in its encoding.
* `Format.parse_encode_append`: The same with anything behind it.
-/

namespace Wireform

namespace Bounded

theorem defaultBound_eq {width : Width} (hw : width ≠ .zero) :
    defaultBound width = width.maxValue := by
  cases width with
  | zero => exact absurd rfl hw
  | _ => rfl

theorem effectiveBound_maxValue {width : Width} (hw : width ≠ .zero) :
    effectiveBound width width.maxValue = width.maxValue := by
  rw [effectiveBound, defaultBound_eq hw, Nat.min_self]

end Bounded

namespace Format

/-- The values of a format. A string may be null, and a list is a count and the
    bytes of its fields. -/
@[reducible]
def Value : Format → Type
  | .fixed _ | .varint _ => Int
  | .octets | .bounded _ => Bytes
  | .string _ | .varstring => Option Bytes
  | .emptyList => Unit
  | .list _ => Nat × Bytes
  | .array _ item => List item.Value
  | .map _ key value => List (key.Value × value.Value)

/-- Fields behind the two prefixes of a list-shaped value. The length counts
    every byte after itself. -/
def framed (width : SequenceWidth) (count : Nat) (fields : Bytes) : Bytes :=
  Bytes.word width.size (width.size + fields.length) ++ Bytes.word width.size count ++ fields

/-- The bytes of a value. The null string has all ones for a length, or -1. -/
def encode : (format : Format) → format.Value → Bytes
  | .fixed kind, n => Bytes.word kind.width (n % kind.modulus).toNat
  | .varint kind, n => Varint.septets (kind.represent n)
  | .octets, bytes => bytes
  | .bounded width, bytes => Bytes.word width.size bytes.length ++ bytes
  | .string width, none => Bytes.word width.size width.maxValue
  | .string width, some bytes => Bytes.word width.size bytes.length ++ bytes
  | .varstring, none => Varint.septets (zigzag (-1))
  | .varstring, some bytes => Varint.septets (zigzag bytes.length) ++ bytes
  | .emptyList, _ => []
  | .list width, (count, fields) => framed width count fields
  | .array width item, items => framed width items.length (items.flatMap item.encode)
  | .map width key value, entries =>
      framed width (2 * entries.length)
        (entries.flatMap fun e => key.encode e.1 ++ value.encode e.2)

/-- The two prefixes of a list-shaped value have room for its length and its
    count. -/
def FramedFits (width : SequenceWidth) (count : Nat) (fields : Bytes) : Prop :=
  width.size + fields.length ≤ width.maxValue ∧ count ≤ width.maxValue

/-- Every number is in the range of its type, and every length and count fits
    its prefix. The length of a string stays below all ones, which are null. -/
def Fits : (format : Format) → format.Value → Prop
  | .fixed kind, n => kind.InRange n
  | .varint kind, n => kind.InRange n
  | .octets, _ | .emptyList, _ | .string _, none | .varstring, none => True
  | .bounded width, bytes => bytes.length ≤ width.maxValue
  | .string width, some bytes => bytes.length < width.maxValue
  | .varstring, some bytes => bytes.length ≤ 2 ^ (31 : Nat) - 1
  | .list width, (count, fields) => FramedFits width count fields
  | .array width item, items =>
      FramedFits width items.length (items.flatMap item.encode) ∧ ∀ v ∈ items, item.Fits v
  | .map width key value, entries =>
      FramedFits width (2 * entries.length)
        (entries.flatMap fun e => key.encode e.1 ++ value.encode e.2) ∧
      ∀ e ∈ entries, key.Fits e.1 ∧ value.Fits e.2

/-- Whether a value fits can be computed. -/
def decideFits : (format : Format) → (v : format.Value) → Decidable (format.Fits v)
  | .fixed kind, n => inferInstanceAs (Decidable (kind.minValue ≤ n ∧ n ≤ kind.maxValue))
  | .varint kind, n => inferInstanceAs (Decidable (kind.minValue ≤ n ∧ n ≤ kind.maxValue))
  | .octets, _ | .emptyList, _ | .string _, none | .varstring, none => .isTrue trivial
  | .bounded width, bytes => Nat.decLe bytes.length width.maxValue
  | .string width, some bytes => Nat.decLt bytes.length width.maxValue
  | .varstring, some bytes => Nat.decLe bytes.length (2 ^ (31 : Nat) - 1)
  | .list width, (count, fields) =>
      inferInstanceAs (Decidable (width.size + fields.length ≤ width.maxValue ∧
        count ≤ width.maxValue))
  | .array width item, items =>
      have := item.decideFits
      inferInstanceAs (Decidable ((width.size + (items.flatMap item.encode).length ≤
        width.maxValue ∧ items.length ≤ width.maxValue) ∧ ∀ v ∈ items, item.Fits v))
  | .map width key value, entries =>
      have := key.decideFits
      have := value.decideFits
      inferInstanceAs (Decidable ((width.size + (entries.flatMap fun e =>
        key.encode e.1 ++ value.encode e.2).length ≤ width.maxValue ∧
        2 * entries.length ≤ width.maxValue) ∧ ∀ e ∈ entries, key.Fits e.1 ∧ value.Fits e.2))

instance (format : Format) (v : format.Value) : Decidable (format.Fits v) :=
  format.decideFits v

/-- The value that a content holds. -/
def value : (format : Format) → Content → format.Value
  | .fixed _, c | .varint _, c => c.number.getD 0
  | .octets, c | .bounded _, c => c.payload.getD []
  | .string _, c | .varstring, c => c.payload
  | .emptyList, _ => ()
  | .list _, c => (c.count, c.fields)
  | .array _ item, c => c.items.map item.value
  | .map _ key value, c => c.entries.map fun e => (key.value e.1, value.value e.2)

/-- Whether the format and all formats inside it say themselves where they
    end. -/
def isSelfDelimiting : Format → Bool
  | .array _ item => item.isSelfDelimiting
  | .map _ key value => key.isSelfDelimiting && value.isSelfDelimiting
  | format => format.isDelimited

theorem isDelimited_of_isSelfDelimiting {format : Format} (h : format.isSelfDelimiting) :
    format.isDelimited := by
  cases format with
  | array width item => rfl
  | map width key value => rfl
  | _ => exact h

theorem length_framed (width : SequenceWidth) (count : Nat) (fields : Bytes) :
    (framed width count fields).length = 2 * width.size + fields.length := by
  rw [framed, List.length_append, List.length_append, Bytes.length_word, Bytes.length_word]
  omega

/-- The fields and their count are found behind the prefixes. -/
theorem parseSequence_framed {width : SequenceWidth} {count : Nat} {fields : Bytes}
    (h : FramedFits width count fields) :
    parseSequence width (framed width count fields) =
      some { bytes := framed width count fields, count, fields } := by
  have hlen := length_framed width count fields
  have hmax := width.maxValue_lt_pow
  have hhead : Bytes.front? (2 * width.size) (framed width count fields) =
      some (Bytes.word width.size (width.size + fields.length) ++ Bytes.word width.size count) := by
    refine Bytes.front?_append ?_ fields
    rw [List.length_append, Bytes.length_word, Bytes.length_word]
    omega
  have hall : Bytes.front? (width.size + (width.size + fields.length))
      (framed width count fields) = some (framed width count fields) := by
    refine Bytes.front?_eq_some.mpr ⟨by omega, ?_⟩
    rw [List.take_of_length_le (by omega)]
  have hfields : (framed width count fields).drop (2 * width.size) = fields := by
    rw [framed, List.drop_left' (by simp only [List.length_append, Bytes.length_word]; omega)]
  rw [parseSequence, hhead]
  simp only [Option.bind_eq_bind, Option.bind_some]
  rw [List.take_left' (Bytes.length_word _ _), List.drop_left' (Bytes.length_word _ _),
    Bytes.toNatLE_word (Nat.lt_of_le_of_lt h.1 hmax),
    Bytes.toNatLE_word (Nat.lt_of_le_of_lt h.2 hmax), if_neg (by omega), hall,
    Option.bind_some, hfields]
  rfl

/-- Encodings in a row are parsed one by one, if each is parsed with anything
    behind it. -/
theorem parseMany_flatMap {α β : Type} (next : Bytes → Option (α × Nat)) (bytesOf : β → Bytes)
    (tell : α → β) (values : List β)
    (h : ∀ v ∈ values, ∀ rest, ∃ a, next (bytesOf v ++ rest) = some (a, (bytesOf v).length) ∧
      tell a = v) :
    ∃ as, parseMany next values.length (values.flatMap bytesOf) = some as ∧
      as.map tell = values := by
  induction values with
  | nil => exact ⟨[], rfl, rfl⟩
  | cons v rest ih =>
      rcases h v List.mem_cons_self (rest.flatMap bytesOf) with ⟨a, hnext, htell⟩
      rcases ih fun w hw => h w (List.mem_cons_of_mem v hw) with ⟨as, hmany, htells⟩
      refine ⟨a :: as, ?_, ?_⟩
      · rw [List.flatMap_cons, List.length_cons, parseMany, hnext]
        simp only [Option.bind_eq_bind, Option.bind_some, List.drop_left, hmany]
        rfl
      · rw [List.map_cons, htell, htells]

theorem front?_prefixed (head payload : Bytes) :
    Bytes.front? (head.length + payload.length) (head ++ payload) = some (head ++ payload) := by
  refine Bytes.front?_eq_some.mpr ⟨Nat.le_of_eq List.length_append.symm, ?_⟩
  rw [← List.length_append, List.take_length]

theorem parseBounded_encode {width : Width} {bound : Nat} (hw : width ≠ .zero) {bytes : Bytes}
    (hbound : bytes.length ≤ bound) (h : bytes.length ≤ width.maxValue) :
    parseBounded width bound (Bytes.word width.size bytes.length ++ bytes) =
      some { bytes := Bytes.word width.size bytes.length ++ bytes, payload := some bytes } := by
  have hnumber := Bytes.toNatLE_word (Nat.lt_of_le_of_lt h width.maxValue_lt_pow)
  have hall := front?_prefixed (Bytes.word width.size bytes.length) bytes
  rw [Bytes.length_word] at hall
  rw [parseBounded, if_neg hw, Bytes.front?_append (Bytes.length_word _ _)]
  simp only [Option.bind_eq_bind, Option.bind_some]
  rw [hnumber, if_neg (by omega), hall, Option.bind_some,
    List.drop_left' (Bytes.length_word _ _)]
  rfl

theorem parseString_null {width : Width} (hw : width ≠ .zero) :
    parseString width (Bytes.word width.size width.maxValue) =
      some { bytes := Bytes.word width.size width.maxValue } := by
  have hall := Bytes.front?_append (Bytes.length_word width.size width.maxValue) []
  rw [List.append_nil] at hall
  rw [parseString, if_neg hw, hall]
  simp only [Option.bind_eq_bind, Option.bind_some]
  rw [Bytes.toNatLE_word width.maxValue_lt_pow, if_pos rfl]
  rfl

theorem parseString_encode {width : Width} (hw : width ≠ .zero) {bytes : Bytes}
    (h : bytes.length < width.maxValue) :
    parseString width (Bytes.word width.size bytes.length ++ bytes) =
      some { bytes := Bytes.word width.size bytes.length ++ bytes, payload := some bytes } := by
  have hnumber := Bytes.toNatLE_word (Nat.lt_trans h width.maxValue_lt_pow)
  have hall := front?_prefixed (Bytes.word width.size bytes.length) bytes
  rw [Bytes.length_word] at hall
  rw [parseString, if_neg hw, Bytes.front?_append (Bytes.length_word _ _)]
  simp only [Option.bind_eq_bind, Option.bind_some]
  rw [hnumber, if_neg (by omega), hall, Option.bind_some,
    List.drop_left' (Bytes.length_word _ _)]
  rfl

/-- The prefix of a varstring is found in front of anything. -/
theorem scan_septets {length : Int} (hlo : -(2 ^ (31 : Nat) : Int) ≤ length)
    (hhi : length < 2 ^ (31 : Nat))
    (rest : Bytes) :
    Varint.scanBytes Varint.maxSize32 Varint.lastMask32 0
        (Varint.septets (zigzag length) ++ rest) =
      .complete (Varint.septets (zigzag length)).length ∧
    unzigzag (Varint.ofGroups (Varint.septets (zigzag length)) % Word.bound % 2 ^ (32 : Nat)) =
      length := by
  have hlt : zigzag length < 2 * 2 ^ (31 : Nat) := zigzag_lt (2 ^ (31 : Nat)) (by omega) (by omega)
  rw [← Varint.groups_eq_septets]
  constructor
  · have hscan := Varint.scanBytes_append (Varint.scanBytes_groups32 hlt) rest
    rwa [Nat.sub_zero, List.take_length] at hscan
  · have hsmall : zigzag length % Word.bound % 2 ^ (32 : Nat) = zigzag length := by
      unfold Word.bound
      omega
    rw [Varint.ofGroups_groups, hsmall, unzigzag_zigzag]

theorem parseVarstring_null :
    parseVarstring (Varint.septets (zigzag (-1))) =
      some { bytes := Varint.septets (zigzag (-1)) } := by
  rcases scan_septets (by decide : -(2 ^ (31 : Nat) : Int) ≤ -1) (by decide) [] with ⟨hscan, hvalue⟩
  rw [List.append_nil] at hscan
  rw [parseVarstring, hscan]
  simp only [List.take_length]
  rw [hvalue, if_pos rfl]

theorem parseVarstring_encode {bytes : Bytes} (h : bytes.length ≤ 2 ^ (31 : Nat) - 1) :
    parseVarstring (Varint.septets (zigzag bytes.length) ++ bytes) =
      some { bytes := Varint.septets (zigzag bytes.length) ++ bytes, payload := some bytes } := by
  rcases scan_septets (by omega : -(2 ^ (31 : Nat) : Int) ≤ bytes.length) (by omega) bytes with
    ⟨hscan, hvalue⟩
  rw [parseVarstring, hscan]
  simp only [List.take_left]
  rw [hvalue, if_neg (by omega), if_neg (by omega), Int.toNat_natCast, front?_prefixed]
  simp only [Option.bind_eq_bind, Option.bind_some, List.drop_left]
  rfl

theorem parse_append {format : Format} (h : format.isDelimited) {settings : Settings}
    {input : Bytes} {c : Content} (hparse : format.parse settings input = some c)
    (hbytes : c.bytes = input) (rest : Bytes) :
    format.parse settings (input ++ rest) = some c := by
  rw [← hbytes]
  exact (parse_prefixDetermined h settings input c hparse).2 rest

/-- The value is found in its encoding, which is used up. -/
def Recovers (format : Format) (v : format.Value) : Prop :=
  ∃ c, format.parse {} (format.encode v) = some c ∧ c.bytes = format.encode v ∧
    format.value c = v

/-- A value in front of others is found, and so is where the next one starts. -/
theorem Recovers.sized {item : Format} (hd : item.isSelfDelimiting) {v : item.Value}
    (h : item.Recovers v) (rest : Bytes) :
    ∃ c, Format.sized (item.parse {}) (item.encode v ++ rest) =
      some (c, (item.encode v).length) ∧ item.value c = v := by
  rcases h with ⟨c, hparse, hbytes, hvalue⟩
  refine ⟨c, ?_, hvalue⟩
  rw [Format.sized, parse_append (isDelimited_of_isSelfDelimiting hd) hparse hbytes,
    Option.map_some, Content.size, hbytes]

theorem Recovers.paired {key value : Format} (hk : key.isSelfDelimiting)
    (hd : value.isSelfDelimiting) {e : key.Value × value.Value} (hkey : key.Recovers e.1)
    (hvalue : value.Recovers e.2) (rest : Bytes) :
    ∃ c : Content × Content,
      Format.paired (key.parse {}) (value.parse {})
        (key.encode e.1 ++ value.encode e.2 ++ rest) =
          some (c, (key.encode e.1 ++ value.encode e.2).length) ∧
      (key.value c.1, value.value c.2) = e := by
  rcases hkey with ⟨c, hparse, hbytes, hfirst⟩
  rcases hvalue with ⟨d, hparse', hbytes', hsecond⟩
  refine ⟨(c, d), ?_, by rw [hfirst, hsecond]⟩
  -- the value is parsed from where the key has ended
  rw [Format.paired, List.append_assoc,
    parse_append (isDelimited_of_isSelfDelimiting hk) hparse hbytes]
  simp only [Option.bind_eq_bind, Option.bind_some, Content.size]
  rw [hbytes, List.drop_left,
    parse_append (isDelimited_of_isSelfDelimiting hd) hparse' hbytes', Option.bind_some,
    hbytes', ← List.length_append]
  rfl

theorem recovers_array {width : SequenceWidth} {item : Format} (hd : item.isSelfDelimiting)
    {items : List item.Value}
    (hframed : FramedFits width items.length (items.flatMap item.encode))
    (hitems : ∀ v ∈ items, item.Recovers v) : Recovers (.array width item) items := by
  rcases parseMany_flatMap (sized (item.parse {})) item.encode item.value items
    (fun v hv => (hitems v hv).sized hd) with ⟨cs, hmany, hvalues⟩
  refine ⟨{ bytes := encode (.array width item) items, count := items.length,
            fields := items.flatMap item.encode, items := cs }, ?_, rfl, hvalues⟩
  rw [parse, encode, parseSequence_framed hframed]
  simp only [Option.bind_eq_bind, Option.bind_some, hmany]
  rfl

theorem recovers_map {width : SequenceWidth} {key value : Format} (hk : key.isSelfDelimiting)
    (hd : value.isSelfDelimiting) {entries : List (key.Value × value.Value)}
    (hframed : FramedFits width (2 * entries.length)
      (entries.flatMap fun e => key.encode e.1 ++ value.encode e.2))
    (hentries : ∀ e ∈ entries, key.Recovers e.1 ∧ value.Recovers e.2) :
    Recovers (.map width key value) entries := by
  rcases parseMany_flatMap (paired (key.parse {}) (value.parse {}))
    (fun e => key.encode e.1 ++ value.encode e.2)
    (fun c => (key.value c.1, value.value c.2)) entries
    (fun e he => (hentries e he).1.paired hk hd (hentries e he).2) with ⟨cs, hmany, hvalues⟩
  refine ⟨{ bytes := encode (.map width key value) entries, count := 2 * entries.length,
            fields := entries.flatMap fun e => key.encode e.1 ++ value.encode e.2,
            entries := cs }, ?_, rfl, hvalues⟩
  -- keys and values are counted apart, so the count is even
  have hhalf : 2 * entries.length / 2 = entries.length := by omega
  rw [parse, encode, parseSequence_framed hframed]
  simp only [Option.bind_eq_bind, Option.bind_some]
  rw [if_neg (by omega), hhalf, hmany]
  rfl

theorem parse_encode {format : Format} (h : format.isSelfDelimiting) (v : format.Value)
    (hv : format.Fits v) : format.Recovers v := by
  induction format with
  | fixed kind =>
      have hall := Bytes.front?_append (Bytes.length_word kind.width (v % kind.modulus).toNat) []
      rw [List.append_nil] at hall
      refine ⟨{ bytes := encode (.fixed kind) v, number := some v }, ?_, rfl, rfl⟩
      simp only [parse, parseFixed, encode, hall, Option.getD_none, ByteOrder.arrange,
        Option.bind_eq_bind, Option.bind_some, Bytes.toNatLE_word (kind.word_lt v),
        FixedInt.decode_word hv]
      rfl
  | varint kind =>
      have hlt := VarInt.represent_lt hv
      have hscan := VarInt.scanBytes_groups hlt
      have hsmall : kind.represent v % Word.bound = kind.represent v :=
        Nat.mod_eq_of_lt (Nat.lt_of_lt_of_le hlt (by cases kind <;> decide))
      refine ⟨{ bytes := encode (.varint kind) v, number := some v }, ?_, rfl, rfl⟩
      simp only [parse, parseVarint, encode, ← Varint.groups_eq_septets, hscan, List.take_length,
        Varint.ofGroups_groups, hsmall, VarInt.decode_represent hv]
  | octets => exact absurd h Bool.false_ne_true
  | bounded width =>
      have hw : width ≠ .zero := by
        rintro rfl
        exact absurd h Bool.false_ne_true
      refine ⟨{ bytes := encode (.bounded width) v, payload := some v }, ?_, rfl, rfl⟩
      -- without settings the bound is what the prefix can express
      simp only [parse, Option.getD_none, Bounded.defaultBound_eq hw,
        Bounded.effectiveBound_maxValue hw]
      exact parseBounded_encode hw hv hv
  | string width =>
      have hw : width ≠ .zero := by
        rintro rfl
        exact absurd h Bool.false_ne_true
      cases v with
      | none => exact ⟨_, parseString_null hw, rfl, rfl⟩
      | some bytes => exact ⟨_, parseString_encode hw hv, rfl, rfl⟩
  | varstring =>
      cases v with
      | none => exact ⟨_, parseVarstring_null, rfl, rfl⟩
      | some bytes => exact ⟨_, parseVarstring_encode hv, rfl, rfl⟩
  | emptyList => exact ⟨_, rfl, rfl, rfl⟩
  | list width => exact ⟨_, parseSequence_framed hv, rfl, rfl⟩
  | array width item ih =>
      have hd : item.isSelfDelimiting := h
      exact recovers_array hd hv.1 fun w hw => ih hd w (hv.2 w hw)
  | map width key value ihk ihv =>
      rcases Bool.and_eq_true_iff.mp h with ⟨hk, hd⟩
      exact recovers_map hk hd hv.1 fun e he =>
        ⟨ihk hk e.1 (hv.2 e he).1, ihv hd e.2 (hv.2 e he).2⟩

/-- The value is found in its encoding, whatever stands behind it. -/
theorem parse_encode_append {format : Format} (h : format.isSelfDelimiting) (v : format.Value)
    (hv : format.Fits v) (rest : Bytes) :
    ∃ c, format.parse {} (format.encode v ++ rest) = some c ∧ c.bytes = format.encode v ∧
      format.value c = v := by
  rcases parse_encode h v hv with ⟨c, hparse, hbytes, hvalue⟩
  exact ⟨c, parse_append (isDelimited_of_isSelfDelimiting h) hparse hbytes rest, hbytes, hvalue⟩

end Format

end Wireform
