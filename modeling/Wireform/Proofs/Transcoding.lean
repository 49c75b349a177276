import Wireform.Proofs.FailedSteps

/-!
# Text Survives Its Encoding

A text that a character set can express is found again in its bytes, and a text
that it cannot express is refused at the first character beyond the set.

UTF-8 is the only set with characters of more than one byte. Its decoder expects
each byte in a range that the byte before it has left behind, and falls back on a
replacement where the byte is elsewhere. `foldl_step_utf8EncodeChar` says that the
bytes of a character are always in their ranges: the ranges shut out overlong
forms, surrogates and code points beyond the last one, and no character is encoded
as any of these. So the decoder ends between two characters with one more of them,
and the bytes of a whole text are decoded character by character.

The other two sets have one byte for each character. They take a shorter way for
plain text, and `encode_eq_scan` says that it makes no difference.

## Main definitions

* `Charset.firstBeyond?`: Where the first character beyond the set is.
* `Charset.FirstBeyond`: The same as a property.
* `Format.isText`: The formats of strings.
* `Format.HoldsLength`, `Format.stringBytes`: What the prefix of a string can count,
  and prefix and payload together.

## Theorems

* `Utf8.decode_encode`: UTF-8 loses nothing.
* `Charset.decode_encode`: Neither does any other set.
* `Charset.encode_decode_latin1`: Every byte is a character of ISO-8859-1.
* `Builder.write_text_ok_iff`: When text can be written.
* `text_survives_encoding`: Text is refused or read back, by itself and in strings.
-/

namespace Wireform

namespace Utf8

open Decoder

/-! ## The first byte of a character -/

theorem lead_of_plain {b : Nat} (h : b < 0x80) : lead (UInt8.ofNat b) = .char (Char.ofNat b) := by
  have hb : (UInt8.ofNat b).toNat = b := UInt8.toNat_ofNat_of_lt (show b < 256 by omega)
  simp only [lead, hb, if_pos h]

theorem lead_of_two {b : Nat} (hlow : 0xC2 ≤ b) (hhigh : b < 0xE0) :
    lead (UInt8.ofNat b) = .opens ⟨1, b % 32, 0x80, 0xBF⟩ := by
  have hb : (UInt8.ofNat b).toNat = b := UInt8.toNat_ofNat_of_lt (show b < 256 by omega)
  simp only [lead, hb]
  rw [if_neg (by omega), if_neg (by omega), if_pos hhigh]

/-- Of three bytes the second has a narrower range in two cases: overlong forms
    begin with 0xE0, surrogates with 0xED. -/
theorem lead_of_three {b : Nat} (hlow : 0xE0 ≤ b) (hhigh : b < 0xF0) :
    lead (UInt8.ofNat b) = .opens ⟨2, b % 16, if b = 0xE0 then 0xA0 else 0x80,
      if b = 0xED then 0x9F else 0xBF⟩ := by
  have hb : (UInt8.ofNat b).toNat = b := UInt8.toNat_ofNat_of_lt (show b < 256 by omega)
  simp only [lead, hb]
  rw [if_neg (by omega), if_neg (by omega), if_neg (by omega)]
  by_cases hfirst : b = 0xE0
  · subst hfirst
    rfl
  by_cases hsurrogates : b = 0xED
  · subst hsurrogates
    rfl
  rw [if_neg hfirst, if_neg hsurrogates, if_pos hhigh, if_neg hfirst, if_neg hsurrogates]

/-- Of four bytes the second has a narrower range behind the smallest lead and
    behind the largest. -/
theorem lead_of_four {b : Nat} (hlow : 0xF0 ≤ b) (hhigh : b ≤ 0xF4) :
    lead (UInt8.ofNat b) = .opens ⟨3, b % 8, if b = 0xF0 then 0x90 else 0x80,
      if b = 0xF4 then 0x8F else 0xBF⟩ := by
  have hb : (UInt8.ofNat b).toNat = b := UInt8.toNat_ofNat_of_lt (show b < 256 by omega)
  simp only [lead, hb]
  rw [if_neg (by omega), if_neg (by omega), if_neg (by omega), if_neg (by omega),
    if_neg (by omega), if_neg (by omega)]
  by_cases hfirst : b = 0xF0
  · subst hfirst
    rfl
  by_cases hlast : b = 0xF4
  · subst hlast
    rfl
  rw [if_neg hfirst, if_pos (by omega), if_neg hfirst, if_neg hlast]

/-! ## The bytes behind it -/

section Steps

variable {decoded : List Char} {owed bits low high tail : Nat}

theorem step_opens {byte : UInt8} {pending : Pending} (h : lead byte = .opens pending) :
    step ⟨decoded, none⟩ byte = ⟨decoded, some pending⟩ := by
  simp only [step, startWith, h]

/-- A byte in its range adds six bits and leaves fewer bytes owed. -/
theorem step_continues (hlow : low ≤ tail + 0x80) (hhigh : tail + 0x80 ≤ high) (htail : tail < 64) :
    step ⟨decoded, some ⟨owed + 2, bits, low, high⟩⟩ (UInt8.ofNat (tail + 0x80)) =
      ⟨decoded, some ⟨owed + 1, bits * 64 + tail, 0x80, 0xBF⟩⟩ := by
  have hb : (UInt8.ofNat (tail + 0x80)).toNat = tail + 0x80 :=
    UInt8.toNat_ofNat_of_lt (show tail + 0x80 < 256 by omega)
  simp only [step, hb]
  rw [if_pos ⟨hlow, hhigh⟩, if_neg (by omega), show (tail + 0x80) % 64 = tail by omega]
  rfl

/-- The last byte that is owed completes the character. -/
theorem step_completes (hlow : low ≤ tail + 0x80) (hhigh : tail + 0x80 ≤ high) (htail : tail < 64)
    {c : Char} (hc : c.toNat = bits * 64 + tail) :
    step ⟨decoded, some ⟨1, bits, low, high⟩⟩ (UInt8.ofNat (tail + 0x80)) =
      ⟨c :: decoded, none⟩ := by
  have hb : (UInt8.ofNat (tail + 0x80)).toNat = tail + 0x80 :=
    UInt8.toNat_ofNat_of_lt (show tail + 0x80 < 256 by omega)
  simp only [step, hb]
  rw [if_pos ⟨hlow, hhigh⟩, if_pos trivial, show (tail + 0x80) % 64 = tail by omega, ← hc,
    Char.ofNat_toNat]

end Steps

theorem utf8EncodeChar_of_plain {c : Char} (h : c.toNat < 0x80) :
    String.utf8EncodeChar c = [UInt8.ofNat c.toNat] := by
  have hle : c.val.toNat ≤ 0x7F := Nat.le_of_lt_succ h
  simp only [String.utf8EncodeChar, if_pos hle]
  rfl

/-- The bytes of one character are decoded to it, whatever was decoded before. -/
theorem foldl_step_utf8EncodeChar (decoded : List Char) (c : Char) :
    (String.utf8EncodeChar c).foldl step ⟨decoded, none⟩ = ⟨c :: decoded, none⟩ := by
  have hvalid : c.toNat < 0xD800 ∨ 0xDFFF < c.toNat ∧ c.toNat < 0x110000 := c.valid
  have hval : c.val.toNat = c.toNat := rfl
  -- the lengths that the encoder tells apart, from the shortest
  by_cases hplain : c.toNat < 0x80
  · rw [utf8EncodeChar_of_plain hplain]
    simp only [List.foldl_cons, List.foldl_nil, step, startWith, lead_of_plain hplain,
      Char.ofNat_toNat]
  simp only [String.utf8EncodeChar, hval, if_neg (show ¬ c.toNat ≤ 0x7F by omega)]
  by_cases htwo : c.toNat ≤ 0x7FF
  · simp only [if_pos htwo, List.foldl_cons, List.foldl_nil]
    rw [step_opens (lead_of_two (by omega) (by omega))]
    exact step_completes (by omega) (by omega) (by omega) (by omega)
  simp only [if_neg htwo]
  by_cases hthree : c.toNat ≤ 0xFFFF
  · simp only [if_pos hthree, List.foldl_cons, List.foldl_nil]
    -- overlong forms are below the second range, surrogates above it
    rw [step_opens (lead_of_three (by omega) (by omega)),
      step_continues (by split <;> omega) (by split <;> omega) (by omega)]
    exact step_completes (by omega) (by omega) (by omega) (by omega)
  · simp only [if_neg hthree, List.foldl_cons, List.foldl_nil]
    rw [step_opens (lead_of_four (by omega) (by omega)),
      step_continues (by split <;> omega) (by split <;> omega) (by omega),
      step_continues (by omega) (by omega) (by omega)]
    exact step_completes (by omega) (by omega) (by omega) (by omega)

theorem foldl_step_encode (decoded chars : List Char) :
    (chars.flatMap String.utf8EncodeChar).foldl step ⟨decoded, none⟩ =
      ⟨chars.reverse ++ decoded, none⟩ := by
  induction chars generalizing decoded with
  | nil => rfl
  | cons c rest ih =>
      rw [List.flatMap_cons, List.foldl_append, foldl_step_utf8EncodeChar, ih, List.reverse_cons,
        List.append_assoc, List.singleton_append]

/-- The bytes of a text are decoded to the text. -/
theorem decode_encode (text : String) : decode (encode text) = text := by
  rw [decode, encode, foldl_step_encode, finish, List.append_nil, List.reverse_reverse,
    String.ofList_toList]

end Utf8

namespace Charset

/-- The index of the first character beyond the set. -/
def firstBeyond? (charset : Charset) (text : String) : Option Nat :=
  text.toList.findIdx? fun c => charset.maxChar < c.toNat

/-- The character at the index is beyond the set, and none before it is. -/
def FirstBeyond (charset : Charset) (text : String) (index : Nat) : Prop :=
  (∃ c, text.toList[index]? = some c ∧ charset.maxChar < c.toNat) ∧
    ∀ j < index, ∀ c, text.toList[j]? = some c → c.toNat ≤ charset.maxChar

theorem firstBeyond?_eq_some {charset : Charset} {text : String} {index : Nat} :
    charset.firstBeyond? text = some index ↔ charset.FirstBeyond text index := by
  rw [firstBeyond?, List.findIdx?_eq_some_iff_getElem]
  constructor
  · rintro ⟨hindex, hbeyond, hbefore⟩
    refine ⟨⟨_, List.getElem?_eq_getElem hindex, of_decide_eq_true hbeyond⟩, ?_⟩
    intro j hj c hc
    rcases List.getElem?_eq_some_iff.mp hc with ⟨_, rfl⟩
    have hnot := hbefore j hj
    rw [decide_eq_true_eq] at hnot
    exact Nat.le_of_not_lt hnot
  · rintro ⟨⟨c, hc, hbeyond⟩, hbefore⟩
    rcases List.getElem?_eq_some_iff.mp hc with ⟨hindex, rfl⟩
    refine ⟨hindex, decide_eq_true hbeyond, ?_⟩
    intro j hj hmore
    have hle := hbefore j hj _ (List.getElem?_eq_getElem (Nat.lt_trans hj hindex))
    exact absurd (of_decide_eq_true hmore) (Nat.not_lt_of_le hle)

theorem firstBeyond?_eq_none {charset : Charset} {text : String} :
    charset.firstBeyond? text = none ↔ ∀ c ∈ text.toList, c.toNat ≤ charset.maxChar := by
  simp only [firstBeyond?, List.findIdx?_eq_none_iff, decide_eq_false_iff_not, Nat.not_lt]

/-- Every character is in the set of UTF-8. -/
theorem firstBeyond?_utf8 (text : String) : utf8.firstBeyond? text = none := by
  refine firstBeyond?_eq_none.mpr fun c _ => ?_
  have hvalid : c.toNat < 0xD800 ∨ 0xDFFF < c.toNat ∧ c.toNat < 0x110000 := c.valid
  change c.toNat ≤ 0x10FFFF
  omega

section Single

variable {charset : Charset} (hsingle : charset ≠ .utf8)

include hsingle

theorem plain_le_maxChar : 0x7F ≤ charset.maxChar := by
  cases charset with
  | utf8 => exact absurd rfl hsingle
  | latin1 => decide
  | ascii => decide

theorem maxChar_lt : charset.maxChar < 256 := by
  cases charset with
  | utf8 => exact absurd rfl hsingle
  | latin1 => decide
  | ascii => decide

/-- The shorter way for plain text gives what looking at each character gives. -/
theorem encode_eq_scan (text : String) :
    charset.encode text =
      match charset.firstBeyond? text with
      | some index => .error (.refused (.unmappable charset.name text index))
      | none => .ok (text.toList.map fun c => UInt8.ofNat c.toNat) := by
  by_cases hplain : isPlain text
  · have hall : ∀ c ∈ text.toList, c.toNat < 0x80 := by
      intro c hc
      exact of_decide_eq_true (List.all_eq_true.mp hplain c hc)
    have hnone : charset.firstBeyond? text = none := firstBeyond?_eq_none.mpr fun c hc =>
      Nat.le_trans (Nat.le_of_lt_succ (hall c hc)) (plain_le_maxChar hsingle)
    -- characters of one byte in UTF-8 have the same byte here
    have hbytes : Utf8.encode text = text.toList.map fun c => UInt8.ofNat c.toNat := by
      rw [Utf8.encode, List.map_eq_flatMap]
      exact List.flatMap_congr fun c hc => Utf8.utf8EncodeChar_of_plain (hall c hc)
    rw [encode, if_pos (.inr hplain), hnone, hbytes]
  · rw [encode, if_neg (not_or.mpr ⟨hsingle, hplain⟩)]
    rfl

theorem charOf_ofNat {c : Char} (h : c.toNat ≤ charset.maxChar) :
    charset.charOf (UInt8.ofNat c.toNat) = c := by
  have hbyte : (UInt8.ofNat c.toNat).toNat = c.toNat :=
    UInt8.toNat_ofNat_of_lt (Nat.lt_of_le_of_lt h (maxChar_lt hsingle))
  rw [charOf, hbyte, if_pos h, Char.ofNat_toNat]

theorem decode_eq_map (bytes : Bytes) :
    charset.decode bytes = String.ofList (bytes.map charset.charOf) := by
  cases charset with
  | utf8 => exact absurd rfl hsingle
  | latin1 => rfl
  | ascii => rfl

end Single

theorem encode_of_firstBeyond {charset : Charset} {text : String} {index : Nat}
    (h : charset.firstBeyond? text = some index) :
    charset.encode text = .error (.refused (.unmappable charset.name text index)) := by
  have hsingle : charset ≠ .utf8 := by
    rintro rfl
    rw [firstBeyond?_utf8] at h
    cases h
  rw [encode_eq_scan hsingle, h]

/-- Text without a character beyond the set has bytes, and they are read back. -/
theorem encode_of_none {charset : Charset} {text : String}
    (h : charset.firstBeyond? text = none) :
    ∃ bytes, charset.encode text = .ok bytes ∧ charset.decode bytes = text := by
  by_cases hsingle : charset = .utf8
  · subst hsingle
    exact ⟨Utf8.encode text, if_pos (.inl rfl), Utf8.decode_encode text⟩
  · -- each byte stands for the character that it was made of
    refine ⟨_, by rw [encode_eq_scan hsingle, h], ?_⟩
    have hid : text.toList.map (charset.charOf ∘ fun c => UInt8.ofNat c.toNat) = text.toList :=
      (List.map_congr_left fun c hc =>
        charOf_ofNat hsingle (firstBeyond?_eq_none.mp h c hc)).trans (List.map_id _)
    rw [decode_eq_map hsingle, List.map_map, hid, String.ofList_toList]

theorem decode_encode {charset : Charset} {text : String} {bytes : Bytes}
    (h : charset.encode text = .ok bytes) : charset.decode bytes = text := by
  cases hscan : charset.firstBeyond? text with
  | some index =>
      rw [encode_of_firstBeyond hscan] at h
      cases h
  | none =>
      rcases encode_of_none hscan with ⟨bytes', hbytes, hdecode⟩
      rw [hbytes] at h
      cases h
      exact hdecode

theorem encode_eq_error {charset : Charset} {text : String} {fault : Fault Refusal} :
    charset.encode text = .error fault ↔
      ∃ index, charset.FirstBeyond text index ∧
        fault = .refused (.unmappable charset.name text index) := by
  constructor
  · intro h
    cases hscan : charset.firstBeyond? text with
    | some index =>
        rw [encode_of_firstBeyond hscan] at h
        exact ⟨index, firstBeyond?_eq_some.mp hscan, (Except.error.inj h).symm⟩
    | none =>
        rcases encode_of_none hscan with ⟨bytes, hbytes, _⟩
        rw [hbytes] at h
        cases h
  · rintro ⟨index, hfirst, rfl⟩
    exact encode_of_firstBeyond (firstBeyond?_eq_some.mpr hfirst)

/-- The bytes of the characters that ISO-8859-1 has for some bytes are these bytes. -/
theorem encode_decode_latin1 (bytes : Bytes) :
    latin1.encode (latin1.decode bytes) = .ok bytes := by
  have hchar : ∀ byte : UInt8, (latin1.charOf byte).toNat = byte.toNat := by
    intro byte
    have hlt := byte.toNat_lt
    have hvalid : byte.toNat.isValidChar := .inl (by omega)
    rw [charOf, if_pos (show byte.toNat ≤ latin1.maxChar from Nat.le_of_lt_succ hlt), Char.ofNat,
      dif_pos hvalid]
    rfl
  have hlist : (latin1.decode bytes).toList = bytes.map latin1.charOf := String.toList_ofList
  have hnone : latin1.firstBeyond? (latin1.decode bytes) = none := by
    rw [firstBeyond?_eq_none, hlist, List.forall_mem_map]
    intro byte _
    rw [hchar]
    exact Nat.le_of_lt_succ byte.toNat_lt
  have hid : bytes.map ((fun c : Char => UInt8.ofNat c.toNat) ∘ latin1.charOf) = bytes :=
    (List.map_congr_left fun byte _ => by
      rw [Function.comp, hchar, UInt8.ofNat_toNat, id]).trans (List.map_id _)
  rw [encode_eq_scan (by decide), hnone, hlist, List.map_map, hid]

end Charset

/-! ## Strings -/

/-- The formats of strings. -/
def Format.isText : Format → Bool
  | .string _ | .varstring => true
  | _ => false

theorem Format.isSingle_of_isText {format : Format} (h : format.isText) : format.isSingle := by
  cases format with
  | string width => rfl
  | varstring => rfl
  | _ => exact absurd h Bool.false_ne_true

/-- The prefix of the string can count a payload of this length. Without a prefix
    nothing has to be counted, and the largest number of a fixed one is null. -/
def Format.HoldsLength : Format → Nat → Prop
  | .string width, length => width = .zero ∨ length < width.maxValue
  | .varstring, length => length ≤ 2 ^ (31 : Nat) - 1
  | _, _ => True

/-- The bytes of a string with its prefix. -/
def Format.stringBytes : Format → Bytes → Bytes
  | .string width, payload => Format.encode (.string width) (some payload)
  | .varstring, payload => Format.encode .varstring (some payload)
  | _, payload => payload

theorem Strings.Builder.prefixValue_some_exactly (width : Width) (bytes : Bytes) :
    (prefixValue width (some bytes)).Exactly ((Format.string width).HoldsLength bytes.length)
      bytes.length := by
  rw [prefixValue]
  refine (Checked.exactly_ite ⟨_, rfl⟩ fun _ => Checked.exactly_ok _).congr ?_
  rw [Format.HoldsLength, not_and, Nat.not_le, and_true]
  exact ⟨fun h hwidth => h.resolve_left hwidth, fun h => Decidable.or_iff_not_imp_left.mpr h⟩

namespace Builder

section Texts

variable {w : Builder} {format : Format}

theorem exists_bytes_of_text {text : String} {charset : Charset} {payload : Option Bytes}
    (h : (Source.text text charset).payload = .ok payload) :
    ∃ bytes, charset.encode text = .ok bytes ∧ payload = some bytes := by
  rcases Checked.map_eq_ok.mp h with ⟨bytes, hbytes, hpayload⟩
  exact ⟨bytes, hbytes, hpayload.symm⟩

theorem gives_text {text : String} {charset : Charset} {bytes : Bytes}
    (h : charset.encode text = .ok bytes) : (Source.text text charset).Gives (some bytes) := by
  refine ⟨nofun, ?_⟩
  rw [Source.payload, h]
  rfl

/-- A string has an encoding if its prefix can count its bytes. -/
theorem payloadEncoding_exactly (hformat : w.format.isText) (bytes : Bytes) :
    ∃ e, (w.payloadEncoding (some bytes)).Exactly (w.format.HoldsLength bytes.length) e ∧
      e.bytes = w.format.stringBytes bytes := by
  cases w with
  | string s =>
      refine ⟨_, (Strings.Builder.prefixValue_some_exactly s.width bytes).map _, ?_⟩
      exact congrArg (· ++ bytes) (Bytes.ofNatLE_eq_word _ _)
  | varstring s =>
      rcases VarStrings.Builder.prefixValue_exactly (some bytes) with ⟨raw, hraw, hbytes⟩
      exact ⟨_, hraw.map _, hbytes⟩
  | _ => exact absurd hformat Bool.false_ne_true

theorem encodingOf_text (hformat : w.format.isText) (placement : Placement) (text : String)
    (charset : Charset) :
    w.encodingOf (.write placement (.text text charset)) =
      (Source.text text charset).payload >>= w.payloadEncoding := by
  cases w with
  | string s => rfl
  | varstring s => rfl
  | _ => exact absurd hformat Bool.false_ne_true

/-- Text is written if the set has all its characters, the prefix can count its
    bytes and the window has room for both. -/
theorem write_text_ok_iff (hw : w.WritesSingle format) (hformat : format.isText)
    (placement : Placement) (text : String) (charset : Charset) :
    (w.apply (.write placement (.text text charset))).result = .ok () ↔
      ∃ bytes, charset.encode text = .ok bytes ∧ format.HoldsLength bytes.length ∧
        w.cursor.offset + (format.stringBytes bytes).length ≤ w.cursor.maxLimit := by
  cases hw.format_eq
  rw [apply_ok_iff hw.valid hw.single rfl, encodingOf_text hformat]
  constructor
  · rintro ⟨e, he, hroom⟩
    rcases Checked.bind_eq_ok.mp he with ⟨payload, hpayload, he⟩
    rcases exists_bytes_of_text hpayload with ⟨bytes, hbytes, rfl⟩
    rcases payloadEncoding_exactly hformat bytes with ⟨_, hexactly, hstring⟩
    rcases hexactly.of_eq_ok he with ⟨hholds, rfl⟩
    exact ⟨bytes, hbytes, hholds, hstring ▸ hroom⟩
  · rintro ⟨bytes, hbytes, hholds, hroom⟩
    rcases payloadEncoding_exactly hformat bytes with ⟨e, hexactly, hstring⟩
    refine ⟨e, ?_, hstring ▸ hroom⟩
    rw [(gives_text hbytes).2]
    exact hexactly.1 hholds

/-- A step stays in the window in which the builder was started. -/
theorem WritesSingle.window_apply {step : Step} (hw : w.WritesSingle format)
    (hstep : step.isValue) :
    (w.apply step).state.cursor.offset = w.cursor.offset ∧
      (w.apply step).state.cursor.maxLimit = w.cursor.maxLimit := by
  cases hresult : (w.apply step).result with
  | ok _ =>
      rcases apply_taken hw.valid hw.single hstep hresult with ⟨bytes, _, hstate, _⟩
      rw [hstate, cursor_withValue hw.single]
      exact ⟨rfl, rfl⟩
  | error fault =>
      rw [apply_of_error hw.single hstep hresult]
      exact ⟨rfl, rfl⟩

theorem WritesSingle.attempt {steps : List Step} (hw : w.WritesSingle format)
    (hsteps : ∀ s ∈ steps, s.isValue) :
    (w.attempt steps).WritesSingle format ∧
      (w.attempt steps).cursor.offset = w.cursor.offset ∧
      (w.attempt steps).cursor.maxLimit = w.cursor.maxLimit := by
  induction steps generalizing w with
  | nil => exact ⟨hw, rfl, rfl⟩
  | cons s rest ih =>
      rcases List.forall_mem_cons.mp hsteps with ⟨hs, hrest⟩
      rcases ih (hw.apply hs) hrest with ⟨hsame, hoffset, hmax⟩
      rcases hw.window_apply hs with ⟨hoffset', hmax'⟩
      exact ⟨hsame, hoffset.trans hoffset', hmax.trans hmax'⟩

/-- Where the last step that succeeded has set text, the string is built and its
    text is that one. -/
theorem WritesSingle.buildsInto_text {steps : List Step} {placement : Placement} {text : String}
    {charset : Charset} (hw : w.WritesSingle format) (hsteps : ∀ s ∈ steps, s.isValue)
    (hlast : w.lastTaken? steps = some (.write placement (.text text charset))) :
    (w.attempt steps).BuildsInto format fun r => r.text charset = .ok (some text) := by
  rcases attempt_of_lastTaken hw hsteps hlast with ⟨w', hw', hvalue, htaken, hend⟩
  rcases hw'.buildsInto_taken hvalue htaken with ⟨r, hr, hkind, payload, hpayload, hread⟩
  rcases exists_bytes_of_text hpayload with ⟨bytes, hbytes, rfl⟩
  refine ⟨r, by rw [hend, hr], hkind, ?_⟩
  change r.text charset = _
  rw [Reader.text, hread, Checked.ok_bind, Option.map_some, Charset.decode_encode hbytes]
  rfl

end Texts

end Builder

/-- A text that has a character beyond the set is refused at the first of them, and
    every other text is found again in its bytes. The same holds in strings of all
    prefixes: after any steps, text that the set, the prefix and the window can take
    is written, and what is built reads as the text that was written last. Bytes
    read as ISO-8859-1 are found again as well. -/
theorem text_survives_encoding :
    (∀ (charset : Charset) (text : String),
      ((∃ fault, charset.encode text = .error fault) ↔
        ∃ c ∈ text.toList, charset.maxChar < c.toNat) ∧
      (∀ fault, charset.encode text = .error fault ↔
        ∃ index, charset.FirstBeyond text index ∧
          fault = .refused (.unmappable charset.name text index)) ∧
      ∀ bytes, charset.encode text = .ok bytes → charset.decode bytes = text) ∧
    (∀ bytes, Charset.latin1.encode (Charset.latin1.decode bytes) = .ok bytes) ∧
    ∀ (format : Format) (settings : Settings) (b : Buffer) (o m : Nat) (w : Builder)
      (steps : List Step) (placement : Placement) (text : String) (charset : Charset),
      format.isText → b.Addressable → Builder.StartsAs format settings b o m w →
      (∀ s ∈ steps, s.isValue) →
      (((w.attempt steps).apply (.write placement (.text text charset))).result = .ok () ↔
        ∃ bytes, charset.encode text = .ok bytes ∧ format.HoldsLength bytes.length ∧
          o + (format.stringBytes bytes).length ≤ m) ∧
      (w.lastTaken? steps = some (.write placement (.text text charset)) →
        (w.attempt steps).BuildsInto format fun r => r.text charset = .ok (some text)) := by
  refine ⟨fun charset text => ⟨?_, fun fault => Charset.encode_eq_error,
    fun bytes => Charset.decode_encode⟩, Charset.encode_decode_latin1, ?_⟩
  · constructor
    · rintro ⟨fault, hfault⟩
      rcases Charset.encode_eq_error.mp hfault with ⟨index, ⟨⟨c, hc, hbeyond⟩, _⟩, _⟩
      exact ⟨c, List.mem_of_getElem? hc, hbeyond⟩
    · rintro ⟨c, hc, hbeyond⟩
      cases hscan : charset.firstBeyond? text with
      | some index => exact ⟨_, Charset.encode_of_firstBeyond hscan⟩
      | none =>
          have hle := Charset.firstBeyond?_eq_none.mp hscan c hc
          exact absurd hbeyond (Nat.not_lt_of_le hle)
  · intro format settings b o m w steps placement text charset hformat hb hstart hsteps
    have hfresh := hstart.fresh
    have hw := hfresh.writesSingle hb (Format.isSingle_of_isText hformat)
    refine ⟨?_, hw.buildsInto_text hsteps⟩
    -- no step moves the window, so room is counted from where the builder started
    rcases hw.attempt hsteps with ⟨hstill, hoffset, hmax⟩
    have hiff := Builder.write_text_ok_iff hstill hformat placement text charset
    rw [hoffset, hmax, hfresh.opens.offset, hfresh.opens.maxLimit] at hiff
    exact hiff

-- A text of characters of one to four bytes, and one that US-ASCII has no place
-- for, set in turn as a string behind the first byte of a buffer.
theorem text_survives_encoding_long :
    Charset.ascii.encode "aé" = .error (.refused (.unmappable "US-ASCII" "aé" 1)) ∧
      ((Builder.string ⟨.eight, ⟨.ofBytes (List.replicate 16 9), 1, 16, 1⟩, false⟩).attempt
        [.write .replace (.text "aé€𝄞" .utf8), .write .replace (.text "aé" .ascii)]).BuildsInto
        (.string .eight) fun r => r.text .utf8 = .ok (some "aé€𝄞") := by
  have hb : (Buffer.ofBytes (List.replicate 16 9)).Addressable := by
    unfold Buffer.Addressable
    decide
  have hfirst : Charset.ascii.FirstBeyond "aé" 1 := by
    refine ⟨⟨'é', rfl, by decide⟩, ?_⟩
    intro j hj c hc
    cases Nat.lt_one_iff.mp hj
    cases hc
    decide
  refine ⟨(((text_survives_encoding.1 .ascii "aé").2.1 _).mpr ⟨1, hfirst, rfl⟩), ?_⟩
  exact (text_survives_encoding.2.2 (.string .eight) {} (.ofBytes (List.replicate 16 9)) 1 16 _
    [.write .replace (.text "aé€𝄞" .utf8), .write .replace (.text "aé" .ascii)] .replace
    "aé€𝄞" .utf8 rfl hb ⟨_, rfl, rfl⟩
    (by simp only [List.forall_mem_cons, Step.isValue]; simp)).2 rfl

end Wireform
