import Wireform.Proofs.Containment
import Wireform.Proofs.Numbers

/-!
# What a Scan Accepts

The outcome of a scan, said in terms of numbers and without one of its steps.

A scan follows continuation bits and tests one byte against a mask. Neither says
what is accepted. `Scan.Describes` does: a window starts with an encoding if some
byte in reach is the first that does not continue and the sum of the groups up to
it has no more bits than the type, it is too wide if all bytes in reach are used
up without that, and it is cut short if it ends before. Exactly one of the three
holds of every window, and a scan answers with that one. The mask of the last
byte enters once, in `groupSum_take_lt_iff`: it asks of that byte what the bits
that the other bytes leave over ask of it. Encodings with groups of zeros at
their end are accepted like all others, since nothing here mentions the number
of bytes that a value needs.

The number of an accepted encoding is the sum itself. `joinGroups` puts a word
together from shifted groups, as a machine does, and stops before a shift by all
64 bits. It computes what `decodeAt` computes, stops included, and an encoding
that was accepted never makes it stop.

The shortcut of 64-bit scans needs no argument here. A scan answers with what
describes its window, whichever way it takes, and so reading a number at once and
binding a reader to it first come to the same.

## Main definitions

* `Bytes.ContinuesAt`, `Bytes.EndsAt`: What the high bit of a byte says.
* `Bytes.groupSum`: The number in some bytes, as a sum.
* `Varint.Accepted`, `Varint.TooWide`, `Varint.CutShort`: The three things that a
  window can be.
* `Varint.Scan.Describes`: What an outcome says about a window.
* `Varint.MasksRest`: The mask of a last byte is the right one.
* `Varint.joinGroups`: Groups joined in a word, shift by shift.

## Theorems

* `Varint.groupSum_take_lt_iff`: The last byte decides whether a number fits, and
  the mask decides it alike.
* `Varint.scanBytes_iff`: A scan has the outcome that describes the window.
* `Varint.joinGroups_eq`: Joining groups is adding them up.
* `Varint.decodeAt_eq_joinGroups`: Decoding is joining groups.
* `Varint.scan_describes`: Scans are exact and lose nothing.
* `Varint.fast_scan_agrees`: The shortcut of 64-bit scans changes nothing, and
  decoding agrees with reading.
-/

namespace Wireform

namespace Bytes

/-- There is a byte at the place, and it asks for another one. -/
def ContinuesAt (bytes : Bytes) (i : Nat) : Prop :=
  ∃ byte, bytes[i]? = some byte ∧ 128 ≤ byte.toNat

/-- There is a byte at the place, and it asks for no other. -/
def EndsAt (bytes : Bytes) (i : Nat) : Prop :=
  ∃ byte, bytes[i]? = some byte ∧ byte.toNat < 128

instance (bytes : Bytes) (i : Nat) : Decidable (bytes.ContinuesAt i) :=
  inferInstanceAs (Decidable (∃ byte ∈ bytes[i]?, 128 ≤ byte.toNat))

instance (bytes : Bytes) (i : Nat) : Decidable (bytes.EndsAt i) :=
  inferInstanceAs (Decidable (∃ byte ∈ bytes[i]?, byte.toNat < 128))

/-- The sum of the low seven bits of all bytes, those of each counted 128 times
    as much as those of the byte before. -/
def groupSum (bytes : Bytes) : Nat :=
  bytes.zipIdx.foldr (fun e sum => e.1.toNat % 128 * 128 ^ e.2 + sum) 0

theorem lt_length_of_endsAt {bytes : Bytes} {i : Nat} (h : bytes.EndsAt i) : i < bytes.length := by
  rcases h with ⟨byte, hbyte, _⟩
  exact (List.getElem?_eq_some_iff.mp hbyte).1

/-- A byte that is there continues or ends. -/
theorem continuesAt_or_endsAt {bytes : Bytes} {i : Nat} (h : i < bytes.length) :
    bytes.ContinuesAt i ∨ bytes.EndsAt i := by
  have hbyte := List.getElem?_eq_getElem h
  by_cases hhigh : 128 ≤ bytes[i].toNat
  · exact .inl ⟨bytes[i], hbyte, hhigh⟩
  · exact .inr ⟨bytes[i], hbyte, by omega⟩

theorem mem_take_of_continuesAt {bytes : Bytes} {n : Nat} (h : ∀ i < n, bytes.ContinuesAt i) :
    ∀ byte ∈ bytes.take n, 128 ≤ byte.toNat := by
  intro byte hmem
  rcases List.mem_iff_getElem?.mp hmem with ⟨i, hi⟩
  rw [List.getElem?_take] at hi
  by_cases hlt : i < n
  · rw [if_pos hlt] at hi
    rcases h i hlt with ⟨other, hother, hhigh⟩
    rw [hi, Option.some.injEq] at hother
    rw [hother]
    exact hhigh
  · rw [if_neg hlt] at hi
    cases hi

/-- The byte at a place heads the bytes from there on. -/
theorem drop_of_getElem? {bytes : Bytes} {i : Nat} {byte : UInt8} (h : bytes[i]? = some byte) :
    bytes.drop i = byte :: bytes.drop (i + 1) := by
  rcases List.getElem?_eq_some_iff.mp h with ⟨hi, rfl⟩
  exact List.drop_eq_getElem_cons hi

end Bytes

namespace Varint

theorem foldr_zipIdx (bytes : Bytes) (place : Nat) :
    (bytes.zipIdx place).foldr (fun e sum => e.1.toNat % 128 * 128 ^ e.2 + sum) 0 =
      128 ^ place * ofGroups bytes := by
  induction bytes generalizing place with
  | nil => simp [ofGroups]
  | cons byte rest ih =>
      rw [List.zipIdx_cons, List.foldr_cons, ih, ofGroups_cons, Nat.mul_add, Nat.pow_succ,
        Nat.mul_comm (byte.toNat % 128), Nat.mul_assoc]

/-- Adding up the groups by place is reading them as digits. -/
theorem groupSum_eq (bytes : Bytes) : bytes.groupSum = ofGroups bytes := by
  rw [Bytes.groupSum, foldr_zipIdx, Nat.pow_zero, Nat.one_mul]

/-- The first `n` bytes of a window are an encoding of a number of so many bits:
    all but the last continue, and the number has no more bits than it may. -/
structure Accepted (maxSize bits : Nat) (window : Bytes) (n : Nat) : Prop where
  pos : 1 ≤ n
  le_maxSize : n ≤ maxSize
  continues : ∀ i < n - 1, window.ContinuesAt i
  ends : window.EndsAt (n - 1)
  fits : Bytes.groupSum (window.take n) < 2 ^ bits

/-- The window has the most bytes that an encoding may have, all but the last
    of these continue, and with the last they are no encoding. -/
structure TooWide (maxSize bits : Nat) (window : Bytes) : Prop where
  available : maxSize ≤ window.length
  continues : ∀ i < maxSize - 1, window.ContinuesAt i
  refused : ¬ (window.EndsAt (maxSize - 1) ∧ Bytes.groupSum (window.take maxSize) < 2 ^ bits)

/-- The window has fewer bytes than an encoding may have, and all continue. -/
structure CutShort (maxSize : Nat) (window : Bytes) : Prop where
  short : window.length < maxSize
  continues : ∀ i < window.length, window.ContinuesAt i

/-- What an outcome says about the window that was scanned. -/
def Scan.Describes (maxSize bits : Nat) (window : Bytes) : Scan → Prop
  | .complete n => Accepted maxSize bits window n
  | .overflow => TooWide maxSize bits window
  | .truncated => CutShort maxSize window

instance (maxSize bits : Nat) (window : Bytes) (n : Nat) :
    Decidable (Accepted maxSize bits window n) :=
  decidable_of_iff
    (1 ≤ n ∧ n ≤ maxSize ∧ (∀ i < n - 1, window.ContinuesAt i) ∧ window.EndsAt (n - 1) ∧
      Bytes.groupSum (window.take n) < 2 ^ bits)
    ⟨fun ⟨hpos, hle, hcontinues, hends, hfits⟩ => ⟨hpos, hle, hcontinues, hends, hfits⟩,
      fun h => ⟨h.pos, h.le_maxSize, h.continues, h.ends, h.fits⟩⟩

instance (maxSize bits : Nat) (window : Bytes) : Decidable (TooWide maxSize bits window) :=
  decidable_of_iff
    (maxSize ≤ window.length ∧ (∀ i < maxSize - 1, window.ContinuesAt i) ∧
      ¬ (window.EndsAt (maxSize - 1) ∧ Bytes.groupSum (window.take maxSize) < 2 ^ bits))
    ⟨fun ⟨havailable, hcontinues, hrefused⟩ => ⟨havailable, hcontinues, hrefused⟩,
      fun h => ⟨h.available, h.continues, h.refused⟩⟩

instance (maxSize : Nat) (window : Bytes) : Decidable (CutShort maxSize window) :=
  decidable_of_iff (window.length < maxSize ∧ ∀ i < window.length, window.ContinuesAt i)
    ⟨fun ⟨hshort, hcontinues⟩ => ⟨hshort, hcontinues⟩, fun h => ⟨h.short, h.continues⟩⟩

/-- The mask of a last byte leaves it the bits of a number that do not fit the
    bytes before it. -/
structure MasksRest (maxSize bits : Nat) (lastMask : UInt8) : Prop where
  begun : 7 * (maxSize - 1) < bits
  enough : bits ≤ 7 * maxSize
  mask_iff : ∀ byte : UInt8, byte &&& lastMask = 0 ↔ byte.toNat < 2 ^ (bits - 7 * (maxSize - 1))

theorem MasksRest.pos {maxSize bits : Nat} {lastMask : UInt8}
    (h : MasksRest maxSize bits lastMask) : 0 < maxSize := by
  have hbegun := h.begun
  have henough := h.enough
  omega

theorem mask32_ofNat : ∀ n < 256, (UInt8.ofNat n &&& lastMask32 = 0 ↔ n < 2 ^ (4 : Nat)) := by
  decide +kernel

theorem mask64_ofNat : ∀ n < 256, (UInt8.ofNat n &&& lastMask64 = 0 ↔ n < 2 ^ (1 : Nat)) := by
  decide +kernel

theorem masksRest32 : MasksRest maxSize32 32 lastMask32 := by
  refine ⟨by decide, by decide, fun byte => ?_⟩
  have h := mask32_ofNat byte.toNat byte.toNat_lt
  rwa [UInt8.ofNat_toNat] at h

theorem masksRest64 : MasksRest maxSize64 64 lastMask64 := by
  refine ⟨by decide, by decide, fun byte => ?_⟩
  have h := mask64_ofNat byte.toNat byte.toNat_lt
  rwa [UInt8.ofNat_toNat] at h

section Scans

variable {maxSize bits n : Nat} {lastMask : UInt8} {window : Bytes}

/-- Below the largest size the bits always suffice. At the largest size it is
    the last byte that decides, and what it must satisfy is what the mask asks. -/
theorem groupSum_take_lt_iff (hmask : MasksRest maxSize bits lastMask) {last : UInt8}
    (hn : n + 1 ≤ maxSize) (hlast : window[n]? = some last) (hlow : last.toNat < 128) :
    Bytes.groupSum (window.take (n + 1)) < 2 ^ bits ↔
      (n + 1 = maxSize → last &&& lastMask = 0) := by
  rcases hmask with ⟨hbegun, henough, hmask⟩
  have hlength : (window.take n).length = n :=
    List.length_take_of_le (Nat.le_of_lt (List.getElem?_eq_some_iff.mp hlast).1)
  have hpow : 128 ^ n = 2 ^ (7 * n) := (Nat.pow_mul 2 7 n).symm
  have hfront := ofGroups_lt (window.take n)
  have hsum : Bytes.groupSum (window.take (n + 1)) =
      ofGroups (window.take n) + 128 ^ n * last.toNat := by
    rw [groupSum_eq, List.take_add_one, hlast, Option.toList_some, ofGroups_append, ofGroups_cons,
      Nat.mod_eq_of_lt hlow, hlength]
    rfl
  rw [hlength] at hfront
  rw [hsum, hmask]
  by_cases hfull : n + 1 = maxSize
  · -- the groups in front are below the place of the last one
    have hbits : 2 ^ bits = 128 ^ n * 2 ^ (bits - 7 * (maxSize - 1)) := by
      rw [hpow, ← Nat.pow_add]
      congr 1
      omega
    rw [hbits]
    constructor
    · intro hlt _
      refine Nat.lt_of_mul_lt_mul_left (a := 128 ^ n) ?_
      omega
    · intro hlt
      have hle : last.toNat + 1 ≤ 2 ^ (bits - 7 * (maxSize - 1)) := hlt hfull
      have hmul := Nat.mul_le_mul_left (128 ^ n) hle
      rw [Nat.mul_add] at hmul
      omega
  · refine ⟨fun _ hc => absurd hc hfull, fun _ => ?_⟩
    calc ofGroups (window.take n) + 128 ^ n * last.toNat
        < 128 ^ n * (last.toNat + 1) := by rw [Nat.mul_add]; omega
      _ ≤ 128 ^ n * 128 := Nat.mul_le_mul_left _ hlow
      _ = 2 ^ (7 * n + 7) := by rw [hpow, Nat.pow_add]
      _ ≤ 2 ^ bits := Nat.pow_le_pow_right (by decide) (by omega)

/-- Bytes that all continue are passed over. -/
theorem scanBytes_take (hlen : n < maxSize) (hn : n ≤ window.length)
    (h : ∀ i < n, window.ContinuesAt i) :
    scanBytes maxSize lastMask 0 window = scanBytes maxSize lastMask n (window.drop n) := by
  have hlength : (window.take n).length = n := List.length_take_of_le hn
  have hhigh : ∀ byte ∈ window.take n, byte &&& 0x80 ≠ 0 := by
    intro byte hbyte hclear
    have hge := Bytes.mem_take_of_continuesAt h byte hbyte
    have hlt := (highBit_iff byte).mp hclear
    omega
  have hscan : scanBytes maxSize lastMask 0 (window.take n ++ window.drop n) =
      scanBytes maxSize lastMask (0 + (window.take n).length) (window.drop n) :=
    scanBytes_continue _ _ hhigh 0 (by omega)
  rwa [List.take_append_drop, hlength, Nat.zero_add] at hscan

theorem scanBytes_of_accepted (hmask : MasksRest maxSize bits lastMask)
    (h : Accepted maxSize bits window n) : scanBytes maxSize lastMask 0 window = .complete n := by
  rcases h with ⟨hpos, hle, hcontinues, hends, hfits⟩
  rcases Nat.exists_eq_add_of_le' hpos with ⟨k, rfl⟩
  have hlength := Bytes.lt_length_of_endsAt hends
  rcases hends with ⟨last, hlast, hlow⟩
  rw [Nat.add_sub_cancel] at hcontinues hlength hlast
  rw [groupSum_take_lt_iff hmask hle hlast hlow] at hfits
  rw [scanBytes_take hle (by omega) hcontinues, Bytes.drop_of_getElem? hlast, scanBytes]
  by_cases hfull : k + 1 = maxSize
  · rw [if_pos hfull, hfits hfull]
    rfl
  · rw [if_neg hfull, if_pos ((highBit_iff last).mpr hlow)]

theorem scanBytes_of_tooWide (hmask : MasksRest maxSize bits lastMask)
    (h : TooWide maxSize bits window) : scanBytes maxSize lastMask 0 window = .overflow := by
  rcases h with ⟨havailable, hcontinues, hrefused⟩
  rcases Nat.exists_eq_add_of_le' hmask.pos with ⟨k, rfl⟩
  rw [Nat.add_sub_cancel] at hcontinues hrefused
  have hlast := List.getElem?_eq_getElem (show k < window.length by omega)
  generalize window[k] = last at hlast
  have hbits : last &&& lastMask ≠ 0 := by
    intro hclear
    -- a byte without a masked bit would have ended an encoding
    have hlow : last.toNat < 128 := by
      have hlt := (hmask.mask_iff last).mp hclear
      have henough := hmask.enough
      exact Nat.lt_of_lt_of_le hlt (Nat.pow_le_pow_right (by decide) (by omega : _ ≤ 7))
    exact hrefused ⟨⟨last, hlast, hlow⟩,
      (groupSum_take_lt_iff hmask (Nat.le_refl _) hlast hlow).mpr fun _ => hclear⟩
  rw [scanBytes_take (by omega) (by omega) hcontinues, Bytes.drop_of_getElem? hlast, scanBytes,
    if_pos rfl, if_pos hbits]

theorem scanBytes_of_cutShort (h : CutShort maxSize window) :
    scanBytes maxSize lastMask 0 window = .truncated := by
  rw [scanBytes_take h.short (Nat.le_refl _) h.continues, List.drop_length, scanBytes]

/-- There is a first place, up to a limit, at which no byte continues. -/
theorem exists_continued (window : Bytes) (limit : Nat) :
    ∃ k ≤ limit, (∀ i < k, window.ContinuesAt i) ∧ (k = limit ∨ ¬ window.ContinuesAt k) := by
  induction limit with
  | zero => exact ⟨0, Nat.le_refl 0, fun i hi => by omega, .inl rfl⟩
  | succ limit ih =>
      rcases ih with ⟨k, hk, hcontinues, hstop⟩
      by_cases hnext : window.ContinuesAt k
      · -- only the limit has kept the search from going on
        have hlimit : k = limit := by
          rcases hstop with hstop | hstop
          · exact hstop
          · exact absurd hnext hstop
        subst hlimit
        refine ⟨k + 1, Nat.le_refl _, fun i hi => ?_, .inl rfl⟩
        by_cases hi' : i = k
        · rw [hi']
          exact hnext
        · exact hcontinues i (by omega)
      · exact ⟨k, by omega, hcontinues, .inr hnext⟩

/-- Every window has an outcome that describes it. -/
theorem exists_describes (hmask : MasksRest maxSize bits lastMask) (window : Bytes) :
    ∃ s : Scan, s.Describes maxSize bits window := by
  have hpos := hmask.pos
  rcases exists_continued window (maxSize - 1) with ⟨k, hk, hcontinues, hstop⟩
  by_cases hlength : window.length ≤ k
  · exact ⟨.truncated, by omega, fun i hi => hcontinues i (by omega)⟩
  · by_cases hends : window.EndsAt k ∧ Bytes.groupSum (window.take (k + 1)) < 2 ^ bits
    · exact ⟨.complete (k + 1), Nat.succ_pos k, by omega, hcontinues, hends.1, hends.2⟩
    · have hfull : k + 1 = maxSize := by
        rcases hstop with hfull | hstop
        · omega
        · -- the byte ends the number, so only the mask can refuse it
          rcases Bytes.continuesAt_or_endsAt (Nat.lt_of_not_le hlength) with hc | hend
          · exact absurd hc hstop
          · rcases hend with ⟨last, hlast, hlow⟩
            have hsum := groupSum_take_lt_iff hmask (by omega) hlast hlow
            by_cases hfull : k + 1 = maxSize
            · exact hfull
            · exact absurd ⟨⟨last, hlast, hlow⟩, hsum.mpr fun hc => absurd hc hfull⟩ hends
      subst hfull
      exact ⟨.overflow, by omega, hcontinues, hends⟩

theorem scanBytes_of_describes (hmask : MasksRest maxSize bits lastMask) {s : Scan}
    (h : s.Describes maxSize bits window) : scanBytes maxSize lastMask 0 window = s := by
  cases s with
  | complete n => exact scanBytes_of_accepted hmask h
  | overflow => exact scanBytes_of_tooWide hmask h
  | truncated => exact scanBytes_of_cutShort h

/-- A scan has the outcome that describes the window. -/
theorem scanBytes_iff (hmask : MasksRest maxSize bits lastMask) {s : Scan} :
    scanBytes maxSize lastMask 0 window = s ↔ s.Describes maxSize bits window := by
  constructor
  · intro h
    rcases exists_describes hmask window with ⟨found, hfound⟩
    have hscan := scanBytes_of_describes hmask hfound
    rw [h] at hscan
    rw [hscan]
    exact hfound
  · exact scanBytes_of_describes hmask

end Scans

section Words

/-- The groups of some bytes joined in a word in which the first `place` groups
    are there already. Each group is shifted to its place, and a word is not
    shifted by all its bits. -/
def joinGroups {ε : Type} : (place : Nat) → (word : BitVec 64) → Bytes → Checked ε (BitVec 64)
  | _, word, [] => .ok word
  | place, word, byte :: rest =>
      if 7 * place < 64 then
        joinGroups (place + 1)
          (word ||| BitVec.ofNat 64 (byte &&& 0x7f).toNat <<< (7 * place)) rest
      else .error .stopped

theorem toNat_lowBits (byte : UInt8) : (byte &&& 0x7f).toNat = byte.toNat % 128 := by
  rw [UInt8.toNat_and]
  exact Nat.and_two_pow_sub_one_eq_mod byte.toNat 7

/-- A group that is shifted above all others is added to them. -/
theorem toNat_joined {place : Nat} {word : BitVec 64} (hword : word.toNat < 128 ^ place)
    (byte : UInt8) :
    (word ||| BitVec.ofNat 64 (byte &&& 0x7f).toNat <<< (7 * place)).toNat =
      (word.toNat + 128 ^ place * (byte.toNat % 128)) % 2 ^ (64 : Nat) := by
  have hpow : 128 ^ place = 2 ^ (7 * place) := (Nat.pow_mul 2 7 place).symm
  rw [hpow] at hword ⊢
  have hgroup : byte.toNat % 128 % 2 ^ (64 : Nat) = byte.toNat % 128 := Nat.mod_eq_of_lt (by omega)
  rw [BitVec.toNat_or, BitVec.toNat_shiftLeft, BitVec.toNat_ofNat, toNat_lowBits, hgroup,
    Nat.shiftLeft_eq, Nat.mul_comm]
  calc word.toNat ||| 2 ^ (7 * place) * (byte.toNat % 128) % 2 ^ (64 : Nat)
      = (word.toNat ||| 2 ^ (7 * place) * (byte.toNat % 128)) % 2 ^ (64 : Nat) := by
        rw [Nat.or_mod_two_pow, Nat.mod_eq_of_lt word.isLt]
    _ = (word.toNat + 2 ^ (7 * place) * (byte.toNat % 128)) % 2 ^ (64 : Nat) := by
        rw [Nat.or_comm, ← Nat.two_pow_add_eq_or_of_lt hword, Nat.add_comm]

/-- Ten groups have a place in a word. They are joined without a stop, and what
    comes out is their sum, as far as the word has bits for it. -/
theorem joinGroups_eq {ε : Type} (bytes : Bytes) {place : Nat} {word : BitVec 64}
    (hplace : place ≤ 10) (hword : word.toNat < 128 ^ place) :
    (joinGroups place word bytes : Checked ε (BitVec 64)) =
      if place + bytes.length ≤ 10 then
        .ok (BitVec.ofNat 64 (word.toNat + 128 ^ place * ofGroups bytes))
      else .error .stopped := by
  induction bytes generalizing place word with
  | nil =>
      rw [joinGroups, List.length_nil, if_pos (by omega), show ofGroups [] = 0 from rfl,
        Nat.mul_zero, Nat.add_zero, BitVec.ofNat_toNat, BitVec.setWidth_eq]
  | cons byte rest ih =>
      have hlength : place + (byte :: rest).length = place + 1 + rest.length := by
        rw [List.length_cons]
        omega
      rw [joinGroups, hlength]
      by_cases hroom : 7 * place < 64
      · have hjoined := toNat_joined hword byte
        -- the joined word is below the next place again
        have hnext : word.toNat + 128 ^ place * (byte.toNat % 128) < 128 ^ (place + 1) := by
          have hbyte := Nat.mul_le_mul_left (128 ^ place) (by omega : byte.toNat % 128 ≤ 127)
          rw [Nat.pow_succ]
          omega
        have hlt := Nat.lt_of_le_of_lt (Nat.mod_le _ (2 ^ (64 : Nat))) hnext
        rw [← hjoined] at hlt
        rw [if_pos hroom, ih (by omega) hlt, hjoined, ofGroups_cons]
        have hsum : BitVec.ofNat 64
            ((word.toNat + 128 ^ place * (byte.toNat % 128)) % 2 ^ (64 : Nat) +
              128 ^ (place + 1) * ofGroups rest) =
            BitVec.ofNat 64 (word.toNat +
              128 ^ place * (byte.toNat % 128 + 128 * ofGroups rest)) := by
          refine BitVec.eq_of_toNat_eq ?_
          rw [BitVec.toNat_ofNat, BitVec.toNat_ofNat, Nat.mod_add_mod, Nat.mul_add,
            Nat.pow_succ, Nat.mul_assoc, Nat.add_assoc]
        rw [hsum]
      · rw [if_neg hroom, if_neg (by omega)]

theorem joinGroups_zero {ε : Type} (bytes : Bytes) :
    (joinGroups 0 0 bytes : Checked ε (BitVec 64)) =
      if bytes.length ≤ 10 then .ok (BitVec.ofNat 64 (ofGroups bytes)) else .error .stopped := by
  rw [joinGroups_eq bytes (Nat.zero_le 10) (by decide), Nat.zero_add, Nat.pow_zero, Nat.one_mul,
    show (0 : BitVec 64).toNat = 0 from rfl, Nat.zero_add]

/-- Decoding joins the groups of its bytes, and stops where that does. -/
theorem decodeAt_eq_joinGroups {ε : Type} (b : Buffer) (position size : Nat) :
    (decodeAt b position size : Checked ε Nat) = (do
      let stop ← Word.add position size
      let bytes ← b.slice position stop
      let word ← joinGroups 0 0 bytes
      return word.toNat) := by
  rw [decodeAt]
  cases hstop : (Word.add position size : Checked ε Nat) with
  | error fault => rfl
  | ok stop =>
      rw [Checked.ok_bind, Checked.ok_bind]
      cases hbytes : (b.slice position stop : Checked ε Bytes) with
      | error fault => rfl
      | ok bytes =>
          rcases Buffer.slice_eq_ok hbytes with ⟨_, hle, rfl⟩
          rw [Word.add_eq_ok hstop] at hle ⊢
          rw [Checked.ok_bind, Checked.ok_bind, joinGroups_zero, b.length_segment_add hle]
          by_cases hsize : size ≤ 10
          · rw [if_pos hsize, if_pos hsize, Checked.ok_bind, BitVec.toNat_ofNat]
            rfl
          · rw [if_neg hsize, if_neg hsize]
            rfl

end Words

section Buffers

variable {ε : Type} {b : Buffer} {o m : Nat}

theorem scan32_iff (hb : b.Addressable) (ho : o ≤ m) (hm : m ≤ b.size) {s : Scan} :
    (scan32 b o m : Checked ε Scan) = .ok s ↔ s.Describes maxSize32 32 (b.segment o m) := by
  rw [scan32, scan_eq lastMask32 hb ho hm (by decide) (by decide), Except.ok.injEq,
    scanBytes_iff masksRest32]

theorem scan64_iff (hb : b.Addressable) (ho : o ≤ m) (hm : m ≤ b.size) {s : Scan} :
    (scan64 b o m : Checked ε Scan) = .ok s ↔ s.Describes maxSize64 64 (b.segment o m) := by
  rw [scan64_eq hb ho hm, Except.ok.injEq, scanBytes_iff masksRest64]

/-- What was accepted decodes to the sum of its groups, for which a word has
    enough places and enough bits. -/
theorem decodeAt_of_accepted {maxSize bits n : Nat} (hb : b.Addressable) (hm : m ≤ b.size)
    (hsize : maxSize ≤ 10) (hbits : bits ≤ 64)
    (h : Accepted maxSize bits (b.segment o m) n) :
    (decodeAt b o n : Checked ε Nat) = .ok (Bytes.groupSum ((b.segment o m).take n)) ∧
      (joinGroups 0 0 ((b.segment o m).take n) : Checked ε (BitVec 64)) =
        .ok (BitVec.ofNat 64 (Bytes.groupSum ((b.segment o m).take n))) := by
  have hle := h.le_maxSize
  have hpos := h.pos
  have hlt := Bytes.lt_length_of_endsAt h.ends
  have hfits := Nat.lt_of_lt_of_le h.fits (Nat.pow_le_pow_right (by decide) hbits)
  rw [b.length_segment hm] at hlt
  rw [groupSum_eq, b.segment_take (by omega : o + n ≤ m)] at hfits ⊢
  have hjoin : (joinGroups 0 0 (b.segment o (o + n)) : Checked ε (BitVec 64)) =
      .ok (BitVec.ofNat 64 (ofGroups (b.segment o (o + n)))) := by
    rw [joinGroups_zero, b.length_segment_add (by omega), if_pos (by omega)]
  refine ⟨?_, hjoin⟩
  unfold Buffer.Addressable at hb
  rw [decodeAt_eq_joinGroups, Word.add_of_lt (by omega), Checked.ok_bind,
    b.slice_eq (by omega) (by omega), Checked.ok_bind, hjoin, Checked.ok_bind, BitVec.toNat_ofNat,
    Nat.mod_eq_of_lt hfits]
  rfl

/-- The acceptance of scans is exact and loses nothing. Each answers with what
    describes the window, 5 bytes and 32 bits for the one and 10 bytes and 64 bits
    for the other, and what either has found complete decodes to the exact sum of
    its groups, put together without a shift by 64 bits or more. -/
theorem scan_describes (hb : b.Addressable) (ho : o ≤ m) (hm : m ≤ b.size) :
    ((∃ s, (scan32 b o m : Checked Refusal Scan) = .ok s) ∧
      ∀ s, (scan32 b o m : Checked Refusal Scan) = .ok s ↔ s.Describes 5 32 (b.segment o m)) ∧
    ((∃ s, (scan64 b o m : Checked Refusal Scan) = .ok s) ∧
      ∀ s, (scan64 b o m : Checked Refusal Scan) = .ok s ↔ s.Describes 10 64 (b.segment o m)) ∧
    ∀ n, (scan32 b o m : Checked Refusal Scan) = .ok (.complete n) ∨
        (scan64 b o m : Checked Refusal Scan) = .ok (.complete n) →
      (decodeAt b o n : Checked Refusal Nat) = .ok (Bytes.groupSum ((b.segment o m).take n)) ∧
      (joinGroups 0 0 ((b.segment o m).take n) : Checked Refusal (BitVec 64)) =
        .ok (BitVec.ofNat 64 (Bytes.groupSum ((b.segment o m).take n))) := by
  refine ⟨⟨?_, fun s => scan32_iff hb ho hm⟩, ⟨?_, fun s => scan64_iff hb ho hm⟩, ?_⟩
  · rcases exists_describes masksRest32 (b.segment o m) with ⟨s, hs⟩
    exact ⟨s, (scan32_iff hb ho hm).mpr hs⟩
  · rcases exists_describes masksRest64 (b.segment o m) with ⟨s, hs⟩
    exact ⟨s, (scan64_iff hb ho hm).mpr hs⟩
  · intro n hscan
    rcases hscan with hscan | hscan
    · exact decodeAt_of_accepted hb hm (by decide) (by decide) ((scan32_iff hb ho hm).mp hscan)
    · exact decodeAt_of_accepted hb hm (by decide) (by decide) ((scan64_iff hb ho hm).mp hscan)

-- The greatest number of 32 bits, in five bytes behind another one, and a window
-- that ends with it.
theorem scan_describes_widest :
    (scan32 (.ofBytes [9, 255, 255, 255, 255, 15, 7]) 1 6 : Checked Refusal Scan) =
        .ok (.complete 5) ∧
      (decodeAt (.ofBytes [9, 255, 255, 255, 255, 15, 7]) 1 5 : Checked Refusal Nat) =
        .ok (2 ^ (32 : Nat) - 1) := by
  have hb : (Buffer.ofBytes [9, 255, 255, 255, 255, 15, 7]).Addressable := by
    unfold Buffer.Addressable
    decide
  rcases scan_describes hb (o := 1) (m := 6) (by decide) (by decide) with
    ⟨⟨_, h32⟩, _, hdecode⟩
  have hscan := (h32 (.complete 5)).mpr
    (by decide : Accepted 5 32 [255, 255, 255, 255, 15] 5)
  exact ⟨hscan, (hdecode 5 (.inl hscan)).1⟩

-- A tenth byte has room for one bit, and two bytes that continue need a third.
example : TooWide 10 64 (List.replicate 9 0x80 ++ [2]) := by decide

example : CutShort 5 [0x80, 0x80] := by decide

end Buffers

end Varint

/-- What a scan of a type finds complete is an encoding of a number of its width. -/
theorem VarInt.accepted_of_scanBytes {kind : VarInt} {window : Bytes} {n : Nat}
    (h : kind.scanBytes window = .complete n) :
    Varint.Accepted kind.maxSize kind.bits window n := by
  cases kind with
  | varint64 => exact (Varint.scanBytes_iff Varint.masksRest64).mp h
  | _ => exact (Varint.scanBytes_iff Varint.masksRest32).mp h

section FastPath

variable {b : Buffer} {o m : Nat}

/-- The size of a complete encoding. -/
def Varint.Scan.size? : Varint.Scan → Option Nat
  | .complete size => some size
  | .truncated | .overflow => none

theorem Varint.Scan.size?_eq_some {s : Varint.Scan} {n : Nat} :
    s.size? = some n ↔ s = .complete n := by
  cases s <;> simp [size?]

/-- Binding speculatively answers with what a scan of the window finds. -/
theorem VarInt.Reader.tryWrap_of_scan (hb : b.Addressable) (ho : o ≤ m) (hm : m ≤ b.size)
    (kind : VarInt) :
    tryWrap kind b o m =
      .ok ((kind.scanBytes (b.segment o m)).size?.map fun size => ⟨kind, ⟨b, o, m⟩, size⟩) := by
  rw [tryWrap, Window.tryWrap_of_le ho hm]
  simp only []
  by_cases hone : (⟨b, o, m⟩ : Window).remaining < 1
  · -- there is no byte to scan
    have hnil : b.segment o m = [] := by
      simp only [Window.remaining] at hone
      exact List.eq_nil_of_length_eq_zero (by rw [b.length_segment hm]; omega)
    have hscan : kind.scanBytes [] = .truncated := by cases kind <;> rfl
    rw [if_pos hone, hnil, hscan]
    rfl
  · rw [if_neg hone, kind.scan_eq hb ho hm, Checked.ok_bind]
    cases kind.scanBytes (b.segment o m) <;> rfl

namespace Varint

/-- Where a scan of all bytes is complete, decoding them gives what the reader
    over them gives. -/
theorem decode64_of_complete (hb : b.Addressable) {size : Nat}
    (h : VarInt.varint64.scanBytes (b.segment 0 b.size) = .complete size) :
    ∃ v, decode64 b.toBytes = .ok (v, size) ∧
      VarInt.Reader.value ⟨.varint64, ⟨b, 0, b.size⟩, size⟩ = .ok v := by
  have hten := VarInt.scanBytes_le_ten h
  have hlen := (VarInt.scanBytes_size h).2
  rw [b.length_segment (Nat.le_refl _)] at hlen
  have hscan : (scan64 b 0 b.size : Checked Refusal Scan) = .ok (.complete size) :=
    (scan64_eq hb (Nat.zero_le _) (Nat.le_refl _)).trans (congrArg _ h)
  have hdecode := decodeAt_eq (ε := Refusal) hb hten (by omega : 0 + size ≤ b.size)
  refine ⟨unzigzag (ofGroups (b.segment 0 (0 + size)) % Word.bound), ?_, ?_⟩
  · rw [decode64, b.ofBytes_toBytes, hscan, Checked.ok_bind]
    simp only []
    rw [hdecode]
    rfl
  · rw [VarInt.Reader.value, hdecode]
    rfl

theorem decode64_refuses (hb : b.Addressable)
    (h : (VarInt.varint64.scanBytes (b.segment 0 b.size)).size? = none) :
    (decode64 b.toBytes).Refuses := by
  have hscan : (scan64 b 0 b.size : Checked Refusal Scan) =
      .ok (VarInt.varint64.scanBytes (b.segment 0 b.size)) :=
    scan64_eq hb (Nat.zero_le _) (Nat.le_refl _)
  rw [decode64, b.ofBytes_toBytes, hscan, Checked.ok_bind]
  cases hfound : VarInt.varint64.scanBytes (b.segment 0 b.size) with
  | complete size =>
      rw [hfound] at h
      cases h
  | truncated => exact Checked.refuses_refuse _
  | overflow => exact Checked.refuses_refuse _

end Varint

end FastPath

namespace Varint

/-- Scanning eight continuation bits at once finds what scanning byte by byte
    finds. Decoding the front of some bytes gives a number and a size exactly if a
    reader can be bound to them that has this value and this limit, and refuses
    exactly if none can. -/
theorem fast_scan_agrees {b : Buffer} (hb : b.Addressable) :
    (∀ o m, o ≤ m → m ≤ b.size →
      (scan64 b o m : Checked Refusal Scan) = scan b o m 10 0xfe ∧
        ∃ s, (scan64 b o m : Checked Refusal Scan) = .ok s) ∧
    (∀ v n, decode64 b.toBytes = .ok (v, n) ↔
      ∃ r, VarInt.Reader.tryWrap .varint64 b 0 b.size = .ok (some r) ∧ r.value = .ok v ∧
        r.limit = n) ∧
    ((decode64 b.toBytes).Refuses ↔ VarInt.Reader.tryWrap .varint64 b 0 b.size = .ok none) := by
  refine ⟨fun o m ho hm => ?_, ?_⟩
  · have hslow : (scan b o m 10 0xfe : Checked Refusal Scan) =
        .ok (scanBytes maxSize64 lastMask64 0 (b.segment o m)) :=
      scan_eq lastMask64 hb ho hm (by decide) (by decide)
    rw [scan64_eq hb ho hm, hslow]
    exact ⟨rfl, _, rfl⟩
  · rw [VarInt.Reader.tryWrap_of_scan hb (Nat.zero_le _) (Nat.le_refl _)]
    cases hfound : (VarInt.varint64.scanBytes (b.segment 0 b.size)).size? with
    | some size =>
        rcases decode64_of_complete hb (Scan.size?_eq_some.mp hfound) with ⟨v, hdecode, hvalue⟩
        rw [hdecode]
        refine ⟨fun v' n => ⟨fun h => ?_, ?_⟩, ⟨fun h => absurd rfl (h.ne_ok _), fun h => ?_⟩⟩
        · cases h
          exact ⟨_, rfl, hvalue, Nat.zero_add size⟩
        · rintro ⟨r, hr, hv, hlimit⟩
          cases hr
          rw [hvalue, Except.ok.injEq] at hv
          rw [hv, ← hlimit, VarInt.Reader.limit, Nat.zero_add]
        · cases h
    | none =>
        have hrefuses := decode64_refuses hb hfound
        refine ⟨fun v n => ⟨fun h => absurd h (hrefuses.ne_ok _), ?_⟩,
          ⟨fun _ => rfl, fun _ => hrefuses⟩⟩
        rintro ⟨r, hr, _⟩
        cases hr

-- The least number of 64 bits, whose ten bytes all but the last continue, and a
-- window that ends one byte behind it.
theorem fast_scan_agrees_least :
    (scan64 (.ofBytes (List.replicate 9 255 ++ [1, 7])) 0 11 : Checked Refusal Scan) =
        scan (.ofBytes (List.replicate 9 255 ++ [1, 7])) 0 11 10 0xfe ∧
      decode64 (List.replicate 9 255 ++ [1, 7]) = .ok (-2 ^ (63 : Nat), 10) ∧
      ∃ r, VarInt.Reader.tryWrap .varint64 (.ofBytes (List.replicate 9 255 ++ [1, 7])) 0 11 =
        .ok (some r) ∧ r.value = .ok (-2 ^ (63 : Nat)) ∧ r.limit = 10 := by
  have hb : (Buffer.ofBytes (List.replicate 9 255 ++ [1, 7])).Addressable := by
    unfold Buffer.Addressable
    decide
  rcases fast_scan_agrees hb with ⟨hscan, hdecode, _⟩
  have hvalue : decode64 (List.replicate 9 255 ++ [1, 7]) = .ok (-2 ^ (63 : Nat), 10) := by
    rfl
  exact ⟨(hscan 0 11 (by decide) (by decide)).1, hvalue, (hdecode _ _).mp hvalue⟩

end Varint

end Wireform
