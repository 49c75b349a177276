import Wireform.Proofs.Parser
import Wireform.Proofs.Segments

/-!
# Numbers and Their Digits

What the bytes of a number are, and that they determine it.

The two number formats write digits by repeated division. The closed forms
here say which digit stands at which place without reference to the way it was
computed, and reading the digits back gives the number. For variable-width
numbers that takes one more step: the scan must end exactly behind the last
group, at the limit of the type as well, where the last byte may not carry
every bit.

## Main definitions

* `Bytes.word`: The base-256 digits of a number, by place.
* `Varint.lastGroup`, `Varint.septets`: The base-128 digits of a number, by
  place, all but the last marked.

## Theorems

* `Bytes.ofNatLE_eq_word`, `Varint.groups_eq_septets`: Repeated division yields
  the digits by place.
* `Varint.ofGroups_groups`: Reading the groups of a number back.
* `Varint.encodedSize_le`: The groups of a number are as few as can be.
* `Varint.scanBytes_groups`: A scan ends behind the last group.
* `FixedInt.decode_word`, `VarInt.decode_represent`: A number of the type's
  range is recovered from what stands for it.
* `FixedInt.inRange_decode`, `VarInt.inRange_decode_iff`: What stands for a number
  of the type's range.
* `VarInt.represent_decode`: What stands for a number of the range is what is
  written for it.
-/

namespace Wireform

/-- The base-256 digits of a number, least significant first. -/
def Bytes.word (width value : Nat) : Bytes :=
  (List.range width).map fun place => UInt8.ofNat (value / 256 ^ place)

theorem Bytes.ofNatLE_eq_word (width value : Nat) : ofNatLE width value = word width value := by
  induction width generalizing value with
  | zero => rfl
  | succ width ih =>
      rw [ofNatLE, ih, word, word, List.range_succ_eq_map, List.map_cons, List.map_map,
        Nat.pow_zero, Nat.div_one]
      refine congrArg _ (List.map_congr_left fun place _ => ?_)
      simp only [Function.comp_apply, Nat.succ_eq_add_one, Nat.pow_succ', Nat.div_div_eq_div_mul]

@[simp]
theorem Bytes.length_word (width value : Nat) : (word width value).length = width := by
  rw [word, List.length_map, List.length_range]

theorem Bytes.toNatLE_word {width value : Nat} (h : value < 256 ^ width) :
    toNatLE (word width value) = value := by
  rw [← ofNatLE_eq_word, toNatLE_ofNatLE h]

namespace Varint

/-- The place of the last group of seven bits of a number. -/
def lastGroup (value : Nat) : Nat :=
  value.log2 / 7

/-- The base-128 digits of a number, least significant first, each but the last
    marked by its high bit. -/
def septets (value : Nat) : Bytes :=
  (List.range (lastGroup value + 1)).map fun place =>
    UInt8.ofNat (value / 128 ^ place % 128 + if place < lastGroup value then 128 else 0)

theorem lastGroup_of_lt {value : Nat} (h : value < 128) : lastGroup value = 0 := by
  rcases Nat.eq_zero_or_pos value with rfl | hpos
  · decide
  · have hlog : value.log2 < 7 := (Nat.log2_lt (by omega)).mpr h
    rw [lastGroup]
    omega

theorem lastGroup_of_le {value : Nat} (h : 128 ≤ value) :
    lastGroup value = lastGroup (value / 128) + 1 := by
  have hlog := log2_of_le h
  rw [lastGroup, lastGroup, hlog]
  omega

theorem septets_of_le {value : Nat} (h : 128 ≤ value) :
    septets value = UInt8.ofNat (value % 128 + 128) :: septets (value / 128) := by
  rw [septets, lastGroup_of_le h, List.range_succ_eq_map, List.map_cons, List.map_map,
    Nat.pow_zero, Nat.div_one, if_pos (Nat.succ_pos _), septets]
  refine congrArg _ (List.map_congr_left fun place _ => ?_)
  simp only [Function.comp_apply, Nat.succ_eq_add_one, Nat.pow_succ', Nat.div_div_eq_div_mul,
    Nat.add_lt_add_iff_right]

theorem groups_eq_septets (value : Nat) : groups value = septets value := by
  induction value using Nat.strongRecOn with
  | ind value ih =>
      by_cases h : value < 128
      · rw [groups_of_lt h, septets, lastGroup_of_lt h, List.range_one, List.map_singleton,
          Nat.pow_zero, Nat.div_one, Nat.mod_eq_of_lt h]
        rfl
      · have hle : 128 ≤ value := by omega
        rw [groups_of_le hle, ih (value / 128) (by omega), ← septets_of_le hle]

theorem encodedSize_pos (value : Nat) : 0 < encodedSize value := by
  rw [encodedSize]
  omega

theorem ofGroups_cons (byte : UInt8) (rest : Bytes) :
    ofGroups (byte :: rest) = byte.toNat % 128 + 128 * ofGroups rest :=
  rfl

theorem ofGroups_append (front rest : Bytes) :
    ofGroups (front ++ rest) = ofGroups front + 128 ^ front.length * ofGroups rest := by
  induction front with
  | nil => simp [ofGroups]
  | cons byte front ih =>
      rw [List.cons_append, ofGroups_cons, ofGroups_cons, ih, List.length_cons, Nat.pow_succ',
        Nat.mul_add, Nat.mul_assoc]
      omega

theorem ofGroups_lt (bytes : Bytes) : ofGroups bytes < 128 ^ bytes.length := by
  induction bytes with
  | nil => exact Nat.one_pos
  | cons byte rest ih =>
      rw [ofGroups_cons, List.length_cons, Nat.pow_succ']
      omega

/-- A number that some bytes hold needs no more of them for its groups. -/
theorem encodedSize_le {value n : Nat} (hn : 0 < n) (h : value < 128 ^ n) :
    encodedSize value ≤ n := by
  have hbits : value.log2 < 7 * n := by
    by_cases hv : value = 0
    · subst hv
      rw [Nat.log2_zero]
      omega
    · rw [Nat.log2_lt hv, Nat.pow_mul]
      exact h
  rw [encodedSize]
  omega

theorem ofGroups_groups (value : Nat) : ofGroups (groups value) = value := by
  induction value using Nat.strongRecOn with
  | ind value ih =>
      by_cases h : value < 128
      · have hbyte : (UInt8.ofNat value).toNat = value := by
          rw [UInt8.toNat_ofNat', Nat.mod_eq_of_lt (by omega)]
        rw [groups_of_lt h, ofGroups_cons, hbyte, Nat.mod_eq_of_lt h]
        rfl
      · have hbyte : (UInt8.ofNat (value % 128 + 128)).toNat = value % 128 + 128 := by
          rw [UInt8.toNat_ofNat', Nat.mod_eq_of_lt (by omega)]
        rw [groups_of_le (by omega), ofGroups_cons, hbyte, ih (value / 128) (by omega)]
        omega

theorem highBit_ofNat : ∀ n < 256, (UInt8.ofNat n &&& 0x80 = 0 ↔ n < 128) := by
  decide +kernel

theorem highBit_iff (byte : UInt8) : byte &&& 0x80 = 0 ↔ byte.toNat < 128 := by
  have h := highBit_ofNat byte.toNat byte.toNat_lt
  rwa [UInt8.ofNat_toNat] at h

/-- A scan of the groups of a number ends behind the last one, if all bytes but
    the last allowed one are enough, or that one carries no masked bit. -/
theorem scanBytes_groups {maxSize top : Nat} {lastMask : UInt8} (htop : top ≤ 128)
    (hmask : ∀ n < top, UInt8.ofNat n &&& lastMask = 0) {size value : Nat}
    (hsize : size < maxSize) (h : value < 128 ^ (maxSize - 1 - size) * top) :
    scanBytes maxSize lastMask size (groups value) = .complete (size + (groups value).length) := by
  induction value using Nat.strongRecOn generalizing size with
  | ind value ih =>
      -- the number shrinks by seven bits a byte, so at the last allowed byte
      -- what is left is below the masked bits
      by_cases hlast : size + 1 = maxSize
      · rw [show maxSize - 1 - size = 0 by omega, Nat.pow_zero, Nat.one_mul] at h
        rw [groups_of_lt (by omega), scanBytes, if_pos hlast, hmask value h]
        rfl
      · by_cases hend : value < 128
        · rw [groups_of_lt hend, scanBytes, if_neg hlast,
            if_pos ((highBit_ofNat value (by omega)).mpr hend)]
          rfl
        · have hpow : 128 ^ (maxSize - 1 - size) = 128 * 128 ^ (maxSize - 1 - (size + 1)) := by
            rw [← Nat.pow_succ']
            congr 1
            omega
          have hnext : value / 128 < 128 ^ (maxSize - 1 - (size + 1)) * top := by
            rw [Nat.div_lt_iff_lt_mul (by decide)]
            calc value < 128 ^ (maxSize - 1 - size) * top := h
              _ = 128 ^ (maxSize - 1 - (size + 1)) * top * 128 := by
                rw [hpow, Nat.mul_assoc, Nat.mul_comm]
          rw [groups_of_le (by omega), scanBytes, if_neg hlast,
            if_neg (fun hc => absurd ((highBit_ofNat _ (by omega)).mp hc) (by omega)),
            ih (value / 128) (by omega) (by omega) hnext, List.length_cons]
          congr 1
          omega

theorem scanBytes_groups32 {value : Nat} (h : value < 2 ^ (32 : Nat)) :
    scanBytes maxSize32 lastMask32 0 (groups value) = .complete (groups value).length := by
  have hscan := scanBytes_groups (by decide : 16 ≤ 128)
    (by decide : ∀ n < 16, UInt8.ofNat n &&& lastMask32 = 0) (by decide : 0 < maxSize32) h
  rw [hscan, Nat.zero_add]

theorem scanBytes_groups64 {value : Nat} (h : value < 2 ^ (64 : Nat)) :
    scanBytes maxSize64 lastMask64 0 (groups value) = .complete (groups value).length := by
  have hscan := scanBytes_groups (by decide : 2 ≤ 128)
    (by decide : ∀ n < 2, UInt8.ofNat n &&& lastMask64 = 0) (by decide : 0 < maxSize64) h
  rw [hscan, Nat.zero_add]

end Varint

/-- A place in the order 0, -1, 1, -2, 2 and so on names its integer. -/
theorem unzigzag_zigzag (value : Int) : unzigzag (zigzag value) = value := by
  unfold unzigzag zigzag
  by_cases h : 0 ≤ value
  · rw [if_pos h, if_pos (by omega)]
    omega
  · rw [if_neg h, if_neg (by omega)]
    omega

/-- An integer is at one place of the order. -/
theorem zigzag_unzigzag (place : Nat) : zigzag (unzigzag place) = place := by
  unfold unzigzag zigzag
  by_cases h : place % 2 = 0
  · rw [if_pos h, if_pos (by omega)]
    omega
  · rw [if_neg h, if_neg (by omega)]
    omega

theorem zigzag_lt {value : Int} (bound : Nat) (hlo : -(bound : Int) ≤ value)
    (hhi : value < bound) : zigzag value < 2 * bound := by
  unfold zigzag
  by_cases h : 0 ≤ value
  · rw [if_pos h]
    omega
  · rw [if_neg h]
    omega

theorem unzigzag_bounds {place : Nat} (bound : Nat) (h : place < 2 * bound) :
    -(bound : Int) ≤ unzigzag place ∧ unzigzag place < bound := by
  unfold unzigzag
  by_cases heven : place % 2 = 0
  · rw [if_pos heven]
    omega
  · rw [if_neg heven]
    omega

namespace FixedInt

/-- The value is one of the type's range. -/
def InRange (k : FixedInt) (value : Int) : Prop :=
  k.minValue ≤ value ∧ value ≤ k.maxValue

theorem modulus_eq (k : FixedInt) : k.modulus = 256 ^ k.width := by
  rw [modulus, Nat.pow_mul]

theorem modulus_pos (k : FixedInt) : 0 < k.modulus :=
  Nat.two_pow_pos _

-- Both forms of the bound of a type, as integers.
theorem natCast_modulus (k : FixedInt) :
    (k.modulus : Int) = 2 ^ (8 * k.width) ∧ (k.modulus : Int) = 2 * 2 ^ (8 * k.width - 1) := by
  cases k <;> exact ⟨rfl, rfl⟩

/-- The word of a value, as an integer. -/
theorem toNat_word (k : FixedInt) (value : Int) :
    ((value % k.modulus).toNat : Int) = value % k.modulus := by
  have hpos := k.modulus_pos
  exact Int.toNat_of_nonneg (Int.emod_nonneg value (by omega))

theorem word_lt (k : FixedInt) (value : Int) :
    (value % k.modulus).toNat < 256 ^ k.width := by
  have hpos := k.modulus_pos
  have hword := k.toNat_word value
  have hlt := Int.emod_lt_of_pos value (b := k.modulus) (by omega)
  rw [← k.modulus_eq]
  omega

/-- A value of the type's range is recovered from its word. -/
theorem decode_word {k : FixedInt} {value : Int} (h : k.InRange value) :
    k.decode (value % k.modulus).toNat = value := by
  rcases k.natCast_modulus with ⟨hfull, hhalf⟩
  have hlt := k.word_lt value
  have hword := k.toNat_word value
  rw [← k.modulus_eq] at hlt
  rcases h with ⟨hlo, hhi⟩
  rw [minValue] at hlo
  rw [maxValue] at hhi
  rw [decode]
  by_cases hs : k.isSigned = true
  · -- the signed range is the one of balanced representatives
    rw [if_pos hs] at hlo hhi ⊢
    rw [hword, Int.emod_bmod]
    exact Int.bmod_eq_of_le_mul_two (by omega) (by omega)
  · rw [if_neg hs] at hlo hhi ⊢
    rw [Nat.mod_eq_of_lt hlt, hword]
    exact Int.emod_eq_of_lt hlo (by omega)

/-- Every word stands for a value of the type's range. -/
theorem inRange_decode (k : FixedInt) (raw : Nat) : k.InRange (k.decode raw) := by
  rcases k.natCast_modulus with ⟨hfull, hhalf⟩
  have hpos := k.modulus_pos
  rw [InRange, decode, minValue, maxValue]
  by_cases hs : k.isSigned = true
  · rw [if_pos hs, if_pos hs, if_pos hs]
    have hlo := Int.le_bmod (x := raw) hpos
    have hhi := Int.bmod_lt (x := raw) hpos
    omega
  · rw [if_neg hs, if_neg hs, if_neg hs]
    have hlt := Nat.mod_lt raw hpos
    omega

end FixedInt

namespace VarInt

/-- The value is one of the type's range. -/
def InRange (k : VarInt) (value : Int) : Prop :=
  k.minValue ≤ value ∧ value ≤ k.maxValue

theorem represent_lt {k : VarInt} {value : Int} (h : k.InRange value) :
    k.represent value < 2 ^ k.bits := by
  rcases h with ⟨hlo, hhi⟩
  cases k with
  | varuint32 =>
      simp only [minValue, maxValue] at hlo hhi
      simp only [represent, bits]
      omega
  | varuint32n =>
      simp only [minValue, maxValue] at hlo hhi
      simp only [represent, bits]
      omega
  | varint32 =>
      simp only [minValue, maxValue] at hlo hhi
      have hz : zigzag value < 2 * 2 ^ (31 : Nat) :=
        zigzag_lt (2 ^ (31 : Nat)) (by omega) (by omega)
      exact hz
  | varint64 =>
      simp only [minValue, maxValue] at hlo hhi
      have hz : zigzag value < 2 * 2 ^ (63 : Nat) :=
        zigzag_lt (2 ^ (63 : Nat)) (by omega) (by omega)
      exact hz

/-- A value of the type's range is recovered from what stands for it. -/
theorem decode_represent {k : VarInt} {value : Int} (h : k.InRange value) :
    k.decode (k.represent value) = value := by
  have hlt := represent_lt h
  rcases h with ⟨hlo, hhi⟩
  cases k with
  | varuint32 =>
      simp only [minValue, maxValue] at hlo hhi
      simp only [represent, decode]
      omega
  | varuint32n =>
      simp only [minValue, maxValue] at hlo hhi
      -- null is stored as zero, so everything is one higher
      have hraw : (((value + 1).toNat : Nat) : Int) - 1 = value := by omega
      rw [represent, decode, hraw]
      exact Int.bmod_eq_of_le_mul_two (by omega) (by omega)
  | varint32 =>
      simp only [represent, bits] at hlt
      rw [represent, decode, Nat.mod_eq_of_lt hlt, unzigzag_zigzag]
  | varint64 => rw [represent, decode, unzigzag_zigzag]

/-- The nullable type takes one off, and in the upper half of its numbers wraps
    around. -/
theorem decode_varuint32n {raw : Nat} (h : raw < 2 ^ (32 : Nat)) :
    VarInt.varuint32n.decode raw =
      if raw ≤ 2 ^ (31 : Nat) then (raw : Int) - 1 else raw - 1 - 2 ^ (32 : Nat) := by
  rw [decode]
  by_cases hhalf : raw ≤ 2 ^ (31 : Nat)
  · rw [if_pos hhalf]
    exact Int.bmod_eq_of_le_mul_two (by omega) (by omega)
  · rw [if_neg hhalf, ← Int.sub_bmod_right]
    exact Int.bmod_eq_of_le_mul_two (by omega) (by omega)

/-- A number of the type's width stands for a value of its range, except for the
    nullable type, which stops at `2 ^ 28`. -/
theorem inRange_decode_iff {k : VarInt} {raw : Nat} (h : raw < 2 ^ k.bits) :
    k.InRange (k.decode raw) ↔ (k = .varuint32n → raw ≤ 2 ^ (28 : Nat)) := by
  rw [InRange]
  cases k with
  | varuint32 =>
      simp only [minValue, maxValue, decode, reduceCtorEq, false_implies, iff_true]
      omega
  | varuint32n =>
      rw [decode_varuint32n h]
      simp only [minValue, maxValue, true_implies, bits] at h ⊢
      by_cases hhalf : raw ≤ 2 ^ (31 : Nat)
      · rw [if_pos hhalf]
        omega
      · rw [if_neg hhalf]
        omega
  | varint32 =>
      have hbounds := unzigzag_bounds (2 ^ (31 : Nat)) (show raw < 2 * 2 ^ (31 : Nat) from h)
      simp only [bits] at h
      simp only [minValue, maxValue, decode, reduceCtorEq, false_implies, iff_true,
        Nat.mod_eq_of_lt h]
      omega
  | varint64 =>
      have hbounds := unzigzag_bounds (2 ^ (63 : Nat)) (show raw < 2 * 2 ^ (63 : Nat) from h)
      simp only [minValue, maxValue, decode, reduceCtorEq, false_implies, iff_true]
      omega

/-- A number that stands for a value of the type's range is the one that is
    written for it. -/
theorem represent_decode {k : VarInt} {raw : Nat} (h : raw < 2 ^ k.bits)
    (hrange : k.InRange (k.decode raw)) : k.represent (k.decode raw) = raw := by
  cases k with
  | varuint32 =>
      simp only [bits] at h
      rw [represent, decode, Nat.mod_eq_of_lt h, Int.toNat_natCast]
  | varuint32n =>
      have hle := (inRange_decode_iff h).mp hrange rfl
      rw [represent, decode_varuint32n h, if_pos (by omega)]
      omega
  | varint32 =>
      simp only [bits] at h
      rw [represent, decode, Nat.mod_eq_of_lt h, zigzag_unzigzag]
  | varint64 => rw [represent, decode, zigzag_unzigzag]

/-- The scan of a type ends behind the groups of a number of its width. -/
theorem scanBytes_groups {k : VarInt} {value : Nat} (h : value < 2 ^ k.bits) :
    k.scanBytes (Varint.groups value) = .complete (Varint.groups value).length := by
  cases k with
  | varint64 => exact Varint.scanBytes_groups64 h
  | _ => exact Varint.scanBytes_groups32 h

end VarInt

end Wireform
