import Wireform.Proofs.Checked

/-!
# Segments of a Buffer

A buffer seen as the list of its bytes between two positions.

Readers and builders work with positions in one large buffer, and positions
are what nested values share. What a value means, on the other hand, is a
matter of its own bytes, wherever they stand. `Buffer.segment` is the bridge:
it turns a pair of positions into a list, and the lemmas here turn moving a
position into taking from or dropping of that list. Above this module a
position is mentioned only to say which list is meant.

Writing is settled the same way. `getElem?_overwrite` says what every single
byte is after a write, and each law about two writes, the one that joins
neighbours and the one that patches a prefix written earlier, is that fact
compared byte by byte.

## Main definitions

* `Buffer.segment`: The bytes between two positions.
* `Buffer.Agree`: Two buffers with the same bytes between two positions.

## Theorems

* `Buffer.slice_eq`: Inside the buffer a slice is a segment.
* `Buffer.segment_take`, `Buffer.segment_drop`: Moving the ends of a segment.
* `Buffer.Agree.segment_eq`: Agreeing buffers have equal segments.
* `Buffer.getElem?_overwrite`: Every byte after a write.
* `Buffer.overwrite_append`: Two neighbouring writes are one.
* `Buffer.overwrite_patch`: A later write over the front of an earlier one.
* `Buffer.overwrite_zero`: A write at the front keeps what is behind it.
* `Bytes.toNatLE_ofNatLE`: Numbers survive being written and read.
* `Width.read_eq`: A prefix is the number in its segment.
-/

namespace Wireform

namespace Buffer

/-- The bytes in `[start, stop)`, as far as the buffer has them. -/
def segment (b : Buffer) (start stop : Nat) : Bytes :=
  (b.data.toList.drop start).take (stop - start)

theorem length_toList (b : Buffer) : b.data.toList.length = b.size :=
  Array.length_toList

theorem slice_eq {ε : Type} (b : Buffer) {i j : Nat} (hij : i ≤ j) (hj : j ≤ b.size) :
    (b.slice i j : Checked ε Bytes) = .ok (b.segment i j) := by
  rw [slice, if_pos ⟨hij, hj⟩, segment, Array.toList_extract, List.extract_eq_take_drop]

theorem length_segment (b : Buffer) {i j : Nat} (hj : j ≤ b.size) :
    (b.segment i j).length = j - i := by
  rw [segment, List.length_take, List.length_drop, length_toList]
  omega

theorem length_segment_add (b : Buffer) {i n : Nat} (h : i + n ≤ b.size) :
    (b.segment i (i + n)).length = n := by
  rw [b.length_segment h, Nat.add_sub_cancel_left]

theorem getElem?_segment (b : Buffer) (i j k : Nat) :
    (b.segment i j)[k]? = if i + k < j then b.data[i + k]? else none := by
  rw [segment, List.getElem?_take, List.getElem?_drop, Array.getElem?_toList]
  by_cases h : i + k < j
  · rw [if_pos h, if_pos (by omega)]
  · rw [if_neg h, if_neg (by omega)]

/-- Cutting a segment short moves its end. -/
theorem segment_take (b : Buffer) {i j n : Nat} (h : i + n ≤ j) :
    (b.segment i j).take n = b.segment i (i + n) := by
  rw [segment, segment, List.take_take, Nat.min_eq_left (by omega), Nat.add_sub_cancel_left]

/-- Leaving out the front of a segment moves its start. -/
theorem segment_drop (b : Buffer) (i j n : Nat) :
    (b.segment i j).drop n = b.segment (i + n) j := by
  rw [segment, segment, List.drop_take, List.drop_drop, Nat.sub_add_eq]

theorem segment_self (b : Buffer) (i : Nat) : b.segment i i = [] := by
  rw [segment, Nat.sub_self, List.take_zero]

theorem segment_append (b : Buffer) {i j k : Nat} (hij : i ≤ j) (hjk : j ≤ k) :
    b.segment i j ++ b.segment j k = b.segment i k := by
  have hsplit := List.take_append_drop (j - i) (b.segment i k)
  rw [b.segment_take (by omega), b.segment_drop, Nat.add_sub_cancel' hij] at hsplit
  exact hsplit

/-- Both buffers have the same bytes in `[start, stop)`, as far as they both
    reach. -/
def Agree (b b' : Buffer) (start stop : Nat) : Prop :=
  ∀ k x y, start ≤ k → k < stop → b.data[k]? = some x → b'.data[k]? = some y → x = y

theorem Agree.symm {b b' : Buffer} {i j : Nat} (h : b.Agree b' i j) : b'.Agree b i j :=
  fun k x y hi hj hx hy => (h k y x hi hj hy hx).symm

theorem Agree.mono {b b' : Buffer} {i i' j j' : Nat} (h : b.Agree b' i j) (hi : i ≤ i')
    (hj : j' ≤ j) : b.Agree b' i' j' :=
  fun k x y hlo hhi => h k x y (by omega) (by omega)

theorem Agree.segment_eq {b b' : Buffer} {i j : Nat} (h : b.Agree b' i j)
    (hj : j ≤ b.size) (hj' : j ≤ b'.size) : b.segment i j = b'.segment i j := by
  refine List.ext_getElem? fun k => ?_
  rw [getElem?_segment, getElem?_segment]
  by_cases hk : i + k < j
  · rw [if_pos hk, if_pos hk]
    have hb : i + k < b.data.size := by simp only [size] at hj; omega
    have hb' : i + k < b'.data.size := by simp only [size] at hj'; omega
    rw [Array.getElem?_eq_getElem hb, Array.getElem?_eq_getElem hb']
    exact congrArg some (h _ _ _ (by omega) hk (Array.getElem?_eq_getElem hb)
      (Array.getElem?_eq_getElem hb'))
  · rw [if_neg hk, if_neg hk]

/-- Every byte after a write: those of the written bytes that fall inside the
    buffer, and the old ones elsewhere. -/
theorem getElem?_overwrite (b : Buffer) (o : Nat) (bytes : Bytes) (k : Nat) :
    (b.overwrite o bytes).data[k]? =
      if o ≤ k ∧ k < o + bytes.length ∧ k < b.size then bytes[k - o]? else b.data[k]? := by
  induction bytes generalizing b o with
  | nil => rw [overwrite, if_neg (by simp only [List.length_nil]; omega)]
  | cons byte rest ih =>
      have hsize : (⟨b.data.setIfInBounds o byte⟩ : Buffer).size = b.size := by
        simp only [size, Array.size_setIfInBounds]
      rw [overwrite, ih, hsize, List.length_cons]
      by_cases hlater : o + 1 ≤ k ∧ k < o + 1 + rest.length ∧ k < b.size
      · rw [if_pos hlater, if_pos (by omega), show k - o = k - (o + 1) + 1 by omega,
          List.getElem?_cons_succ]
      · rw [if_neg hlater, Array.getElem?_setIfInBounds]
        by_cases hk : o = k
        · -- the byte written by this step, if there is room for it
          subst hk
          rw [if_pos rfl]
          by_cases hroom : o < b.data.size
          · have hin : o < b.size := hroom
            rw [if_pos hroom, if_pos (by omega), Nat.sub_self, List.getElem?_cons_zero]
          · have hout : ¬ o < b.size := hroom
            rw [if_neg hroom, if_neg (by omega), Array.getElem?_eq_none (by omega)]
        · rw [if_neg hk, if_neg (by omega)]

theorem Addressable.overwrite {b : Buffer} (h : b.Addressable) (o : Nat) (bytes : Bytes) :
    (b.overwrite o bytes).Addressable := by
  unfold Addressable
  rw [size_overwrite]
  exact h

theorem ext_getElem? {b b' : Buffer} (h : ∀ k : Nat, b.data[k]? = b'.data[k]?) : b = b' := by
  cases b
  cases b'
  exact congrArg Buffer.mk (Array.ext_getElem? h)

/-- Two writes, the second right behind the first, are one write. -/
theorem overwrite_append (b : Buffer) (o : Nat) (first second : Bytes) :
    (b.overwrite o first).overwrite (o + first.length) second
      = b.overwrite o (first ++ second) := by
  refine ext_getElem? fun k => ?_
  simp only [getElem?_overwrite, size_overwrite, List.length_append]
  by_cases h1 : o ≤ k ∧ k < o + first.length ∧ k < b.size
  · rw [if_neg (by omega), if_pos h1, if_pos (by omega), List.getElem?_append_left (by omega)]
  · by_cases h2 : o + first.length ≤ k ∧ k < o + first.length + second.length ∧ k < b.size
    · rw [if_pos h2, if_pos (by omega), List.getElem?_append_right (by omega),
        Nat.sub_add_eq]
    · rw [if_neg h2, if_neg h1, if_neg (by omega)]

/-- The front of an earlier write replaced by a later one of the same length.
    This is how a prefix gets its final value. -/
theorem overwrite_patch (b : Buffer) (o : Nat) (old front rest : Bytes)
    (h : old.length = front.length) :
    (b.overwrite o (old ++ rest)).overwrite o front = b.overwrite o (front ++ rest) := by
  refine ext_getElem? fun k => ?_
  simp only [getElem?_overwrite, size_overwrite, List.length_append]
  by_cases h1 : o ≤ k ∧ k < o + front.length ∧ k < b.size
  · rw [if_pos h1, if_pos (by omega), List.getElem?_append_left (by omega)]
  · rw [if_neg h1]
    by_cases h2 : o ≤ k ∧ k < o + (old.length + rest.length) ∧ k < b.size
    · rw [if_pos h2, if_pos (by omega), List.getElem?_append_right (by omega),
        List.getElem?_append_right (by omega), h]
    · rw [if_neg h2, if_neg (by omega)]

/-- A write in front of an earlier one, up to where that one begins. -/
theorem overwrite_front (b : Buffer) (o : Nat) (front rest : Bytes) :
    (b.overwrite (o + front.length) rest).overwrite o front = b.overwrite o (front ++ rest) := by
  refine ext_getElem? fun k => ?_
  simp only [getElem?_overwrite, size_overwrite, List.length_append]
  by_cases h1 : o ≤ k ∧ k < o + front.length ∧ k < b.size
  · rw [if_pos h1, if_pos (by omega), List.getElem?_append_left (by omega)]
  · rw [if_neg h1]
    by_cases h2 : o + front.length ≤ k ∧ k < o + front.length + rest.length ∧ k < b.size
    · rw [if_pos h2, if_pos (by omega), List.getElem?_append_right (by omega), Nat.sub_add_eq]
    · rw [if_neg h2, if_neg (by omega)]

/-- Written bytes are there. -/
theorem segment_overwrite (b : Buffer) {o : Nat} {bytes : Bytes}
    (h : o + bytes.length ≤ b.size) :
    (b.overwrite o bytes).segment o (o + bytes.length) = bytes := by
  refine List.ext_getElem? fun k => ?_
  rw [getElem?_segment, getElem?_overwrite]
  by_cases hk : k < bytes.length
  · rw [if_pos (by omega), if_pos (by omega), Nat.add_sub_cancel_left]
  · rw [if_neg (by omega), List.getElem?_eq_none (by omega)]

/-- Writing what is there changes nothing. -/
theorem overwrite_segment {b : Buffer} {o : Nat} {bytes : Bytes}
    (h : b.segment o (o + bytes.length) = bytes) : b.overwrite o bytes = b := by
  refine ext_getElem? fun k => ?_
  rw [getElem?_overwrite]
  by_cases hk : o ≤ k ∧ k < o + bytes.length ∧ k < b.size
  · have hbyte := congrArg (fun bytes : Bytes => bytes[k - o]?) h
    simp only [getElem?_segment] at hbyte
    rw [if_pos (by omega), show o + (k - o) = k by omega] at hbyte
    rw [if_pos hk, hbyte]
  · rw [if_neg hk]

theorem ofBytes_toBytes (b : Buffer) : ofBytes b.toBytes = b := by
  rw [ofBytes, toBytes, Array.toArray_toList]

theorem size_ofBytes (bytes : Bytes) : (ofBytes bytes).size = bytes.length := by
  rw [size, ofBytes, List.size_toArray]

theorem getElem?_ofBytes (bytes : Bytes) (k : Nat) : (ofBytes bytes).data[k]? = bytes[k]? := by
  rw [ofBytes, List.getElem?_toArray]

/-- The bytes of a window that begins behind some front. -/
theorem segment_ofBytes (front rest : Bytes) (m : Nat) :
    (ofBytes (front ++ rest)).segment front.length m = rest.take (m - front.length) := by
  rw [segment, ofBytes, List.toList_toArray, List.drop_left]

/-- Bytes written to the front of a buffer stand before what was behind them. -/
theorem overwrite_zero (b : Buffer) {bytes : Bytes} (h : bytes.length ≤ b.size) :
    b.overwrite 0 bytes = ofBytes (bytes ++ b.toBytes.drop bytes.length) := by
  refine ext_getElem? fun k => ?_
  rw [getElem?_overwrite, getElem?_ofBytes, toBytes, Nat.zero_add, Nat.sub_zero]
  by_cases hk : k < bytes.length
  · rw [if_pos (by omega), List.getElem?_append_left hk]
  · rw [if_neg (by omega), List.getElem?_append_right (by omega), List.getElem?_drop,
      Array.getElem?_toList, Nat.add_sub_cancel' (by omega)]

end Buffer

namespace Bytes

theorem toNatLE_cons (byte : UInt8) (rest : Bytes) :
    toNatLE (byte :: rest) = byte.toNat + 256 * toNatLE rest :=
  rfl

theorem toNatLE_lt (bytes : Bytes) : toNatLE bytes < 256 ^ bytes.length := by
  induction bytes with
  | nil => exact Nat.one_pos
  | cons byte rest ih =>
      have hbyte : byte.toNat < 256 := byte.toNat_lt
      rw [toNatLE_cons, List.length_cons, Nat.pow_succ]
      omega

theorem toNatLE_ofNatLE {width value : Nat} (h : value < 256 ^ width) :
    toNatLE (ofNatLE width value) = value := by
  induction width generalizing value with
  | zero =>
      rw [Nat.pow_zero] at h
      rw [ofNatLE, show value = 0 by omega]
      rfl
  | succ width ih =>
      rw [Nat.pow_succ] at h
      have hlow : (UInt8.ofNat value).toNat = value % 256 := UInt8.toNat_ofNat'
      rw [ofNatLE, toNatLE_cons, ih (by omega), hlow]
      omega

end Bytes

namespace Width

theorem size_le (w : Width) : w.size ≤ 4 := by
  cases w <;> decide

theorem maxValue_lt (w : Width) : w.maxValue < 2 ^ (32 : Nat) := by
  cases w <;> decide

theorem maxValue_lt_pow (w : Width) : w.maxValue < 256 ^ w.size := by
  cases w <;> decide

/-- A prefix is the number in its segment. -/
theorem read_eq {ε : Type} (w : Width) {b : Buffer} {position : Nat} (hb : b.Addressable)
    (h : position + w.size ≤ b.size) :
    (w.read b position : Checked ε Nat)
      = .ok (Bytes.toNatLE (b.segment position (position + w.size))) := by
  unfold Buffer.Addressable at hb
  rw [read, Word.add_of_lt (by omega), Checked.ok_bind, b.slice_eq (by omega) h]
  rfl

/-- A prefix has at most 32 bits. -/
theorem toNatLE_segment_lt (w : Width) {b : Buffer} {position : Nat}
    (h : position + w.size ≤ b.size) :
    Bytes.toNatLE (b.segment position (position + w.size)) < 2 ^ (32 : Nat) := by
  have hlt := Bytes.toNatLE_lt (b.segment position (position + w.size))
  rw [b.length_segment_add h] at hlt
  exact Nat.lt_of_lt_of_le hlt (Nat.pow_le_pow_right (by decide) w.size_le)

end Width

namespace SequenceWidth

variable {b : Buffer} {position : Nat}

theorem size_le (w : SequenceWidth) : w.size ≤ 4 :=
  w.width.size_le

theorem maxValue_lt_pow (w : SequenceWidth) : w.maxValue < 256 ^ w.size :=
  w.width.maxValue_lt_pow

theorem read_eq {ε : Type} (w : SequenceWidth) (hb : b.Addressable)
    (h : position + w.size ≤ b.size) :
    (w.width.read b position : Checked ε Nat)
      = .ok (Bytes.toNatLE (b.segment position (position + w.size))) :=
  w.width.read_eq hb h

theorem toNatLE_segment_lt (w : SequenceWidth) (h : position + w.size ≤ b.size) :
    Bytes.toNatLE (b.segment position (position + w.size)) < 2 ^ (32 : Nat) :=
  w.width.toNatLE_segment_lt h

end SequenceWidth

end Wireform
