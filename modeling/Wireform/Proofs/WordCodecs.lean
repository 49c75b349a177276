import Wireform.Proofs.Containment
import Wireform.Proofs.Framing
import Wireform.Proofs.Numbers
import Wireform.Proofs.WriteBack

/-!
# Words Shifted In and Out

The bytes of a fixed-width integer against the shifts that a processor moves them
with.

A buffer holds an integer as base-256 digits, and reading and writing speak of
numbers: division, remainder, and the representative of a residue near zero. Code
for a 64-bit processor does the same with shifts. A byte is written by shifting it
to the bottom of the word, by an amount that depends on the order. A word is read
by shifting the bytes in from the highest one down, which walks through the buffer
backwards in one order and forwards in the other. A sign is extended by shifting the
integer to the top of the word and back.

`ByteOrder.shiftOut`, `ByteOrder.shiftIn` and `signShift` are these three, on bit
vectors, and each is shown to be what the digits say. The length prefixes of this
format are read and written by the same rule in native order.

## Main definitions

* `ByteOrder.shift`: How far a byte is shifted, by its place in the buffer.
* `ByteOrder.shiftOut`, `ByteOrder.shiftIn`: Writing and reading by shifts.
* `signShift`: Sign extension by shifts.

## Theorems

* `ByteOrder.toNat_shiftIn`: Bytes that are shifted in are digits.
* `ByteOrder.arrange_ofNatLE`: Digits are shifted out.
* `signShift_eq_bmod`: Shifting up and down again takes the representative near zero.
* `Width.read_eq_readUnsigned`, `Width.write_eq_writeUnsigned`: Prefixes are words in
  native order.
* `word_codecs`: Writing, reading and sign extension agree with the shifts and with
  one another.
-/

namespace Wireform

namespace ByteOrder

/-- How far the byte at a place is shifted down, in a word of some width. -/
def shift (order : ByteOrder) (width place : Nat) : Nat :=
  match order with
  | .native => 8 * place
  | .network => 8 * (width - 1 - place)

/-- The low bytes of a word, each shifted out of it. -/
def shiftOut (order : ByteOrder) (width : Nat) (word : BitVec 64) : Bytes :=
  (List.range width).map fun place =>
    UInt8.ofBitVec ((word >>> order.shift width place).setWidth 8)

/-- The word that bytes are shifted into, the most significant one first. What
    leaves the word at the top is lost. -/
def shiftIn (order : ByteOrder) (bytes : Bytes) : BitVec 64 :=
  (order.arrange bytes).reverse.foldl (fun word byte => word <<< 8 ||| byte.toBitVec.setWidth 64) 0

end ByteOrder

/-- The low bytes of a word as a signed number: shifted to the top, and back down
    with the sign. -/
def signShift (word : BitVec 64) (width : Nat) : Int :=
  ((word <<< (64 - 8 * width)).sshiftRight (64 - 8 * width)).toInt

/-! ## Digits -/

section Digits

/-- Shifting a byte in puts one more digit at the bottom, in the low 64 bits. -/
theorem toNat_shiftLeft_or (word : BitVec 64) (byte : UInt8) :
    (word <<< 8 ||| byte.toBitVec.setWidth 64).toNat =
      (byte.toNat + 256 * word.toNat) % 2 ^ (64 : Nat) := by
  have hbyte : byte.toNat < 2 ^ (8 : Nat) := byte.toNat_lt
  have hlow : (byte.toBitVec.setWidth 64).toNat = byte.toNat := by
    rw [BitVec.toNat_setWidth, UInt8.toNat_toBitVec]
    omega
  have hhigh : (word <<< 8).toNat = (word.toNat % 2 ^ (56 : Nat)) <<< 8 := by
    rw [BitVec.toNat_shiftLeft, Nat.shiftLeft_eq, Nat.shiftLeft_eq]
    omega
  -- the byte falls into the bits that the shift has cleared
  rw [BitVec.toNat_or, hlow, hhigh, ← Nat.shiftLeft_add_eq_or_of_lt hbyte, Nat.shiftLeft_eq]
  omega

theorem ByteOrder.toNat_shiftIn (order : ByteOrder) (bytes : Bytes) :
    (order.shiftIn bytes).toNat = Bytes.toNatLE (order.arrange bytes) % 2 ^ (64 : Nat) := by
  rw [shiftIn, List.foldl_reverse]
  induction order.arrange bytes with
  | nil => rfl
  | cons byte rest ih =>
      rw [List.foldr_cons, toNat_shiftLeft_or, ih, Bytes.toNatLE_cons]
      omega

theorem shiftRight_eq_digit (word : BitVec 64) (place : Nat) :
    UInt8.ofBitVec ((word >>> (8 * place)).setWidth 8) =
      UInt8.ofNat (word.toNat / 256 ^ place) := by
  have hpow : 2 ^ (8 * place) = 256 ^ place := Nat.pow_mul 2 8 place
  refine UInt8.toNat_inj.mp ?_
  rw [UInt8.toNat_ofBitVec, BitVec.toNat_setWidth, BitVec.toNat_ushiftRight,
    Nat.shiftRight_eq_div_pow, hpow, UInt8.toNat_ofNat']

theorem ByteOrder.shiftOut_native (width : Nat) (word : BitVec 64) :
    ByteOrder.native.shiftOut width word = Bytes.word width word.toNat :=
  List.map_congr_left fun place _ => shiftRight_eq_digit word place

/-- Counted from the other end, the places of the bytes are the same. -/
theorem ByteOrder.shiftOut_network (width : Nat) (word : BitVec 64) :
    ByteOrder.network.shiftOut width word = (ByteOrder.native.shiftOut width word).reverse := by
  refine List.ext_getElem ?_ fun place _ _ => ?_
  · simp only [shiftOut, List.length_reverse, List.length_map]
  · simp only [shiftOut, List.getElem_reverse, List.getElem_map, List.getElem_range,
      List.length_map, List.length_range]
    rfl

theorem ByteOrder.arrange_ofNatLE (order : ByteOrder) (width : Nat) (word : BitVec 64) :
    order.arrange (Bytes.ofNatLE width word.toNat) = order.shiftOut width word := by
  rw [Bytes.ofNatLE_eq_word, ← shiftOut_native]
  cases order with
  | native => rfl
  | network => exact (shiftOut_network width word).symm

/-- Of a number that has more digits, those that were kept are read back. -/
theorem Bytes.toNatLE_ofNatLE_mod (width value : Nat) :
    toNatLE (ofNatLE width value) = value % 2 ^ (8 * width) := by
  rw [Nat.pow_mul, show 2 ^ (8 : Nat) = 256 from rfl]
  induction width generalizing value with
  | zero => rw [Nat.pow_zero, Nat.mod_one]; rfl
  | succ width ih =>
      have hlow : (UInt8.ofNat value).toNat = value % 256 := UInt8.toNat_ofNat'
      rw [ofNatLE, toNatLE_cons, ih, hlow, Nat.pow_succ, Nat.mul_comm (256 ^ width), Nat.mod_mul]

end Digits

/-! ## Signs -/

section Signs

/-- Shifting a number up together with its modulus shifts the representative near
    zero. -/
theorem bmod_mul_right (n : Int) {half c : Nat} (hhalf : 0 < half) (hc : 0 < c) :
    Int.bmod (n * c) (2 * half * c) = Int.bmod n (2 * half) * c := by
  have hle : -(half : Int) ≤ Int.bmod n (2 * half) := by
    have h := Int.le_bmod (x := n) (m := 2 * half) (by omega)
    omega
  have hlt : Int.bmod n (2 * half) < half := by
    have h := Int.bmod_lt (x := n) (m := 2 * half) (by omega)
    omega
  have hdvd : ((2 * half : Nat) : Int) ∣ Int.bmod n (2 * half) - n :=
    ((Int.bmod_eq_iff (by omega)).mp rfl).2.2
  have hlow := Int.mul_le_mul_of_nonneg_right hle (Int.natCast_nonneg c)
  have hhigh := Int.mul_lt_mul_of_pos_right hlt (Int.natCast_pos.mpr hc)
  rw [Int.neg_mul] at hlow
  have hcast : ((2 * half * c : Nat) : Int) = 2 * (half * c) := by
    rw [Int.natCast_mul, Int.natCast_mul, Int.mul_assoc]
    rfl
  refine (Int.bmod_eq_iff (Nat.mul_pos (by omega) hc)).mpr ⟨?_, ?_, ?_⟩
  · rw [hcast]
    omega
  · rw [hcast]
    omega
  · rw [← Int.sub_mul, Int.natCast_mul]
    exact Int.mul_dvd_mul_right _ hdvd

theorem two_pow_eq_double {n : Nat} (h : 1 ≤ n) : 2 ^ n = 2 * 2 ^ (n - 1) := by
  obtain ⟨k, rfl⟩ : ∃ k, n = k + 1 := ⟨n - 1, by omega⟩
  rw [Nat.add_sub_cancel, Nat.pow_succ, Nat.mul_comm]

variable {width : Nat}

theorem signShift_eq_bmod (hpos : 1 ≤ width) (hwidth : width ≤ 8) (word : BitVec 64) :
    signShift word width = Int.bmod word.toNat (2 ^ (8 * width)) := by
  have hscale : 0 < 2 ^ (64 - 8 * width) := Nat.two_pow_pos _
  have hpow : 2 ^ (64 : Nat) = 2 * 2 ^ (8 * width - 1) * 2 ^ (64 - 8 * width) := by
    rw [← two_pow_eq_double (by omega), ← Nat.pow_add]
    congr 1
    omega
  -- at the top of the word the modulus is that of the word itself
  rw [signShift, BitVec.toInt_sshiftRight, BitVec.toInt_shiftLeft, Nat.shiftLeft_eq,
    Int.natCast_mul, hpow, bmod_mul_right _ (Nat.two_pow_pos _) hscale, Int.shiftRight_eq_div_pow,
    Int.mul_ediv_cancel _ (Int.natCast_ne_zero.mpr (Nat.pos_iff_ne_zero.mp hscale)),
    ← two_pow_eq_double (by omega)]

/-- The representative near zero is the only one in the signed range. -/
theorem eq_bmod_iff (hpos : 1 ≤ width) (n m : Int) :
    m = Int.bmod n (2 ^ (8 * width)) ↔
      -2 ^ (8 * width - 1) ≤ m ∧ m < 2 ^ (8 * width - 1) ∧
        m % 2 ^ (8 * width) = n % 2 ^ (8 * width) := by
  have hcast : ((2 ^ (8 * width) : Nat) : Int) = 2 ^ (8 * width) := Int.natCast_pow 2 _
  have hdouble : (2 : Int) ^ (8 * width) = 2 * 2 ^ (8 * width - 1) := by
    exact_mod_cast two_pow_eq_double (show 1 ≤ 8 * width by omega)
  rw [eq_comm, Int.bmod_eq_iff (Nat.two_pow_pos _), hcast, Int.dvd_iff_emod_eq_zero,
    ← Int.emod_eq_emod_iff_emod_sub_eq_zero, hdouble]
  refine and_congr ?_ (and_congr ?_ Iff.rfl) <;> omega

theorem signExtend_eq_ok {ε : Type} (hpos : 1 ≤ width) (hwidth : width ≤ 8) (word : BitVec 64) :
    (signExtend (word.toNat % 2 ^ (8 * width)) width : Checked ε Int) =
      .ok (signShift word width) := by
  rw [signExtend, Nat.mod_eq_of_lt (by omega), if_pos ⟨hpos, hwidth⟩, signShift_eq_bmod hpos hwidth,
    Int.natCast_emod, Int.emod_bmod]

end Signs

/-! ## Prefixes -/

theorem Width.read_eq_readUnsigned {ε : Type} (w : Width) (b : Buffer) (position : Nat) :
    (w.read b position : Checked ε Nat) = readUnsigned b position w.size .native := by
  rw [read, readUnsigned]
  cases hstop : (Word.add position w.size : Checked ε Nat) with
  | error fault => rfl
  | ok stop =>
      rw [Checked.ok_bind, Checked.ok_bind]
      cases hslice : (b.slice position stop : Checked ε Bytes) with
      | error fault => rfl
      | ok bytes =>
          -- a prefix has at most 32 bits, so nothing of it is cut off
          rcases Buffer.slice_eq_ok hslice with ⟨_, hsize, rfl⟩
          rw [Word.add_eq_ok hstop] at hsize ⊢
          have hlt := w.toNatLE_segment_lt hsize
          refine congrArg Except.ok (Nat.mod_eq_of_lt ?_).symm
          exact Nat.lt_trans hlt (by decide)

theorem Width.write_eq_writeUnsigned {ε : Type} (w : Width) (b : Buffer) (position value : Nat) :
    (w.write b position value : Checked ε Buffer) =
      writeUnsigned b position w.size .native value := by
  have hsize : w.size ≤ 8 := Nat.le_trans w.size_le (by decide)
  simp only [write, writeUnsigned, hsize, and_true]
  rfl

section Codecs

variable {ε : Type} {b : Buffer} {position width : Nat} (hb : b.Addressable)
  (hroom : position + width ≤ b.size)

include hb hroom

theorem readUnsigned_eq_shiftIn (order : ByteOrder) :
    (readUnsigned b position width order : Checked ε Nat) =
      .ok (order.shiftIn (b.segment position (position + width))).toNat := by
  have hstop := hb.lt_of_le hroom
  rw [readUnsigned, Word.add_of_lt hstop, Checked.ok_bind, b.slice_eq (Nat.le_add_right _ _) hroom,
    Checked.ok_bind, ByteOrder.toNat_shiftIn]
  rfl

theorem writeUnsigned_eq_shiftOut (hwidth : width ≤ 8) (order : ByteOrder) (word : BitVec 64) :
    (writeUnsigned b position width order word.toNat : Checked ε Buffer) =
      .ok (b.overwrite position (order.shiftOut width word)) := by
  have hstop := hb.lt_of_le hroom
  rw [writeUnsigned, Word.add_of_lt hstop, Checked.ok_bind, if_pos ⟨hroom, hwidth⟩,
    ByteOrder.arrange_ofNatLE]
  rfl

/-- A word of one to eight bytes, at a position where the buffer has room for it, is
    written and read as its shifts say. Writing changes no other byte, and reading in
    the same order gives the low bytes of the word back. The bytes in network order are
    those in native order reversed. Extending the sign gives the only number of the
    signed range that the word stands for. Prefixes of every width are read and written
    as words in native order, at whatever position, and stop where these do. -/
theorem word_codecs (hpos : 1 ≤ width) (hwidth : width ≤ 8) (word : BitVec 64) :
    (∀ order, ∃ b', (writeUnsigned b position width order word.toNat : Checked ε Buffer) = .ok b' ∧
      b.SameOutside position (position + width) b' ∧
      b'.segment position (position + width) = order.shiftOut width word ∧
      (readUnsigned b' position width order : Checked ε Nat) =
        .ok (word.toNat % 2 ^ (8 * width))) ∧
    (∀ order, (readUnsigned b position width order : Checked ε Nat) =
      .ok (order.shiftIn (b.segment position (position + width))).toNat) ∧
    ByteOrder.network.shiftOut width word = (ByteOrder.native.shiftOut width word).reverse ∧
    (signExtend (word.toNat % 2 ^ (8 * width)) width : Checked ε Int) =
      .ok (signShift word width) ∧
    (∀ n : Int, n = signShift word width ↔ -2 ^ (8 * width - 1) ≤ n ∧ n < 2 ^ (8 * width - 1) ∧
      n % 2 ^ (8 * width) = word.toNat % 2 ^ (8 * width)) ∧
    ∀ (w : Width) (b' : Buffer) (start value : Nat),
      (w.read b' start : Checked ε Nat) = readUnsigned b' start w.size .native ∧
      (w.write b' start value : Checked ε Buffer) =
        writeUnsigned b' start w.size .native value := by
  refine ⟨fun order => ?_, readUnsigned_eq_shiftIn hb hroom, ByteOrder.shiftOut_network width word,
    signExtend_eq_ok hpos hwidth word, fun n => ?_, fun w b' start value =>
      ⟨w.read_eq_readUnsigned b' start, w.write_eq_writeUnsigned b' start value⟩⟩
  · have hlength : (order.shiftOut width word).length = width := by
      rw [ByteOrder.shiftOut, List.length_map, List.length_range]
    have hroom' : position + (order.shiftOut width word).length ≤ b.size := by rwa [hlength]
    have hsegment := b.segment_overwrite hroom'
    rw [hlength] at hsegment
    refine ⟨_, writeUnsigned_eq_shiftOut hb hroom hwidth order word,
      b.sameOutside_overwrite (Nat.le_refl _) (Nat.le_of_eq (by rw [hlength])), hsegment, ?_⟩
    have hroom'' : position + width ≤ (b.overwrite position (order.shiftOut width word)).size := by
      rwa [Buffer.size_overwrite]
    rw [readUnsigned_eq_shiftIn (hb.overwrite _ _) hroom'' order, hsegment,
      ByteOrder.toNat_shiftIn, ← ByteOrder.arrange_ofNatLE, ByteOrder.arrange_arrange,
      Bytes.toNatLE_ofNatLE_mod, Nat.mod_eq_of_lt]
    exact Nat.lt_of_le_of_lt (Nat.mod_le _ _) word.isLt
  · rw [signShift_eq_bmod hpos hwidth]
    exact eq_bmod_iff hpos _ n

end Codecs

/-- A buffer of six equal bytes. -/
def sevens : Buffer :=
  .ofBytes (List.replicate 6 7)

-- Three bytes of a longer word, with the sign bit of the three set.
theorem word_codecs_sevens :
    sevens.Addressable ∧
      ∃ b', (writeUnsigned sevens 1 3 .network 0x1FF8001 : Checked Refusal Buffer) = .ok b' ∧
        sevens.SameOutside 1 4 b' ∧ b'.segment 1 4 = [0xFF, 0x80, 0x01] ∧
        (readUnsigned b' 1 3 .network : Checked Refusal Nat) = .ok 0xFF8001 ∧
        (signExtend 0xFF8001 3 : Checked Refusal Int) = .ok (-32767) := by
  have hb : sevens.Addressable := by
    unfold Buffer.Addressable
    decide
  have hroom : 1 + 3 ≤ sevens.size := by decide
  rcases @word_codecs Refusal sevens 1 3 hb hroom (by decide) (by decide) 0x1FF8001#64 with
    ⟨hwrite, _, _, hsign, _⟩
  rcases hwrite .network with ⟨b', hb', houtside, hsegment, hread⟩
  exact ⟨hb, b', hb', houtside, hsegment, hread, hsign⟩

end Wireform
