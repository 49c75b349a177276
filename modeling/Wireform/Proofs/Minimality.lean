import Wireform.Proofs.Acceptance

/-!
# Shortest Encodings

A number is written in as few bytes as any encoding of it has, and is regained
from them wherever they stand.

Three computations have to agree on how many bytes a number takes: one counts
its bits, one divides until nothing is left, and one looks for a clear
continuation bit. That the first two agree is a fact about digits. The third is
where a number must not exceed the bits of a scan, since a last byte carries
fewer of them than the others. `Varint.Regains` says what is then true of the
bytes in every buffer: they are written to the front of one and change nothing
behind them, and any window that starts with them is scanned up to their end
and decodes to the number, whatever stands around them.

No encoding is shorter. A scan that ends after `n` bytes has seen `n` groups of
seven bits, so that the number in them needs no more than `n` bytes. This takes
nothing from the encoding itself, which may be padded.

Signed numbers go through their place in the order 0, -1, 1, -2, 2. On words that
place is computed by shifts: the sign, shifted over all of the word, turns over
the bits of the doubled word. `zigzag_toInt` and `unzigzag_toNat` say so for words
of every width, and the extremes of two's complement are no special case.

## Main definitions

* `Varint.Regains`: What is written of a number and found of it again.

## Theorems

* `sshiftRight_sign`: A word shifted down to its sign.
* `zigzag_toInt`, `unzigzag_toNat`: The order of signed numbers, by shifts.
* `Varint.regains_of_scanBytes`: A number that a scan accepts is regained.
* `Varint.regains_zigzag`: Signed words are regained with the numbers.
* `Varint.encodedSize_le_of_accepted`: No encoding is shorter.
* `Varint.shortest_encoding`: Numbers are written shortest and regained.
-/

namespace Wireform

section Words

variable {w : Nat}

theorem ushiftRight_eq_zero_of_lt {x : BitVec (w + 1)} (h : 2 * x.toNat < 2 ^ (w + 1)) :
    x >>> w = 0#(w + 1) := by
  refine BitVec.eq_of_toNat_eq ?_
  rw [Nat.pow_succ] at h
  rw [BitVec.toNat_ushiftRight, Nat.shiftRight_eq_div_pow, Nat.div_eq_of_lt (by omega)]
  rfl

/-- Shifted down to its sign, a word is all ones or zero. -/
theorem sshiftRight_sign (x : BitVec (w + 1)) :
    x.sshiftRight w = if x.msb then BitVec.allOnes (w + 1) else 0#(w + 1) := by
  by_cases hneg : x.msb = true
  · -- the complement of a negative word is not negative
    have hge := BitVec.msb_eq_true_iff_two_mul_ge.mp hneg
    have hzero : ~~~x >>> w = 0#(w + 1) := by
      refine ushiftRight_eq_zero_of_lt ?_
      rw [BitVec.toNat_not]
      omega
    rw [if_pos hneg, BitVec.sshiftRight_eq_of_msb_true hneg, hzero, BitVec.not_zero]
  · rw [if_neg hneg]
    rw [Bool.not_eq_true] at hneg
    rw [BitVec.sshiftRight_eq_of_msb_false hneg,
      ushiftRight_eq_zero_of_lt (BitVec.msb_eq_false_iff_two_mul_lt.mp hneg)]

/-- In a word, the order 0, -1, 1, -2, 2 is a shift to the left and, for negative
    numbers, all bits turned over. -/
theorem zigzag_toInt (x : BitVec (w + 1)) :
    zigzag x.toInt = (x <<< 1 ^^^ x.sshiftRight w).toNat := by
  have hlt := x.isLt
  have hint := x.toInt_eq_msb_cond
  have hdouble : (x <<< 1).toNat = 2 * x.toNat % 2 ^ (w + 1) := by
    rw [BitVec.toNat_shiftLeft, Nat.shiftLeft_eq, Nat.mul_comm, Nat.pow_one]
  rw [sshiftRight_sign]
  by_cases hneg : x.msb = true
  · have hge := BitVec.msb_eq_true_iff_two_mul_ge.mp hneg
    have hmod : 2 * x.toNat % 2 ^ (w + 1) = 2 * x.toNat - 2 ^ (w + 1) := by
      rw [Nat.mod_eq_sub_mod hge, Nat.mod_eq_of_lt (by omega)]
    rw [if_pos hneg] at hint ⊢
    rw [BitVec.xor_allOnes, BitVec.toNat_not, hdouble, hmod, hint, zigzag, if_neg (by omega)]
    omega
  · rw [if_neg hneg] at hint ⊢
    rw [Bool.not_eq_true] at hneg
    have hsmall := BitVec.msb_eq_false_iff_two_mul_lt.mp hneg
    rw [BitVec.xor_zero, hdouble, Nat.mod_eq_of_lt hsmall, hint, zigzag, if_pos (by omega)]
    omega

/-- And back: a shift to the right and, at odd places, all bits turned over. -/
theorem unzigzag_toNat (y : BitVec (w + 1)) :
    unzigzag y.toNat = (y >>> 1 ^^^ -(y &&& 1#(w + 1))).toInt := by
  have hlt := y.isLt
  have hhalf : (y >>> 1).toNat = y.toNat / 2 := by
    rw [BitVec.toNat_ushiftRight, Nat.shiftRight_eq_div_pow, Nat.pow_one]
  have hsmall : (y >>> 1).msb = false := by
    rw [BitVec.msb_eq_false_iff_two_mul_lt, hhalf]
    omega
  have hlow : (y &&& 1#(w + 1)).toNat = y.toNat % 2 := by
    rw [BitVec.toNat_and, BitVec.toNat_one (by omega), Nat.and_one_is_mod]
  by_cases heven : y.toNat % 2 = 0
  · have hzero : y &&& 1#(w + 1) = 0#(w + 1) := by
      refine BitVec.eq_of_toNat_eq ?_
      rw [hlow, heven]
      rfl
    rw [hzero, BitVec.neg_zero, BitVec.xor_zero, BitVec.toInt_eq_toNat_of_msb hsmall, hhalf,
      unzigzag, if_pos heven]
  · have hone : y &&& 1#(w + 1) = 1#(w + 1) := by
      refine BitVec.eq_of_toNat_eq ?_
      rw [hlow, BitVec.toNat_one (by omega)]
      omega
    have hnot : (~~~(y >>> 1)).msb = true := by
      rw [BitVec.msb_not, hsmall]
      simp
    have hint := (~~~(y >>> 1)).toInt_eq_msb_cond
    rw [if_pos hnot, BitVec.toNat_not, hhalf] at hint
    rw [hone, BitVec.neg_one_eq_allOnes, BitVec.xor_allOnes, unzigzag, if_neg heven]
    omega

end Words

namespace Varint

/-- Some bytes, as many as the size of the number says, are all that is written
    of it to the front of a buffer with room for them. Wherever they stand, with
    anything before and behind them, the scan ends with them, and the number that
    they decode to stands for the value. -/
def Regains {α : Type} (find : Buffer → Nat → Nat → Checked Refusal Scan) (tell : Nat → α)
    (number : Nat) (value : α) : Prop :=
  ∃ bytes : Bytes, bytes.length = encodedSize number ∧
    (∀ b : Buffer, encodedSize number ≤ b.size →
      encodeInto b number =
        ⟨.ok (encodedSize number), .ofBytes (bytes ++ b.toBytes.drop bytes.length)⟩) ∧
    ∀ (front rest : Bytes) (m : Nat), (Buffer.ofBytes (front ++ bytes ++ rest)).Addressable →
      front.length + bytes.length ≤ m → m ≤ (front ++ bytes ++ rest).length →
      find (.ofBytes (front ++ bytes ++ rest)) front.length m =
        .ok (.complete (encodedSize number)) ∧
      tell <$> decodeAt (.ofBytes (front ++ bytes ++ rest)) front.length (encodedSize number) =
        (.ok value : Checked Refusal α)

/-- The groups of a number are regained by every scan that ends with them. -/
theorem regains_of_scanBytes {α : Type} {find : Buffer → Nat → Nat → Checked Refusal Scan}
    {tell : Nat → α} {maxSize : Nat} {lastMask : UInt8}
    {number : Nat} (hlt : number < 2 ^ (64 : Nat))
    (hfind : ∀ (b : Buffer) (o m : Nat), b.Addressable → o ≤ m → m ≤ b.size →
      find b o m = .ok (scanBytes maxSize lastMask 0 (b.segment o m)))
    (hscan : scanBytes maxSize lastMask 0 (groups number) = .complete (groups number).length) :
    Regains find tell number (tell number) := by
  have hlength := length_groups number
  have hten : encodedSize number ≤ 10 :=
    encodedSize_le (by decide) (Nat.lt_trans hlt (by decide))
  refine ⟨groups number, hlength, ?_, ?_⟩
  · intro b hroom
    rw [encodeInto, hlength, if_pos hroom, b.overwrite_zero (by omega), hlength]
  · intro front rest m hb hroom hm
    have hsize := Buffer.size_ofBytes (front ++ (groups number ++ rest))
    rw [List.append_assoc] at hb hm ⊢
    rw [List.length_append, List.length_append] at hsize hm
    rw [← hlength] at hten ⊢
    constructor
    · -- the window is the groups and some of what follows
      have happend := scanBytes_append hscan
        (rest.take (m - front.length - (groups number).length))
      rw [Nat.sub_zero, List.take_length] at happend
      rw [hfind _ _ _ hb (by omega) (by omega), Buffer.segment_ofBytes, List.take_append,
        List.take_of_length_le (by omega), happend]
    · rw [decodeAt_eq hb hten (by omega), Buffer.segment_ofBytes, Nat.add_sub_cancel_left,
        List.take_left, ofGroups_groups, Nat.mod_eq_of_lt (show number < Word.bound from hlt)]
      rfl

theorem regains64 {α : Type} {tell : Nat → α} {number : Nat} (h : number < 2 ^ (64 : Nat)) :
    Regains scan64 tell number (tell number) :=
  regains_of_scanBytes h (fun _ _ _ hb ho hm => scan64_eq hb ho hm) (scanBytes_groups64 h)

theorem regains32 {α : Type} {tell : Nat → α} {number : Nat} (h : number < 2 ^ (32 : Nat)) :
    Regains scan32 tell number (tell number) :=
  regains_of_scanBytes (Nat.lt_trans h (by decide))
    (fun _ _ _ hb ho hm => scan_eq lastMask32 hb ho hm (by decide) (by decide))
    (scanBytes_groups32 h)

/-- A scan that regains all numbers of a width regains the signed words. -/
theorem regains_zigzag {w : Nat} {find : Buffer → Nat → Nat → Checked Refusal Scan}
    (h : ∀ number < 2 ^ (w + 1), Regains find unzigzag number (unzigzag number))
    (x : BitVec (w + 1)) : Regains find unzigzag (zigzag x.toInt) x.toInt := by
  have hlt : zigzag x.toInt < 2 ^ (w + 1) := by
    rw [zigzag_toInt]
    exact BitVec.isLt _
  have hregains := h _ hlt
  rwa [unzigzag_zigzag] at hregains

/-- The bytes of an encoding are enough for its number. -/
theorem encodedSize_le_of_accepted {maxSize bits n : Nat} {window : Bytes}
    (h : Accepted maxSize bits window n) : encodedSize (Bytes.groupSum (window.take n)) ≤ n := by
  have hpos := h.pos
  have hlength := Bytes.lt_length_of_endsAt h.ends
  have hlt := ofGroups_lt (window.take n)
  rw [List.length_take_of_le (by omega)] at hlt
  rw [groupSum_eq]
  exact encodedSize_le hpos hlt

/-- Every number is written in as many bytes as its size says, without a change
    behind them, and is found again in every window that starts with these bytes.
    No encoding that decodes to the number is shorter. With the order of signed
    numbers, which shifts compute, the same is true of all signed words. -/
theorem shortest_encoding :
    (∀ number < 2 ^ (64 : Nat), Regains scan64 id number number) ∧
    (∀ number < 2 ^ (32 : Nat), Regains scan32 id number number) ∧
    (∀ (b : Buffer) (o m n number : Nat), b.Addressable → o ≤ m → m ≤ b.size →
      ((scan64 b o m : Checked Refusal Scan) = .ok (.complete n) ∨
        (scan32 b o m : Checked Refusal Scan) = .ok (.complete n)) →
      (decodeAt b o n : Checked Refusal Nat) = .ok number → encodedSize number ≤ n) ∧
    (∀ x : BitVec 64, zigzag x.toInt = (x <<< 1 ^^^ x.sshiftRight 63).toNat ∧
      Regains scan64 unzigzag (zigzag x.toInt) x.toInt) ∧
    (∀ x : BitVec 32, zigzag x.toInt = (x <<< 1 ^^^ x.sshiftRight 31).toNat ∧
      Regains scan32 unzigzag (zigzag x.toInt) x.toInt) ∧
    (∀ y : BitVec 64, unzigzag y.toNat = (y >>> 1 ^^^ -(y &&& 1)).toInt) ∧
    ∀ y : BitVec 32, unzigzag y.toNat = (y >>> 1 ^^^ -(y &&& 1)).toInt := by
  refine ⟨fun number h => regains64 h, fun number h => regains32 h, ?_, ?_, ?_,
    unzigzag_toNat, unzigzag_toNat⟩
  · intro b o m n number hb ho hm hscan hdecode
    have hle : ∀ {maxSize bits : Nat}, maxSize ≤ 10 → bits ≤ 64 →
        Accepted maxSize bits (b.segment o m) n → encodedSize number ≤ n := by
      intro maxSize bits hsize hbits haccepted
      rw [(decodeAt_of_accepted hb hm hsize hbits haccepted).1, Except.ok.injEq] at hdecode
      rw [← hdecode]
      exact encodedSize_le_of_accepted haccepted
    rcases hscan with hscan | hscan
    · exact hle (by decide) (by decide) ((scan64_iff hb ho hm).mp hscan)
    · exact hle (by decide) (by decide) ((scan32_iff hb ho hm).mp hscan)
  · exact fun x => ⟨zigzag_toInt x, regains_zigzag (fun number h => regains64 h) x⟩
  · exact fun x => ⟨zigzag_toInt x, regains_zigzag (fun number h => regains32 h) x⟩

-- The greatest number of either width, and an encoding of 300 that is a byte
-- longer than it has to be.
theorem shortest_encoding_padded :
    Regains scan64 id (2 ^ (64 : Nat) - 1) (2 ^ (64 : Nat) - 1) ∧
      Regains scan32 id (2 ^ (32 : Nat) - 1) (2 ^ (32 : Nat) - 1) ∧
      (scan64 (.ofBytes [0xac, 0x82, 0]) 0 3 : Checked Refusal Scan) = .ok (.complete 3) ∧
      (decodeAt (.ofBytes [0xac, 0x82, 0]) 0 3 : Checked Refusal Nat) = .ok 300 ∧
      encodedSize 300 ≤ 3 := by
  rcases shortest_encoding with ⟨h64, h32, hleast, _⟩
  have hb : (Buffer.ofBytes [0xac, 0x82, 0]).Addressable := by
    unfold Buffer.Addressable
    decide
  have hscan : (scan64 (.ofBytes [0xac, 0x82, 0]) 0 3 : Checked Refusal Scan) =
      .ok (.complete 3) := by
    rfl
  have hdecode : (decodeAt (.ofBytes [0xac, 0x82, 0]) 0 3 : Checked Refusal Nat) = .ok 300 := by
    rfl
  exact ⟨h64 _ (by decide), h32 _ (by decide), hscan, hdecode,
    hleast _ 0 3 3 300 hb (by decide) (by decide) (.inl hscan) hdecode⟩

end Varint

end Wireform
