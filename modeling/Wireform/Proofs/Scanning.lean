import Wireform.Proofs.Parser
import Wireform.Proofs.Segments

/-!
# Scanning in a Buffer

The scans of variable-width integers find what `Varint.scanBytes` finds in the
bytes of the window.

`scan` follows the continuation bits byte by byte, and its run is matched with
the list by induction on the number of bytes it may still look at. `scan64`
takes a shortcut when ten bytes are at hand: it reads eight bytes as one word
and tests their high bits with one mask. Those bytes may lie behind the end of
the integer, so the shortcut is where a scan could depend on bytes that are
not its own. It does not, because it is taken only if all of the first nine
bytes ask for another one, and then the byte-by-byte scan reaches the tenth as
well.

## Theorems

* `Buffer.segment_cons`: The byte at a position heads the segment from there.
* `Varint.scan_eq`: A scan finds what is found in the list.
* `Varint.highBit_of_lanes`: The mask of eight lanes tests eight high bits.
* `Varint.scan64_eq`: The shortcut changes nothing.
* `Varint.decodeAt_eq`: The number in a scanned segment.
-/

namespace Wireform

/-- The byte at a position heads the segment that starts there. -/
theorem Buffer.segment_cons (b : Buffer) {i j : Nat} (hij : i < j) (hj : j ≤ b.size) :
    ∃ byte, b.data[i]? = some byte ∧ b.segment i j = byte :: b.segment (i + 1) j := by
  have hlen := b.length_segment (i := i) hj
  rcases hseg : b.segment i j with _ | ⟨byte, rest⟩
  · rw [hseg, List.length_nil] at hlen
    omega
  · refine ⟨byte, ?_, ?_⟩
    · have hget := b.getElem?_segment i j 0
      rw [hseg, Nat.add_zero, if_pos hij, List.getElem?_cons_zero] at hget
      exact hget.symm
    · rw [← b.segment_drop i j 1, hseg, List.drop_one, List.tail_cons]

theorem Buffer.byteAt_eq {ε : Type} {b : Buffer} {i : Nat} {byte : UInt8}
    (h : b.data[i]? = some byte) : (b.byteAt i : Checked ε UInt8) = .ok byte := by
  rw [byteAt, h]

namespace Varint

variable {ε : Type} {b : Buffer} {o m : Nat}

theorem scanBytes_le_maxSize {maxSize : Nat} {lastMask : UInt8} {size n : Nat} {bytes : Bytes}
    (hsize : size < maxSize) (h : scanBytes maxSize lastMask size bytes = .complete n) :
    n ≤ maxSize := by
  induction bytes generalizing size with
  | nil => exact absurd h (by simp only [scanBytes, reduceCtorEq, not_false_eq_true])
  | cons byte rest ih =>
      simp only [scanBytes] at h
      split at h
      · split at h
        · cases h
        · cases h
          omega
      · split at h
        · cases h
          omega
        · exact ih (by omega) h

/-- The scan of a buffer is the scan of a list, by induction on the number of
    bytes that the window and the widest value still allow. -/
theorem scanFrom_eq {maxSize : Nat} {lastMask : UInt8} (hm : m ≤ b.size) :
    ∀ count position size : Nat, size < maxSize → count = min (m - position) (maxSize - size) →
      (scanFrom b maxSize lastMask count position size : Checked ε Scan)
        = .ok (scanBytes maxSize lastMask size (b.segment position m)) := by
  intro count
  induction count with
  | zero =>
      intro position size hsize hcount
      have hlen := b.length_segment (i := position) hm
      rw [List.eq_nil_of_length_eq_zero (by omega : (b.segment position m).length = 0)]
      rfl
  | succ count ih =>
      intro position size hsize hcount
      rcases b.segment_cons (by omega : position < m) hm with ⟨byte, hbyte, hseg⟩
      rw [scanFrom, Buffer.byteAt_eq hbyte, hseg, Checked.ok_bind, scanBytes]
      -- the last allowed byte is tested by the mask, the others by their high bit
      by_cases hlast : size + 1 = maxSize
      · rw [if_pos hlast, if_pos hlast]
        rfl
      · rw [if_neg hlast, if_neg hlast]
        by_cases hend : byte &&& 0x80 = 0
        · rw [if_pos hend, if_pos hend]
          rfl
        · rw [if_neg hend, if_neg hend]
          exact ih (position + 1) (size + 1) (by omega) (by omega)

theorem scan_eq {maxSize : Nat} (lastMask : UInt8) (hb : b.Addressable) (ho : o ≤ m)
    (hm : m ≤ b.size) (hpos : 0 < maxSize) (hmax : maxSize ≤ 10) :
    (scan b o m maxSize lastMask : Checked ε Scan)
      = .ok (scanBytes maxSize lastMask 0 (b.segment o m)) := by
  unfold Buffer.Addressable at hb
  rw [scan, Word.add_of_lt (by omega), Checked.ok_bind]
  exact scanFrom_eq hm _ o 0 hpos (by omega)

/-- Bytes that all ask for another one are passed over. -/
theorem scanBytes_continue {maxSize : Nat} {lastMask : UInt8} (front rest : Bytes)
    (hfront : ∀ byte ∈ front, byte &&& 0x80 ≠ 0) :
    ∀ size, size + front.length < maxSize →
      scanBytes maxSize lastMask size (front ++ rest)
        = scanBytes maxSize lastMask (size + front.length) rest := by
  induction front with
  | nil => exact fun size _ => rfl
  | cons byte front ih =>
      intro size hsize
      rw [List.length_cons] at hsize ⊢
      rw [List.cons_append, scanBytes, if_neg (by omega),
        if_neg (hfront byte List.mem_cons_self),
        ih (fun x hx => hfront x (List.mem_cons_of_mem byte hx)) (size + 1) (by omega)]
      congr 1
      omega

/-- Each byte of a word has its eight bits in a lane of their own. -/
theorem testBit_toNatLE (bytes : Bytes) (lane bit : Nat) (hbit : bit < 8) :
    (Bytes.toNatLE bytes).testBit (8 * lane + bit)
      = (bytes[lane]?.getD 0).toNat.testBit bit := by
  induction bytes generalizing lane with
  | nil => simp only [Bytes.toNatLE, List.foldr_nil, Nat.zero_testBit, List.getElem?_nil,
      Option.getD_none, UInt8.toNat_zero]
  | cons byte rest ih =>
      have hbyte : byte.toNat < 2 ^ (8 : Nat) := byte.toNat_lt
      rw [Bytes.toNatLE_cons, Nat.add_comm, show (256 : Nat) = 2 ^ (8 : Nat) from rfl,
        Nat.testBit_two_pow_mul_add _ hbyte]
      cases lane with
      | zero => rw [if_pos (by omega), Nat.mul_zero, Nat.zero_add, List.getElem?_cons_zero,
          Option.getD_some]
      | succ lane =>
          rw [if_neg (by omega), show 8 * (lane + 1) + bit - 8 = 8 * lane + bit by omega, ih,
            List.getElem?_cons_succ]

/-- The mask of eight lanes tests eight high bits at once. -/
theorem highBit_of_lanes {bytes : Bytes} (hlen : bytes.length = 8)
    (h : Bytes.toNatLE bytes &&& continuationLanes = continuationLanes) :
    ∀ byte ∈ bytes, byte &&& 0x80 ≠ 0 := by
  intro byte hmem hzero
  rcases List.mem_iff_getElem?.mp hmem with ⟨lane, hlane⟩
  have hlt : lane < 8 := by
    have := (List.getElem?_eq_some_iff.mp hlane).1
    omega
  have hmask : continuationLanes.testBit (8 * lane + 7) = true := by
    have hall : ∀ i : Fin 8, continuationLanes.testBit (8 * i.val + 7) = true := by decide
    exact hall ⟨lane, hlt⟩
  have hset : byte.toNat.testBit 7 = true := by
    have hbit := congrArg (Nat.testBit · (8 * lane + 7)) h
    simp only [Nat.testBit_and, hmask, Bool.and_true] at hbit
    rw [testBit_toNatLE bytes lane 7 (by omega), hlane, Option.getD_some] at hbit
    exact hbit
  -- a byte without its high bit has no bit in common with the mask
  have hclear := congrArg (fun x : UInt8 => x.toNat.testBit 7) hzero
  simp only [UInt8.toNat_and, Nat.testBit_and, hset] at hclear
  exact absurd hclear (by decide)

/-- Nine bytes that ask for another leave the decision to the tenth. -/
theorem scanBytes_tenth (front rest : Bytes) (tenth : UInt8)
    (hfront : ∀ byte ∈ front, byte &&& 0x80 ≠ 0) (hlen : front.length = 9) :
    scanBytes maxSize64 lastMask64 0 (front ++ tenth :: rest)
      = if tenth &&& lastMask64 ≠ 0 then .overflow else .complete maxSize64 := by
  rw [scanBytes_continue front _ hfront 0 (by rw [hlen]; decide), hlen, scanBytes,
    if_pos (by decide)]
  rfl

/-- The shortcut changes nothing: it is taken only where the first nine bytes
    ask for another, and a scan byte by byte comes to the tenth as well. -/
theorem scan64_eq (hb : b.Addressable) (ho : o ≤ m) (hm : m ≤ b.size) :
    (scan64 b o m : Checked ε Scan)
      = .ok (scanBytes maxSize64 lastMask64 0 (b.segment o m)) := by
  have hslow : (scan b o m maxSize64 lastMask64 : Checked ε Scan)
      = .ok (scanBytes maxSize64 lastMask64 0 (b.segment o m)) :=
    scan_eq lastMask64 hb ho hm (by decide) (by decide)
  rw [scan64, Word.sub_of_le ho, Checked.ok_bind]
  by_cases hten : maxSize64 ≤ m - o
  · rw [if_pos hten]
    have hten' : o + 10 ≤ m := by simp only [maxSize64] at hten; omega
    rw [b.slice_eq (by omega) (by omega), Checked.ok_bind]
    -- the first eight bytes are tested as one word, the ninth alone
    by_cases hlanes : Bytes.toNatLE (b.segment o (o + 8)) &&& continuationLanes = continuationLanes
    · rw [if_pos hlanes]
      rcases b.segment_cons (by omega : o + 8 < m) hm with ⟨ninth, hninth, hseg9⟩
      rcases b.segment_cons (by omega : o + 9 < m) hm with ⟨tenth, htenth, hseg10⟩
      rw [Buffer.byteAt_eq hninth]
      by_cases hlong : ninth &&& 0x80 = 0
      · simpa only [Checked.ok_bind, hlong, pure, Except.pure, ne_eq, not_true_eq_false,
          decide_false, Bool.false_eq_true, if_false] using hslow
      · -- the window is its first nine bytes, the tenth and the rest
        have hsplit : b.segment o m
            = (b.segment o (o + 8) ++ [ninth]) ++ tenth :: b.segment (o + 10) m := by
          rw [List.append_assoc, List.singleton_append, ← hseg10, ← hseg9,
            ← b.segment_take (by omega : o + 8 ≤ m), ← b.segment_drop o m 8,
            List.take_append_drop]
        have hlen8 : (b.segment o (o + 8)).length = 8 := by
          rw [b.length_segment (by omega)]
          omega
        have hfront : ∀ byte ∈ b.segment o (o + 8) ++ [ninth], byte &&& 0x80 ≠ 0 := by
          intro byte hbyte
          rcases List.mem_append.mp hbyte with hbyte | hbyte
          · exact highBit_of_lanes hlen8 hlanes byte hbyte
          · rw [List.mem_singleton.mp hbyte]
            exact hlong
        rw [hsplit, scanBytes_tenth _ _ _ hfront (by simp only [List.length_append, hlen8,
          List.length_singleton])]
        simp only [Checked.ok_bind, hlong, pure, Except.pure, ne_eq, not_false_eq_true,
          decide_true, if_true, Buffer.byteAt_eq htenth]
    · rw [if_neg hlanes]
      exact hslow
  · rw [if_neg hten]
    exact hslow

/-- The number in a scanned segment. -/
theorem decodeAt_eq {n : Nat} (hb : b.Addressable) (hn : n ≤ 10) (h : o + n ≤ b.size) :
    (decodeAt b o n : Checked ε Nat)
      = .ok (ofGroups (b.segment o (o + n)) % Word.bound) := by
  unfold Buffer.Addressable at hb
  rw [decodeAt, Word.add_of_lt (by omega), Checked.ok_bind, b.slice_eq (by omega) h,
    Checked.ok_bind, if_pos hn]
  rfl

end Varint

namespace VarInt

theorem scan_eq {ε : Type} {b : Buffer} {o m : Nat} (kind : VarInt) (hb : b.Addressable)
    (ho : o ≤ m) (hm : m ≤ b.size) :
    (kind.scan b o m : Checked ε Varint.Scan) = .ok (kind.scanBytes (b.segment o m)) := by
  cases kind with
  | varint64 => exact Varint.scan64_eq hb ho hm
  | _ => exact Varint.scan_eq _ hb ho hm (by decide) (by decide)

theorem scanBytes_le_ten {kind : VarInt} {n : Nat} {bytes : Bytes}
    (h : kind.scanBytes bytes = .complete n) : n ≤ 10 := by
  cases kind with
  | varint64 => exact Varint.scanBytes_le_maxSize (by decide) h
  | _ => exact Nat.le_trans (Varint.scanBytes_le_maxSize (by decide) h) (by decide)

end VarInt

end Wireform
