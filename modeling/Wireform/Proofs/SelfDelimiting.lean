import Wireform.Proofs.Nesting

/-!
# Self-Delimiting Formats

Where an encoding ends is decided by the encoding itself.

All formats but the raw ones without a prefix carry their length, in a prefix,
in their kind or in continuation bits. A reader bound to such an encoding with
some maximal limit is therefore the same with any other maximal limit that
leaves room for it, and in any other buffer that holds the same bytes at the
same place. With less room there is no reader at all: one that ended earlier
would, by the same argument, have ended earlier in the first buffer too.

The elements of an array may be of any format, raw ones included, since the
array cuts out the bytes they are read from.

## Theorems

* `Format.parse_bytes_eq`: The bytes a parse of a window has used are the front
  of the window.
* `Format.parse_of_agree`: A parse carries over to windows that agree on the
  bytes used.
* `Format.wrap_selfDelimiting`: The end and the content of a reader are decided
  by the bytes it was bound to.
-/

namespace Wireform

namespace Format

variable {b b' : Buffer} {format : Format} {settings : Settings} {o m m' : Nat} {c : Content}

theorem parse_bytes_eq (hm : m ≤ b.size) (ho : o ≤ m)
    (h : format.parse settings (b.segment o m) = some c) :
    o + c.size ≤ m ∧ c.bytes = b.segment o (o + c.size) := by
  have hstarts := parse_isPrefix h
  have hlen := hstarts.length_le
  rw [b.length_segment hm] at hlen
  have hle : o + c.size ≤ m := by
    rw [Content.size]
    omega
  refine ⟨hle, ?_⟩
  rw [← b.segment_take hle]
  exact List.prefix_iff_eq_take.mp hstarts

/-- A parse carries over to every window at the same place that has the bytes
    used, in whichever buffer. -/
theorem parse_of_agree (hd : format.isDelimited) (ho : o ≤ m) (hm : m ≤ b.size)
    (hm' : m' ≤ b'.size) (h : format.parse settings (b.segment o m) = some c)
    (hroom : o + c.size ≤ m') (ha : b.Agree b' o (o + c.size)) :
    format.parse settings (b'.segment o m') = some c := by
  rcases parse_bytes_eq hm ho h with ⟨hle, hbytes⟩
  have hfront : c.bytes = (b'.segment o m').take c.size := by
    rw [hbytes, b'.segment_take hroom, ha.segment_eq (by omega) (by omega)]
  rw [← List.take_append_drop c.size (b'.segment o m'), ← hfront]
  exact (parse_prefixDetermined hd settings _ c h).2 _

/-- A reader of a self-delimiting format ends and tells the same in every buffer
    that agrees with the first on the bytes of the encoding, for every maximal
    limit that leaves room for them. With less room it is refused. -/
theorem wrap_selfDelimiting (hb : b.Addressable) (hb' : b'.Addressable)
    (hd : format.isDelimited) {r : Reader} (h : format.wrap b settings o m = .ok r)
    (ha : b.Agree b' o r.limit) :
    (∀ m', r.limit ≤ m' → m' ≤ b'.size →
      ∃ r' c, format.wrap b' settings o m' = .ok r' ∧ r'.limit = r.limit ∧
        r'.content = .ok c ∧ r.content = .ok c) ∧
    ∀ m', m' < r.limit → (format.wrap b' settings o m').Refuses := by
  rcases wrap_eq_ok hb h with ⟨c, hparse, ho, hm, _, _, hlimit, hle, hcontent⟩
  rw [hlimit] at ha hle ⊢
  constructor
  · intro m' hroom hm'
    have hparse' := parse_of_agree hd ho hm hm' hparse hroom ha
    have hf := format.wrap_follows hb' settings o m' (by omega) hm'
    rw [hparse'] at hf
    rcases hf with ⟨r', hr', _, hformat, hlimit', _, hcontent'⟩
    refine ⟨r', c, hr', hlimit', ?_, hcontent⟩
    rw [Reader.content, hformat]
    exact hcontent'
  · intro m' hshort
    rcases wrap_ok_or_refuses hb' format settings o m' with ⟨q, hq⟩ | hrefuses
    · -- the shorter parse would carry back to the first buffer
      rcases wrap_eq_ok hb' hq with ⟨d, hparse', ho', hm', _, _, hlimit', hle', _⟩
      have hback := parse_of_agree hd ho' hm' hm hparse' (by omega)
        (ha.symm.mono (Nat.le_refl o) (by omega))
      rw [hparse, Option.some.injEq] at hback
      subst hback
      omega
    · exact hrefuses

-- An array of the strings "hi" and null, followed by one byte in one buffer and
-- by none in the other.
theorem wrap_selfDelimiting_strings :
    ∃ r, (Format.array .eight (.string .eight)).wrap
        (Buffer.ofBytes [5, 2, 2, 104, 105, 255, 7]) {} 0 7 = .ok r ∧
      (∃ r' c, (Format.array .eight (.string .eight)).wrap
          (Buffer.ofBytes [5, 2, 2, 104, 105, 255]) {} 0 6 = .ok r' ∧
        r'.limit = 6 ∧ r'.content = .ok c ∧ r.content = .ok c) ∧
      ((Format.array .eight (.string .eight)).wrap
        (Buffer.ofBytes [5, 2, 2, 104, 105, 255]) {} 0 5).Refuses := by
  have hb : (Buffer.ofBytes [5, 2, 2, 104, 105, 255, 7]).Addressable := by
    unfold Buffer.Addressable
    decide
  have hb' : (Buffer.ofBytes [5, 2, 2, 104, 105, 255]).Addressable := by
    unfold Buffer.Addressable
    decide
  have ha : (Buffer.ofBytes [5, 2, 2, 104, 105, 255, 7]).Agree
      (Buffer.ofBytes [5, 2, 2, 104, 105, 255]) 0 6 := by
    have hsame : ∀ k < 6, (Buffer.ofBytes [5, 2, 2, 104, 105, 255, 7]).data[k]? =
        (Buffer.ofBytes [5, 2, 2, 104, 105, 255]).data[k]? := by decide
    intro k x y _ hk hx hy
    rw [hsame k hk, hy, Option.some.injEq] at hx
    exact hx.symm
  have hd : (Format.array .eight (.string .eight)).isDelimited := rfl
  have h : (Format.array .eight (.string .eight)).wrap
      (Buffer.ofBytes [5, 2, 2, 104, 105, 255, 7]) {} 0 7 = .ok (.array (.string .eight)
        ⟨.eight, ⟨Buffer.ofBytes [5, 2, 2, 104, 105, 255, 7], 0, 7⟩, 5, 2⟩) := rfl
  rcases wrap_selfDelimiting hb hb' hd h ha with ⟨hroom, hshort⟩
  exact ⟨_, h, hroom 6 (by decide) (by decide), hshort 5 (by decide)⟩

end Format

end Wireform
