import Wireform.Proofs.Appending

/-!
# What Is Written Can Be Read

The two halves put together: a script of builders on one side, a reader on the
other, and the value in the middle.

The condition under which writing succeeds is exact. It speaks of the value and
of the room alone, so it cannot depend on the script that was chosen, on what
the buffer held, or on how deep a step was nested. Once the bytes are in the
buffer it makes no difference who reads them. The reader that the builder
returns has the limit of the encoding for a maximal limit, a fresh one any that
leaves room for it, and both find the value.

## Theorems

* `Format.composed`: What a script that succeeds leaves behind.
* `Format.compose_roundTrip`: Writing succeeds exactly when the value fits, and
  every reader of the written bytes finds it.
-/

namespace Wireform

namespace Format

variable {format : Format} {v : format.Value} {steps : List Step} {b : Buffer} {o m : Nat}

/-- A script that succeeds leaves the encoding in the buffer and nothing else,
    and is built into a reader like any other. -/
theorem composed (hd : format.isSelfDelimiting) (h : format.Spells v steps)
    (hb : b.Addressable) (ho : o ≤ m) (hm : m ≤ b.size) {r : Reader}
    (hr : (format.compose steps b o m).result = .ok r) :
    format.Fits v ∧ o + (format.encode v).length ≤ m ∧
      (format.compose steps b o m).state = b.overwrite o (format.encode v) ∧
      format.wrap (b.overwrite o (format.encode v)) {} o (o + (format.encode v).length) =
        .ok r := by
  have hwritten := format.written hd h b o m hb ho hm
  -- had it not fitted, there would be no reader
  by_cases hfits : format.Fits v ∧ o + (format.encode v).length ≤ m
  · rw [hwritten.1 hfits] at hr ⊢
    exact ⟨hfits.1, hfits.2, rfl, hr⟩
  · rcases hwritten.2 hfits with ⟨fault, hfault⟩
    rw [hfault] at hr
    exact nomatch hr

/-- Writing a value succeeds exactly when every number, length and count in it
    fits and the window has room for its encoding. It then leaves the encoding
    there and touches nothing else, and both the reader it returns and every
    fresh one end behind the encoding and find the value. -/
theorem compose_roundTrip (hd : format.isSelfDelimiting) (h : format.Spells v steps)
    (hb : b.Addressable) (ho : o ≤ m) (hm : m ≤ b.size) :
    ((∃ r, (format.compose steps b o m).result = .ok r) ↔
      format.Fits v ∧ o + (format.encode v).length ≤ m) ∧
    ∀ r out, format.compose steps b o m = ⟨.ok r, out⟩ →
      out = b.overwrite o (format.encode v) ∧ r.limit = o + (format.encode v).length ∧
      out.slice o r.limit = (.ok (format.encode v) : Checked Refusal Bytes) ∧
      (∃ c, r.content = .ok c ∧ format.value c = v) ∧
      ∀ m', r.limit ≤ m' → m' ≤ out.size →
        ∃ q c, format.wrap out {} o m' = .ok q ∧ q.limit = r.limit ∧ q.content = .ok c ∧
          format.value c = v := by
  have hout := hb.overwrite o (format.encode v)
  have hsize := b.size_overwrite o (format.encode v)
  have hwritten := format.written hd h b o m hb ho hm
  -- whichever maximal limit a reader has, it sees the same bytes
  have hread : format.Fits v → ∀ m', o + (format.encode v).length ≤ m' →
      m' ≤ (b.overwrite o (format.encode v)).size →
      ∃ q c, format.wrap (b.overwrite o (format.encode v)) {} o m' = .ok q ∧
        q.limit = o + (format.encode v).length ∧ q.content = .ok c ∧ format.value c = v := by
    intro hfits m' hroom hm'
    rcases wrap_encoded hd hfits hout hm' hroom (b.segment_overwrite (by omega)) with
      ⟨q, c, hq, hlimit, hc, _, hvalue⟩
    exact ⟨q, c, hq, hlimit, hc, hvalue⟩
  refine ⟨⟨?_, ?_⟩, ?_⟩
  · rintro ⟨r, hr⟩
    rcases composed hd h hb ho hm hr with ⟨hfits, hroom, _⟩
    exact ⟨hfits, hroom⟩
  · intro hfits
    rcases hread hfits.1 _ (Nat.le_refl _) (by omega) with ⟨r, _, hr, _⟩
    exact ⟨r, by rw [hwritten.1 hfits, hr]⟩
  · intro r out hrun
    rcases composed hd h hb ho hm (by rw [hrun]) with ⟨hfits, hroom, hstate, hr⟩
    rw [hrun] at hstate
    subst hstate
    rcases hread hfits _ (Nat.le_refl _) (by omega) with ⟨q, c, hq, hlimit, hc, hvalue⟩
    rw [hr, Except.ok.injEq] at hq
    subst hq
    refine ⟨rfl, hlimit, ?_, ⟨c, hc, hvalue⟩, ?_⟩
    · rw [hlimit, Buffer.slice_eq _ (by omega) (by omega), b.segment_overwrite (by omega)]
    · rw [hlimit]
      exact hread hfits

-- A map from strings to arrays of variable-length integers, with a null key and
-- an empty array in it, written behind the first byte of a buffer.
theorem compose_roundTrip_map :
    ∃ r out, (Format.map .eight (.string .eight) (.array .eight (.varint .varint32))).compose
        [.entry (.built (.string .eight) {} [.write .replace (.bytes [107])])
          (.built (.array .eight (.varint .varint32)) {}
            [.item (.built (.varint .varint32) {} [.set 1]),
              .item (.built (.varint .varint32) {} [.set (-65)])]),
        .entry (.built (.string .eight) {} [.write .replace .null])
          (.built (.array .eight (.varint .varint32)) {} [])]
        (Buffer.ofBytes (List.replicate 20 9)) 1 18 = ⟨.ok r, out⟩ ∧
      r.limit = 13 ∧
      out = Buffer.ofBytes
        ([9, 11, 4, 1, 107, 4, 2, 2, 129, 1, 255, 1, 0] ++ List.replicate 7 9) ∧
      ∃ q c, (Format.map .eight (.string .eight) (.array .eight (.varint .varint32))).wrap
          out {} 1 20 = .ok q ∧ q.limit = 13 ∧ q.content = .ok c ∧
        Format.value (.map .eight (.string .eight) (.array .eight (.varint .varint32))) c =
          [(some [107], [1, -65]), (none, [])] := by
  have hd : (Format.map .eight (.string .eight)
      (.array .eight (.varint .varint32))).isSelfDelimiting := rfl
  have h : (Format.map .eight (.string .eight) (.array .eight (.varint .varint32))).Spells
      [(some [107], [1, -65]), (none, [])] _ := spells_script _
  have hb : (Buffer.ofBytes (List.replicate 20 9)).Addressable := by
    unfold Buffer.Addressable
    decide
  rcases compose_roundTrip hd h hb (o := 1) (m := 18) (by decide) (by decide) with
    ⟨hiff, hread⟩
  rcases hiff.mpr ⟨by decide, by decide⟩ with ⟨r, hr⟩
  rcases hread r _ (by rw [← hr]) with ⟨hout, hlimit, _, _, hfresh⟩
  rw [hlimit] at hfresh
  have hsize : 20 ≤ (Buffer.ofBytes (List.replicate 20 9)).size := by decide
  rw [← Buffer.size_overwrite, ← hout] at hsize
  exact ⟨r, _, by rw [← hr]; rfl, hlimit, hout, hfresh 20 (by decide) hsize⟩

end Format

end Wireform
