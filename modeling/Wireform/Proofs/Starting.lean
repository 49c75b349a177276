import Wireform.Proofs.Writing

/-!
# Where Builders Start

The windows in which a builder of each format starts.

A builder is given an offset and a maximal limit, and these may be any words. It
starts exactly if they mark out a window of the buffer with room for the least
that it will write: the whole of a fixed-width integer, one byte of a
variable-width one, the prefix of a string or of octets, both prefixes of a list.
In every other window it refuses.

Refusing takes care. The room is found by adding to the offset, and the sum may
leave the 64-bit range before it is compared with anything. All families but one
look at the window first, and an offset inside of a buffer leaves range enough.
Builders of variable-width integers add first, so the largest offset stops them.

## Main definitions

* `Checked.Decides`: A computation that succeeds under a condition, refuses
  otherwise, and never stops.
* `Format.leastSize`: The room that a builder of the format asks for.

## Theorems

* `Cursor.wrap_room_decides`: Looking at the window first.
* `VarInt.Builder.wrap_decides`, `VarInt.Builder.wrap_stops`: Adding first.
* `Format.start_decides`: The windows in which builders start.
* `Format.starts_iff`: Builders start in the windows that have room for the least
  value, and stop at one offset, if they are those of variable-width integers.
-/

namespace Wireform

namespace Checked

variable {ε α β : Type} {x : Checked ε α} {P Q : Prop}

/-- The computation yields a value under the condition and refuses otherwise. -/
def Decides (x : Checked ε α) (P : Prop) : Prop :=
  (P → ∃ a, x = .ok a) ∧ (¬ P → x.Refuses)

theorem Decides.congr (h : x.Decides P) (hPQ : Q ↔ P) : x.Decides Q :=
  ⟨fun hq => h.1 (hPQ.mp hq), fun hq => h.2 fun hp => hq (hPQ.mpr hp)⟩

theorem Decides.exists_ok_iff (h : x.Decides P) : (∃ a, x = .ok a) ↔ P := by
  refine ⟨fun hok => ?_, h.1⟩
  rcases hok with ⟨a, ha⟩
  by_contra hp
  exact (h.2 hp).ne_ok a ha

theorem Decides.ne_stop (h : x.Decides P) : x ≠ stop := by
  by_cases hp : P
  · rcases h.1 hp with ⟨a, ha⟩
    rw [ha]
    intro hc
    cases hc
  · exact (h.2 hp).ne_stop

/-- A sequence decides where its first step does, and else where the rest does. -/
theorem Decides.bind {f : α → Checked ε β} (hx : x.Decides P)
    (hf : ∀ a, x = .ok a → (f a).Decides Q) : Decides (x >>= f) (P ∧ Q) := by
  by_cases hp : P
  · rcases hx.1 hp with ⟨a, ha⟩
    have hrest := hf a ha
    rw [ha, ok_bind]
    exact hrest.congr ⟨fun h => h.2, fun h => ⟨hp, h⟩⟩
  · exact ⟨fun h => absurd h.1 hp, fun _ => (hx.2 hp).bind f⟩

theorem Decides.map (h : x.Decides P) (f : α → β) : Decides (f <$> x) P := by
  constructor
  · intro hp
    rcases h.1 hp with ⟨a, ha⟩
    exact ⟨f a, by rw [ha, ok_map]⟩
  · intro hp
    exact (h.2 hp).map f

/-- Values may be put together in the end. -/
theorem Decides.bind_ok (h : x.Decides P) (f : α → β) : Decides (x >>= fun a => .ok (f a)) P :=
  h.map f

end Checked

theorem checkLimit_decides (limit maxLimit : Nat) :
    (checkLimit limit maxLimit).Decides (limit ≤ maxLimit) :=
  ⟨fun h => ⟨(), checkLimit_of_le h⟩, fun h => checkLimit_refuses (Nat.lt_of_not_le h)⟩

theorem Word.add_overflows {ε : Type} {a b : Nat} (h : 2 ^ (64 : Nat) ≤ a + b) :
    (Word.add a b : Checked ε Nat) = Checked.stop := by
  rw [Word.add, Word.fit, if_neg (Nat.not_lt.mpr (by simpa only [Word.bound] using h))]
  rfl

section Families

variable {b : Buffer} {o m : Nat}

theorem Cursor.wrap_decides (b : Buffer) (o m : Nat) :
    (Cursor.wrap b o m).Decides (o ≤ m ∧ m ≤ b.size) :=
  ⟨fun h => ⟨_, Cursor.wrap_of_le h.1 h.2⟩, fun h => (checkWindow_refuses h).bind _⟩

/-- Behind an offset that lies in a buffer, the room for a number or for prefixes
    is added without overflow. -/
theorem Cursor.wrap_room_decides {α : Type} (hb : b.Addressable) {n : Nat} (hn : n ≤ 8)
    {rest : Cursor → Nat → Checked Refusal α}
    (hrest : (rest ⟨b, o, m, o⟩ (o + n)).Decides (o + n ≤ m)) :
    Checked.Decides (do let c ← Cursor.wrap b o m; let stop ← Word.add o n; rest c stop)
      (o ≤ m ∧ m ≤ b.size ∧ o + n ≤ m) := by
  have hlt : b.size < 2 ^ (63 : Nat) := hb
  refine ((Cursor.wrap_decides b o m).bind fun c hc => ?_).congr and_assoc.symm
  rcases (Cursor.wrap_decides b o m).exists_ok_iff.mp ⟨c, hc⟩ with ⟨ho, hm⟩
  rw [Cursor.wrap_of_le ho hm] at hc
  cases hc
  rw [Word.add_of_lt (by omega), Checked.ok_bind]
  exact hrest

/-- A number or a string, for which the room is only compared. -/
theorem Cursor.wrap_checked_decides {α : Type} (hb : b.Addressable) {n : Nat} (hn : n ≤ 8)
    (f : Cursor → α) :
    Checked.Decides
      (do
        let c ← Cursor.wrap b o m
        let stop ← Word.add o n
        checkLimit stop m
        return f c)
      (o ≤ m ∧ m ≤ b.size ∧ o + n ≤ m) :=
  Cursor.wrap_room_decides hb hn ((checkLimit_decides (o + n) m).bind_ok _)

/-- A list, an array or a map, which moves behind its prefixes at once. -/
theorem Sequence.Builder.wrap_decides (hb : b.Addressable) (width : SequenceWidth) :
    (Sequence.Builder.wrap width b o m).Decides
      (o ≤ m ∧ m ≤ b.size ∧ o + 2 * width.size ≤ m) := by
  have hsize := width.size_le
  refine Cursor.wrap_room_decides hb (by omega) ?_
  exact ((checkLimit_decides (o + 2 * width.size) m).bind_ok _).bind_ok _

/-- A variable-width integer below the largest offset. -/
theorem VarInt.Builder.wrap_decides (kind : VarInt) (ho : o + 1 < 2 ^ (64 : Nat)) :
    (VarInt.Builder.wrap kind b o m).Decides (o ≤ m ∧ m ≤ b.size ∧ o + 1 ≤ m) := by
  rw [VarInt.Builder.wrap, Word.add_of_lt ho, Checked.ok_bind]
  refine ((checkLimit_decides (o + 1) m).bind fun _ _ =>
    (Cursor.wrap_decides b o m).bind_ok _).congr ?_
  exact ⟨fun h => ⟨h.2.2, h.1, h.2.1⟩, fun h => ⟨h.2.1, h.2.2, h.1⟩⟩

/-- Beyond it the sum that is formed first is no word. -/
theorem VarInt.Builder.wrap_stops (kind : VarInt) (ho : Word.max ≤ o) :
    VarInt.Builder.wrap kind b o m = Checked.stop := by
  have hover : 2 ^ (64 : Nat) ≤ o + 1 := by
    unfold Word.max at ho
    omega
  rw [VarInt.Builder.wrap, Word.add_overflows hover]
  rfl

end Families

namespace Format

/-- The number of bytes that a builder of the format asks for when it is
    started. -/
def leastSize : Format → Nat
  | .fixed kind => kind.width
  | .varint _ => 1
  | .bounded width | .string width => width.size
  | .list width | .array width _ | .map width _ _ => 2 * width.size
  | .octets | .varstring | .emptyList => 0

variable {b : Buffer} {o m : Nat}

/-- Builders start where the window has room for the least that they write, and
    refuse all other windows, with one exception. -/
theorem start_decides (hb : b.Addressable) (format : Format)
    (hformat : (∃ kind, format = .varint kind) → o < Word.max) :
    (format.start b o m).Decides (o ≤ m ∧ m ≤ b.size ∧ o + format.leastSize ≤ m) := by
  -- where there is no least size, the window is all that is asked for
  have hopen : ∀ {α : Type} (f : Cursor → α),
      Checked.Decides (do let c ← Cursor.wrap b o m; return f c)
        (o ≤ m ∧ m ≤ b.size ∧ o + 0 ≤ m) := by
    intro α f
    refine ((Cursor.wrap_decides b o m).bind_ok f).congr ?_
    exact ⟨fun h => ⟨h.1, h.2.1⟩, fun h => ⟨h.1, h.2, h.1⟩⟩
  cases format with
  | fixed kind =>
      have hwidth : kind.width ≤ 8 := by cases kind <;> decide
      exact (Cursor.wrap_checked_decides hb hwidth _).map _
  | varint kind =>
      have hlt := hformat ⟨kind, rfl⟩
      unfold Word.max at hlt
      exact (VarInt.Builder.wrap_decides kind (by omega)).map _
  | octets => exact (hopen _).map _
  | bounded width =>
      have hsize := width.size_le
      exact (Cursor.wrap_checked_decides hb (by omega) _).map _
  | string width =>
      have hsize := width.size_le
      exact (Cursor.wrap_checked_decides hb (by omega) _).map _
  | varstring => exact (hopen _).map _
  | emptyList => exact (hopen _).map _
  | list width => exact (Sequence.Builder.wrap_decides hb width).map _
  | array width item => exact (Sequence.Builder.wrap_decides hb width).map _
  | map width key value => exact (Sequence.Builder.wrap_decides hb width).map _

/-- At any offset and any maximal limit, a builder starts exactly if they mark out
    a window of the buffer with room for the least value of its format. Otherwise
    it refuses, and only a builder of variable-width integers may stop instead: it
    does exactly at the largest word, and beyond. -/
theorem starts_iff (hb : b.Addressable) (format : Format) (o m : Nat) :
    ((∃ w, format.start b o m = .ok w) ↔ o ≤ m ∧ m ≤ b.size ∧ o + format.leastSize ≤ m) ∧
      (format.start b o m = Checked.stop ↔ (∃ kind, format = .varint kind) ∧ Word.max ≤ o) := by
  have hlt : b.size < 2 ^ (63 : Nat) := hb
  by_cases htop : (∃ kind, format = .varint kind) ∧ Word.max ≤ o
  · have hstop : format.start b o m = Checked.stop := by
      rcases htop with ⟨⟨kind, rfl⟩, ho⟩
      rw [start, VarInt.Builder.wrap_stops kind ho]
      rfl
    refine ⟨⟨fun hok => ?_, fun hroom => ?_⟩, fun _ => htop, fun _ => hstop⟩
    · rcases hok with ⟨w, hw⟩
      rw [hstop] at hw
      cases hw
    · -- no buffer reaches that far
      have ho := htop.2
      unfold Word.max at ho
      omega
  · have hdecides := start_decides (m := m) hb format fun hkind =>
      Nat.lt_of_not_le fun ho => htop ⟨hkind, ho⟩
    exact ⟨hdecides.exists_ok_iff, fun hstop => absurd hstop hdecides.ne_stop,
      fun h => absurd h htop⟩

-- Four bytes have room for both prefixes of a map at the offset 0 only, and a
-- string at the largest offset is refused.
theorem starts_iff_corners :
    (∃ w, (Format.map .sixteen .octets .octets).start (.ofBytes [0, 0, 0, 0]) 0 4 = .ok w) ∧
      (¬ ∃ w, (Format.map .sixteen .octets .octets).start (.ofBytes [0, 0, 0, 0]) 1 4 = .ok w) ∧
      (Format.string .eight).start (.ofBytes [0, 0, 0, 0]) Word.max Word.max ≠ Checked.stop := by
  have hb : (Buffer.ofBytes [0, 0, 0, 0]).Addressable := by
    unfold Buffer.Addressable
    decide
  refine ⟨(starts_iff hb (.map .sixteen .octets .octets) 0 4).1.mpr (by decide), fun hok => ?_,
    fun hstop => ?_⟩
  · exact absurd ((starts_iff hb (.map .sixteen .octets .octets) 1 4).1.mp hok) (by decide)
  · rcases ((starts_iff hb (.string .eight) Word.max Word.max).2.mp hstop).1 with ⟨kind, hkind⟩
    cases hkind

-- The two families of integers at the largest offset of one byte.
theorem varint_start_overflows :
    (Format.varint .varuint32).start (.ofBytes [0]) Word.max 1 = Checked.stop ∧
      (Format.fixed .uint8).start (.ofBytes [0]) Word.max 1 =
        .error (.refused (.offsetBeyondLimit Word.max 1)) :=
  ⟨rfl, rfl⟩

end Format

end Wireform
