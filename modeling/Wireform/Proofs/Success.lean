import Wireform.Proofs.Segments

/-!
# Exactly When an Operation Succeeds

A builder checks its bounds in pieces: the window when it is started, the room
before each write, the limit after it, the prefix at the end. What a caller
wants to know is one condition for the whole sequence. `Exactly` pairs an
operation with such a condition and with the outcome under it, and its lemmas
follow the ways in which operations are put together, so that the condition of
a sequence is the conjunction of those of its steps.

A condition that fails only has to give some fault. Which one depends on the
order of the checks, and the order is no part of what is said here.

## Main definitions

* `Checked.Exactly`: A computation yields a value exactly under a condition.
* `Outcome.Exactly`: An operation on a state does so.
* `Visitor.honest`: A visitor that reports what it writes.

## Theorems

* `Checked.Exactly.bind`, `Outcome.Exactly.andThen`: Conditions of a sequence.
* `moveBy_exactly`: Moving past some bytes takes room for them.
* `Cursor.put_exactly`, `Cursor.place_exactly`, `Cursor.visit_exactly`: Writes
  succeed exactly where there is room.
-/

namespace Wireform

namespace Checked

variable {ε α β : Type}

/-- The computation yields the value under the condition, and a fault
    otherwise. -/
def Exactly (x : Checked ε α) (P : Prop) (a : α) : Prop :=
  (P → x = .ok a) ∧ (¬ P → ∃ fault, x = .error fault)

theorem exactly_ok (a : α) : Exactly (.ok a : Checked ε α) True a :=
  ⟨fun _ => rfl, fun h => absurd trivial h⟩

/-- A value that was yielded is the one there is, and the condition was met. -/
theorem Exactly.of_eq_ok {x : Checked ε α} {P : Prop} {a b : α} (h : x.Exactly P a)
    (hb : x = .ok b) : P ∧ b = a := by
  by_cases hp : P
  · rw [h.1 hp] at hb
    exact ⟨hp, (Except.ok.inj hb).symm⟩
  · rcases h.2 hp with ⟨fault, hfault⟩
    rw [hfault] at hb
    cases hb

theorem Exactly.congr {x : Checked ε α} {P Q : Prop} {a : α} (h : x.Exactly P a)
    (hPQ : Q ↔ P) : x.Exactly Q a :=
  ⟨fun hq => h.1 (hPQ.mp hq), fun hq => h.2 fun hp => hq (hPQ.mpr hp)⟩

theorem Exactly.bind {x : Checked ε α} {f : α → Checked ε β} {P Q : Prop} {a : α} {b : β}
    (hx : x.Exactly P a) (hf : P → (f a).Exactly Q b) : (x >>= f).Exactly (P ∧ Q) b := by
  by_cases hp : P
  · rw [hx.1 hp, ok_bind]
    exact (hf hp).congr ⟨fun h => h.2, fun h => ⟨hp, h⟩⟩
  · rcases hx.2 hp with ⟨fault, hfault⟩
    rw [hfault, error_bind]
    exact ⟨fun h => absurd h.1 hp, fun _ => ⟨fault, rfl⟩⟩

theorem Exactly.map {x : Checked ε α} {P : Prop} {a : α} (h : x.Exactly P a) (f : α → β) :
    Exactly (f <$> x) P (f a) := by
  constructor
  · intro hp
    rw [h.1 hp, ok_map]
  · intro hp
    rcases h.2 hp with ⟨fault, hfault⟩
    exact ⟨fault, by rw [hfault, error_map]⟩

theorem Exactly.bind_ok {x : Checked ε α} {P : Prop} {a : α} (h : x.Exactly P a) (f : α → β) :
    Exactly (x >>= fun a => .ok (f a)) P (f a) :=
  (h.bind fun _ => exactly_ok (f a)).congr ⟨fun hp => ⟨hp, trivial⟩, fun hp => hp.1⟩

/-- A value behind a test that must come out true. -/
theorem exactly_of_ite {c : Prop} [Decidable c] {x : Checked ε α} (a : α)
    (hx : ∃ fault, x = .error fault) : Exactly (if c then .ok a else x) c a := by
  constructor
  · intro hc
    rw [if_pos hc]
  · intro hc
    rw [if_neg hc]
    exact hx

/-- A test in front of a computation, which must not come out true. -/
theorem exactly_ite {c : Prop} [Decidable c] {x y : Checked ε α} {P : Prop} {a : α}
    (hx : ∃ fault, x = .error fault) (hy : ¬ c → y.Exactly P a) :
    Exactly (if c then x else y) (¬ c ∧ P) a := by
  by_cases hc : c
  · rw [if_pos hc]
    exact ⟨fun h => absurd hc h.1, fun _ => hx⟩
  · rw [if_neg hc]
    exact (hy hc).congr ⟨fun h => h.2, fun h => ⟨hc, h⟩⟩

end Checked

theorem Word.add_exactly {ε : Type} (a b : Nat) :
    (Word.add a b : Checked ε Nat).Exactly (a + b < 2 ^ (64 : Nat)) (a + b) := by
  refine ⟨fun h => Word.add_of_lt h, fun h => ⟨.stopped, ?_⟩⟩
  rw [Word.add, Word.fit, if_neg (by simpa only [Word.bound] using h)]

theorem checkLimit_exactly (limit maxLimit : Nat) :
    (checkLimit limit maxLimit).Exactly (limit ≤ maxLimit) () := by
  refine ⟨fun h => checkLimit_of_le h, fun h => ?_⟩
  rcases checkLimit_refuses (by omega : maxLimit < limit) with ⟨cause, hc⟩
  exact ⟨.refused cause, hc⟩

/-- Moving past some bytes. The sum of two positions cannot overflow unnoticed,
    because no limit is as large as that. -/
theorem moveBy_exactly {α : Type} {m : Nat} (hm : m < 2 ^ (64 : Nat)) (o n : Nat) (f : Nat → α) :
    Checked.Exactly
      (do
        let stop ← Word.add o n
        checkLimit stop m
        return f stop)
      (o + n ≤ m) (f (o + n)) := by
  refine (Checked.Exactly.bind (Word.add_exactly o n) fun _ =>
    (checkLimit_exactly (o + n) m).bind_ok _).congr ?_
  exact ⟨fun h => ⟨by omega, h⟩, fun h => h.2⟩

namespace Outcome

variable {ε σ τ α β : Type}

/-- The operation has the given result and state under the condition, and a
    fault otherwise. -/
def Exactly (o : Outcome ε σ α) (P : Prop) (result : Checked ε α) (state : σ) : Prop :=
  (P → o = ⟨result, state⟩) ∧ (¬ P → ∃ fault, o.result = .error fault)

theorem Exactly.congr {o : Outcome ε σ α} {P Q : Prop} {result : Checked ε α} {state : σ}
    (h : o.Exactly P result state) (hPQ : Q ↔ P) : o.Exactly Q result state :=
  ⟨fun hq => h.1 (hPQ.mp hq), fun hq => h.2 fun hp => hq (hPQ.mpr hp)⟩

/-- An operation that has succeeded met its condition, and left the state. -/
theorem Exactly.of_ok {o : Outcome ε σ α} {P : Prop} {result : Checked ε α} {state : σ} {a : α}
    (h : o.Exactly P result state) (hok : o.result = .ok a) : P ∧ o.state = state := by
  by_cases hp : P
  · exact ⟨hp, congrArg Outcome.state (h.1 hp)⟩
  · rcases h.2 hp with ⟨fault, hfault⟩
    rw [hfault] at hok
    cases hok

theorem Exactly.mapState {o : Outcome ε σ α} {P : Prop} {result : Checked ε α} {state : σ}
    (h : o.Exactly P result state) (f : σ → τ) : (o.mapState f).Exactly P result (f state) := by
  constructor
  · intro hp
    rw [h.1 hp]
    rfl
  · exact h.2

theorem Exactly.andThen {o : Outcome ε σ α} {next : α → σ → Outcome ε σ β} {P Q : Prop} {a : α}
    {result : Checked ε β} {state state' : σ} (ho : o.Exactly P (.ok a) state)
    (hnext : P → (next a state).Exactly Q result state') :
    (o.andThen next).Exactly (P ∧ Q) result state' := by
  by_cases hp : P
  · rw [ho.1 hp]
    exact (hnext hp).congr ⟨fun h => h.2, fun h => ⟨hp, h⟩⟩
  · rcases ho.2 hp with ⟨fault, hfault⟩
    refine ⟨fun h => absurd h.1 hp, fun _ => ⟨fault, ?_⟩⟩
    rw [Outcome.andThen, hfault]

/-- An operation whose result and state are known. -/
theorem exactly_of_eq {o : Outcome ε σ α} {result : Checked ε α} {state : σ}
    (h : o = ⟨result, state⟩) : o.Exactly True result state :=
  ⟨fun _ => h, fun hc => absurd trivial hc⟩

theorem exactly_ofChecked (before : σ) {after : σ} {x : Checked ε σ} {P : Prop}
    (h : x.Exactly P after) : (ofChecked before x).Exactly P (.ok ()) after := by
  constructor
  · intro hp
    rw [h.1 hp]
    rfl
  · intro hp
    rcases h.2 hp with ⟨fault, hfault⟩
    exact ⟨fault, by rw [hfault]; rfl⟩

theorem exactly_check (state : σ) {x : Checked ε α} {P : Prop} {a : α} (h : x.Exactly P a) :
    (check state x).Exactly P (.ok a) state :=
  ⟨fun hp => congrArg (Outcome.mk · state) (h.1 hp), h.2⟩

theorem exactly_ofAnswer (before : σ) {x : Checked ε (α × σ)} {P : Prop} {answer : α} {after : σ}
    (h : x.Exactly P (answer, after)) : (ofAnswer before x).Exactly P (.ok answer) after := by
  constructor
  · intro hp
    rw [h.1 hp]
    rfl
  · intro hp
    rcases h.2 hp with ⟨fault, hfault⟩
    exact ⟨fault, by rw [hfault]; rfl⟩

theorem Exactly.onSuccess {o : Outcome ε σ α} {P : Prop} {a : α} {state : σ}
    (h : o.Exactly P (.ok a) state) (change : σ → σ) :
    (o.onSuccess change).Exactly P (.ok ()) (change state) :=
  (h.andThen fun _ => exactly_of_eq rfl).congr ⟨fun hp => ⟨hp, trivial⟩, fun hp => hp.1⟩

end Outcome

/-- A visitor that writes some bytes and says so. -/
def Visitor.honest (bytes : Bytes) : Visitor :=
  ⟨bytes, bytes.length⟩

/-- A cursor in a window that lies in its buffer. -/
structure Cursor.Valid (c : Cursor) : Prop where
  addressable : c.buffer.Addressable
  maxLimit_le : c.maxLimit ≤ c.buffer.size

namespace Cursor

variable {c : Cursor}

theorem Valid.overwrite (h : c.Valid) (position : Nat) (bytes : Bytes) :
    Valid { c with buffer := c.buffer.overwrite position bytes } := by
  refine ⟨h.addressable.overwrite position bytes, ?_⟩
  rw [Buffer.size_overwrite]
  exact h.maxLimit_le

theorem Valid.maxLimit_lt (h : c.Valid) : c.maxLimit < 2 ^ (64 : Nat) :=
  h.addressable.lt_of_le h.maxLimit_le

theorem setLimit_exactly (c : Cursor) (limit : Nat) :
    (c.setLimit limit).Exactly (limit ≤ c.maxLimit) { c with limit } := by
  unfold setLimit
  exact (checkLimit_exactly limit c.maxLimit).bind_ok _

theorem segmentEnd_exactly (h : c.Valid) (position length : Nat) :
    (c.segmentEnd position length).Exactly (position + length ≤ c.maxLimit)
      (position + length) := by
  have hmax := h.maxLimit_le
  have hlt := h.maxLimit_lt
  refine (Checked.Exactly.bind (Word.add_exactly position length) fun _ =>
    (checkLimit_exactly _ c.maxLimit).bind fun hle => ?_).congr
      ⟨fun hle => ⟨by omega, hle, trivial⟩, fun hle => hle.2.1⟩
  -- a segment that ends before the limit lies in the buffer
  rw [if_pos (by omega)]
  exact Checked.exactly_ok _

theorem store_exactly (h : c.Valid) (position : Nat) (bytes : Bytes) :
    (c.store position bytes).Exactly (position + bytes.length ≤ c.maxLimit)
      { c with buffer := c.buffer.overwrite position bytes } := by
  unfold store
  exact (segmentEnd_exactly h position bytes.length).bind_ok _

theorem put_exactly (h : c.Valid) (position : Nat) (bytes : Bytes) :
    (c.put position bytes).Exactly (position + bytes.length ≤ c.maxLimit)
      (position + bytes.length, { c with buffer := c.buffer.overwrite position bytes }) := by
  unfold put
  exact (segmentEnd_exactly h position bytes.length).bind_ok fun stop =>
    (stop, ({ c with buffer := c.buffer.overwrite position bytes } : Cursor))

theorem place_exactly (h : c.Valid) (position : Nat) (bytes : Bytes) (limit : Nat) :
    (c.place position bytes limit).Exactly
      (position + bytes.length ≤ c.maxLimit ∧ limit ≤ c.maxLimit) (.ok ())
      { c with buffer := c.buffer.overwrite position bytes, limit } := by
  unfold place
  exact (Outcome.exactly_ofChecked c (store_exactly h position bytes)).andThen fun _ =>
    Outcome.exactly_ofChecked _ (setLimit_exactly _ limit)

/-- The cursor with bytes at its offset and its limit behind them. -/
def withBytes (c : Cursor) (bytes : Bytes) : Cursor :=
  { c with buffer := c.buffer.overwrite c.offset bytes, limit := c.offset + bytes.length }

/-- The encoding of a value takes the place of what was written, exactly if there is
    one and it has room. The second check of the position asks for no more. -/
theorem assign_exactly (h : c.Valid) {x : Checked Refusal Encoding} {P : Prop} {e : Encoding}
    (hx : x.Exactly P e) :
    (c.assign x).Exactly (P ∧ c.offset + e.bytes.length ≤ c.maxLimit) (.ok ())
      (c.withBytes e.bytes) := by
  unfold assign
  simp only [← Encoding.length_bytes]
  exact ((Outcome.exactly_check c hx).andThen fun _ =>
    place_exactly h c.offset e.bytes (c.offset + e.bytes.length)).congr
      ⟨fun hp => ⟨hp.1, hp.2, hp.2⟩, fun hp => ⟨hp.1, hp.2.1⟩⟩

theorem room_exactly (h : c.Valid) (position : Nat) :
    (c.room position).Exactly (position ≤ c.maxLimit) (c.maxLimit - position) := by
  refine ((checkLimit_exactly position c.maxLimit).bind fun hle => ?_).congr
    ⟨fun hle => ⟨hle, trivial⟩, fun hle => hle.1⟩
  rw [if_pos h.maxLimit_le]
  exact Checked.exactly_ok _

/-- A visitor that reports what it writes, and is given room for it, succeeds
    exactly where a write of the same bytes would. -/
theorem visitIn_exactly (h : c.Valid) {position length : Nat} {bytes : Bytes}
    (hlength : position + bytes.length ≤ c.maxLimit → bytes.length ≤ length) :
    (c.visitIn position length (.honest bytes)).Exactly
      (position + bytes.length ≤ c.maxLimit) (.ok (position + bytes.length))
      { c with buffer := c.buffer.overwrite position bytes } := by
  have hresult := moveBy_exactly h.maxLimit_lt position bytes.length id
  constructor
  · intro hle
    rw [visitIn, Visitor.honest, List.take_of_length_le (hlength hle)]
    exact congrArg (Outcome.mk · _) (hresult.1 hle)
  · intro hle
    exact hresult.2 hle

theorem visitCapped_exactly (h : c.Valid) (position : Nat) {cap : Nat} {bytes : Bytes}
    (hcap : position + bytes.length ≤ c.maxLimit → bytes.length ≤ cap) :
    (c.visitCapped position cap (.honest bytes)).Exactly
      (position + bytes.length ≤ c.maxLimit) (.ok (position + bytes.length))
      { c with buffer := c.buffer.overwrite position bytes } := by
  unfold visitCapped
  by_cases hposition : position ≤ c.maxLimit
  · rw [(room_exactly h position).1 hposition]
    -- the visitor sees enough of the window to write all its bytes
    refine visitIn_exactly h fun hle => ?_
    have hle' := hcap hle
    omega
  · rcases (room_exactly h position).2 hposition with ⟨fault, hfault⟩
    rw [hfault]
    exact ⟨fun hle => by omega, fun _ => ⟨fault, rfl⟩⟩

/-- A visit that succeeds ends where the visitor says, and leaves some bytes. -/
theorem visitCapped_eq_ok {position cap stop : Nat} {visitor : Visitor}
    (h : (c.visitCapped position cap visitor).result = .ok stop) :
    stop = position + visitor.report ∧ ∃ bytes, (c.visitCapped position cap visitor).state =
      { c with buffer := c.buffer.overwrite position bytes } := by
  unfold visitCapped at h ⊢
  rcases hroom : c.room position with fault | length
  · rw [hroom] at h
    exact nomatch h
  · rw [hroom] at h
    rcases Checked.bind_eq_ok.mp h with ⟨past, hpast, h⟩
    rcases Checked.bind_eq_ok.mp h with ⟨_, _, h⟩
    cases h
    exact ⟨Word.add_eq_ok hpast, _, rfl⟩

/-- To be given everything up to the maximal limit is no cap at all. -/
theorem visit_eq_visitCapped (h : c.Valid) (position : Nat) (visitor : Visitor) :
    c.visit position visitor = c.visitCapped position c.maxLimit visitor := by
  unfold visit visitCapped
  by_cases hposition : position ≤ c.maxLimit
  · simp only [(room_exactly h position).1 hposition, Nat.min_eq_left (Nat.sub_le _ _)]
  · rcases (room_exactly h position).2 hposition with ⟨fault, hfault⟩
    simp only [hfault]

theorem visit_exactly (h : c.Valid) (position : Nat) (bytes : Bytes) :
    (c.visit position (.honest bytes)).Exactly
      (position + bytes.length ≤ c.maxLimit) (.ok (position + bytes.length))
      { c with buffer := c.buffer.overwrite position bytes } := by
  rw [visit_eq_visitCapped h]
  exact visitCapped_exactly h position fun hle => by omega

end Cursor

end Wireform
