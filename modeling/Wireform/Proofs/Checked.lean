import Wireform.Window

/-!
# Refusing Without Stopping

What a checked computation may be followed through to.

A statement such as "the reader refuses this window" is stronger than "the
reader yields nothing here": a stop also yields nothing, and it is exactly
what a caller cannot recover from. `Checked.Refuses` says the stronger thing,
and the lemmas on sequencing carry it through a computation written in steps,
so that no proof about a reader has to look at the causes it reports.

The only sums a reader forms start from a position inside its buffer.
`Buffer.Addressable` bounds the size of a buffer held in memory by half of the
64-bit range, and a position in such a buffer plus a 32-bit length never
leaves that range. This is why `Word.add` drops out of every later statement.

## Main definitions

* `Checked.Refuses`: A computation that ends in a refusal.
* `Checked.Ensures`: A property of whatever a computation yields.
* `Checked.FailsOnly`: A property of the fault that a computation ends with.
* `Checked.Alike`: Computations that succeed or fail together.
* `Buffer.Addressable`: A buffer whose positions are memory positions.

## Theorems

* `Checked.ok_bind`, `Checked.error_bind`: Sequencing after a known outcome.
* `Checked.bind_eq_ok`, `Checked.map_eq_ok`: What has succeeded, step by step.
* `Checked.Ensures.bind`: What a sequence ensures.
* `Checked.FailsOnly.bind`: How a sequence fails.
* `Checked.Alike.bind`: Sequences that succeed or fail together.
* `Checked.Refuses.bind`: A refusal ends the sequence it stands in.
* `Checked.speculate_map`, `Checked.speculate_bind`: Reading refusals as
  absence, step by step.
* `Checked.speculate_of_refuses`: A refusal is read as absence.
* `Word.add_of_lt`: Sums inside the 64-bit range.
* `Window.wrap_of_le`, `Window.wrap_refuses`: The two outcomes of binding a
  window.
-/

namespace Wireform

namespace Checked

variable {ε α β : Type}

/-- The computation ends in a refusal: neither with a value nor with a stop. -/
def Refuses (x : Checked ε α) : Prop :=
  ∃ cause, x = .error (.refused cause)

@[simp]
theorem ok_bind (a : α) (f : α → Checked ε β) : ((.ok a : Checked ε α) >>= f) = f a :=
  rfl

@[simp]
theorem error_bind (fault : Fault ε) (f : α → Checked ε β) :
    ((.error fault : Checked ε α) >>= f) = .error fault :=
  rfl

@[simp]
theorem ok_map (a : α) (f : α → β) : f <$> (.ok a : Checked ε α) = .ok (f a) :=
  rfl

@[simp]
theorem error_map (fault : Fault ε) (f : α → β) :
    f <$> (.error fault : Checked ε α) = .error fault :=
  rfl

theorem bind_eq_ok {x : Checked ε α} {f : α → Checked ε β} {b : β} :
    x >>= f = .ok b ↔ ∃ a, x = .ok a ∧ f a = .ok b := by
  rcases x with fault | a
  · simp only [error_bind, reduceCtorEq, false_and, exists_false]
  · simp only [ok_bind, Except.ok.injEq, exists_eq_left']

theorem map_eq_ok {x : Checked ε α} {f : α → β} {b : β} :
    f <$> x = .ok b ↔ ∃ a, x = .ok a ∧ f a = b := by
  rcases x with fault | a
  · simp only [error_map, reduceCtorEq, false_and, exists_false]
  · simp only [ok_map, Except.ok.injEq, exists_eq_left']

/-- Whatever value the computation yields has the property. -/
def Ensures (x : Checked ε α) (P : α → Prop) : Prop :=
  ∀ a, x = .ok a → P a

theorem ensures_ok {P : α → Prop} {a : α} (h : P a) : Ensures (.ok a : Checked ε α) P := by
  intro b hb
  rw [← Except.ok.inj hb]
  exact h

theorem ensures_error (P : α → Prop) (fault : Fault ε) :
    Ensures (.error fault : Checked ε α) P :=
  fun _ h => nomatch h

theorem Ensures.bind {x : Checked ε α} {f : α → Checked ε β} {P : α → Prop} {Q : β → Prop}
    (hx : x.Ensures P) (hf : ∀ a, P a → (f a).Ensures Q) : Ensures (x >>= f) Q := by
  intro b hb
  rcases bind_eq_ok.mp hb with ⟨a, ha, hb⟩
  exact hf a (hx a ha) b hb

/-- What the last step ensures, the sequence does, whatever came before. -/
theorem ensures_bind {x : Checked ε α} {f : α → Checked ε β} {Q : β → Prop}
    (hf : ∀ a, (f a).Ensures Q) : Ensures (x >>= f) Q := by
  intro b hb
  rcases bind_eq_ok.mp hb with ⟨a, _, hb⟩
  exact hf a b hb

theorem Ensures.map {x : Checked ε α} {f : α → β} {Q : β → Prop}
    (h : x.Ensures fun a => Q (f a)) : Ensures (f <$> x) Q := by
  intro b hb
  rcases map_eq_ok.mp hb with ⟨a, ha, rfl⟩
  exact h a ha

/-- Whatever fault the computation ends with has the property. -/
def FailsOnly (x : Checked ε α) (P : Fault ε → Prop) : Prop :=
  ∀ fault, x = .error fault → P fault

theorem failsOnly_ok (P : Fault ε → Prop) (a : α) : FailsOnly (.ok a : Checked ε α) P :=
  fun _ h => nomatch h

theorem failsOnly_error {P : Fault ε → Prop} {fault : Fault ε} (h : P fault) :
    FailsOnly (.error fault : Checked ε α) P := by
  intro other hother
  rw [← Except.error.inj hother]
  exact h

/-- A sequence fails where its first step does, or else where the rest does. -/
theorem FailsOnly.bind {x : Checked ε α} {f : α → Checked ε β} {P : Fault ε → Prop}
    (hx : x.FailsOnly P) (hf : ∀ a, (f a).FailsOnly P) : FailsOnly (x >>= f) P := by
  cases x with
  | error fault => exact failsOnly_error (hx fault rfl)
  | ok a => exact hf a

theorem FailsOnly.map {x : Checked ε α} {P : Fault ε → Prop} (h : x.FailsOnly P) (f : α → β) :
    FailsOnly (f <$> x) P := by
  cases x with
  | error fault => exact failsOnly_error (h fault rfl)
  | ok a => exact failsOnly_ok P (f a)

/-- Two computations that both succeed, with related values, or both fail, for
    whatever cause. -/
inductive Alike (R : α → β → Prop) : Checked ε α → Checked ε β → Prop where
  | ok {a : α} {b : β} (h : R a b) : Alike R (.ok a) (.ok b)
  | error (fault fault' : Fault ε) : Alike R (.error fault) (.error fault')

theorem alike_refl (x : Checked ε α) : Alike Eq x x := by
  cases x with
  | error fault => exact .error fault fault
  | ok a => exact .ok rfl

theorem Alike.mono {R S : α → β → Prop} {x : Checked ε α} {y : Checked ε β} (h : Alike R x y)
    (hRS : ∀ a b, R a b → S a b) : Alike S x y := by
  cases h with
  | ok h => exact .ok (hRS _ _ h)
  | error fault fault' => exact .error fault fault'

/-- What the values of either computation are known to satisfy may be added. -/
theorem Alike.ensures {R : α → β → Prop} {P : α → Prop} {Q : β → Prop} {x : Checked ε α}
    {y : Checked ε β} (h : Alike R x y) (hx : x.Ensures P) (hy : y.Ensures Q) :
    Alike (fun a b => R a b ∧ P a ∧ Q b) x y := by
  cases h with
  | ok h => exact .ok ⟨h, hx _ rfl, hy _ rfl⟩
  | error fault fault' => exact .error fault fault'

theorem Alike.exists_ok {R : α → β → Prop} {a : α} {y : Checked ε β}
    (h : Alike R (.ok a : Checked ε α) y) : ∃ b, y = .ok b ∧ R a b := by
  cases h with
  | ok h => exact ⟨_, rfl, h⟩

theorem alike_ite {p : Prop} [Decidable p] {R : α → β → Prop} {x x' : Checked ε α}
    {y y' : Checked ε β} (h : p → Alike R x y) (h' : ¬ p → Alike R x' y') :
    Alike R (if p then x else x') (if p then y else y') := by
  by_cases hp : p
  · rw [if_pos hp, if_pos hp]
    exact h hp
  · rw [if_neg hp, if_neg hp]
    exact h' hp

/-- Steps that are alike on related values follow steps that are alike. -/
theorem Alike.bind {α' β' : Type} {R : α → β → Prop} {S : α' → β' → Prop} {x : Checked ε α}
    {y : Checked ε β} {f : α → Checked ε α'} {g : β → Checked ε β'} (hxy : Alike R x y)
    (hfg : ∀ a b, R a b → Alike S (f a) (g b)) : Alike S (x >>= f) (y >>= g) := by
  cases hxy with
  | ok h => exact hfg _ _ h
  | error fault fault' => exact .error fault fault'

theorem refuses_refuse (cause : ε) : Refuses (refuse cause : Checked ε α) :=
  ⟨cause, rfl⟩

theorem Refuses.bind {x : Checked ε α} (h : x.Refuses) (f : α → Checked ε β) :
    Refuses (x >>= f) := by
  rcases h with ⟨cause, rfl⟩
  exact ⟨cause, rfl⟩

theorem Refuses.map {x : Checked ε α} (h : x.Refuses) (f : α → β) : Refuses (f <$> x) := by
  rcases h with ⟨cause, rfl⟩
  exact ⟨cause, rfl⟩

@[simp]
theorem speculate_ok (a : α) : speculate (.ok a : Checked ε α) = .ok (some a) :=
  rfl

theorem speculate_map (x : Checked ε α) (f : α → β) :
    speculate (f <$> x) = Option.map f <$> speculate x := by
  rcases x with (cause | _) | a <;> rfl

theorem speculate_bind (x : Checked ε α) (f : α → Checked ε β) :
    speculate (x >>= f) = speculate x >>= fun found =>
      match found with
      | none => .ok none
      | some a => speculate (f a) := by
  rcases x with (cause | _) | a <;> rfl

theorem speculate_of_refuses {x : Checked ε α} (h : x.Refuses) : speculate x = .ok none := by
  rcases h with ⟨cause, rfl⟩
  rfl

theorem Refuses.ne_ok {x : Checked ε α} (h : x.Refuses) (a : α) : x ≠ .ok a := by
  rcases h with ⟨cause, rfl⟩
  exact fun hc => nomatch hc

theorem Refuses.ne_stop {x : Checked ε α} (h : x.Refuses) : x ≠ stop := by
  rcases h with ⟨cause, rfl⟩
  exact fun hc => nomatch hc

end Checked

/-- A buffer of the size that memory can hold: fewer than `2 ^ 63` bytes. -/
def Buffer.Addressable (b : Buffer) : Prop :=
  b.size < 2 ^ (63 : Nat)

theorem Buffer.Addressable.lt_of_le {b : Buffer} (h : b.Addressable) {m : Nat}
    (hm : m ≤ b.size) : m < 2 ^ (64 : Nat) := by
  unfold Buffer.Addressable at h
  omega

theorem Word.add_of_lt {ε : Type} {a b : Nat} (h : a + b < 2 ^ (64 : Nat)) :
    (Word.add a b : Checked ε Nat) = .ok (a + b) := by
  rw [Word.add, Word.fit, if_pos (by simpa only [Word.bound] using h)]

theorem Word.add_eq_ok {ε : Type} {a b c : Nat} (h : (Word.add a b : Checked ε Nat) = .ok c) :
    c = a + b := by
  rw [Word.add, Word.fit] at h
  split at h
  · exact (Except.ok.inj h).symm
  · exact nomatch h

theorem Word.fit_failsOnly {ε : Type} {P : Fault ε → Prop} (h : P .stopped) (n : Nat) :
    (Word.fit n : Checked ε Nat).FailsOnly P := by
  rw [Word.fit]
  split
  · exact Checked.failsOnly_ok P n
  · exact Checked.failsOnly_error h

theorem Word.sub_of_le {ε : Type} {a b : Nat} (h : b ≤ a) :
    (Word.sub a b : Checked ε Nat) = .ok (a - b) := by
  rw [Word.sub, if_pos h]

theorem checkLimit_of_le {limit maxLimit : Nat} (h : limit ≤ maxLimit) :
    checkLimit limit maxLimit = .ok () := by
  rw [checkLimit, if_neg (by omega)]

theorem checkLimit_refuses {limit maxLimit : Nat} (h : maxLimit < limit) :
    (checkLimit limit maxLimit).Refuses := by
  rw [checkLimit, if_pos h]
  exact ⟨_, rfl⟩

theorem checkWindow_of_le {capacity offset maxLimit : Nat} (ho : offset ≤ maxLimit)
    (hm : maxLimit ≤ capacity) : checkWindow capacity offset maxLimit = .ok () := by
  rw [checkWindow, if_neg (by omega), if_neg (by omega)]

theorem checkWindow_refuses {capacity offset maxLimit : Nat}
    (h : ¬ (offset ≤ maxLimit ∧ maxLimit ≤ capacity)) :
    (checkWindow capacity offset maxLimit).Refuses := by
  unfold checkWindow
  by_cases hm : maxLimit > capacity
  · rw [if_pos hm]
    exact ⟨_, rfl⟩
  · rw [if_neg hm, if_pos (by omega)]
    exact ⟨_, rfl⟩

namespace Window

variable {b : Buffer} {o m : Nat}

theorem wrap_of_le (ho : o ≤ m) (hm : m ≤ b.size) : wrap b o m = .ok ⟨b, o, m⟩ := by
  rw [wrap, checkWindow_of_le ho hm]
  rfl

theorem wrap_refuses (h : ¬ (o ≤ m ∧ m ≤ b.size)) : (wrap b o m).Refuses :=
  (checkWindow_refuses h).bind _

theorem tryWrap_of_le (ho : o ≤ m) (hm : m ≤ b.size) : tryWrap b o m = some ⟨b, o, m⟩ := by
  rw [tryWrap, checkWindow_of_le ho hm]

theorem tryWrap_of_not (h : ¬ (o ≤ m ∧ m ≤ b.size)) : tryWrap b o m = none := by
  rcases checkWindow_refuses h with ⟨cause, hc⟩
  rw [tryWrap, hc]

end Window

end Wireform
