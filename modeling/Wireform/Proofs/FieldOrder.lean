import Wireform.FieldSequence
import Wireform.Proofs.Checked

/-!
# Every Member Is Written Once

What a sequence of calls on a `FieldSequence` adds up to.

A struct is written by whoever calls its setters, in whatever order and with
whatever mistakes. The sequence of members decides about each call by itself, and
answers with a range of members whose defaults have to be written first. That the
ranges and the members of all calls together are the members of the struct, one
after the other and none of them twice, is a matter of the whole run.

What a call comes to is said twice, once for each outcome. `Takes` is a success
with the range it answers with, and `Refuses` is a failure with the member it
names. The ranges then join up, because each begins where the call before has left
the sequence.

## Main definitions

* `FieldCall`, `FieldSequence.apply`: A call, and what it comes to.
* `FieldSequence.attempt`: A run of calls that goes on after failures.
* `FieldSequence.written`: The members that the calls of a run write.
* `FieldSequence.Takes`, `FieldSequence.Refuses`: The two outcomes of a call.

## Theorems

* `FieldSequence.apply_cases`: Each call has one of the two outcomes.
* `FieldSequence.apply_advances`: No call goes back.
* `FieldSequence.written_eq_range'`: A run writes the members in between.
* `FieldSequence.exists_call_of_mem_written`: Each of them in a call of its own.
* `FieldSequence.members_written_once`: Every run writes the first members of the
  struct, each once.
-/

namespace Wireform

/-- A call on a sequence of members. -/
inductive FieldCall where
  | set (index : Nat)
  | complete
  deriving DecidableEq

/-- The members that a call writes: those that it skips, whose defaults are
    written, and the one that it is for. -/
def FieldCall.writes (call : FieldCall) : Checked Refusal (Nat × Nat) → List Nat
  | .error _ => []
  | .ok skipped =>
      List.range' skipped.1 (skipped.2 - skipped.1) ++
        match call with
        | .set index => [index]
        | .complete => []

namespace FieldSequence

section Calls

/-- Make a call. -/
def perform (s : FieldSequence) : FieldCall → Checked Refusal ((Nat × Nat) × FieldSequence)
  | .set index => s.set index
  | .complete => s.complete

/-- The answer to a call, and the sequence that it leaves. -/
def apply (s : FieldSequence) (call : FieldCall) : Outcome Refusal FieldSequence (Nat × Nat) :=
  match s.perform call with
  | .ok (skipped, after) => ⟨.ok skipped, after⟩
  | .error fault => ⟨.error fault, s⟩

/-- Make all calls, also behind one that fails. -/
def attempt (s : FieldSequence) : List FieldCall → FieldSequence
  | [] => s
  | call :: rest => (s.apply call).state.attempt rest

/-- The members that the calls of a run write, in the order of the calls. -/
def written (s : FieldSequence) : List FieldCall → List Nat
  | [] => []
  | call :: rest => call.writes (s.apply call).result ++ (s.apply call).state.written rest

/-- The members from the next one up to `stop` all have a default. -/
def MaySkip (s : FieldSequence) (stop : Nat) : Prop :=
  ∀ i f, s.next ≤ i → i < stop → s.fields[i]? = some f → f.required = false

/-- The first of the members from the next one up to `stop` that has none. -/
def FirstRequired (s : FieldSequence) (stop : Nat) (field : FieldInfo) : Prop :=
  ∃ i, s.next ≤ i ∧ i < stop ∧ s.fields[i]? = some field ∧ field.required = true ∧ s.MaySkip i

/-- A call that succeeds, with the range it skips and the sequence it leaves. -/
inductive Takes (s : FieldSequence) : FieldCall → Nat × Nat → FieldSequence → Prop where
  | set {index : Nat} (hnext : s.next ≤ index) (hlt : index < s.fields.length)
      (hskip : s.MaySkip index) : Takes s (.set index) (s.next, index) { s with next := index + 1 }
  | complete (hskip : s.MaySkip s.fields.length) :
      Takes s .complete (s.next, s.fields.length) { s with next := s.fields.length }

/-- A call that fails, with the member it names: one that is not there, one that
    has been passed, or the first that would be skipped and may not be. -/
inductive Refuses (s : FieldSequence) : FieldCall → Fault Refusal → Prop where
  | unknown {index : Nat} (h : s.fields.length ≤ index) :
      Refuses s (.set index) (.refused (.fieldOutOfOrder "<unknown>"))
  | passed {index : Nat} {field : FieldInfo} (h : index < s.next)
      (hfield : s.fields[index]? = some field) :
      Refuses s (.set index) (.refused (.fieldOutOfOrder field.name))
  | skips {index : Nat} {field : FieldInfo} (hlt : index < s.fields.length)
      (h : s.FirstRequired index field) :
      Refuses s (.set index) (.refused (.fieldNotSet field.name))
  | lacks {field : FieldInfo} (h : s.FirstRequired s.fields.length field) :
      Refuses s .complete (.refused (.fieldNotSet field.name))

end Calls

section Outcomes

variable {s : FieldSequence}

/-- The members that would be skipped, as they stand in the table. -/
theorem getElem?_skipped {stop i : Nat} {f : FieldInfo} :
    ((s.fields.drop s.next).take (stop - s.next))[i]? = some f ↔
      s.next + i < stop ∧ s.fields[s.next + i]? = some f := by
  rw [List.getElem?_take, List.getElem?_drop]
  by_cases h : s.next + i < stop
  · rw [if_pos (by omega)]
    exact ⟨fun hf => ⟨h, hf⟩, fun hf => hf.2⟩
  · rw [if_neg (by omega)]
    exact ⟨nofun, fun hf => absurd hf.1 h⟩

theorem find?_skipped_eq_none {stop : Nat} :
    ((s.fields.drop s.next).take (stop - s.next)).find? (·.required) = none ↔ s.MaySkip stop := by
  rw [List.find?_eq_none]
  constructor
  · intro h i f hi hstop hf
    obtain ⟨k, rfl⟩ := Nat.exists_eq_add_of_le hi
    exact eq_false_of_ne_true (h f (List.mem_of_getElem? (getElem?_skipped.mpr ⟨hstop, hf⟩)))
  · intro h f hf
    rcases List.mem_iff_getElem?.mp hf with ⟨k, hk⟩
    rcases getElem?_skipped.mp hk with ⟨hstop, hf⟩
    rw [h _ f (Nat.le_add_right _ _) hstop hf]
    exact Bool.false_ne_true

theorem find?_skipped_eq_some {stop : Nat} {field : FieldInfo} :
    ((s.fields.drop s.next).take (stop - s.next)).find? (·.required) = some field ↔
      s.FirstRequired stop field := by
  rw [List.find?_eq_some_iff_getElem]
  constructor
  · rintro ⟨hrequired, k, hk, hfield, hbefore⟩
    rcases getElem?_skipped.mp (List.getElem?_eq_some_iff.mpr ⟨hk, hfield⟩) with ⟨hstop, hf⟩
    refine ⟨s.next + k, Nat.le_add_right _ _, hstop, hf, hrequired, fun i f hi hlt hf => ?_⟩
    -- a member before it was looked at, and has a default
    obtain ⟨j, rfl⟩ := Nat.exists_eq_add_of_le hi
    have hj := hbefore j (by omega)
    rcases List.getElem?_eq_some_iff.mp (getElem?_skipped.mpr ⟨Nat.lt_trans hlt hstop, hf⟩) with
      ⟨_, hsame⟩
    rw [hsame] at hj
    exact Bool.not_eq_true' _ ▸ hj
  · rintro ⟨i, hi, hstop, hf, hrequired, hskip⟩
    obtain ⟨k, rfl⟩ := Nat.exists_eq_add_of_le hi
    rcases List.getElem?_eq_some_iff.mp (getElem?_skipped.mpr ⟨hstop, hf⟩) with ⟨hk, hfield⟩
    refine ⟨hrequired, k, hk, hfield, fun j hj => ?_⟩
    have hget := List.getElem?_eq_getElem (Nat.lt_trans hj hk)
    rw [hskip _ _ (Nat.le_add_right _ j) (by omega) (getElem?_skipped.mp hget).2]
    rfl

theorem MaySkip.checkSkipped {stop : Nat} (h : s.MaySkip stop) : s.checkSkipped stop = .ok () := by
  rw [FieldSequence.checkSkipped, find?_skipped_eq_none.mpr h]

theorem FirstRequired.checkSkipped {stop : Nat} {field : FieldInfo}
    (h : s.FirstRequired stop field) :
    s.checkSkipped stop = .error (.refused (.fieldNotSet field.name)) := by
  rw [FieldSequence.checkSkipped, find?_skipped_eq_some.mpr h]

/-- Some members may be skipped, or one of them is the first that may not be. -/
theorem maySkip_or_firstRequired (s : FieldSequence) (stop : Nat) :
    s.MaySkip stop ∨ ∃ field, s.FirstRequired stop field := by
  cases h : ((s.fields.drop s.next).take (stop - s.next)).find? (·.required) with
  | none => exact .inl (find?_skipped_eq_none.mp h)
  | some field => exact .inr ⟨field, find?_skipped_eq_some.mp h⟩

/-- A member of the table that was not passed is set if what is before it may be
    skipped. -/
theorem set_of_le {index : Nat} (hnext : s.next ≤ index) (hlt : index < s.fields.length) :
    s.set index = s.checkSkipped index >>= fun _ =>
      .ok ((s.next, index), { s with next := index + 1 }) := by
  rw [set, List.getElem?_eq_getElem hlt]
  exact if_neg (Nat.not_lt_of_le hnext)

theorem Takes.perform {call : FieldCall} {skipped : Nat × Nat} {after : FieldSequence}
    (h : s.Takes call skipped after) : s.perform call = .ok (skipped, after) := by
  cases h with
  | set hnext hlt hskip =>
      rw [FieldSequence.perform, set_of_le hnext hlt, hskip.checkSkipped]
      rfl
  | complete hskip =>
      rw [FieldSequence.perform, FieldSequence.complete, hskip.checkSkipped]
      rfl

theorem Refuses.perform {call : FieldCall} {fault : Fault Refusal} (h : s.Refuses call fault) :
    s.perform call = .error fault := by
  cases h with
  | unknown h => rw [FieldSequence.perform, set, List.getElem?_eq_none h]
  | passed h hfield =>
      rw [FieldSequence.perform, set, hfield]
      exact if_pos h
  | @skips index field hlt h =>
      have hnext : s.next ≤ index := by
        rcases h with ⟨i, hi, hstop, _⟩
        omega
      rw [FieldSequence.perform, set_of_le hnext hlt, h.checkSkipped]
      rfl
  | lacks h =>
      rw [FieldSequence.perform, FieldSequence.complete, h.checkSkipped]
      rfl

theorem takes_or_refuses (s : FieldSequence) (call : FieldCall) :
    (∃ skipped after, s.Takes call skipped after) ∨ ∃ fault, s.Refuses call fault := by
  cases call with
  | set index =>
      -- the questions in the order in which they are asked of a setter
      by_cases hlt : index < s.fields.length
      · by_cases hpassed : index < s.next
        · exact .inr ⟨_, .passed hpassed (List.getElem?_eq_getElem hlt)⟩
        · rcases s.maySkip_or_firstRequired index with hskip | ⟨field, hfirst⟩
          · exact .inl ⟨_, _, .set (Nat.le_of_not_lt hpassed) hlt hskip⟩
          · exact .inr ⟨_, .skips hlt hfirst⟩
      · exact .inr ⟨_, .unknown (Nat.le_of_not_lt hlt)⟩
  | complete =>
      rcases s.maySkip_or_firstRequired s.fields.length with hskip | ⟨field, hfirst⟩
      · exact .inl ⟨_, _, .complete hskip⟩
      · exact .inr ⟨_, .lacks hfirst⟩

end Outcomes

section Runs

variable {s : FieldSequence}

/-- What a call comes to: it takes place or it is refused, and then changes
    nothing. -/
theorem apply_cases (s : FieldSequence) (call : FieldCall) :
    (∃ skipped after, s.Takes call skipped after ∧ s.apply call = ⟨.ok skipped, after⟩) ∨
      ∃ fault, s.Refuses call fault ∧ s.apply call = ⟨.error fault, s⟩ := by
  rcases s.takes_or_refuses call with ⟨skipped, after, htakes⟩ | ⟨fault, hrefuses⟩
  · exact .inl ⟨skipped, after, htakes, by rw [apply, htakes.perform]⟩
  · exact .inr ⟨fault, hrefuses, by rw [apply, hrefuses.perform]⟩

theorem takes_of_apply {call : FieldCall} {skipped : Nat × Nat}
    (h : (s.apply call).result = .ok skipped) : s.Takes call skipped (s.apply call).state := by
  rcases s.apply_cases call with ⟨skipped', after, htakes, happly⟩ | ⟨fault, _, happly⟩
  · rw [happly] at h ⊢
    cases h
    exact htakes
  · rw [happly] at h
    cases h

theorem apply_eq_error_iff {call : FieldCall} {fault : Fault Refusal} :
    (s.apply call).result = .error fault ↔ s.Refuses call fault := by
  constructor
  · intro h
    rcases s.apply_cases call with ⟨_, _, _, happly⟩ | ⟨other, hrefuses, happly⟩
    · rw [happly] at h
      cases h
    · rw [happly] at h
      cases h
      exact hrefuses
  · intro h
    rw [apply, h.perform]

/-- A sequence that has gone on from another one over the same table, or stays, and
    does not go beyond the table. -/
structure Advances (s after : FieldSequence) : Prop where
  fields_eq : after.fields = s.fields
  next_le : s.next ≤ after.next
  next_le_length : after.next ≤ s.fields.length

theorem Advances.trans {t u : FieldSequence} (h : s.Advances t) (h' : t.Advances u) :
    s.Advances u :=
  ⟨h'.fields_eq.trans h.fields_eq, Nat.le_trans h.next_le h'.next_le,
    h.fields_eq ▸ h'.next_le_length⟩

/-- A call goes on or stays, and the members it writes are those in between. -/
theorem apply_advances (hs : s.next ≤ s.fields.length) (call : FieldCall) :
    s.Advances (s.apply call).state ∧ call.writes (s.apply call).result =
      List.range' s.next ((s.apply call).state.next - s.next) := by
  rcases s.apply_cases call with ⟨skipped, after, htakes, happly⟩ | ⟨fault, _, happly⟩
  · rw [happly]
    cases htakes with
    | @set index hnext hlt _ =>
        refine ⟨⟨rfl, Nat.le_succ_of_le hnext, hlt⟩, ?_⟩
        -- the member itself stands behind those that were skipped
        change List.range' s.next (index - s.next) ++ [index] = _
        rw [show index + 1 - s.next = (index - s.next) + 1 by omega, List.range'_1_concat,
          Nat.add_sub_cancel' hnext]
    | complete _ => exact ⟨⟨rfl, hs, Nat.le_refl _⟩, List.append_nil _⟩
  · rw [happly, Nat.sub_self]
    exact ⟨⟨rfl, Nat.le_refl _, hs⟩, rfl⟩

theorem attempt_advances (hs : s.next ≤ s.fields.length) (calls : List FieldCall) :
    s.Advances (s.attempt calls) := by
  induction calls generalizing s with
  | nil => exact ⟨rfl, Nat.le_refl _, hs⟩
  | cons call rest ih =>
      have hcall := (apply_advances hs call).1
      exact hcall.trans (ih (hcall.fields_eq ▸ hcall.next_le_length))

/-- The calls of a run write the members from where it starts to where it ends. -/
theorem written_eq_range' (hs : s.next ≤ s.fields.length) (calls : List FieldCall) :
    s.written calls = List.range' s.next ((s.attempt calls).next - s.next) := by
  induction calls generalizing s with
  | nil =>
      rw [attempt, Nat.sub_self]
      rfl
  | cons call rest ih =>
      rcases apply_advances hs call with ⟨hcall, hwrites⟩
      have hafter := hcall.fields_eq ▸ hcall.next_le_length
      have hrest := (attempt_advances hafter rest).next_le
      have hle := hcall.next_le
      -- the second range begins where the first ends
      rw [written, hwrites, ih hafter, attempt]
      obtain ⟨k, hk⟩ := Nat.exists_eq_add_of_le hle
      rw [hk, Nat.add_sub_cancel_left, List.range'_append_1]
      congr 1
      omega

/-- What a run has written was written by one of its calls, as a member that the
    call skips or as the one that it is for. -/
theorem exists_call_of_mem_written {calls : List FieldCall} {i : Nat} (h : i ∈ s.written calls) :
    ∃ before call after skipped, calls = before ++ call :: after ∧
      ((s.attempt before).apply call).result = .ok skipped ∧
      (skipped.1 ≤ i ∧ i < skipped.2 ∨ call = .set i) := by
  induction calls generalizing s with
  | nil => exact absurd h List.not_mem_nil
  | cons call rest ih =>
      -- by this call, or by a later one on the sequence that this one leaves
      rcases List.mem_append.mp h with h | h
      · cases hresult : (s.apply call).result with
        | error fault =>
            rw [hresult] at h
            exact absurd h List.not_mem_nil
        | ok skipped =>
            refine ⟨[], call, rest, skipped, rfl, hresult, ?_⟩
            rw [hresult] at h
            rcases List.mem_append.mp h with h | h
            · rcases List.mem_range'_1.mp h with ⟨hle, hlt⟩
              exact .inl ⟨hle, by omega⟩
            · cases call with
              | set index => exact .inr (congrArg FieldCall.set (List.mem_singleton.mp h).symm)
              | complete => exact absurd h List.not_mem_nil
      · rcases ih h with ⟨before, later, after, skipped, rfl, hresult, hcovers⟩
        exact ⟨call :: before, later, after, skipped, rfl, hresult, hcovers⟩

/-- A call skips members of the table that have a default, and no others. -/
theorem Takes.optional {call : FieldCall} {skipped : Nat × Nat} {after : FieldSequence}
    (h : s.Takes call skipped after) {i : Nat} (hi : skipped.1 ≤ i) (hlt : i < skipped.2) :
    ∃ f, s.fields[i]? = some f ∧ f.required = false := by
  have hskip : i < s.fields.length ∧ s.MaySkip skipped.2 ∧ s.next ≤ i := by
    cases h with
    | set hnext hlength hskip => exact ⟨Nat.lt_trans hlt hlength, hskip, hi⟩
    | complete hskip => exact ⟨hlt, hskip, hi⟩
  rcases hskip with ⟨hlength, hskip, hnext⟩
  have hf := List.getElem?_eq_getElem hlength
  exact ⟨_, hf, hskip i _ hnext hlt hf⟩

theorem Takes.of_complete {skipped : Nat × Nat} {after : FieldSequence}
    (h : s.Takes .complete skipped after) :
    skipped = (s.next, s.fields.length) ∧ after = { s with next := s.fields.length } := by
  cases h with
  | complete _ => exact ⟨rfl, rfl⟩

/-- Behind the last member there is nothing left to set. -/
theorem set_refused (h : s.next = s.fields.length) (index : Nat) :
    ∃ fault, (s.apply (.set index)).result = .error fault := by
  rcases s.apply_cases (.set index) with ⟨skipped, after, htakes, _⟩ | ⟨fault, _, happly⟩
  · cases htakes with
    | set hnext hlt _ => omega
  · exact ⟨fault, by rw [happly]⟩

end Runs

/-- Whatever calls are made on the members of a struct, those that succeed write the
    members up to the next one, in order and each of them once: as the member that is
    set, or as one that is skipped, which then has a default. The next member never
    goes back and never beyond the table, a call that fails changes nothing and names
    the member that is in its way, and a struct that was completed has every required
    member set by a call of its own and takes no further one. -/
theorem members_written_once (fields : List FieldInfo) (calls : List FieldCall)
    {s : FieldSequence} (hs : s = (start fields).attempt calls) :
    s.next ≤ fields.length ∧
      (start fields).written calls = List.range s.next ∧
      (∀ i, s.isSet i = true ↔ i < s.next) ∧
      (∀ call, s.next ≤ (s.apply call).state.next) ∧
      (∀ call skipped, (s.apply call).result = .ok skipped → ∀ i, skipped.1 ≤ i → i < skipped.2 →
        ∃ f, fields[i]? = some f ∧ f.required = false) ∧
      (∀ call fault, ((s.apply call).result = .error fault ↔ s.Refuses call fault) ∧
        ((s.apply call).result = .error fault → (s.apply call).state = s)) ∧
      ∀ skipped, (s.apply .complete).result = .ok skipped →
        (∀ (i : Nat) f, fields[i]? = some f → f.required = true →
          ∃ before after skipped, calls = before ++ .set i :: after ∧
            (((start fields).attempt before).apply (.set i)).result = .ok skipped) ∧
        ∀ later index, ∃ fault,
          (((s.apply .complete).state.attempt later).apply (.set index)).result = .error fault := by
  have hstart : (start fields).next ≤ (start fields).fields.length := Nat.zero_le _
  have hrun := attempt_advances hstart calls
  rw [← hs] at hrun
  have hfields : s.fields = fields := hrun.fields_eq
  have hnext : s.next ≤ s.fields.length := hrun.fields_eq ▸ hrun.next_le_length
  have hwritten : (start fields).written calls = List.range s.next := by
    rw [written_eq_range' hstart, ← hs, List.range_eq_range']
    rfl
  refine ⟨hrun.next_le_length, hwritten, fun i => decide_eq_true_iff,
    fun call => (apply_advances hnext call).1.next_le, ?_, ?_, ?_⟩
  · intro call skipped hresult i hi hlt
    rw [← hfields]
    exact (takes_of_apply hresult).optional hi hlt
  · intro call fault
    refine ⟨apply_eq_error_iff, fun hresult => ?_⟩
    rcases s.apply_cases call with ⟨_, _, _, happly⟩ | ⟨_, _, happly⟩
    · rw [happly] at hresult
      cases hresult
    · rw [happly]
  · intro skipped hresult
    have hcomplete := takes_of_apply hresult
    rcases hcomplete.of_complete with ⟨rfl, hend⟩
    constructor
    · intro i f hf hrequired
      have hlt := (List.getElem?_eq_some_iff.mp hf).1
      -- completing would skip the member if it had not been passed yet
      have hi : i < s.next := by
        refine Nat.lt_of_not_le fun hi => ?_
        rcases hcomplete.optional hi (hfields ▸ hlt) with ⟨g, hg, hoptional⟩
        rw [hfields, hf] at hg
        cases hg
        rw [hrequired] at hoptional
        cases hoptional
      rcases exists_call_of_mem_written (hwritten ▸ List.mem_range.mpr hi) with
        ⟨before, call, after, skipped, hcalls, hcall, ⟨hle, hlt⟩ | rfl⟩
      · -- nor was it skipped on the way
        rcases (takes_of_apply hcall).optional hle hlt with ⟨g, hg, hoptional⟩
        rw [(attempt_advances hstart before).fields_eq] at hg
        cases hg.symm.trans hf
        rw [hrequired] at hoptional
        cases hoptional
      · exact ⟨before, after, skipped, hcalls, hcall⟩
    · intro later index
      rw [hend]
      -- the next member cannot go back from the end, and not beyond it
      have hlater : Advances { s with next := s.fields.length } _ :=
        attempt_advances (Nat.le_refl _) later
      refine set_refused ?_ index
      rw [hlater.fields_eq]
      exact Nat.le_antisymm hlater.next_le_length hlater.next_le

/-- A kind and a name that are required, each with an optional member behind it. -/
def header : List FieldInfo :=
  [⟨"kind", true⟩, ⟨"flags", false⟩, ⟨"name", true⟩, ⟨"tail", false⟩]

-- The name is set over the flags, and the flags then come too late.
theorem members_written_once_header :
    (start header).written [.complete, .set 0, .set 2] = List.range 3 ∧
      ((start header).attempt [.complete, .set 0, .set 2]).Refuses (.set 1)
        (.refused (.fieldOutOfOrder "flags")) ∧
      (((start header).attempt [.complete, .set 0, .set 2]).apply .complete).result = .ok (3, 4) ∧
      ∃ before after skipped, [.complete, .set 0, .set 2] = before ++ .set 2 :: after ∧
        (((start header).attempt before).apply (.set 2)).result = .ok skipped := by
  have hend : ⟨header, 3⟩ = (start header).attempt [.complete, .set 0, .set 2] := rfl
  rcases members_written_once header _ hend with ⟨_, hwritten, _, _, _, hrefuses, hcomplete⟩
  have hresult : (FieldSequence.apply ⟨header, 3⟩ .complete).result = .ok (3, 4) := rfl
  rw [← hend]
  exact ⟨hwritten, (hrefuses _ _).1.mp rfl, hresult, (hcomplete _ hresult).1 2 _ rfl rfl⟩

end FieldSequence

end Wireform
