import Wireform.Proofs.Regions

/-!
# Builders Told Something Else on the Way

What becomes of a value when the byte order or the bound is changed after it was
written.

A builder takes its settings at any time, and they hold for the steps to come. What
is there stays as it was written. But building looks at the settings as well: a
number is read in the order of that moment, and octets are handed out with the bound
of that moment, neither of which need fit what is there. So a number set in one
order and built in the other comes out with its bytes reversed, and octets may be
longer than the bound they are handed out with. Both are right as long as the
setting is that of the last success.

Steps feel a changed bound too. Bytes from memory are compared with it, and refused
where they lead beyond it. A visitor is given what the bound leaves, and where the
bound was lowered below the payload, that difference is no number: the step stops.

A run is taken together with its last success: the step, and the builder that took
it (`Builder.Reconfigured`). Steps that fail and settings in between leave the
success what it is, and this is all that building depends on, besides the settings.

## Main definitions

* `Builder.Reconfigured`: The runs of a builder, each with its last success.
* `FixedInt.swapped`: The number that has the bytes of another one in reverse.
* `Source.InMemory`: The bytes of the source are held in memory.
* `Bounded.Builder.Overreaches`: The steps that stop.
* `Builder.HoldsNumber`, `Builder.HoldsLength`: What is left of the last success.

## Theorems

* `Format.parseFixed_rearranged`: A number that is read in another order.
* `Source.held_payload`: Of the sources, only a region without an end stops.
* `Bounded.Builder.Tracks.write_stops_iff`: When a step of bounded octets stops.
* `Builder.Reconfigured.fixed`, `Builder.Reconfigured.bounded`: What a run leaves.
* `Builder.reconfigured_build`: What is built then, and which steps stop.
-/

namespace Wireform

section Orders

variable {order order' : ByteOrder} {n : Int}

theorem ByteOrder.arrange_of_ne (h : order ≠ order') (bytes : Bytes) :
    order.arrange (order'.arrange bytes) = bytes.reverse := by
  cases order with
  | native =>
      cases order' with
      | native => exact absurd rfl h
      | network => rfl
  | network =>
      cases order' with
      | native => rfl
      | network => exact absurd rfl h

/-- The number that has the bytes of the given one in reverse. -/
def FixedInt.swapped (kind : FixedInt) (n : Int) : Int :=
  kind.decode (Bytes.toNatLE (Bytes.ofNatLE kind.width (n % kind.modulus).toNat).reverse)

/-- The word of a number, written in one order and read in another. -/
theorem Format.parseFixed_rearranged {kind : FixedInt} (hrange : kind.InRange n)
    (order order' : ByteOrder) :
    ∃ c, parseFixed kind order
        (order'.arrange (Bytes.ofNatLE kind.width (n % kind.modulus).toNat)) = some c ∧
      c.number = some (if order = order' then n else kind.swapped n) := by
  by_cases horder : order = order'
  · subst horder
    exact ⟨_, parseFixed_word hrange order, by rw [if_pos rfl]⟩
  · have hlength : (order'.arrange
        (Bytes.ofNatLE kind.width (n % kind.modulus).toNat)).length = kind.width := by
      rw [ByteOrder.length_arrange, Bytes.length_ofNatLE]
    have hfront := Bytes.front?_append hlength []
    rw [List.append_nil] at hfront
    rw [parseFixed, hfront, Option.bind_eq_bind, Option.bind_some,
      ByteOrder.arrange_of_ne horder, if_neg horder]
    exact ⟨_, rfl, rfl⟩

end Orders

namespace Source

variable {source : Source}

/-- What the source refers to is held in memory, and so less than half of the words
    count it. -/
def InMemory : Source → Prop
  | .bytes data | .region data _ _ | .encoded _ data _ _ => data.length < 2 ^ (63 : Nat)
  | .text content charset =>
      ∀ bytes, charset.encode content = .ok bytes → bytes.length < 2 ^ (63 : Nat)
  | .visitor _ | .null => True

/-- The region has no end that is a word. -/
def Endless : Source → Prop
  | .region _ offset length => 2 ^ (64 : Nat) ≤ offset + length
  | _ => False

/-- The payload is refused, or found and no larger than what memory holds. -/
def Held (found : Checked Refusal (Option Bytes)) : Prop :=
  found ≠ Checked.stop ∧ found.Ensures fun payload => (payload.getD []).length < 2 ^ (63 : Nat)

theorem held_ok {payload : Option Bytes} (h : (payload.getD []).length < 2 ^ (63 : Nat)) :
    Held (.ok payload) := by
  refine ⟨fun hc => ?_, Checked.ensures_ok h⟩
  cases hc

theorem held_of_refuses {found : Checked Refusal (Option Bytes)} (h : found.Refuses) :
    Held found :=
  ⟨h.ne_stop, fun payload hpayload => absurd hpayload (h.ne_ok payload)⟩

theorem held_region {data : Bytes} (hdata : data.length < 2 ^ (63 : Nat)) {offset length : Nat}
    (hend : offset + length < 2 ^ (64 : Nat)) :
    Held (some <$> Wireform.region data offset length) := by
  by_cases hle : offset + length ≤ data.length
  · rw [region_of_le hdata hle]
    refine held_ok ?_
    rw [Option.getD_some, List.length_take, List.length_drop]
    omega
  · rw [region_refused hend (Nat.lt_of_not_le hle)]
    exact held_of_refuses ⟨_, rfl⟩

/-- A payload is a part of what it is found in. -/
theorem held_payloadIn (format : Format) {data : Bytes} (hdata : data.length < 2 ^ (63 : Nat))
    (offset maxLimit : Nat) : Held (format.payloadIn data offset maxLimit) := by
  have hb : (Buffer.ofBytes data).Addressable := by
    unfold Buffer.Addressable
    rw [Buffer.size_ofBytes]
    exact hdata
  unfold Format.payloadIn
  rcases Format.wrap_ok_or_refuses hb format {} offset maxLimit with ⟨r, hr⟩ | hrefuses
  · have hconfined := (Format.wrap_bound hb hr).confined hb (Nat.le_refl _) (Nat.le_refl _)
    rcases hconfined.payload with ⟨found, hfound, hsegment⟩
    rw [hr, Checked.ok_bind, hfound]
    refine held_ok ?_
    cases hcase : found with
    | none => decide
    | some bytes =>
        rcases hsegment bytes hcase with ⟨i, _, _, rfl⟩
        rcases Format.wrap_eq_ok hb hr with ⟨_, _, _, hm, _, _, _, hle, _⟩
        rw [Buffer.size_ofBytes] at hm
        rw [Option.getD_some, Buffer.length_segment _ (by rw [Buffer.size_ofBytes]; omega)]
        omega
  · exact held_of_refuses (hrefuses.bind _)

theorem held_encode (charset : Charset) (content : String)
    (h : ∀ bytes, charset.encode content = .ok bytes → bytes.length < 2 ^ (63 : Nat)) :
    Held (some <$> charset.encode content) := by
  cases hencode : charset.encode content with
  | ok bytes => exact held_ok (h bytes hencode)
  | error fault =>
      unfold Charset.encode at hencode
      split at hencode
      · cases hencode
      · split at hencode
        · cases hencode
          exact held_of_refuses ⟨_, rfl⟩
        · cases hencode

/-- Of the sources, only a region without an end stops. -/
theorem held_payload (h : source.InMemory) (hend : ¬ source.Endless) : Held source.payload := by
  cases source with
  | bytes data => exact held_ok h
  | region data offset length => exact held_region h (Nat.lt_of_not_le hend)
  | encoded format data offset maxLimit => exact held_payloadIn format h offset maxLimit
  | visitor v => exact held_ok (by decide)
  | text content charset => exact held_encode charset content h
  | null => exact held_ok (by decide)

theorem payload_of_endless (h : source.Endless) : source.payload = Checked.stop := by
  cases source with
  | region data offset length =>
      rw [payload, region_overflows h]
      rfl
  | _ => exact h.elim

end Source

namespace Bounded.Builder

variable {q : Bounded.Builder} {placement : Placement} {source : Source}

/-- The step stops: its region has no end, or its visitor is given what a bound
    below the payload leaves, or reports a place behind the last word. -/
def Overreaches (q : Bounded.Builder) (placement : Placement) (source : Source) : Prop :=
  source.Endless ∨ ∃ v, source = .visitor v ∧
    (q.bound < q.start placement ∨ 2 ^ (64 : Nat) ≤ q.position placement + v.report)

theorem Tracks.visit_stops_iff (h : q.Tracks) (placement : Placement) (v : Visitor) :
    (q.visit placement v).result = Checked.stop ↔
      q.bound < q.start placement ∨ 2 ^ (64 : Nat) ≤ q.position placement + v.report := by
  by_cases hstart : q.start placement ≤ q.bound
  · by_cases hreport : q.position placement + v.report < 2 ^ (64 : Nat)
    · refine ⟨fun hstop => ?_, fun hc => absurd hc (by omega)⟩
      rcases h.visit_decided hstart hreport with ⟨bytes, ⟨_, _, hvisit⟩ | ⟨cause, hvisit⟩⟩
      · rw [hvisit] at hstop
        cases hstop
      · rw [hvisit] at hstop
        cases hstop
    · rcases h.visit_overflows hstart (Nat.le_of_not_lt hreport) with ⟨bytes, hvisit⟩
      rw [hvisit]
      exact ⟨fun _ => .inr (Nat.le_of_not_lt hreport), fun _ => rfl⟩
  · rw [visit_overdrawn (Nat.lt_of_not_le hstart)]
    exact ⟨fun _ => .inl (Nat.lt_of_not_le hstart), fun _ => rfl⟩

/-- When a step stops, if what it refers to is held in memory. -/
theorem Tracks.write_stops_iff (h : q.Tracks) (placement : Placement)
    (hsource : source.InMemory) :
    ((Wireform.Builder.bounded q).write placement source).result = Checked.stop ↔
      q.Overreaches placement source := by
  by_cases hvisitor : ∃ v, source = .visitor v
  · rcases hvisitor with ⟨v, rfl⟩
    refine (h.visit_stops_iff placement v).trans ⟨fun hc => .inr ⟨v, rfl, hc⟩, fun hc => ?_⟩
    rcases hc with hc | ⟨v', hv', hc⟩
    · exact hc.elim
    · cases hv'
      exact hc
  · have hplain : ∀ v, source ≠ .visitor v := fun v hv => hvisitor ⟨v, hv⟩
    rw [Wireform.Builder.write_eq rfl placement hplain]
    constructor
    · intro hstop
      by_contra hc
      have hheld := Source.held_payload hsource fun hend => hc (.inl hend)
      cases hpayload : source.payload with
      | error fault =>
          rw [hpayload] at hstop
          exact hheld.1 (hpayload.trans (congrArg Except.error (Except.error.inj hstop)))
      | ok payload =>
          rw [hpayload] at hstop
          exact (h.write_decides placement (hheld.2 payload hpayload)).ne_stop hstop
    · rintro (hend | ⟨v, hv, _⟩)
      · rw [Source.payload_of_endless hend]
        rfl
      · exact absurd hv (hplain v)

end Bounded.Builder

namespace Builder

variable {b : Buffer} {o m : Nat} {started w : Builder} {last : Option (Builder × Step)}

/-- The runs of a builder that is told other settings on the way. Each goes with its
    last success: the step, and the builder as it was before the step. -/
inductive Reconfigured (started : Builder) : Option (Builder × Step) → Builder → Prop where
  | start : Reconfigured started none started
  | configure {last : Option (Builder × Step)} {w : Builder} (h : Reconfigured started last w)
      (settings : Settings) : Reconfigured started last (w.configure settings)
  | taken {last : Option (Builder × Step)} {w : Builder} {step : Step}
      (h : Reconfigured started last w) (hstep : step.isValue)
      (hok : (w.apply step).result = .ok ()) :
      Reconfigured started (some (w, step)) (w.apply step).state
  | failed {last : Option (Builder × Step)} {w : Builder} {step : Step} {fault : Fault Refusal}
      (h : Reconfigured started last w) (hstep : step.isValue)
      (herror : (w.apply step).result = .error fault) :
      Reconfigured started last (w.apply step).state

section Fixed

variable {kind : FixedInt}

/-- The builder of a number still has the bytes of its last success, in the order of
    that time. -/
def HoldsNumber (kind : FixedInt) (before : Builder) (step : Step) (w : Builder) : Prop :=
  ∃ (n : Int) (order : ByteOrder) (f : FixedInt.Builder),
    step = .set n ∧ kind.InRange n ∧ before.settings = { order := some order } ∧
    w = (Builder.fixed f).withValue
      (order.arrange (Bytes.ofNatLE kind.width (n % kind.modulus).toNat)) ∧
    (Builder.fixed f).WritesSingle (.fixed kind) ∧
    f.cursor.offset + kind.width ≤ f.cursor.maxLimit

theorem WritesSingle.configure {format : Format} (h : w.WritesSingle format)
    (settings : Settings) : (w.configure settings).WritesSingle format := by
  refine ⟨?_, (format_configure w settings).trans h.format_eq, h.isSingle⟩
  rw [cursor_configure]
  exact h.valid

theorem HoldsNumber.configure {before : Builder} {step : Step}
    (h : HoldsNumber kind before step w) (settings : Settings) :
    HoldsNumber kind before step (w.configure settings) := by
  rcases h with ⟨n, order, f, hstep, hrange, horder, rfl, hsingle, hroom⟩
  -- the bytes were arranged in the old order, and stay so
  exact ⟨n, order, { f with order := settings.order.getD f.order }, hstep, hrange, horder, rfl,
    hsingle.configure settings, hroom⟩

/-- A step that succeeds has set a number, in the order of the builder that took
    it. -/
theorem holdsNumber_of_taken {step : Step} (hw : w.WritesSingle (.fixed kind))
    (hstep : step.isValue) (hok : (w.apply step).result = .ok ()) :
    HoldsNumber kind w step (w.apply step).state := by
  cases w with
  | fixed f =>
      have hkind : f.kind = kind := Format.fixed.inj hw.format_eq
      subst hkind
      cases step with
      | set n =>
          rcases (FixedInt.Builder.set_exactly hw.valid n).of_ok hok with
            ⟨⟨hrange, hroom⟩, hset⟩
          exact ⟨n, f.order, f, rfl, hrange, rfl, congrArg Builder.fixed hset, hw, hroom⟩
      | write placement source => cases source <;> cases hok
      | _ => exact absurd hstep Bool.false_ne_true
  | _ => cases hw.format_eq

/-- What a run of a builder of numbers leaves. -/
theorem Reconfigured.fixed (hb : b.Addressable)
    (hstart : (Format.fixed kind).start b o m = .ok started)
    (h : Reconfigured started last w) :
    w.WritesSingle (.fixed kind) ∧ (last = none → w.isSet = false) ∧
      ∀ before step, last = some (before, step) → HoldsNumber kind before step w := by
  induction h with
  | start =>
      have hfresh := fresh_of_start started hstart
      refine ⟨hfresh.writesSingle hb rfl, fun _ => hfresh.unset, fun before step hc => ?_⟩
      cases hc
  | @configure last w _ settings ih =>
      rcases ih with ⟨hsingle, hunset, hholds⟩
      exact ⟨hsingle.configure settings, fun hnone => (isSet_configure w settings).trans
        (hunset hnone), fun before step hlast => (hholds before step hlast).configure settings⟩
  | taken _ hstep hok ih =>
      refine ⟨ih.1.apply hstep, fun hc => ?_, fun before step' hlast => ?_⟩
      · cases hc
      · cases hlast
        exact holdsNumber_of_taken ih.1 hstep hok
  | failed _ hstep herror ih =>
      rw [apply_of_error ih.1.single hstep herror]
      exact ih

/-- A number is read in the order of the moment. -/
theorem HoldsNumber.buildsInto {before : Builder} {step : Step}
    (h : HoldsNumber kind before step w) :
    ∃ n, step = .set n ∧ w.BuildsInto (.fixed kind) fun r =>
      r.number = .ok (some (if w.settings = before.settings then n else kind.swapped n)) := by
  rcases h with ⟨n, order, f, hstep, hrange, horder, rfl, hsingle, hroom⟩
  have hkind : f.kind = kind := Format.fixed.inj hsingle.format_eq
  have hlength : (order.arrange
      (Bytes.ofNatLE kind.width (n % kind.modulus).toNat)).length = kind.width := by
    rw [ByteOrder.length_arrange, Bytes.length_ofNatLE]
  rcases Format.parseFixed_rearranged hrange f.order order with ⟨c, hparse, hnumber⟩
  have hsame : ((Builder.fixed f).withValue (order.arrange
      (Bytes.ofNatLE kind.width (n % kind.modulus).toNat))).settings = before.settings ↔
        f.order = order := by
    rw [horder]
    exact ⟨fun hc => Option.some.inj (congrArg Settings.order hc), fun hc => by rw [← hc]; rfl⟩
  rcases hsingle.buildsInto_withValue (c := c) (by rw [hlength]; exact hroom)
    (by rw [← hkind] at hparse ⊢; exact hparse) with ⟨r, hr, hformat, hread, _⟩
  refine ⟨n, hstep, r, hr, hformat, ?_⟩
  simp only [hread, hnumber, hsame]

end Fixed

section Bounded

variable {width : Width} {q : Bounded.Builder}

/-- The builder of octets still has the payload of its last success, as far as its
    length goes. -/
def HoldsLength (before : Builder) (step : Step) (q : Bounded.Builder) : Prop :=
  q.isSet ∧ ∃ q₀ q₁, before = .bounded q₀ ∧ before.apply step = ⟨.ok (), .bounded q₁⟩ ∧
    q₀.Settles q₁ ∧ q.length = q₁.length

/-- What a run of a builder of bounded octets leaves. -/
theorem Reconfigured.bounded (hb : b.Addressable)
    (hstart : (Format.bounded width).start b o m = .ok started)
    (h : Reconfigured started last w) :
    ∃ q, w = .bounded q ∧ q.Tracks ∧ (last = none → q.isSet = false) ∧
      ∀ before step, last = some (before, step) → HoldsLength before step q := by
  induction h with
  | start =>
      rcases Checked.map_eq_ok.mp hstart with ⟨q, _, rfl⟩
      rcases tracks_of_start hb hstart with ⟨htracks, hunset⟩
      refine ⟨q, rfl, htracks, fun _ => hunset, fun before step hc => ?_⟩
      cases hc
  | configure _ settings ih =>
      -- the length of the last success is there, whatever the bound is now
      rcases ih with ⟨q, rfl, htracks, hunset, hholds⟩
      rcases configure_bounded q settings with ⟨bound, hbound, hkeeps⟩
      exact ⟨_, hbound, hkeeps htracks, hunset, hholds⟩
  | @taken last w step _ hstep hok ih =>
      rcases ih with ⟨q, rfl, htracks, _, _⟩
      cases step with
      | set n => cases hok
      | write placement source =>
          rcases htracks.write_cases placement source with
            ⟨q', hwrite, hq'⟩ | ⟨fault, start, bytes, hwrite⟩
          · refine ⟨q', congrArg Outcome.state hwrite, hq'.tracks, fun hc => ?_,
              fun before step hlast => ?_⟩
            · cases hc
            · cases hlast
              exact ⟨hq'.isSet, q, q', rfl, hwrite, hq', rfl⟩
          · rw [apply, hwrite] at hok
            cases hok
      | _ => exact absurd hstep Bool.false_ne_true
  | @failed last w step fault _ hstep herror ih =>
      rcases ih with ⟨q, rfl, htracks, hunset, hholds⟩
      cases step with
      | set n => exact ⟨q, rfl, htracks, hunset, hholds⟩
      | write placement source =>
          rcases htracks.write_cases placement source with
            ⟨q', hwrite, hq'⟩ | ⟨fault, start, bytes, hwrite⟩
          · rw [apply, hwrite] at herror
            cases herror
          · -- a visitor may have written, but behind the prefix
            exact ⟨_, congrArg Outcome.state hwrite, htracks.stored start bytes, hunset, hholds⟩
      | _ => exact absurd hstep Bool.false_ne_true

/-- Octets are handed out with the length of the last success and the bound of the
    moment. -/
theorem HoldsLength.build {before : Builder} {step : Step} (h : HoldsLength before step q)
    (hq : q.Tracks) :
    ∃ r r', (Builder.bounded q).build.result = .ok (.bounded r) ∧
      (before.apply step).state.build.result = .ok (.bounded r') ∧
      r'.length ≤ r'.bound ∧ r.length = r'.length ∧ r.bound = q.bound := by
  rcases h with ⟨hset, q₀, q₁, rfl, happly, hsettles, hlength⟩
  have hthen := hsettles.tracks.build hsettles.isSet
  have hwithin := hsettles.length_le
  rw [← hsettles.bound] at hwithin
  exact ⟨_, _, hq.build hset, (congrArg (fun out => out.state.build.result) happly).trans hthen,
    hwithin, hlength, rfl⟩

end Bounded

/-- A builder of numbers that was told byte orders between, before and after its sets
    is built into the last number that it took, if it is then told the order of that
    time, and into the number with the bytes in reverse otherwise.

    A builder of bounded octets that was told bounds in the same way is built into a
    reader which has the length of the last success. This was within the bound of that
    time, and the reader has the bound that the builder was told last. The steps that
    stop it are the ones that overreach. -/
theorem reconfigured_build (hb : b.Addressable) (o m : Nat) :
    (∀ kind started last w, (Format.fixed kind).start b o m = .ok started →
      Reconfigured started last w →
      (last = none → w.build.result = .error (.refused .valueNotSet)) ∧
      ∀ before step, last = some (before, step) → ∃ n, step = .set n ∧
        w.BuildsInto (.fixed kind) fun r =>
          r.number = .ok (some (if w.settings = before.settings then n else kind.swapped n))) ∧
    ∀ width started last w, (Format.bounded width).start b o m = .ok started →
      Reconfigured started last w →
      ∃ q, w = .bounded q ∧
        (∀ placement source, source.InMemory →
          ((w.write placement source).result = Checked.stop ↔ q.Overreaches placement source)) ∧
        (last = none → w.build.result = .error (.refused .valueNotSet)) ∧
        ∀ before step, last = some (before, step) → ∃ r r',
          w.build.result = .ok (.bounded r) ∧
          (before.apply step).state.build.result = .ok (.bounded r') ∧
          r'.length ≤ r'.bound ∧ r.length = r'.length ∧ r.bound = q.bound := by
  constructor
  · intro kind started last w hstart h
    rcases h.fixed hb hstart with ⟨hsingle, hunset, hholds⟩
    refine ⟨fun hnone => build_of_unset (hunset hnone) hsingle.single ?_,
      fun before step hlast => (hholds before step hlast).buildsInto⟩
    rw [hsingle.format_eq]
    intro hc
    cases hc
  · intro width started last w hstart h
    rcases h.bounded hb hstart with ⟨q, rfl, htracks, hunset, hholds⟩
    refine ⟨q, rfl, fun placement source hsource => htracks.write_stops_iff placement hsource,
      fun hnone => ?_, fun before step hlast => (hholds before step hlast).build htracks⟩
    simp only [build, Bounded.Builder.build, hunset hnone]
    rfl

-- A number that is set in native order and built in network order, and octets that
-- are told a bound of two when they have three bytes.
theorem reconfigured_build_late :
    (((Builder.fixed ⟨.uint16, .native, ⟨.ofBytes [0, 0], 0, 2, 0⟩, false⟩).apply
        (.set 1)).state.configure { order := some .network }).BuildsInto (.fixed .uint16)
      (fun r => r.number = .ok (some 256)) ∧
    ∃ q, ((Builder.bounded ⟨.eight, 255, 0, ⟨.ofBytes [0, 0, 0, 0], 0, 4, 0⟩, false⟩).apply
        (.write .replace (.bytes [1, 2, 3]))).state.configure { bound := some 2 } = .bounded q ∧
      ((Builder.bounded q).write .append (.visitor ⟨[], 0⟩)).result = Checked.stop ∧
      ((Builder.bounded q).write .append (.bytes [])).result ≠ Checked.stop ∧
      ∃ r, (Builder.bounded q).build.result = .ok (.bounded r) ∧ r.length = 3 ∧ r.bound = 2 := by
  have hb : (Buffer.ofBytes [0, 0]).Addressable := by
    unfold Buffer.Addressable
    decide
  have hb' : (Buffer.ofBytes [0, 0, 0, 0]).Addressable := by
    unfold Buffer.Addressable
    decide
  constructor
  · have hrun : Reconfigured (.fixed ⟨.uint16, .native, ⟨.ofBytes [0, 0], 0, 2, 0⟩, false⟩)
        (some (_, .set 1)) _ :=
      (Reconfigured.start.taken rfl rfl).configure { order := some .network }
    rcases ((reconfigured_build hb 0 2).1 .uint16 _ _ _ rfl hrun).2 _ _ rfl with
      ⟨n, hn, r, hr, hformat, hnumber⟩
    cases hn
    exact ⟨r, hr, hformat, hnumber⟩
  · have hrun : Reconfigured
        (.bounded ⟨.eight, 255, 0, ⟨.ofBytes [0, 0, 0, 0], 0, 4, 0⟩, false⟩)
        (some (_, .write .replace (.bytes [1, 2, 3]))) _ :=
      (Reconfigured.start.taken rfl rfl).configure { bound := some 2 }
    rcases (reconfigured_build hb' 0 4).2 .eight _ _ _ rfl hrun with
      ⟨q, hq, hstops, _, hbuild⟩
    rcases hbuild _ _ rfl with ⟨r, r', hr, hr', _, hlength, hbound⟩
    cases hq
    cases hr'
    have hempty : (Source.bytes []).InMemory := show 0 < 2 ^ (63 : Nat) by decide
    refine ⟨_, rfl, (hstops .append (.visitor ⟨[], 0⟩) trivial).mpr
      (.inr ⟨_, rfl, .inl (by decide)⟩), fun hstop => ?_, r, hr, hlength, hbound⟩
    rcases (hstops .append (.bytes []) hempty).mp hstop with hend | ⟨v, hv, _⟩
    · exact hend
    · cases hv

-- What comes of it: another number, a step that stops, and octets beyond their bound.
theorem reconfigured_disagrees :
    (do
      let w ← (Format.fixed .uint16).start (.ofBytes [0, 0]) 0 2
      let r ← ((w.apply (.set 1)).state.configure { order := some .network }).build.result
      r.number) = .ok (some 256) ∧
    (do
      let w ← (Format.bounded .eight).start (.ofBytes [0, 0, 0, 0]) 0 4
      let w := (w.apply (.write .replace (.bytes [1, 2, 3]))).state.configure { bound := some 2 }
      (w.write .append (.visitor ⟨[], 0⟩)).result) = Checked.stop ∧
    (do
      let w ← (Format.bounded .eight).start (.ofBytes [0, 0, 0, 0]) 0 4
      let w := (w.apply (.write .replace (.bytes [1, 2, 3]))).state.configure { bound := some 2 }
      w.build.result) =
        .ok (.bounded ⟨.eight, 2, ⟨.ofBytes [3, 1, 2, 3], 0, 4⟩, 3⟩) :=
  ⟨rfl, rfl, rfl⟩

end Builder

end Wireform
