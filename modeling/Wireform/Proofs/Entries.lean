import Wireform.Proofs.Appending
import Wireform.Proofs.RefusedVisits
import Wireform.Proofs.SelfDelimiting

/-!
# An Entry Is Two Elements

What a map makes of entries that fail.

An entry is appended as a key and then as a value, each like the item of an array.
Each half is all or nothing: it moves the limit behind what was written and counts
one more, or leaves both alone. The whole is not. A value that fails leaves its key
behind, counted, and the next entry goes behind that. From then on keys and values
are out of step, which nobody sees before the map is built.

So a run is described by everything that it leaves behind, keys without a value
included (`Builder.Entered`). These stand one after the other and are counted one by
one, and that is what the built map is parsed from. An odd number of them is no map.
An even number may be one, with entries that nobody asked for. Only if no value has
failed behind its key are the entries those that succeeded.

For that the elements also have to be told apart where they are read. An element
that does not say where it ends takes all that follows. A map with more behind it is
refused then, unless that can be parsed from no bytes at all, and `Format.Separable`
leaves these pairs of formats out.

## Main definitions

* `Format.IsEncoding`: Bytes that are an encoding from the first to the last.
* `WritesFormat`: Whoever writes an element by building it with a nested builder.
* `Builder.half`: A key, or a value, appended to a map.
* `Builder.Grows`: A builder to which elements were appended.
* `Builder.Entered`: The runs of a map, with what they leave behind.
* `Format.Separable`: Keys and values that can be told apart.

## Theorems

* `Builder.isEncoding_of_build`: What is built is an encoding.
* `Builder.half_of_ok`, `Builder.half_of_error`: Half an entry is all or nothing.
* `Builder.Entered.grows`: What a run leaves behind is appended and counted.
* `Builder.entries_of_build`: What a built map is parsed from.
* `Format.parseMany_pairs`: Keys and values that can be told apart are.
* `Builder.failed_value_leaves_key`: What entries leave behind, and what is built.
-/

namespace Wireform

section Encodings

namespace Format

variable {format : Format} {settings : Settings} {input : Bytes} {c : Content}

/-- The bytes are an encoding of the format, from the first to the last. -/
def IsEncoding (format : Format) (bytes : Bytes) : Prop :=
  ∃ c, format.parse {} bytes = some c ∧ c.bytes = bytes

/-- A parse that has the bytes it has used, and no others, finds the same. -/
theorem parse_bytes (h : format.parse settings input = some c) :
    format.parse settings c.bytes = some c := by
  by_cases hd : format.isDelimited
  · have happ := (parse_prefixDetermined hd settings input c h).2 []
    rw [List.append_nil] at happ
    exact happ
  · unfold isDelimited at hd
    split at hd
    · cases h
      rfl
    · cases h
      rw [parse, parseBounded, if_pos rfl, List.take_take, Nat.min_self]
    · cases h
      rfl
    · exact absurd rfl hd

/-- A byte order changes the number that is parsed and nothing else. -/
theorem parse_of_order {order : Option ByteOrder}
    (h : format.parse { order } input = some c) :
    ∃ c', format.parse {} input = some c' ∧ c'.bytes = c.bytes := by
  cases format with
  | fixed kind =>
      rcases Option.bind_eq_some_iff.mp h with ⟨bytes, hbytes, h⟩
      cases h
      have hparse : (Format.fixed kind).parse {} input = some
          { bytes, number := some (kind.decode (Bytes.toNatLE bytes)) } := by
        rw [parse, parseFixed, hbytes]
        rfl
      exact ⟨_, hparse, rfl⟩
  | _ => exact ⟨c, h, rfl⟩

end Format

namespace Builder

variable {b : Buffer} {o m : Nat} {w : Builder} {r : Reader}

theorem settings_eq (w : Builder) : ∃ order, w.settings = { order } := by
  cases w <;> exact ⟨_, rfl⟩

theorem finish_eq_ok (before : Buffer) {format : Format} {x : Checked Refusal Cursor}
    (hx : x.Ensures fun c => c.Framed b o m) (h : (build.finish before format x).result = .ok r) :
    ∃ stop, format.wrap (build.finish before format x).state {} o stop = .ok r := by
  cases x with
  | error fault => cases h
  | ok c =>
      refine ⟨c.limit, ?_⟩
      rw [← (hx c rfl).offset]
      exact h

/-- What was built is what a reader over the buffer would be bound to, up to the
    bound of bounded octets. -/
theorem build_eq_ok (hw : w.cursor.Framed b o m) (h : w.build.result = .ok r) :
    ∃ stop r', w.format.wrap w.build.state w.settings o stop = .ok r' ∧ r'.limit = r.limit := by
  have hoffset := hw.offset
  -- numbers, octets and strings are there already; what follows them is finished
  -- first, which may write prefixes
  cases w with
  | fixed f =>
      by_cases hset : f.isSet
      · simp only [build, FixedInt.Builder.build, if_pos hset, show f.cursor.offset = o from hoffset]
          at h
        exact ⟨_, r, h, rfl⟩
      · simp only [build, FixedInt.Builder.build, if_neg hset] at h
        cases h
  | varint v =>
      by_cases hset : v.isSet
      · simp only [build, VarInt.Builder.build, if_pos hset, show v.cursor.offset = o from hoffset]
          at h
        exact ⟨_, r, h, rfl⟩
      · simp only [build, VarInt.Builder.build, if_neg hset] at h
        cases h
  | octets q =>
      simp only [build, Octets.Builder.build, show q.cursor.offset = o from hoffset] at h
      exact ⟨_, r, h, rfl⟩
  | bounded q =>
      by_cases hset : q.isSet
      · rw [build_bounded hset, show q.cursor.offset = o from hoffset] at h
        rcases Checked.map_eq_ok.mp h with ⟨reader, hreader, rfl⟩
        refine ⟨q.cursor.limit, .bounded reader, ?_, rfl⟩
        exact (wrap_bounded _ _ _ _).trans (congrArg (Reader.bounded <$> ·) hreader)
      · simp only [build, Bounded.Builder.build, if_neg hset] at h
        cases h
  | string s =>
      by_cases hset : s.isSet
      · simp only [build, Strings.Builder.build, if_pos hset, show s.cursor.offset = o from hoffset]
          at h
        exact ⟨_, r, h, rfl⟩
      · simp only [build, Strings.Builder.build, if_neg hset] at h
        cases h
  | varstring s =>
      have hsettled : ((fun _ => s.settle.state.cursor) <$> s.settle.result).Ensures
          fun c => c.Framed b o m := by
        intro c hc
        rcases Checked.map_eq_ok.mp hc with ⟨_, _, rfl⟩
        exact VarStrings.Builder.settle_framed hw
      rcases finish_eq_ok s.settle.state.cursor.buffer hsettled h with ⟨stop, hwrap⟩
      exact ⟨stop, r, hwrap, rfl⟩
  | emptyList e =>
      rcases finish_eq_ok e.cursor.buffer (Checked.ensures_ok hw) h with ⟨stop, hwrap⟩
      exact ⟨stop, r, hwrap, rfl⟩
  | list s =>
      rcases finish_eq_ok s.cursor.buffer (fun c hc => Sequence.Builder.finish_framed hw hc) h with
        ⟨stop, hwrap⟩
      exact ⟨stop, r, hwrap, rfl⟩
  | array item s =>
      rcases finish_eq_ok s.cursor.buffer (fun c hc => Sequence.Builder.finish_framed hw hc) h with
        ⟨stop, hwrap⟩
      exact ⟨stop, r, hwrap, rfl⟩
  | map key value s =>
      rcases finish_eq_ok s.cursor.buffer (fun c hc => Sequence.Builder.finish_framed hw hc) h with
        ⟨stop, hwrap⟩
      exact ⟨stop, r, hwrap, rfl⟩

/-- What was built in a window is an encoding of the format, up to the limit of its
    reader. -/
theorem isEncoding_of_build (hb : b.Addressable) (hw : w.cursor.Framed b o m)
    (h : w.build.result = .ok r) :
    o ≤ r.limit ∧ w.format.IsEncoding (w.build.state.segment o r.limit) := by
  rcases build_eq_ok hw h with ⟨stop, r', hwrap, hlimit⟩
  have hbuilt := (build_sameOutside hw).addressable hb
  rcases Format.wrap_eq_ok hbuilt hwrap with ⟨c, hparse, ho, hstop, _, _, hend, _, _⟩
  rcases Format.parse_bytes_eq hstop ho hparse with ⟨_, hbytes⟩
  rcases w.settings_eq with ⟨order, horder⟩
  rw [← hlimit, hend, ← hbytes]
  have hused := Format.parse_bytes hparse
  rw [horder] at hused
  rcases Format.parse_of_order hused with ⟨c', hparse', hsame⟩
  exact ⟨Nat.le_add_right _ _, c', hparse', hsame⟩

end Builder

end Encodings

section Formats

-- No operation changes the format of a builder: it writes, moves the limit, counts
-- or marks the value as set.

theorem Bounded.Builder.width_settle (q : Bounded.Builder) (stop : Nat) :
    (q.settle stop).state.width = q.width :=
  Outcome.andThen_state (fun q' : Bounded.Builder => q'.width = q.width) rfl fun _ _ =>
    Outcome.onSuccess_state (fun q' : Bounded.Builder => q'.width = q.width) rfl fun _ => id

theorem Bounded.Builder.width_write (q : Bounded.Builder) (placement : Placement)
    (bytes : Bytes) : (q.write placement bytes).state.width = q.width :=
  Outcome.andThen_state (fun q' : Bounded.Builder => q'.width = q.width) rfl fun _ _ =>
    Outcome.andThen_state (fun q' : Bounded.Builder => q'.width = q.width) rfl fun stop _ =>
      width_settle _ stop

theorem Bounded.Builder.width_visit (q : Bounded.Builder) (placement : Placement)
    (visitor : Visitor) : (q.visit placement visitor).state.width = q.width := by
  rw [visit]
  cases q.allowance placement with
  | error fault => rfl
  | ok cap =>
      exact Outcome.andThen_state (fun q' : Bounded.Builder => q'.width = q.width) rfl
        fun stop _ => width_settle _ stop

namespace Sequence.Builder

theorem width_of_advance {s s' : Sequence.Builder} {count stop : Nat}
    (h : s.advance count stop = .ok s') : s'.width = s.width := by
  rcases Checked.bind_eq_ok.mp h with ⟨_, _, h⟩
  rcases Checked.bind_eq_ok.mp h with ⟨_, _, h⟩
  cases h
  rfl

theorem width_advanced (s : Sequence.Builder) (written : Outcome Refusal Cursor Nat)
    (count : Nat) :
    ((written.mapState fun cursor => { s with cursor := cursor }).andThen fun stop s' =>
      Outcome.ofChecked s' (s'.advance count stop)).state.width = s.width := by
  refine Outcome.andThen_ofChecked_state (fun s' : Sequence.Builder => s'.width = s.width) rfl
    fun _ _ _ hadvance => ?_
  have hwidth := width_of_advance hadvance
  exact hwidth

theorem width_item (s : Sequence.Builder)
    (write : Buffer → Nat → Nat → Outcome Refusal Buffer Nat) :
    (s.item write).state.width = s.width := by
  unfold item
  refine Outcome.andThen_state (fun s' : Sequence.Builder => s'.width = s.width) rfl
    fun stop _ => ?_
  by_cases hback : stop < s.cursor.limit
  · rw [if_pos hback]
    rfl
  · rw [if_neg hback]
    refine Outcome.ofChecked_state (fun s' : Sequence.Builder => s'.width = s.width) rfl
      fun _ hadvance => ?_
    have hwidth := width_of_advance hadvance
    exact hwidth

end Sequence.Builder

namespace Builder

variable {w : Builder}

theorem format_set (w : Builder) (n : Int) : (w.set n).state.format = w.format := by
  unfold set
  split
  · next f =>
      exact congrArg Format.fixed
        (Outcome.onSuccess_state (fun f' : FixedInt.Builder => f'.kind = f.kind) rfl fun _ => id)
  · next v =>
      exact congrArg Format.varint
        (Outcome.onSuccess_state (fun v' : VarInt.Builder => v'.kind = v.kind) rfl fun _ => id)
  · rfl

theorem format_writePayload (w : Builder) (placement : Placement) (payload : Option Bytes) :
    (w.writePayload placement payload).state.format = w.format := by
  unfold writePayload
  split
  · rfl
  · exact congrArg Format.bounded (Bounded.Builder.width_write _ placement _)
  · next s =>
      exact congrArg Format.string
        (Outcome.onSuccess_state (fun s' : Strings.Builder => s'.width = s.width) rfl fun _ => id)
  · rfl
  · rfl

theorem format_visit (w : Builder) (placement : Placement) (visitor : Visitor) :
    (w.visit placement visitor).state.format = w.format := by
  unfold visit
  split
  · rfl
  · exact congrArg Format.bounded (Bounded.Builder.width_visit _ placement visitor)
  · rfl

theorem format_write (w : Builder) (placement : Placement) (source : Source) :
    (w.write placement source).state.format = w.format := by
  unfold write
  split
  · exact w.format_visit placement _
  · split
    · exact Outcome.andThen_state (fun w' : Builder => w'.format = w.format) rfl
        fun payload _ => w.format_writePayload placement payload
    · rfl

theorem format_fields (w : Builder) (count : Nat) (visitor : Visitor) :
    (w.fields count visitor).state.format = w.format := by
  unfold fields
  split
  · refine Outcome.ofChecked_state (fun w' : Builder => w'.format = .emptyList) rfl
      fun after hafter => ?_
    rcases Checked.map_eq_ok.mp hafter with ⟨e, _, rfl⟩
    rfl
  · exact congrArg Format.list (Sequence.Builder.width_advanced _ _ count)
  · rfl

theorem format_fieldsFrom (w : Builder) (count : Nat) (bytes : Bytes) :
    (w.fieldsFrom count bytes).state.format = w.format := by
  unfold fieldsFrom
  split
  · exact congrArg Format.list (Sequence.Builder.width_advanced _ _ count)
  · rfl

theorem format_item (w : Builder) (write : Buffer → Nat → Nat → Outcome Refusal Buffer Nat) :
    (w.item write).state.format = w.format := by
  unfold item
  split
  · exact congrArg (Format.array · _) (Sequence.Builder.width_item _ write)
  · rfl

theorem format_entry (w : Builder)
    (writeKey writeValue : Buffer → Nat → Nat → Outcome Refusal Buffer Nat) :
    (w.entry writeKey writeValue).state.format = w.format := by
  unfold entry
  split
  · next key value s =>
      refine congrArg (Format.map · key value) ?_
      refine Outcome.andThen_state (fun s' : Sequence.Builder => s'.width = s.width)
        (Sequence.Builder.width_item _ writeKey) fun _ _ => ?_
      exact (Sequence.Builder.width_item _ writeValue).trans (Sequence.Builder.width_item _ writeKey)
  · rfl

theorem format_apply (w : Builder) (step : Step) : (w.apply step).state.format = w.format := by
  cases step with
  | configure settings => exact format_configure w settings
  | set n => exact format_set w n
  | write placement source => exact format_write w placement source
  | fields count visitor => exact format_fields w count visitor
  | fieldsFrom count bytes => exact format_fieldsFrom w count bytes
  | item element => exact format_item w _
  | entry key value => exact format_entry w _ _

theorem format_run (w : Builder) (steps : List Step) : (w.run steps).state.format = w.format := by
  induction steps generalizing w with
  | nil => rfl
  | cons step rest ih =>
      rw [run]
      exact Outcome.andThen_state (fun w' : Builder => w'.format = w.format) (w.format_apply step)
        fun _ _ => (ih _).trans (w.format_apply step)

end Builder

end Formats

section Writers

/-- The writer of an element builds it with a builder of the format, which may have
    elements nested to a depth, and answers with where the built value ends. It may
    have used other builders before, and it may fail. -/
def WritesFormat (format : Format) (depth : Nat)
    (write : Buffer → Nat → Nat → Outcome Refusal Buffer Nat) : Prop :=
  HasEffect (WritesWithin (depth + 1)) write ∧
    ∀ b position maxLimit stop, (write b position maxLimit).result = .ok stop →
      ∃ b' w r, WritesWithin (depth + 1) b position maxLimit b' ∧
        Builder.Reached (WritesWithin depth) b' position maxLimit w ∧ w.format = format ∧
        w.build = ⟨.ok r, (write b position maxLimit).state⟩ ∧ r.limit = stop

variable {format : Format} {depth : Nat}

theorem WritesFormat.sameOutside {write : Buffer → Nat → Nat → Outcome Refusal Buffer Nat}
    (h : WritesFormat format depth write) : HasEffect Buffer.SameOutside write :=
  h.1.imp (WritesWithin.sameOutside _)

theorem WritesFormat.isEncoding {write : Buffer → Nat → Nat → Outcome Refusal Buffer Nat}
    (h : WritesFormat format depth write) {b : Buffer} (hb : b.Addressable)
    {position maxLimit stop : Nat} (hok : (write b position maxLimit).result = .ok stop) :
    format.IsEncoding ((write b position maxLimit).state.segment position stop) := by
  rcases h.2 b position maxLimit stop hok with ⟨b', w, r, hbefore, hreached, hformat, hbuild, hstop⟩
  have hb' : b'.Addressable := (WritesWithin.sameOutside _ _ _ _ _ hbefore).addressable hb
  have hframed := hreached.framed (WritesWithin.sameOutside depth)
  have hencoding := (Builder.isEncoding_of_build hb' hframed (congrArg Outcome.result hbuild)).2
  rw [hbuild, hformat, hstop] at hencoding
  exact hencoding

/-- A script run by a nested builder is such a writer. -/
theorem Element.writesFormat {settings : Settings} {steps : List Step}
    (h : (Element.built format settings steps).NestsWithin (depth + 1)) :
    WritesFormat format depth (Element.built format settings steps).write := by
  refine ⟨Element.hasEffect_write h, fun b position maxLimit stop hok => ?_⟩
  rw [Element.write] at hok ⊢
  cases hstart : format.start b position maxLimit with
  | error fault =>
      rw [hstart] at hok
      cases hok
  | ok w =>
      rw [hstart] at hok
      have hreached := ((Builder.Reached.start hstart).configure settings).run
        fun s hs e he => Element.hasEffect_write (h s hs e he)
      simp only at hok ⊢
      cases hwritten : ((w.configure settings).run steps).result with
      | error fault =>
          rw [hwritten] at hok
          cases hok
      | ok _ =>
          rw [hwritten] at hok
          rcases Checked.map_eq_ok.mp hok with ⟨r, hr, rfl⟩
          refine ⟨b, _, r, .untouched, hreached, ?_, ?_, rfl⟩
          · rw [Builder.format_run, Builder.format_configure]
            exact (Builder.fresh_of_start w hstart).format_eq
          · rw [← hr]

end Writers

theorem Sequence.Builder.item_of_ok {s : Sequence.Builder}
    {write : Buffer → Nat → Nat → Outcome Refusal Buffer Nat}
    (h : (s.item write).result = .ok ()) :
    ∃ stop, (write s.cursor.buffer s.cursor.limit s.cursor.maxLimit).result = .ok stop ∧
      s.cursor.limit ≤ stop ∧ stop ≤ s.cursor.maxLimit ∧
      (s.item write).state = { s with
        cursor.buffer := (write s.cursor.buffer s.cursor.limit s.cursor.maxLimit).state
        cursor.limit := stop
        count := s.count + 1 } := by
  unfold item at h ⊢
  cases hresult : (write s.cursor.buffer s.cursor.limit s.cursor.maxLimit).result with
  | error fault =>
      simp only [Outcome.andThen, Outcome.mapState, hresult] at h
      cases h
  | ok stop =>
      simp only [Outcome.andThen, Outcome.mapState, hresult] at h ⊢
      by_cases hback : stop < s.cursor.limit
      · rw [if_pos hback] at h
        cases h
      · rw [if_neg hback] at h ⊢
        have hadvance := Outcome.ofChecked_of_ok h
        rcases (advance_exactly _ 1 stop).of_eq_ok hadvance with ⟨⟨hmax, _⟩, hstate⟩
        exact ⟨stop, rfl, by omega, hmax, hstate⟩

namespace Builder

/-- A key, or a value, appended to a map. -/
def half (w : Builder) (write : Buffer → Nat → Nat → Outcome Refusal Buffer Nat) :
    Outcome Refusal Builder Unit :=
  match w with
  | .map key value s => (s.item write).mapState (.map key value)
  | _ => w.unsupported

/-- The bytes of the element that a writer puts where the builder stands. -/
def written (w : Builder) (write : Buffer → Nat → Nat → Outcome Refusal Buffer Nat) : Bytes :=
  match (write w.cursor.buffer w.limit w.cursor.maxLimit).result with
  | .ok stop =>
      (write w.cursor.buffer w.limit w.cursor.maxLimit).state.segment w.limit stop
  | .error _ => []

/-- The second builder has what the first has, and behind it these elements, which
    it has counted. -/
structure Grows (w : Builder) (elements : List Bytes) (w' : Builder) : Prop where
  valid : w'.cursor.Valid
  format : w'.format = w.format
  offset : w'.cursor.offset = w.cursor.offset
  maxLimit : w'.cursor.maxLimit = w.cursor.maxLimit
  fieldCount : w'.fieldCount = w.fieldCount + elements.length
  limit : w'.limit = w.limit + elements.flatten.length
  limit_le : w'.limit ≤ w'.cursor.maxLimit
  bytes : w'.cursor.buffer.segment w.limit w'.limit = elements.flatten
  frame : w.cursor.buffer.SameOutside w.limit w.cursor.maxLimit w'.cursor.buffer

section Halves

variable {w w' w'' : Builder} {elements elements' : List Bytes} {fault : Fault Refusal}
  {write writeKey writeValue : Buffer → Nat → Nat → Outcome Refusal Buffer Nat}

/-- A builder in its window, with nothing behind its limit that counts. -/
theorem grows_onBuffer (hw : w.cursor.Valid) (hlimit : w.limit ≤ w.cursor.maxLimit) {b : Buffer}
    (hb : w.cursor.buffer.SameOutside w.limit w.cursor.maxLimit b) :
    w.Grows [] (w.onBuffer b) := by
  have hcursor := w.cursor_onBuffer b
  refine ⟨⟨?_, ?_⟩, w.format_onBuffer b, by rw [hcursor], by rw [hcursor], ?_, ?_, ?_, ?_, ?_⟩
  · rw [hcursor]
    exact hb.addressable hw.addressable
  · rw [hcursor, hb.1]
    exact hw.maxLimit_le
  · exact (sameBuilt_onBuffer hb).fieldCount
  · exact (sameBuilt_onBuffer hb).limit
  · rw [Builder.limit, hcursor]
    exact hlimit
  · rw [(sameBuilt_onBuffer hb).limit, Buffer.segment_self]
    rfl
  · rw [hcursor]
    exact hb

theorem Grows.trans (h : w.Grows elements w') (h' : w'.Grows elements' w'') :
    w.Grows (elements ++ elements') w'' := by
  have hlimit := h.limit
  have hlimit' := h'.limit
  have hmax := h.maxLimit
  refine ⟨h'.valid, h'.format.trans h.format, h'.offset.trans h.offset, h'.maxLimit.trans hmax,
    ?_, ?_, h'.limit_le, ?_, ?_⟩
  · rw [h'.fieldCount, h.fieldCount, List.length_append, Nat.add_assoc]
  · rw [List.flatten_append, List.length_append]
    omega
  · -- the second part goes behind the first and leaves it alone
    rw [← Buffer.segment_append _ (by omega : w.limit ≤ w'.limit) (by omega),
      h'.frame.segment_eq (Nat.le_refl _), h.bytes, h'.bytes, List.flatten_append]
  · exact h.frame.trans (h'.frame.mono (by omega) (Nat.le_of_eq hmax))

/-- An entry is its two halves. -/
theorem entry_eq_halves (w : Builder)
    (writeKey writeValue : Buffer → Nat → Nat → Outcome Refusal Buffer Nat) :
    w.entry writeKey writeValue = (w.half writeKey).andThen fun _ w' => w'.half writeValue := by
  cases w with
  | map key value s =>
      simp only [entry, half, Outcome.andThen, Outcome.mapState]
      cases (s.item writeKey).result <;> rfl
  | _ => rfl

/-- A half that fails has written behind the limit at most. -/
theorem half_of_error (hw : w.cursor.Valid) (hlimit : w.limit ≤ w.cursor.maxLimit)
    (hwrite : HasEffect Buffer.SameOutside write) (h : (w.half write).result = .error fault) :
    w.Grows [] (w.half write).state := by
  have hkept : ∃ b, w.cursor.buffer.SameOutside w.limit w.cursor.maxLimit b ∧
      (w.half write).state = w.onBuffer b := by
    cases w with
    | map key value s =>
        exact ⟨_, hwrite _ _ _,
          congrArg (Builder.map key value) (Sequence.Builder.item_of_error h)⟩
    | _ => exact ⟨_, .refl _ _ _, (onBuffer_self _).symm⟩
  rcases hkept with ⟨b, hb, hstate⟩
  rw [hstate]
  exact grows_onBuffer hw hlimit hb

theorem written_of_ok {stop : Nat}
    (h : (write w.cursor.buffer w.limit w.cursor.maxLimit).result = .ok stop) :
    w.written write =
      (write w.cursor.buffer w.limit w.cursor.maxLimit).state.segment w.limit stop := by
  rw [written, h]

/-- A half that succeeds has appended one element, and its writer has succeeded. -/
theorem half_of_ok (hw : w.cursor.Valid) (hwrite : HasEffect Buffer.SameOutside write)
    (h : (w.half write).result = .ok ()) :
    (∃ stop, (write w.cursor.buffer w.limit w.cursor.maxLimit).result = .ok stop) ∧
      w.Grows [w.written write] (w.half write).state := by
  cases w with
  | map key value s =>
      rcases Sequence.Builder.item_of_ok h with ⟨stop, hresult, hle, hmax, hitem⟩
      have hstate : ((Builder.map key value s).half write).state = _ :=
        congrArg (Builder.map key value) hitem
      -- the writer got the whole buffer, and has kept to what is behind the limit
      have hframe := hwrite s.cursor.buffer s.cursor.limit s.cursor.maxLimit
      have hsize : (write s.cursor.buffer s.cursor.limit s.cursor.maxLimit).state.size =
          s.cursor.buffer.size := hframe.1
      have hroom : s.cursor.maxLimit ≤ s.cursor.buffer.size := hw.maxLimit_le
      refine ⟨⟨stop, hresult⟩, ?_⟩
      rw [written_of_ok hresult, hstate]
      have hlimit : stop = s.cursor.limit +
          ((write s.cursor.buffer s.cursor.limit s.cursor.maxLimit).state.segment
            s.cursor.limit stop).length := by
        rw [Buffer.length_segment _ (by omega)]
        omega
      refine ⟨⟨hframe.addressable hw.addressable, hsize ▸ hroom⟩, rfl, rfl, rfl, rfl, ?_, hmax, ?_,
        hframe⟩
      · rw [List.flatten_singleton]
        exact hlimit
      · exact (List.flatten_singleton).symm
  | _ => cases h

/-- An entry whose key fails fails with it, and the value is not tried. -/
theorem entry_of_key_error (h : (w.half writeKey).result = .error fault) :
    w.entry writeKey writeValue = ⟨.error fault, (w.half writeKey).state⟩ := by
  rw [entry_eq_halves, Outcome.andThen, h]

theorem entry_of_key_ok (h : (w.half writeKey).result = .ok ()) :
    w.entry writeKey writeValue = (w.half writeKey).state.half writeValue := by
  rw [entry_eq_halves, Outcome.andThen, h]

theorem key_of_entry_ok (h : (w.entry writeKey writeValue).result = .ok ()) :
    (w.half writeKey).result = .ok () := by
  cases hkey : (w.half writeKey).result with
  | error fault =>
      rw [entry_of_key_error hkey] at h
      cases h
  | ok _ => rfl

/-- An entry that succeeds has appended its key and then its value. -/
theorem entry_of_ok (hw : w.cursor.Valid) (hkey : HasEffect Buffer.SameOutside writeKey)
    (hvalue : HasEffect Buffer.SameOutside writeValue)
    (h : (w.entry writeKey writeValue).result = .ok ()) :
    w.Grows [w.written writeKey, (w.half writeKey).state.written writeValue]
      (w.entry writeKey writeValue).state := by
  have hfirst := key_of_entry_ok h
  have hgrows := (half_of_ok hw hkey hfirst).2
  rw [entry_of_key_ok hfirst] at h ⊢
  exact hgrows.trans (half_of_ok hgrows.valid hvalue h).2

/-- An entry whose value fails has appended its key. -/
theorem entry_of_value_error (hw : w.cursor.Valid) (hkey : HasEffect Buffer.SameOutside writeKey)
    (hvalue : HasEffect Buffer.SameOutside writeValue) (hfirst : (w.half writeKey).result = .ok ())
    (h : (w.entry writeKey writeValue).result = .error fault) :
    w.Grows [w.written writeKey] (w.entry writeKey writeValue).state := by
  have hgrows := (half_of_ok hw hkey hfirst).2
  rw [entry_of_key_ok hfirst] at h ⊢
  exact hgrows.trans (half_of_error hgrows.valid hgrows.limit_le hvalue h)

/-- An entry that fails has appended nothing if its key has failed, and otherwise its
    key. -/
theorem entry_of_error (hw : w.cursor.Valid) (hlimit : w.limit ≤ w.cursor.maxLimit)
    (hkey : HasEffect Buffer.SameOutside writeKey) (hvalue : HasEffect Buffer.SameOutside writeValue)
    (h : (w.entry writeKey writeValue).result = .error fault) :
    (w.half writeKey).result = .error fault ∧ w.Grows [] (w.entry writeKey writeValue).state ∨
      (w.half writeKey).result = .ok () ∧
        w.Grows [w.written writeKey] (w.entry writeKey writeValue).state := by
  cases hfirst : (w.half writeKey).result with
  | error fault' =>
      have hfailed := half_of_error hw hlimit hkey hfirst
      rw [entry_of_key_error hfirst] at h ⊢
      exact .inl ⟨h, hfailed⟩
  | ok _ => exact .inr ⟨rfl, entry_of_value_error hw hkey hvalue hfirst h⟩

end Halves

/-- What an entry leaves behind: its key and its value, its key alone if the value
    fails, and nothing if the key fails. -/
def remnants (w : Builder)
    (writeKey writeValue : Buffer → Nat → Nat → Outcome Refusal Buffer Nat) :
    List (Bytes × Option Bytes) :=
  match (w.half writeKey).result, (w.entry writeKey writeValue).result with
  | .error _, _ => []
  | .ok _, .error _ => [(w.written writeKey, none)]
  | .ok _, .ok _ => [(w.written writeKey, some ((w.half writeKey).state.written writeValue))]

/-- The runs of a map that is being built from entries, with what they leave behind.
    A run goes on after an entry that has failed. -/
inductive Entered (key value : Format) (depth : Nat) (started : Builder) :
    List (Bytes × Option Bytes) → Builder → Prop
  | start : Entered key value depth started [] started
  | entry {left : List (Bytes × Option Bytes)} {w : Builder}
      {writeKey writeValue : Buffer → Nat → Nat → Outcome Refusal Buffer Nat}
      (h : Entered key value depth started left w) (hkey : WritesFormat key depth writeKey)
      (hvalue : WritesFormat value depth writeValue) :
      Entered key value depth started (left ++ w.remnants writeKey writeValue)
        (w.entry writeKey writeValue).state

/-- Keys and values as the elements that they are. -/
def elements (left : List (Bytes × Option Bytes)) : List Bytes :=
  left.flatMap fun e => e.1 :: e.2.toList

section Runs

variable {key value : Format} {depth : Nat} {started w : Builder}
  {left : List (Bytes × Option Bytes)} {fault : Fault Refusal}
  {write writeKey writeValue : Buffer → Nat → Nat → Outcome Refusal Buffer Nat}

theorem elements_append (left left' : List (Bytes × Option Bytes)) :
    elements (left ++ left') = elements left ++ elements left' :=
  List.flatMap_append

theorem remnants_of_ok (h : (w.entry writeKey writeValue).result = .ok ()) :
    w.remnants writeKey writeValue =
      [(w.written writeKey, some ((w.half writeKey).state.written writeValue))] := by
  rw [remnants, key_of_entry_ok h, h]

theorem remnants_of_key_error (h : (w.half writeKey).result = .error fault) :
    w.remnants writeKey writeValue = [] := by
  rw [remnants, h]

theorem remnants_of_value_error (hfirst : (w.half writeKey).result = .ok ())
    (h : (w.entry writeKey writeValue).result = .error fault) :
    w.remnants writeKey writeValue = [(w.written writeKey, none)] := by
  rw [remnants, hfirst, h]

theorem isEncoding_written {format : Format} (h : WritesFormat format depth write)
    (hw : w.cursor.Valid) (hok : (w.half write).result = .ok ()) :
    format.IsEncoding (w.written write) := by
  rcases (half_of_ok hw h.sameOutside hok).1 with ⟨stop, hstop⟩
  rw [written_of_ok hstop]
  exact h.isEncoding hw.addressable hstop

/-- An entry appends what it leaves behind, and these are encodings. -/
theorem entry_grows (hw : w.cursor.Valid) (hlimit : w.limit ≤ w.cursor.maxLimit)
    (hkey : WritesFormat key depth writeKey) (hvalue : WritesFormat value depth writeValue) :
    w.Grows (elements (w.remnants writeKey writeValue)) (w.entry writeKey writeValue).state ∧
      ∀ e ∈ w.remnants writeKey writeValue,
        key.IsEncoding e.1 ∧ ∀ v, e.2 = some v → value.IsEncoding v := by
  cases hentry : (w.entry writeKey writeValue).result with
  | ok _ =>
      have hfirst := key_of_entry_ok hentry
      have hafter := (half_of_ok hw hkey.sameOutside hfirst).2
      rw [remnants_of_ok hentry]
      refine ⟨entry_of_ok hw hkey.sameOutside hvalue.sameOutside hentry,
        List.forall_mem_singleton.mpr ⟨isEncoding_written hkey hw hfirst, fun v hv => ?_⟩⟩
      rw [entry_of_key_ok hfirst] at hentry
      exact Option.some.inj hv ▸ isEncoding_written hvalue hafter.valid hentry
  | error fault =>
      rcases entry_of_error hw hlimit hkey.sameOutside hvalue.sameOutside hentry
        with ⟨hfirst, hgrows⟩ | ⟨hfirst, hgrows⟩
      · rw [remnants_of_key_error hfirst]
        exact ⟨hgrows, List.forall_mem_nil _⟩
      · rw [remnants_of_value_error hfirst hentry]
        refine ⟨hgrows, List.forall_mem_singleton.mpr
          ⟨isEncoding_written hkey hw hfirst, fun v hv => ?_⟩⟩
        cases hv

/-- What a run leaves behind are encodings, one after the other, each of them
    counted. -/
theorem Entered.grows (h : Entered key value depth started left w) (hs : started.cursor.Valid)
    (hlimit : started.limit ≤ started.cursor.maxLimit) :
    started.Grows (elements left) w ∧
      ∀ e ∈ left, key.IsEncoding e.1 ∧ ∀ v, e.2 = some v → value.IsEncoding v := by
  induction h with
  | start =>
      have hself := grows_onBuffer hs hlimit (.refl _ _ _)
      rw [onBuffer_self] at hself
      exact ⟨hself, List.forall_mem_nil _⟩
  | entry _ hkey hvalue ih =>
      rcases ih with ⟨hgrows, hleft⟩
      rcases entry_grows hgrows.valid hgrows.limit_le hkey hvalue with ⟨hentry, hremnants⟩
      rw [elements_append]
      exact ⟨hgrows.trans hentry, List.forall_mem_append.mpr ⟨hleft, hremnants⟩⟩

end Runs

end Builder

section Telling

namespace Format

variable {format key value : Format} {input : Bytes} {c : Content}

/-- Keys and values that can be told apart where they follow each other: one of them
    says where it ends, and if the other does not, it does not come without bytes. -/
def Separable (key value : Format) : Prop :=
  (key.isDelimited ∨ value.isDelimited ∧ value ≠ .emptyList) ∧
    (value.isDelimited ∨ key.isDelimited ∧ key ≠ .emptyList)

/-- An entry that was parsed from a key and a value, each from its first byte to its
    last. -/
def ParsedFrom (key value : Format) (e : Content × Content) (bytes : Bytes × Bytes) : Prop :=
  key.parse {} bytes.1 = some e.1 ∧ e.1.bytes = bytes.1 ∧
    value.parse {} bytes.2 = some e.2 ∧ e.2.bytes = bytes.2

/-- What says where it ends has bytes for that, except the empty list. -/
theorem parse_nil (hd : format.isDelimited) (hempty : format ≠ .emptyList) :
    format.parse {} [] = none := by
  cases format with
  | emptyList => exact absurd rfl hempty
  | octets => exact absurd hd Bool.false_ne_true
  | varstring => rfl
  | bounded width | string width =>
      cases width
      case zero => exact absurd hd Bool.false_ne_true
      all_goals rfl
  | fixed kind | varint kind => cases kind <;> rfl
  | list width | array width _ | map width _ _ => cases width <;> rfl

/-- What does not say where it ends takes all there is. -/
theorem bytes_of_undelimited (hd : ¬ format.isDelimited) (hinput : input.length ≤ Word.max)
    (h : format.parse {} input = some c) : c.bytes = input := by
  unfold isDelimited at hd
  split at hd
  · cases h
    rfl
  · cases h
    exact List.take_of_length_le hinput
  · cases h
    rfl
  · exact absurd rfl hd

theorem size_of_bytes {bytes : Bytes} (h : c.bytes = bytes) : c.size = bytes.length := by
  rw [Content.size, h]

/-- The key of an entry is found, and the value is looked for behind it. -/
theorem key_of_paired (hsep : Separable key value) {bytes tail : Bytes}
    (hlength : (bytes ++ tail).length ≤ Word.max) {k k' v : Content} {size : Nat}
    (hk : key.parse {} bytes = some k) (hbytes : k.bytes = bytes)
    (h : paired (key.parse {}) (value.parse {}) (bytes ++ tail) = some ((k', v), size)) :
    k' = k ∧ value.parse {} tail = some v ∧ size = bytes.length + v.size := by
  rcases Option.bind_eq_some_iff.mp h with ⟨k'', hk', h⟩
  rcases Option.bind_eq_some_iff.mp h with ⟨v', hv, h⟩
  cases h
  by_cases hd : key.isDelimited
  · rw [parse_append hd hk hbytes tail, Option.some.injEq] at hk'
    subst hk'
    rw [size_of_bytes hbytes, List.drop_left] at hv
    exact ⟨rfl, hv, by rw [size_of_bytes hbytes]⟩
  · -- the key takes everything, and there is no value in nothing
    rcases hsep.1.resolve_left hd with ⟨hvalue, hempty⟩
    rw [size_of_bytes (bytes_of_undelimited hd hlength hk'), List.drop_length,
      parse_nil hvalue hempty] at hv
    cases hv

/-- Keys and values that can be told apart are: if so many entries are found in
    encodings that follow each other, they are parsed from these. -/
theorem parseMany_pairs (hsep : Separable key value) (pairs : List (Bytes × Bytes))
    (hpairs : ∀ e ∈ pairs, key.IsEncoding e.1 ∧ value.IsEncoding e.2)
    (hlength : (pairs.flatMap fun e => e.1 ++ e.2).length ≤ Word.max)
    {entries : List (Content × Content)}
    (h : parseMany (paired (key.parse {}) (value.parse {})) pairs.length
      (pairs.flatMap fun e => e.1 ++ e.2) = some entries) :
    List.Forall₂ (ParsedFrom key value) entries pairs := by
  induction pairs generalizing entries with
  | nil =>
      cases h
      exact .nil
  | cons e rest ih =>
      rw [List.flatMap_cons, List.append_assoc] at hlength h
      rw [List.length_cons, parseMany] at h
      rcases Option.bind_eq_some_iff.mp h with ⟨⟨⟨k', v'⟩, size⟩, hnext, h⟩
      rcases Option.bind_eq_some_iff.mp h with ⟨others, hothers, h⟩
      cases h
      rcases hpairs e List.mem_cons_self with ⟨⟨k, hk, hkbytes⟩, v, hv, hvbytes⟩
      rcases key_of_paired hsep hlength hk hkbytes hnext with ⟨rfl, hv', rfl⟩
      rw [List.length_append, List.length_append] at hlength
      rw [← List.drop_drop, List.drop_left] at hothers
      by_cases hd : value.isDelimited
      · rw [parse_append hd hv hvbytes, Option.some.injEq] at hv'
        subst hv'
        rw [size_of_bytes hvbytes, List.drop_left] at hothers
        refine .cons ⟨hk, hkbytes, hv, hvbytes⟩ (ih ?_ (by omega) hothers)
        exact fun e' he' => hpairs e' (List.mem_cons_of_mem e he')
      · -- the value takes all that follows, and there is no key in nothing
        have hall := bytes_of_undelimited hd (by rw [List.length_append]; omega) hv'
        rw [size_of_bytes hall, List.drop_length] at hothers
        cases rest with
        | nil =>
            cases hothers
            rw [List.flatMap_nil, List.append_nil] at hv' hall
            exact .cons ⟨hk, hkbytes, hv', hall⟩ .nil
        | cons e' rest =>
            rcases hsep.2.resolve_left hd with ⟨hkey, hempty⟩
            rcases Option.bind_eq_some_iff.mp hothers with ⟨_, hnext, _⟩
            rcases Option.bind_eq_some_iff.mp hnext with ⟨_, hnone, _⟩
            rw [parse_nil hkey hempty] at hnone
            cases hnone

end Format

end Telling

section Builds

variable {b : Buffer} {o m : Nat} {width : SequenceWidth} {key value : Format} {count : Nat}
  {fields : Bytes} {started w : Builder} {elements : List Bytes} {r : Reader}

/-- What a map is parsed from is the number of its elements and their bytes. -/
theorem Format.parse_map_framed (hfits : FramedFits width count fields) {c : Content}
    (h : (Format.map width key value).parse {} (framed width count fields) = some c) :
    count % 2 = 0 ∧
      parseMany (paired (key.parse {}) (value.parse {})) (count / 2) fields = some c.entries := by
  rw [parse, parseSequence_framed hfits, Option.bind_eq_bind, Option.bind_some] at h
  by_cases hodd : count % 2 ≠ 0
  · rw [if_pos hodd] at h
    cases h
  · rw [if_neg hodd] at h
    rcases Option.bind_eq_some_iff.mp h with ⟨entries, hentries, h⟩
    cases h
    exact ⟨by omega, hentries⟩

/-- A builder is known by its cursor, its count and its fields. -/
theorem Sequence.Builder.eq_holding (s : Sequence.Builder) (fields : Bytes)
    (hlimit : s.cursor.limit = s.cursor.offset + 2 * s.width.size + fields.length)
    (hfields : s.cursor.buffer.segment (s.cursor.offset + 2 * s.width.size) s.cursor.limit =
      fields) :
    s = holding s.cursor.buffer s.cursor.offset s.cursor.maxLimit s.width s.count fields := by
  rw [hlimit] at hfields
  rw [holding, Buffer.overwrite_segment hfields, ← hlimit]

namespace Builder

theorem map_of_start (hb : b.Addressable)
    (h : (Format.map width key value).start b o m = .ok started) :
    started = .map key value (Sequence.Builder.holding b o m width 0 []) ∧
      o + 2 * width.size ≤ m ∧ m ≤ b.size := by
  have hopens := (fresh_of_start started h).opens
  rcases Checked.map_eq_ok.mp h with ⟨s, hs, rfl⟩
  rcases (Sequence.Builder.wrap_exactly hb hopens.offset_le hopens.maxLimit_le width).of_eq_ok hs
    with ⟨hroom, rfl⟩
  exact ⟨rfl, hroom, hopens.maxLimit_le⟩

/-- A map that has grown from nothing holds the elements. -/
theorem Grows.holding
    (h : (Builder.map key value (Sequence.Builder.holding b o m width 0 [])).Grows elements w) :
    w = .map key value
      (Sequence.Builder.holding w.cursor.buffer o m width elements.length elements.flatten) := by
  have hformat := h.format
  cases w with
  | map k v s =>
      cases hformat
      rcases h with ⟨_, _, rfl, rfl, hcount, hlimit, _, hbytes, _⟩
      have hheld := s.eq_holding elements.flatten hlimit hbytes
      have hlength : s.count = elements.length := hcount.trans (Nat.zero_add _)
      rw [hlength] at hheld
      exact congrArg (Builder.map key value) hheld
  | _ => cases hformat

/-- The entries of a built map are what the bytes of its elements are parsed to, and
    an odd number of elements is not built. -/
theorem entries_of_build (hb : b.Addressable) (hm : m ≤ b.size)
    (hroom : o + 2 * width.size + fields.length ≤ m)
    (h : (Builder.map key value
      (Sequence.Builder.holding b o m width count fields)).build.result = .ok r) :
    count % 2 = 0 ∧ ∃ c, r.content = .ok c ∧
      Format.parseMany (Format.paired (key.parse {}) (value.parse {})) (count / 2) fields =
        some c.entries := by
  have hfinish := Sequence.Builder.finish_exactly hb hm width count fields hroom
  rw [build] at h
  cases hcursor : (Sequence.Builder.holding b o m width count fields).finish with
  | error fault =>
      rw [hcursor] at h
      cases h
  | ok cursor =>
      rw [hcursor] at h
      rcases hfinish.of_eq_ok hcursor with ⟨hfits, rfl⟩
      have hlength := Format.length_framed width count fields
      have hwrap : (Format.map width key value).wrap
          (b.overwrite o (Format.framed width count fields)) {} o
            (o + (Format.framed width count fields).length) = .ok r := by
        rw [hlength, ← Nat.add_assoc]
        exact h
      rcases Format.wrap_eq_ok (hb.overwrite _ _) hwrap with ⟨c, hparse, _, _, _, _, _, _, hcontent⟩
      rw [b.segment_overwrite (by omega)] at hparse
      rcases Format.parse_map_framed hfits hparse with ⟨heven, hentries⟩
      exact ⟨heven, c, hcontent, hentries⟩

theorem length_elements_pairs (pairs : List (Bytes × Bytes)) :
    (Builder.elements (pairs.map fun e => (e.1, some e.2))).length = 2 * pairs.length := by
  induction pairs with
  | nil => rfl
  | cons e rest ih =>
      rw [List.map_cons, ← List.singleton_append, elements_append, List.length_append, ih,
        List.length_cons, Nat.mul_succ]
      exact Nat.add_comm 2 _

theorem flatten_elements_pairs (pairs : List (Bytes × Bytes)) :
    (Builder.elements (pairs.map fun e => (e.1, some e.2))).flatten =
      pairs.flatMap fun e => e.1 ++ e.2 := by
  induction pairs with
  | nil => rfl
  | cons e rest ih =>
      rw [List.map_cons, ← List.singleton_append, elements_append, List.flatten_append, ih,
        List.flatMap_cons]
      exact congrArg (· ++ _) (congrArg (e.1 ++ ·) (List.append_nil e.2))

/-- What is built after a run is parsed from what the run has left behind. If every
    key was left with its value, these are the entries. -/
theorem Entered.build (hb : b.Addressable)
    (hstart : (Format.map width key value).start b o m = .ok started) {depth : Nat}
    {left : List (Bytes × Option Bytes)} (h : Entered key value depth started left w)
    (hr : w.build.result = .ok r) :
    (Builder.elements left).length % 2 = 0 ∧ ∃ c, r.content = .ok c ∧
      Format.parseMany (Format.paired (key.parse {}) (value.parse {}))
        ((Builder.elements left).length / 2) (Builder.elements left).flatten = some c.entries ∧
      ∀ pairs, left = pairs.map (fun e => (e.1, some e.2)) → Format.Separable key value →
        List.Forall₂ (Format.ParsedFrom key value) c.entries pairs := by
  rcases map_of_start hb hstart with ⟨rfl, hroom, hm⟩
  rcases h.grows (Sequence.Builder.valid_holding hb hm o width 0 []) hroom with ⟨hgrows, hleft⟩
  have hlimit : w.limit = o + 2 * width.size + (Builder.elements left).flatten.length :=
    hgrows.limit
  have hmax : w.cursor.maxLimit = m := hgrows.maxLimit
  have hwithin : w.limit ≤ m := hmax ▸ hgrows.limit_le
  have hsize : m ≤ w.cursor.buffer.size := hmax ▸ hgrows.valid.maxLimit_le
  have haddress : w.cursor.buffer.size < 2 ^ (63 : Nat) := hgrows.valid.addressable
  rw [hgrows.holding] at hr
  rcases entries_of_build hgrows.valid.addressable hsize (hlimit ▸ hwithin) hr
    with ⟨heven, c, hcontent, hentries⟩
  refine ⟨heven, c, hcontent, hentries, fun pairs hpairs hsep => ?_⟩
  -- with a value behind every key there are as many entries as pairs
  subst hpairs
  rw [length_elements_pairs, Nat.mul_div_cancel_left _ Nat.two_pos, flatten_elements_pairs]
    at hentries
  rw [flatten_elements_pairs] at hlimit
  refine Format.parseMany_pairs hsep pairs (fun e he => ?_) ?_ hentries
  · have hencoded := hleft _ (List.mem_map_of_mem he)
    exact ⟨hencoded.1, hencoded.2 e.2 rfl⟩
  · unfold Word.max
    omega

/-- An entry is not appended as a whole. If it succeeds, its key and its value are
    appended and counted; if it fails, limit and count are as before if and only if
    the key has failed, and otherwise the key is left behind and counted. So what a
    run of entries leaves behind is one sequence of keys and values, and that is what
    a map is built from: never of an odd number, and with the entries that succeeded
    if no value has failed behind its key and the formats can be told apart. -/
theorem failed_value_leaves_key (hb : b.Addressable) (depth : Nat) :
    (∀ w writeKey writeValue, Reached (WritesWithin depth) b o m w →
      HasEffect (WritesWithin depth) writeKey → HasEffect (WritesWithin depth) writeValue →
      ((w.entry writeKey writeValue).result = .ok () →
        w.Grows [w.written writeKey, (w.half writeKey).state.written writeValue]
          (w.entry writeKey writeValue).state) ∧
      ∀ fault, (w.entry writeKey writeValue).result = .error fault →
        (((w.entry writeKey writeValue).state.limit = w.limit ∧
            (w.entry writeKey writeValue).state.fieldCount = w.fieldCount) ↔
          (w.half writeKey).result = .error fault) ∧
        ((w.half writeKey).result = .error fault ∧
            w.Grows [] (w.entry writeKey writeValue).state ∨
          (w.half writeKey).result = .ok () ∧
            w.Grows [w.written writeKey] (w.entry writeKey writeValue).state)) ∧
    ∀ width key value started left w, (Format.map width key value).start b o m = .ok started →
      Entered key value depth started left w →
      started.Grows (Builder.elements left) w ∧
      ∀ r, w.build.result = .ok r →
        (Builder.elements left).length % 2 = 0 ∧ ∃ c, r.content = .ok c ∧
          Format.parseMany (Format.paired (key.parse {}) (value.parse {}))
            ((Builder.elements left).length / 2) (Builder.elements left).flatten =
              some c.entries ∧
          ∀ pairs, left = pairs.map (fun e => (e.1, some e.2)) → Format.Separable key value →
            List.Forall₂ (Format.ParsedFrom key value) c.entries pairs := by
  refine ⟨fun w writeKey writeValue hreached hkey hvalue => ?_,
    fun width key value started left w hstart h => ?_⟩
  · have hframed := hreached.framed (WritesWithin.sameOutside depth)
    have hw := hreached.valid (WritesWithin.sameOutside depth) hb
    have hlimit : w.limit ≤ w.cursor.maxLimit := hframed.maxLimit.symm ▸ hframed.limit_le
    have hkey' := hkey.imp (WritesWithin.sameOutside depth)
    have hvalue' := hvalue.imp (WritesWithin.sameOutside depth)
    refine ⟨entry_of_ok hw hkey' hvalue', fun fault herror => ?_⟩
    have hcases := entry_of_error hw hlimit hkey' hvalue' herror
    refine ⟨⟨fun hkept => ?_, fun hfailed => ?_⟩, hcases⟩
    · rcases hcases with ⟨hfailed, _⟩ | ⟨_, hgrows⟩
      · exact hfailed
      · -- a key without bytes leaves the limit alone, but it is counted
        have hcount := hgrows.fieldCount
        rw [hkept.2] at hcount
        exact absurd hcount (Nat.ne_of_lt (Nat.lt_succ_self _))
    · rcases hcases with ⟨_, hgrows⟩ | ⟨hok, _⟩
      · exact ⟨hgrows.limit, hgrows.fieldCount⟩
      · rw [hok] at hfailed
        cases hfailed
  · rcases map_of_start hb hstart with ⟨rfl, hroom, hm⟩
    have hgrows := (h.grows (Sequence.Builder.valid_holding hb hm o width 0 []) hroom).1
    exact ⟨hgrows, fun r hr => h.build hb hstart hr⟩

/-- A byte, or a byte that its builder forgets to set. -/
def byteOf (n : Option Int) : Element :=
  .built (.fixed .uint8) {} (n.toList.map .set)

theorem nestsWithin_byteOf (n : Option Int) (depth : Nat) : (byteOf n).NestsWithin (depth + 1) := by
  intro s hs e he
  rcases List.mem_map.mp hs with ⟨_, _, rfl⟩
  cases he

/-- A map from bytes to bytes, with nothing in it and room for four. -/
def emptyMap : Builder :=
  .map (.fixed .uint8) (.fixed .uint8) ⟨.eight, ⟨.ofBytes (List.replicate 6 0), 0, 6, 2⟩, 0⟩

-- A value that is not set leaves its key behind. A key that is not set leaves
-- nothing, and the entry after it is the first.
theorem failed_value_leaves_key_unset :
    emptyMap.Grows [[1]]
        (emptyMap.entry (byteOf (some 1)).write (byteOf none).write).state ∧
      ∃ c, ((emptyMap.entry (byteOf none).write (byteOf (some 9)).write).state.entry
          (byteOf (some 1)).write (byteOf (some 2)).write).state.build.result >>= Reader.content =
            .ok c ∧
        List.Forall₂ (Format.ParsedFrom (.fixed .uint8) (.fixed .uint8)) c.entries
          [([1], [2])] := by
  have hb : (Buffer.ofBytes (List.replicate 6 0)).Addressable := by
    unfold Buffer.Addressable
    decide
  have hstart : (Format.map .eight (.fixed .uint8) (.fixed .uint8)).start
      (.ofBytes (List.replicate 6 0)) 0 6 = .ok emptyMap := rfl
  have heffect (n : Option Int) := Element.hasEffect_write (nestsWithin_byteOf n 0)
  have hformat (n : Option Int) : WritesFormat (.fixed .uint8) 1 (byteOf n).write :=
    Element.writesFormat (nestsWithin_byteOf n 1)
  refine ⟨?_, ?_⟩
  · have hstep := ((failed_value_leaves_key hb 1).1 emptyMap _ _ (.start hstart)
      (heffect (some 1)) (heffect none)).2 (.refused .valueNotSet) rfl
    rcases hstep.2 with ⟨hkey, _⟩ | ⟨_, hgrows⟩
    · cases hkey
    · exact hgrows
  · have hbegun : Entered (.fixed .uint8) (.fixed .uint8) 1 emptyMap [] emptyMap := .start
    have hrun := (hbegun.entry (hformat none) (hformat (some 9))).entry (hformat (some 1))
      (hformat (some 2))
    rcases ((failed_value_leaves_key hb 1).2 _ _ _ emptyMap _ _ hstart hrun).2 _ rfl
      with ⟨_, c, hcontent, _, hentries⟩
    exact ⟨c, hcontent, hentries [([1], [2])] rfl ⟨.inl rfl, .inl rfl⟩⟩

-- Two values that are not set: the second key becomes the value of the first.
theorem unset_values_make_entry :
    (emptyMap.entry (byteOf (some 1)).write (byteOf none).write).result =
        .error (.refused .valueNotSet) ∧
      ((emptyMap.entry (byteOf (some 1)).write (byteOf none).write).state.entry
        (byteOf (some 2)).write (byteOf none).write).result = .error (.refused .valueNotSet) ∧
      (((emptyMap.entry (byteOf (some 1)).write (byteOf none).write).state.entry
        (byteOf (some 2)).write (byteOf none).write).state.build.result >>= Reader.content).map
          (fun c => c.entries.map fun e => (e.1.bytes, e.2.bytes)) = .ok [([1], [2])] := by
  refine ⟨rfl, rfl, rfl⟩

end Builder

end Builds

end Wireform
