import Wireform.Proofs.Reading

/-!
# Elements Follow the Parser

Arrays and maps of any depth, and with them every format.

An array is bound with the strict entry point, which walks over its elements
and keeps only where they end, and it is read with the speculative one, which
produces the elements again. Both start from the same step, `Format.element`:
the walk forgets the reader and keeps the position, and the production is the
step with its refusals read as absence. The second holds because the two entry
points of every format agree (`Format.tryWrap_eq`), although each family has
code of its own for either.

`elements_follow` then runs the walk, the production and the parser side by
side, by induction on the number of elements. It is stated for an arbitrary
step, since an entry of a map is a step as well: that of its key followed by
that of its value. `Format.wrap_follows` is the induction on the format.

## Main definitions

* `Format.element`, `Format.entry`: One element, or one entry, and the
  position past it.
* `StepFollows`: A step has the outcome of parsing one element.

## Theorems

* `Format.tryWrap_eq`: The speculative entry point is the strict one without
  the cause.
* `elements_follow`: Walking over elements, producing them and parsing them
  keep in step.
* `Format.wrap_follows`: Binding a reader follows the reference parser.
* `Format.wrap_eq_ok`: What a bound reader is.
* `Format.wrap_ok_or_refuses`: Binding a reader never stops.
-/

namespace Wireform

section EntryPoints

variable {b : Buffer} {o m : Nat}

theorem FixedInt.Reader.tryWrap_eq (hb : b.Addressable) (kind : FixedInt) (order : ByteOrder) :
    .ok (tryWrap kind order b o m) = Checked.speculate (wrap kind order b o m) := by
  unfold Buffer.Addressable at hb
  have hwidth : kind.width ≤ 8 := by cases kind <;> decide
  rw [tryWrap, wrap]
  by_cases h : o ≤ m ∧ m ≤ b.size
  · rw [Window.tryWrap_of_le h.1 h.2, Window.wrap_of_le h.1 h.2, Checked.ok_bind,
      Word.add_of_lt (by omega), Checked.ok_bind]
    simp only []
    by_cases hroom : o + kind.width ≤ m
    · rw [if_neg (by simp only [Window.remaining]; omega), checkLimit_of_le hroom]
      rfl
    · rw [if_pos (by simp only [Window.remaining]; omega),
        Checked.speculate_of_refuses ((checkLimit_refuses (by omega)).bind _)]
  · rw [Window.tryWrap_of_not h,
      Checked.speculate_of_refuses ((Window.wrap_refuses h).bind _)]

theorem VarInt.Reader.tryWrap_eq (hb : b.Addressable) (kind : VarInt) :
    tryWrap kind b o m = Checked.speculate (wrap kind b o m) := by
  have hb' : b.size < 2 ^ (63 : Nat) := hb
  rw [tryWrap, wrap]
  by_cases h : o ≤ m ∧ m ≤ b.size
  · rw [Window.tryWrap_of_le h.1 h.2, Window.wrap_of_le h.1 h.2, Checked.ok_bind,
      Word.add_of_lt (by omega), Checked.ok_bind]
    simp only []
    -- both ask for one byte first, one by what remains and one by the limit
    by_cases hone : o + 1 ≤ m
    · rw [if_neg (by simp only [Window.remaining]; omega), checkLimit_of_le hone,
        Checked.ok_bind, kind.scan_eq hb h.1 h.2, Checked.ok_bind, Checked.ok_bind]
      rcases kind.scanBytes (b.segment o m) with size | _ | _
      · rfl
      · simp only []
        rw [Word.add_of_lt (by omega)]
        rfl
      · rfl
    · rw [if_pos (by simp only [Window.remaining]; omega),
        Checked.speculate_of_refuses ((checkLimit_refuses (by omega)).bind _)]
  · rw [Window.tryWrap_of_not h,
      Checked.speculate_of_refuses ((Window.wrap_refuses h).bind _)]

theorem Window.tryWrap_eq : .ok (tryWrap b o m) = Checked.speculate (wrap b o m) := by
  by_cases h : o ≤ m ∧ m ≤ b.size
  · rw [tryWrap_of_le h.1 h.2, wrap_of_le h.1 h.2]
    rfl
  · rw [tryWrap_of_not h, Checked.speculate_of_refuses (wrap_refuses h)]

theorem Octets.Reader.tryWrap_eq : .ok (tryWrap b o m) = Checked.speculate (wrap b o m) := by
  rw [wrap, Checked.speculate_bind, ← Window.tryWrap_eq, tryWrap]
  cases Window.tryWrap b o m <;> rfl

-- The prefixed families bind the window and measure the prefix in it, and
-- only the two window checks are written differently.
theorem Bounded.Reader.tryWrap_eq (width : Width) (bound : Nat) :
    tryWrap width bound b o m = Checked.speculate (wrap width bound b o m) := by
  rw [wrap, Checked.speculate_bind, ← Window.tryWrap_eq, tryWrap]
  cases Window.tryWrap b o m with
  | none => rfl
  | some window => exact (Checked.speculate_map (measure width bound window) _).symm

theorem Strings.Reader.tryWrap_eq (width : Width) :
    tryWrap width b o m = Checked.speculate (wrap width b o m) := by
  rw [wrap, Checked.speculate_bind, ← Window.tryWrap_eq, tryWrap]
  cases Window.tryWrap b o m with
  | none => rfl
  | some window => exact (Checked.speculate_map (measure width window) _).symm

theorem VarStrings.Reader.tryWrap_eq : tryWrap b o m = Checked.speculate (wrap b o m) := by
  rw [wrap, Checked.speculate_bind, ← Window.tryWrap_eq, tryWrap]
  cases Window.tryWrap b o m with
  | none => rfl
  | some window => exact (Checked.speculate_map (measure window) _).symm

theorem Sequence.tryWrap_eq (width : SequenceWidth) :
    tryWrap width b o m = Checked.speculate (wrap width b o m) := by
  rw [wrap, Checked.speculate_bind, ← Window.tryWrap_eq, tryWrap]
  cases Window.tryWrap b o m <;> rfl

/-- The speculative entry point is the strict one without the cause. -/
theorem Format.tryWrap_eq (hb : b.Addressable) (format : Format) (settings : Settings) :
    format.tryWrap b settings o m = Checked.speculate (format.wrap b settings o m) := by
  cases format with
  | fixed kind =>
      rw [wrap, Checked.speculate_map, ← FixedInt.Reader.tryWrap_eq hb]
      rfl
  | varint kind =>
      rw [wrap, Checked.speculate_map, ← VarInt.Reader.tryWrap_eq hb]
      rfl
  | octets =>
      rw [wrap, Checked.speculate_map, ← Octets.Reader.tryWrap_eq]
      rfl
  | bounded width =>
      rw [wrap, Checked.speculate_map, ← Bounded.Reader.tryWrap_eq]
      rfl
  | string width =>
      rw [wrap, Checked.speculate_map, ← Strings.Reader.tryWrap_eq]
      rfl
  | varstring =>
      rw [wrap, Checked.speculate_map, ← VarStrings.Reader.tryWrap_eq]
      rfl
  | emptyList =>
      rw [wrap, Checked.speculate_map, ← Window.tryWrap_eq]
      rfl
  | list width =>
      rw [wrap, Checked.speculate_map, ← Sequence.tryWrap_eq]
      rfl
  | array width item =>
      rw [wrap, Checked.speculate_bind, ← Sequence.tryWrap_eq, tryWrap]
      refine congrArg _ (funext fun found => ?_)
      cases found with
      | none => rfl
      | some s => exact (Checked.speculate_map (Sequence.walk (item.past b s.limit) _ _) _).symm
  | map width key value =>
      rw [wrap, Checked.speculate_bind, ← Sequence.tryWrap_eq, tryWrap]
      refine congrArg _ (funext fun found => ?_)
      cases found with
      | none => rfl
      | some s =>
          simp only []
          by_cases hodd : s.count % 2 ≠ 0
          · rw [if_pos hodd, if_pos hodd]
            rfl
          · rw [if_neg hodd, if_neg hodd]
            exact (Checked.speculate_map
              (Sequence.walk (pastEntry b key value s.limit) _ _) _).symm

end EntryPoints

section Elements

/-- The value of the format at a position, and the position past it. -/
def Format.element (b : Buffer) (format : Format) (limit position : Nat) :
    Checked Refusal (Reader × Nat) :=
  (fun r => (r, r.limit)) <$> format.wrap b {} position limit

/-- The entry at a position, and the position past it. -/
def Format.entry (b : Buffer) (key value : Format) (limit position : Nat) :
    Checked Refusal ((Reader × Reader) × Nat) := do
  let (k, pastKey) ← key.element b limit position
  let (v, pastValue) ← value.element b limit pastKey
  return ((k, v), pastValue)

theorem Format.past_eq (b : Buffer) (format : Format) (limit position : Nat) :
    format.past b limit position = Prod.snd <$> format.element b limit position := by
  rw [past, element]
  cases format.wrap b {} position limit <;> rfl

theorem Format.pastEntry_eq (b : Buffer) (key value : Format) (limit position : Nat) :
    pastEntry b key value limit position = Prod.snd <$> Format.entry b key value limit position := by
  simp only [pastEntry, past_eq, entry]
  rcases key.element b limit position with _ | ⟨k, pastKey⟩
  · rfl
  · -- the key was there, so the outcome is that of the value
    simp only [Checked.ok_map, Checked.ok_bind]
    cases value.element b limit pastKey <;> rfl

theorem Reader.elementAt_eq {s : Sequence} (hb : s.window.buffer.Addressable) (format : Format)
    (position : Nat) :
    elementAt s format position =
      Checked.speculate (format.element s.window.buffer s.limit position) := by
  rw [elementAt, Format.tryWrap_eq hb, Format.element, Checked.speculate_map]
  rfl

theorem Reader.entryAt_eq {s : Sequence} (hb : s.window.buffer.Addressable)
    (key value : Format) (position : Nat) :
    entryAt s key value position =
      Checked.speculate (Format.entry s.window.buffer key value s.limit position) := by
  simp only [entryAt, elementAt_eq hb, Format.entry]
  rcases key.element s.window.buffer s.limit position with (cause | _) | ⟨k, pastKey⟩
  · rfl
  · rfl
  · simp only [Checked.speculate_ok, Checked.ok_bind]
    rcases value.element s.window.buffer s.limit pastKey with (cause | _) | ⟨v, pastValue⟩ <;> rfl

/-- The step at a position has the outcome of a parse: it refuses where
    nothing was found, and otherwise it moves past what was found, which `tell`
    reads out of what the step yields. -/
def StepFollows {α γ : Type} (next : Nat → Checked Refusal (α × Nat))
    (tell : α → Checked Refusal γ) (position limit : Nat) : Option (γ × Nat) → Prop
  | none => (next position).Refuses
  | some (c, size) => ∃ a, next position = .ok (a, position + size) ∧
      position + size ≤ limit ∧ tell a = .ok c

/-- Walking over elements and producing them has the outcome of a parse. -/
def ElementsFollow {α γ : Type} (next : Nat → Checked Refusal (α × Nat))
    (tell : α → Checked Refusal γ) (count position : Nat) : Option (List γ) → Prop
  | none => (Sequence.walk (fun p => Prod.snd <$> next p) count position).Refuses
  | some cs => (∃ stop, Sequence.walk (fun p => Prod.snd <$> next p) count position = .ok stop) ∧
      ∃ as, Reader.produce (fun p => Checked.speculate (next p)) count position = .ok as ∧
        as.mapM tell = .ok cs

/-- If every step follows a parser of one element, then walking over any number
    of elements and producing them follows the parser of that many. -/
theorem elements_follow {α γ : Type} {b : Buffer} {limit : Nat}
    {next : Nat → Checked Refusal (α × Nat)} {tell : α → Checked Refusal γ}
    (parse : Bytes → Option (γ × Nat))
    (hstep : ∀ p, p ≤ limit → StepFollows next tell p limit (parse (b.segment p limit)))
    (count position : Nat) (h : position ≤ limit) :
    ElementsFollow next tell count position
      (Format.parseMany parse count (b.segment position limit)) := by
  induction count generalizing position with
  | zero => exact ⟨⟨position, rfl⟩, [], rfl, rfl⟩
  | succ count ih =>
      have hfirst := hstep position h
      rw [Format.parseMany]
      rcases hparse : parse (b.segment position limit) with _ | ⟨c, size⟩
      · rw [hparse] at hfirst
        exact (hfirst.map _).bind _
      · rw [hparse] at hfirst
        rcases hfirst with ⟨a, hnext, hle, htell⟩
        -- the rest starts where the first element ends, in the same window
        have hrest := ih (position + size) hle
        simp only [Option.bind_eq_bind, Option.bind_some]
        rw [b.segment_drop]
        rcases hmany : Format.parseMany parse count (b.segment (position + size) limit) with _ | cs
        · rw [hmany] at hrest
          simp only [Option.bind_none, ElementsFollow, Sequence.walk, hnext, Checked.ok_map,
            Checked.ok_bind]
          exact hrest
        · rw [hmany] at hrest
          rcases hrest with ⟨⟨stop, hwalk⟩, as, hproduce, htells⟩
          refine ⟨⟨stop, ?_⟩, a :: as, ?_, ?_⟩
          · rw [Sequence.walk, hnext]
            exact hwalk
          · rw [Reader.produce, hnext]
            simp only [Checked.speculate_ok, Checked.ok_bind, hproduce]
            rfl
          · rw [List.mapM_cons, htell, Checked.ok_bind, htells]
            rfl

/-- Every binding of the format to a window of the buffer follows the parser. -/
def WrapFollows (b : Buffer) (format : Format) : Prop :=
  ∀ settings o m, o ≤ m → m ≤ b.size →
    Follows b format o m (format.wrap b settings o m) (format.parse settings (b.segment o m))

variable {b : Buffer} {limit : Nat}

theorem element_follows (hlimit : limit ≤ b.size) {format : Format} (h : WrapFollows b format)
    (position : Nat) (hp : position ≤ limit) :
    StepFollows (format.element b limit) format.contentOf position limit
      (Format.sized (format.parse {}) (b.segment position limit)) := by
  have hwrap := h {} position limit hp hlimit
  rw [Format.sized]
  rcases hparse : format.parse {} (b.segment position limit) with _ | c
  · rw [hparse] at hwrap
    exact hwrap.map _
  · rw [hparse] at hwrap
    rcases hwrap with ⟨r, hr, _, _, hend, hle, hcontent⟩
    refine ⟨r, ?_, hle, hcontent⟩
    rw [Format.element, hr, ← hend]
    rfl

theorem entry_follows (hlimit : limit ≤ b.size) {key value : Format} (hk : WrapFollows b key)
    (hv : WrapFollows b value) (position : Nat) (hp : position ≤ limit) :
    StepFollows (Format.entry b key value limit)
      (fun e => do
        let k ← key.contentOf e.1
        let v ← value.contentOf e.2
        return (k, v))
      position limit
      (Format.paired (key.parse {}) (value.parse {}) (b.segment position limit)) := by
  have hfirst := element_follows hlimit hk position hp
  rw [Format.sized] at hfirst
  rw [Format.paired]
  rcases hkey : key.parse {} (b.segment position limit) with _ | k
  · rw [hkey] at hfirst
    exact hfirst.bind _
  · rw [hkey] at hfirst
    rcases hfirst with ⟨rk, hnextKey, hpast, htellKey⟩
    -- the value is read from where the key ends
    have hsecond := element_follows hlimit hv (position + k.size) hpast
    rw [Format.sized] at hsecond
    simp only [Option.bind_eq_bind, Option.bind_some]
    rw [b.segment_drop]
    rcases hvalue : value.parse {} (b.segment (position + k.size) limit) with _ | v
    · rw [hvalue] at hsecond
      simp only [Option.bind_none, StepFollows, Format.entry, hnextKey, Checked.ok_bind]
      exact hsecond.bind _
    · rw [hvalue] at hsecond
      rcases hsecond with ⟨rv, hnextValue, hle, htellValue⟩
      refine ⟨(rk, rv), ?_, by omega, ?_⟩
      · rw [Format.entry, hnextKey, Checked.ok_bind]
        simp only []
        rw [hnextValue, Nat.add_assoc]
        rfl
      · simp only [htellKey, htellValue, Checked.ok_bind]
        rfl

/-- What an array or a map tells without its elements. -/
theorem Sequence.shell_eq {r : Reader} {s : Sequence} {o m : Nat} (hm : m ≤ b.size)
    (hw : s.window = ⟨b, o, m⟩) (hlo : s.fieldsOffset ≤ s.limit) (hhi : s.limit ≤ m)
    (hrw : r.window = s.window) (hlimit : r.limit = s.limit) (hcount : r.fieldCount = s.count)
    (hn : r.number = .ok none) (hp : r.payload = .ok none) (hf : r.fields = s.fields) :
    r.shell = .ok { bytes := b.segment o s.limit, count := s.count,
                    fields := b.segment s.fieldsOffset s.limit } := by
  have hoffset : s.window.offset = o := by rw [hw]
  have hbuffer : s.window.buffer = b := by rw [hw]
  have hfields : r.fields = .ok (b.segment s.fieldsOffset s.limit) := by
    rw [hf, Sequence.fields, hbuffer, b.slice_eq hlo (by omega)]
  have hstart : r.offset = o := by rw [Reader.offset, hrw, hoffset]
  have hfirst : o ≤ s.fieldsOffset := by rw [Sequence.fieldsOffset, hoffset]; omega
  rw [Reader.shell_eq (by omega) (by rw [hrw, hbuffer]; omega) hn hp hfields, hrw, hbuffer,
    hstart, hlimit, hcount]

/-- A list-shaped reader follows a parse that holds its prefixes and what was
    read of its elements. -/
theorem follows_of_sequence {r : Reader} {s : Sequence} {o m : Nat} {format : Format}
    {items : List Content} {entries : List (Content × Content)} (hm : m ≤ b.size)
    (hw : s.window = ⟨b, o, m⟩) (hlo : s.fieldsOffset ≤ s.limit) (hhi : s.limit ≤ m)
    (hrw : r.window = s.window) (hlimit : r.limit = s.limit) (hformat : r.format = format)
    (hcontent : format.contentOf r =
      .ok { bytes := b.segment o s.limit, count := s.count,
            fields := b.segment s.fieldsOffset s.limit, items, entries }) :
    Follows b format o m (.ok r)
      (some { bytes := b.segment o s.limit, count := s.count,
              fields := b.segment s.fieldsOffset s.limit, items, entries }) := by
  have hfirst : o ≤ s.fieldsOffset := by
    rw [Sequence.fieldsOffset, hw]
    exact Nat.le_add_right _ _
  have hsize : o + (b.segment o s.limit).length = s.limit := by
    rw [b.length_segment (by omega)]
    omega
  refine ⟨r, rfl, hrw.trans hw, hformat, ?_, ?_, hcontent⟩
  · rw [Content.size, hsize, hlimit]
  · rw [Content.size, hsize]
    exact hhi

end Elements

section ListShaped

variable {b : Buffer} (hb : b.Addressable) (width : SequenceWidth)

include hb

theorem follows_list : WrapFollows b (.list width) := by
  intro settings o m ho hm
  have hs := follows_sequence hb ho hm width
  rw [Format.wrap, Format.parse]
  rcases hseq : Format.parseSequence width (b.segment o m) with _ | c
  · rw [hseq] at hs
    exact hs.map _
  · rw [hseq] at hs
    rcases hs with ⟨s, hwrap, rfl, hw, hlo, hhi, rfl⟩
    rw [hwrap, Checked.ok_map]
    exact follows_of_sequence hm hw hlo hhi rfl rfl rfl
      (Sequence.shell_eq hm hw hlo hhi rfl rfl rfl rfl rfl rfl)

theorem follows_array {item : Format} (ih : WrapFollows b item) :
    WrapFollows b (.array width item) := by
  intro settings o m ho hm
  have hs := follows_sequence hb ho hm width
  rw [Format.wrap, Format.parse]
  rcases hseq : Format.parseSequence width (b.segment o m) with _ | c
  · rw [hseq] at hs
    exact hs.bind _
  · rw [hseq] at hs
    rcases hs with ⟨s, hwrap, rfl, hw, hlo, hhi, rfl⟩
    have hlimit : s.limit ≤ b.size := Nat.le_trans hhi hm
    have hbuffer : s.window.buffer = b := congrArg Window.buffer hw
    -- the items stand between the prefixes and the limit of the array,
    -- which is a window of the buffer like any other
    have hitems := elements_follow (Format.sized (item.parse {})) (element_follows hlimit ih)
      s.count s.fieldsOffset hlo
    -- the walk of the binding and the production of the items are one step
    have hpast : (fun p => Reader.limit <$> item.wrap b {} p s.limit) =
        fun p => Prod.snd <$> item.element b s.limit p := funext (item.past_eq b s.limit)
    have hnext : Reader.elementAt s item =
        fun p => Checked.speculate (item.element b s.limit p) := by
      subst hbuffer
      exact funext (Reader.elementAt_eq hb item)
    rw [hwrap, Checked.ok_bind, Option.bind_eq_bind, Option.bind_some]
    simp only [hpast]
    generalize Format.parseMany _ s.count (b.segment s.fieldsOffset s.limit) = found at hitems ⊢
    cases found with
    | none => exact hitems.bind _
    | some cs =>
        rcases hitems with ⟨⟨stop, hwalk⟩, as, hproduce, htells⟩
        rw [hwalk, Checked.ok_bind]
        refine follows_of_sequence hm hw hlo hhi rfl rfl rfl ?_
        rw [Format.contentOf, Sequence.shell_eq hm hw hlo hhi rfl rfl rfl rfl rfl rfl,
          Checked.ok_bind, Reader.items, hnext, hproduce, Checked.ok_bind, htells]
        rfl

theorem follows_map {key value : Format} (ihk : WrapFollows b key)
    (ihv : WrapFollows b value) : WrapFollows b (.map width key value) := by
  intro settings o m ho hm
  have hs := follows_sequence hb ho hm width
  rw [Format.wrap, Format.parse]
  rcases hseq : Format.parseSequence width (b.segment o m) with _ | c
  · rw [hseq] at hs
    exact hs.bind _
  · rw [hseq] at hs
    rcases hs with ⟨s, hwrap, rfl, hw, hlo, hhi, rfl⟩
    have hlimit : s.limit ≤ b.size := Nat.le_trans hhi hm
    have hbuffer : s.window.buffer = b := congrArg Window.buffer hw
    have hentries := elements_follow (Format.paired (key.parse {}) (value.parse {}))
      (entry_follows hlimit ihk ihv) (s.count / 2) s.fieldsOffset hlo
    have hpast : (fun p => do
          let pastKey ← Reader.limit <$> key.wrap b {} p s.limit
          Reader.limit <$> value.wrap b {} pastKey s.limit) =
        fun p => Prod.snd <$> Format.entry b key value s.limit p :=
      funext (Format.pastEntry_eq b key value s.limit)
    have hnext : Reader.entryAt s key value =
        fun p => Checked.speculate (Format.entry b key value s.limit p) := by
      subst hbuffer
      exact funext (Reader.entryAt_eq hb key value)
    rw [hwrap, Checked.ok_bind, Option.bind_eq_bind, Option.bind_some]
    -- an odd count is refused before any entry is looked at
    by_cases hodd : s.count % 2 ≠ 0
    · rw [if_pos hodd, if_pos hodd]
      exact Checked.refuses_refuse _
    · rw [if_neg hodd, if_neg hodd, hpast]
      simp only []
      generalize Format.parseMany _ (s.count / 2) (b.segment s.fieldsOffset s.limit) = found
        at hentries ⊢
      cases found with
      | none => exact hentries.bind _
      | some cs =>
          rcases hentries with ⟨⟨stop, hwalk⟩, as, hproduce, htells⟩
          rw [hwalk, Checked.ok_bind]
          refine follows_of_sequence hm hw hlo hhi rfl rfl rfl ?_
          rw [Format.contentOf, Sequence.shell_eq hm hw hlo hhi rfl rfl rfl rfl rfl rfl,
            Checked.ok_bind, Reader.entries, hnext, hproduce, Checked.ok_bind, htells]
          rfl

end ListShaped

/-- Binding a reader to a window, and reading out all it tells, follows parsing
    the bytes of the window. -/
theorem Format.wrap_follows {b : Buffer} (hb : b.Addressable) (format : Format) :
    WrapFollows b format := by
  induction format with
  | fixed kind => exact fun settings o m ho hm => follows_fixed hb ho hm kind _
  | varint kind => exact fun settings o m ho hm => follows_varint hb ho hm kind
  | octets => exact fun settings o m ho hm => follows_octets ho hm
  | bounded width => exact fun settings o m ho hm => follows_bounded hb ho hm width _
  | string width => exact fun settings o m ho hm => follows_string hb ho hm width
  | varstring => exact fun settings o m ho hm => follows_varstring hb ho hm
  | emptyList => exact fun settings o m ho hm => follows_emptyList ho hm
  | list width => exact follows_list hb width
  | array width item ih => exact follows_array hb width ih
  | map width key value ihk ihv => exact follows_map hb width ihk ihv

/-- No format is bound to something that is no window of the buffer. -/
theorem Format.wrap_refuses {b : Buffer} {o m : Nat} (h : ¬ (o ≤ m ∧ m ≤ b.size))
    (format : Format) (settings : Settings) : (format.wrap b settings o m).Refuses := by
  have hw := Window.wrap_refuses h
  cases format with
  | fixed kind => exact (hw.bind _).map _
  | varint kind => exact (hw.bind _).map _
  | octets => exact (hw.bind _).map _
  | bounded width => exact (hw.bind _).map _
  | string width => exact (hw.bind _).map _
  | varstring => exact (hw.bind _).map _
  | emptyList => exact hw.map _
  | list width => exact (hw.bind _).map _
  | array width item => exact (hw.bind _).bind _
  | map width key value => exact (hw.bind _).bind _

/-- What a bound reader is: it lies in its window, the window lies in the
    buffer, and the bytes of the window parse to what it tells. -/
theorem Format.wrap_eq_ok {b : Buffer} (hb : b.Addressable) {format : Format}
    {settings : Settings} {o m : Nat} {r : Reader} (h : format.wrap b settings o m = .ok r) :
    ∃ c, format.parse settings (b.segment o m) = some c ∧ o ≤ m ∧ m ≤ b.size ∧
      r.window = ⟨b, o, m⟩ ∧ r.format = format ∧ r.limit = o + c.size ∧ r.limit ≤ m ∧
      r.content = .ok c := by
  by_cases hw : o ≤ m ∧ m ≤ b.size
  · have hf := format.wrap_follows hb settings o m hw.1 hw.2
    rcases hparse : format.parse settings (b.segment o m) with _ | c
    · rw [hparse] at hf
      exact absurd h (hf.ne_ok r)
    · rw [hparse] at hf
      rcases hf with ⟨q, hq, hwindow, hformat, hlimit, hle, hcontent⟩
      -- the reader that the parse speaks of is the one at hand
      rw [h, Except.ok.injEq] at hq
      subst hq
      refine ⟨c, rfl, hw.1, hw.2, hwindow, hformat, hlimit, by omega, ?_⟩
      rw [Reader.content, hformat]
      exact hcontent
  · exact absurd h ((wrap_refuses hw format settings).ne_ok r)

/-- Binding a reader either succeeds or refuses; it never stops. -/
theorem Format.wrap_ok_or_refuses {b : Buffer} (hb : b.Addressable) (format : Format)
    (settings : Settings) (o m : Nat) :
    (∃ r, format.wrap b settings o m = .ok r) ∨ (format.wrap b settings o m).Refuses := by
  by_cases hw : o ≤ m ∧ m ≤ b.size
  · have hf := format.wrap_follows hb settings o m hw.1 hw.2
    rcases hparse : format.parse settings (b.segment o m) with _ | c
    · rw [hparse] at hf
      exact .inr hf
    · rw [hparse] at hf
      rcases hf with ⟨r, hr, _⟩
      exact .inl ⟨r, hr⟩
  · exact .inr (wrap_refuses hw format settings)

end Wireform
