import Wireform.Proofs.Nesting

/-!
# Containment

A reader stays inside the bytes it was bound to, and so does every reader
found in it.

That a reader reads inside `[offset, limit)` cannot be seen from its answers
alone: an accessor that looks too far and ignores what it sees answers the
same. What can be said is that nothing behind the limit has any influence. A
reader is moved onto another buffer, with its positions kept; if that buffer
has the same bytes between offset and limit, all answers are the same,
whatever lies around them and even if nothing does.

Readers found in a reader are bound to parts of its fields. That they lie in
it is shown where they are produced (`mem_produce`), and carried to any depth
by induction on the way to them.

## Main definitions

* `Reader.onto`: The reader moved onto another buffer.
* `Reader.Bound`: The reader was bound to the buffer.
* `Reader.Confined`: The reader and its answers stay inside a range.

## Theorems

* `Reader.content_onto`: A reader depends only on the bytes it was bound to.
* `Reader.Bound.of_reaches`: A reader found in a bound reader is bound, and
  lies in it.
* `Reader.Bound.confined`: A bound reader is confined to its own range.
* `Format.wrap_confined`: Both entry points agree and never stop, and every
  reader found in a bound one is confined.
-/

namespace Wireform

namespace Buffer

theorem Agree.slice_eq {ε : Type} {b b' : Buffer} {i j : Nat} (h : b.Agree b' i j)
    (hj : j ≤ b.size) (hj' : j ≤ b'.size) : (b'.slice i j : Checked ε Bytes) = b.slice i j := by
  by_cases hij : i ≤ j
  · rw [b.slice_eq hij hj, b'.slice_eq hij hj', h.segment_eq hj hj']
  · rw [slice, slice, if_neg (fun hc => hij hc.1), if_neg (fun hc => hij hc.1)]

theorem slice_eq_ok {ε : Type} {b : Buffer} {i j : Nat} {bytes : Bytes}
    (h : (b.slice i j : Checked ε Bytes) = .ok bytes) :
    i ≤ j ∧ j ≤ b.size ∧ bytes = b.segment i j := by
  by_cases hij : i ≤ j ∧ j ≤ b.size
  · rw [b.slice_eq hij.1 hij.2, Except.ok.injEq] at h
    exact ⟨hij.1, hij.2, h.symm⟩
  · rw [slice, if_neg hij] at h
    cases h

end Buffer

section Agree

variable {ε : Type} {b b' : Buffer} {o n : Nat}

theorem readUnsigned_of_agree (h : b.Agree b' o (o + n)) (hb : o + n ≤ b.size)
    (hb' : o + n ≤ b'.size) (order : ByteOrder) :
    (readUnsigned b' o n order : Checked ε Nat) = readUnsigned b o n order := by
  unfold readUnsigned
  rcases hadd : (Word.add o n : Checked ε Nat) with fault | stop
  · rfl
  · rw [Word.add_eq_ok hadd, Checked.ok_bind, Checked.ok_bind, h.slice_eq hb hb']

theorem Varint.decodeAt_of_agree (h : b.Agree b' o (o + n)) (hb : o + n ≤ b.size)
    (hb' : o + n ≤ b'.size) : (decodeAt b' o n : Checked ε Nat) = decodeAt b o n := by
  unfold decodeAt
  rcases hadd : (Word.add o n : Checked ε Nat) with fault | stop
  · rfl
  · rw [Word.add_eq_ok hadd, Checked.ok_bind, Checked.ok_bind, h.slice_eq hb hb']

end Agree

namespace Reader

/-- The reader moved onto another buffer, all its positions kept. -/
def onto (b : Buffer) : Reader → Reader
  | .fixed r => .fixed { r with window.buffer := b }
  | .varint r => .varint { r with window.buffer := b }
  | .octets r => .octets { r with window.buffer := b }
  | .bounded r => .bounded { r with window.buffer := b }
  | .string r => .string { r with window.buffer := b }
  | .varstring r => .varstring { r with window.buffer := b }
  | .emptyList w => .emptyList { w with buffer := b }
  | .list s => .list { s with window.buffer := b }
  | .array item s => .array item { s with window.buffer := b }
  | .map key value s => .map key value { s with window.buffer := b }

section Onto

variable {r : Reader} {b' : Buffer}

theorem format_onto : (r.onto b').format = r.format := by
  cases r <;> rfl

theorem number_onto (ha : r.window.buffer.Agree b' r.offset r.limit)
    (hb : r.limit ≤ r.window.buffer.size) (hb' : r.limit ≤ b'.size) :
    (r.onto b').number = r.number := by
  cases r with
  | fixed r =>
      have hraw : (readUnsigned b' r.window.offset r.kind.width r.order : Checked Refusal Nat) =
          readUnsigned r.window.buffer r.window.offset r.kind.width r.order :=
        readUnsigned_of_agree ha hb hb' r.order
      simp only [onto, number, FixedInt.Reader.value, hraw]
  | varint r =>
      have hraw : (Varint.decodeAt b' r.window.offset r.size : Checked Refusal Nat) =
          Varint.decodeAt r.window.buffer r.window.offset r.size :=
        Varint.decodeAt_of_agree ha hb hb'
      simp only [onto, number, VarInt.Reader.value, hraw]
  | _ => rfl

-- A payload runs up to the limit, from somewhere behind the offset.
theorem payload_onto (ha : r.window.buffer.Agree b' r.offset r.limit)
    (hb : r.limit ≤ r.window.buffer.size) (hb' : r.limit ≤ b'.size) :
    (r.onto b').payload = r.payload := by
  have hslice (n : Nat) : (b'.slice (r.offset + n) r.limit : Checked Refusal Bytes) =
      r.window.buffer.slice (r.offset + n) r.limit :=
    (ha.mono (Nat.le_add_right r.offset n) (Nat.le_refl r.limit)).slice_eq hb hb'
  cases r with
  | octets r => exact congrArg (some <$> ·) (hslice 0)
  | bounded r => exact congrArg (some <$> ·) (hslice r.width.size)
  | string r =>
      rcases r with ⟨width, window, _ | length⟩
      · rfl
      · exact congrArg (some <$> ·) (hslice width.size)
  | varstring r =>
      rcases r with ⟨window, size, _ | length⟩
      · rfl
      · exact congrArg (some <$> ·) (hslice size)
  | _ => rfl

theorem fields_onto (ha : r.window.buffer.Agree b' r.offset r.limit)
    (hb : r.limit ≤ r.window.buffer.size) (hb' : r.limit ≤ b'.size) :
    (r.onto b').fields = r.fields := by
  cases r with
  | list s => exact (ha.mono (Nat.le_add_right _ _) (Nat.le_refl _)).slice_eq hb hb'
  | array item s => exact (ha.mono (Nat.le_add_right _ _) (Nat.le_refl _)).slice_eq hb hb'
  | map key value s => exact (ha.mono (Nat.le_add_right _ _) (Nat.le_refl _)).slice_eq hb hb'
  | _ => rfl

/-- What a reader tells without its elements comes from its own bytes. -/
theorem shell_onto (ha : r.window.buffer.Agree b' r.offset r.limit)
    (hb : r.limit ≤ r.window.buffer.size) (hb' : r.limit ≤ b'.size) :
    (r.onto b').shell = r.shell := by
  have hbytes : (r.onto b').bytes = r.bytes := by
    cases r <;> exact ha.slice_eq hb hb'
  have hcount : (r.onto b').fieldCount = r.fieldCount := by
    cases r <;> rfl
  rw [shell, shell, hbytes, number_onto ha hb hb', payload_onto ha hb hb',
    fields_onto ha hb hb', hcount]

end Onto

/-- The reader was bound to some window of the buffer. -/
def Bound (b : Buffer) (r : Reader) : Prop :=
  ∃ settings o m, r.format.wrap b settings o m = .ok r

end Reader

section Bound

variable {b : Buffer}

theorem Format.wrap_bound (hb : b.Addressable) {format : Format} {settings : Settings}
    {o m : Nat} {r : Reader} (h : format.wrap b settings o m = .ok r) : r.Bound b := by
  rcases wrap_eq_ok hb h with ⟨c, _, _, _, _, hformat, _⟩
  exact ⟨settings, o, m, hformat ▸ h⟩

theorem Sequence.offset_le_fieldsOffset (s : Sequence) : s.window.offset ≤ s.fieldsOffset :=
  Nat.le_add_right _ _

/-- The parts of a bound sequence lie in the buffer in their order. -/
theorem Sequence.wrap_eq_ok (hb : b.Addressable) {width : SequenceWidth} {o m : Nat}
    {s : Sequence} (h : Sequence.wrap width b o m = .ok s) :
    s.window.buffer = b ∧ s.fieldsOffset ≤ s.limit ∧ s.limit ≤ b.size := by
  by_cases hw : o ≤ m ∧ m ≤ b.size
  · have hs := follows_sequence hb hw.1 hw.2 width
    rcases hseq : Format.parseSequence width (b.segment o m) with _ | c
    · rw [hseq] at hs
      exact absurd h (hs.ne_ok s)
    · rw [hseq] at hs
      rcases hs with ⟨q, hq, _, hwindow, hlo, hhi, _⟩
      rw [h, Except.ok.injEq] at hq
      subst hq
      exact ⟨congrArg Window.buffer hwindow, hlo, Nat.le_trans hhi hw.2⟩
  · exact absurd h (((Window.wrap_refuses hw).bind _).ne_ok s)

/-- The walk over the items of a bound array has arrived. -/
theorem Reader.Bound.array (hb : b.Addressable) {item : Format} {s : Sequence}
    (h : (Reader.array item s).Bound b) :
    s.window.buffer = b ∧ s.fieldsOffset ≤ s.limit ∧ s.limit ≤ b.size ∧
      ∃ stop, Sequence.walk (item.past b s.limit) s.count s.fieldsOffset = .ok stop := by
  rcases h with ⟨settings, o, m, h⟩
  rw [Reader.format, Format.wrap] at h
  rcases Checked.bind_eq_ok.mp h with ⟨q, hq, hwalk⟩
  rcases Checked.bind_eq_ok.mp hwalk with ⟨stop, hstop, hr⟩
  cases hr
  rcases Sequence.wrap_eq_ok hb hq with ⟨hbuffer, hlo, hhi⟩
  exact ⟨hbuffer, hlo, hhi, stop, hstop⟩

/-- The walk over the entries of a bound map has arrived. -/
theorem Reader.Bound.map (hb : b.Addressable) {key value : Format} {s : Sequence}
    (h : (Reader.map key value s).Bound b) :
    s.window.buffer = b ∧ s.fieldsOffset ≤ s.limit ∧ s.limit ≤ b.size ∧
      ∃ stop, Sequence.walk (Format.pastEntry b key value s.limit) (s.count / 2)
        s.fieldsOffset = .ok stop := by
  rcases h with ⟨settings, o, m, h⟩
  rw [Reader.format, Format.wrap] at h
  rcases Checked.bind_eq_ok.mp h with ⟨q, hq, heven⟩
  by_cases hodd : q.count % 2 ≠ 0
  · rw [if_pos hodd] at heven
    exact absurd heven ((Checked.refuses_refuse _).ne_ok _)
  · rw [if_neg hodd] at heven
    rcases Checked.bind_eq_ok.mp heven with ⟨stop, hstop, hr⟩
    cases hr
    rcases Sequence.wrap_eq_ok hb hq with ⟨hbuffer, hlo, hhi⟩
    exact ⟨hbuffer, hlo, hhi, stop, hstop⟩

/-- Where a walk over elements has arrived, the elements produced there, and
    those produced from another buffer with the same bytes, are told alike. -/
theorem produce_of_agree {α γ : Type} {b' : Buffer} {start limit count : Nat}
    {next next' : Nat → Checked Refusal (α × Nat)} {tell : α → Checked Refusal γ}
    (parse : Bytes → Option (γ × Nat))
    (hstep : ∀ p, p ≤ limit → StepFollows next tell p limit (parse (b.segment p limit)))
    (hstep' : ∀ p, p ≤ limit → StepFollows next' tell p limit (parse (b'.segment p limit)))
    (hsegment : b.segment start limit = b'.segment start limit) (h : start ≤ limit)
    {stop : Nat} (hwalk : Sequence.walk (fun p => Prod.snd <$> next p) count start = .ok stop) :
    ∃ as as' cs, Reader.produce (fun p => Checked.speculate (next p)) count start = .ok as ∧
      Reader.produce (fun p => Checked.speculate (next' p)) count start = .ok as' ∧
      as.mapM tell = .ok cs ∧ as'.mapM tell = .ok cs := by
  have hfirst := elements_follow parse hstep count start h
  have hsecond := elements_follow parse hstep' count start h
  rw [← hsegment] at hsecond
  rcases hmany : Format.parseMany parse count (b.segment start limit) with _ | cs
  · rw [hmany] at hfirst
    exact absurd hwalk (hfirst.ne_ok stop)
  · rw [hmany] at hfirst hsecond
    rcases hfirst with ⟨_, as, hproduce, htells⟩
    rcases hsecond with ⟨_, as', hproduce', htells'⟩
    exact ⟨as, as', cs, hproduce, hproduce', htells, htells'⟩

/-- A reader depends only on the bytes it was bound to: moved onto a buffer
    with the same bytes there, it tells the same. -/
theorem Reader.Bound.content_onto {b' : Buffer} (hb : b.Addressable) (hb' : b'.Addressable)
    {r : Reader} (h : r.Bound b) (ha : b.Agree b' r.offset r.limit) (hl : r.limit ≤ b'.size) :
    (r.onto b').content = r.content := by
  have hshell : (r.onto b').shell = r.shell := by
    rcases h with ⟨settings, o, m, h⟩
    rcases Format.wrap_eq_ok hb h with ⟨c, _, _, hm, hw, _, _, hlimit, _⟩
    have hbuffer : r.window.buffer = b := congrArg Window.buffer hw
    refine shell_onto (hbuffer ▸ ha) ?_ hl
    rw [hbuffer]
    exact Nat.le_trans hlimit hm
  cases r with
  | array item s =>
      rcases h.array hb with ⟨rfl, hlo, hhi, stop, hwalk⟩
      -- the walk of the binding proves that the items are there, and both
      -- buffers hold the same bytes for them
      have hsegment := (ha.mono s.offset_le_fieldsOffset (Nat.le_refl s.limit)).segment_eq hhi hl
      have hnext := funext (elementAt_eq hb item)
      have hnext' := funext (elementAt_eq (s := { s with window.buffer := b' }) hb' item)
      rw [funext (item.past_eq _ s.limit)] at hwalk
      rcases produce_of_agree (Format.sized (item.parse {}))
        (element_follows hhi (item.wrap_follows hb)) (element_follows hl (item.wrap_follows hb'))
        hsegment hlo hwalk with ⟨as, as', cs, hproduce, hproduce', htells, htells'⟩
      have hitems : (Reader.array item s).items = .ok as := by
        rw [items, hnext]
        exact hproduce
      have hitems' : ((Reader.array item s).onto b').items = .ok as' := by
        rw [onto, items, hnext']
        exact hproduce'
      rw [content, content, format_onto]
      simp only [format, Format.contentOf, hshell, hitems, hitems', Checked.ok_bind, htells,
        htells']
  | map key value s =>
      rcases h.map hb with ⟨rfl, hlo, hhi, stop, hwalk⟩
      have hsegment := (ha.mono s.offset_le_fieldsOffset (Nat.le_refl s.limit)).segment_eq hhi hl
      have hnext := funext (entryAt_eq hb key value)
      have hnext' := funext (entryAt_eq (s := { s with window.buffer := b' }) hb' key value)
      rw [funext (Format.pastEntry_eq _ key value s.limit)] at hwalk
      -- entries are pairs of elements, produced by the same loop
      rcases produce_of_agree (Format.paired (key.parse {}) (value.parse {}))
        (entry_follows hhi (key.wrap_follows hb) (value.wrap_follows hb))
        (entry_follows hl (key.wrap_follows hb') (value.wrap_follows hb'))
        hsegment hlo hwalk with ⟨as, as', cs, hproduce, hproduce', htells, htells'⟩
      have hentries : (Reader.map key value s).entries = .ok as := by
        rw [entries, hnext]
        exact hproduce
      have hentries' : ((Reader.map key value s).onto b').entries = .ok as' := by
        rw [onto, entries, hnext']
        exact hproduce'
      rw [content, content, format_onto]
      simp only [format, Format.contentOf, hshell, hentries, hentries', Checked.ok_bind, htells,
        htells']
  | _ => exact hshell

/-- Elements are produced by steps from the start on. -/
theorem mem_produce {α : Type} {next : Nat → Checked Refusal (α × Nat)}
    (hnext : ∀ p a q, next p = .ok (a, q) → p ≤ q) {count start : Nat} {as : List α} {a : α}
    (h : Reader.produce (fun p => Checked.speculate (next p)) count start = .ok as)
    (ha : a ∈ as) : ∃ p q, start ≤ p ∧ next p = .ok (a, q) := by
  induction count generalizing start as with
  | zero =>
      cases h
      exact absurd ha List.not_mem_nil
  | succ count ih =>
      rw [Reader.produce] at h
      rcases hstep : next start with (cause | _) | ⟨first, past⟩
      · rw [hstep] at h
        cases h
        exact absurd ha List.not_mem_nil
      · rw [hstep] at h
        cases h
      · rw [hstep, Checked.speculate_ok, Checked.ok_bind] at h
        rcases Checked.bind_eq_ok.mp h with ⟨rest, hrest, hcons⟩
        cases hcons
        -- the first element starts here, and later ones no earlier
        rcases List.mem_cons.mp ha with rfl | ha
        · exact ⟨start, past, Nat.le_refl start, hstep⟩
        · rcases ih hrest ha with ⟨p, q, hp, hq⟩
          exact ⟨p, q, Nat.le_trans (hnext start first past hstep) hp, hq⟩

theorem Format.element_eq_ok (hb : b.Addressable) {format : Format} {limit p q : Nat}
    {r : Reader} (h : format.element b limit p = .ok (r, q)) :
    r.Bound b ∧ r.offset = p ∧ r.limit = q ∧ p ≤ q ∧ q ≤ limit := by
  rcases Checked.map_eq_ok.mp h with ⟨r', hr, hpair⟩
  cases hpair
  rcases wrap_eq_ok hb hr with ⟨c, _, _, _, hw, _, hend, hle, _⟩
  exact ⟨wrap_bound hb hr, congrArg Window.offset hw, rfl, by omega, hle⟩

theorem Format.entry_eq_ok (hb : b.Addressable) {key value : Format} {limit p q : Nat}
    {k v : Reader} (h : Format.entry b key value limit p = .ok ((k, v), q)) :
    k.Bound b ∧ v.Bound b ∧ k.offset = p ∧ v.offset = k.limit ∧ v.limit = q ∧
      p ≤ k.limit ∧ k.limit ≤ q ∧ q ≤ limit := by
  rcases Checked.bind_eq_ok.mp h with ⟨⟨k', pastKey⟩, hk, h⟩
  rcases Checked.bind_eq_ok.mp h with ⟨⟨v', pastValue⟩, hv, hpair⟩
  cases hpair
  rcases element_eq_ok hb hk with ⟨hbk, hko, hkl, hkle, _⟩
  rcases element_eq_ok hb hv with ⟨hbv, hvo, hvl, hvle, hle⟩
  exact ⟨hbk, hbv, hko, by omega, hvl, by omega, by omega, hle⟩

namespace Reader

variable {r : Reader}

/-- An item of a bound array is bound, and lies in it. -/
theorem Bound.item (hb : b.Addressable) (h : r.Bound b) {items : List Reader}
    (hitems : r.items = .ok items) {q : Reader} (hq : q ∈ items) :
    q.Bound b ∧ r.offset ≤ q.offset ∧ q.limit ≤ r.limit := by
  cases r with
  | array item s =>
      rcases h.array hb with ⟨rfl, _⟩
      rw [Reader.items, funext (elementAt_eq hb item)] at hitems
      rcases mem_produce (fun p a q h => (Format.element_eq_ok hb h).2.2.2.1) hitems hq with
        ⟨p, past, hp, hstep⟩
      rcases Format.element_eq_ok hb hstep with ⟨hbound, hoffset, hlimit, _, hle⟩
      have hfirst := s.offset_le_fieldsOffset
      refine ⟨hbound, ?_, ?_⟩
      · rw [hoffset]
        exact Nat.le_trans hfirst hp
      · rw [hlimit]
        exact hle
  | _ =>
      cases hitems
      exact absurd hq List.not_mem_nil

/-- Key and value of an entry of a bound map are bound, and lie in it. -/
theorem Bound.entry (hb : b.Addressable) (h : r.Bound b) {entries : List (Reader × Reader)}
    (hentries : r.entries = .ok entries) {k v : Reader} (hkv : (k, v) ∈ entries) :
    (k.Bound b ∧ r.offset ≤ k.offset ∧ k.limit ≤ r.limit) ∧
      v.Bound b ∧ r.offset ≤ v.offset ∧ v.limit ≤ r.limit := by
  cases r with
  | map key value s =>
      rcases h.map hb with ⟨rfl, _⟩
      rw [Reader.entries, funext (entryAt_eq hb key value)] at hentries
      have hmono : ∀ p e q, Format.entry s.window.buffer key value s.limit p = .ok (e, q) →
          p ≤ q := fun p e q h => by
        rcases Format.entry_eq_ok hb h with ⟨_, _, _, _, _, hpk, hkq, _⟩
        exact Nat.le_trans hpk hkq
      rcases mem_produce hmono hentries hkv with ⟨p, past, hp, hstep⟩
      rcases Format.entry_eq_ok hb hstep with ⟨hbk, hbv, hko, hvo, hvl, hpk, hkq, hle⟩
      have hstart : (Reader.map key value s).offset ≤ p :=
        Nat.le_trans s.offset_le_fieldsOffset hp
      have hstop : past ≤ (Reader.map key value s).limit := hle
      exact ⟨⟨hbk, by omega, by omega⟩, hbv, by omega, by omega⟩
  | _ =>
      cases hentries
      exact absurd hkv List.not_mem_nil

/-- A reader found in a bound reader, at any depth, is bound, and lies in it. -/
theorem Bound.of_reaches (hb : b.Addressable) {p : Reader} (hp : r.Reaches p)
    (h : r.Bound b) : p.Bound b ∧ r.offset ≤ p.offset ∧ p.limit ≤ r.limit := by
  induction hp with
  | refl r => exact ⟨h, Nat.le_refl _, Nat.le_refl _⟩
  | item hitems hq _ ih =>
      rcases h.item hb hitems hq with ⟨hbound, hlo, hhi⟩
      rcases ih hbound with ⟨hp, hlo', hhi'⟩
      exact ⟨hp, Nat.le_trans hlo hlo', Nat.le_trans hhi' hhi⟩
  | key hentries hk _ ih =>
      rcases (h.entry hb hentries hk).1 with ⟨hbound, hlo, hhi⟩
      rcases ih hbound with ⟨hp, hlo', hhi'⟩
      exact ⟨hp, Nat.le_trans hlo hlo', Nat.le_trans hhi' hhi⟩
  | value hentries hv _ ih =>
      rcases (h.entry hb hentries hv).2 with ⟨hbound, hlo, hhi⟩
      rcases ih hbound with ⟨hp, hlo', hhi'⟩
      exact ⟨hp, Nat.le_trans hlo hlo', Nat.le_trans hhi' hhi⟩

/-- The reader lies in `[lo, hi)` of the buffer, all its accessors answer, the
    bytes they yield end with the reader and start in it, and moving it onto
    another buffer with the same bytes between offset and limit changes no
    answer. -/
structure Confined (b : Buffer) (lo hi : Nat) (r : Reader) : Prop where
  buffer : r.window.buffer = b
  lo_le_offset : lo ≤ r.offset
  offset_le_limit : r.offset ≤ r.limit
  limit_le_hi : r.limit ≤ hi
  size : r.offset + r.size = r.limit
  bytes : r.bytes = .ok (b.segment r.offset r.limit)
  number : ∃ n, r.number = .ok n
  payload : ∃ found, r.payload = .ok found ∧ ∀ bytes, found = some bytes →
    ∃ i, r.offset ≤ i ∧ i ≤ r.limit ∧ bytes = b.segment i r.limit
  fields : ∃ bytes i, r.fields = .ok bytes ∧ r.offset ≤ i ∧ i ≤ r.limit ∧
    bytes = b.segment i r.limit
  items : ∃ items, r.items = .ok items
  entries : ∃ entries, r.entries = .ok entries
  content : ∃ c, r.content = .ok c
  onto : ∀ b' : Buffer, b'.Addressable → r.limit ≤ b'.size → b.Agree b' r.offset r.limit →
    (r.onto b').content = r.content

/-- Where all has been told, each accessor has answered. -/
theorem content_eq_ok {c : Content} (h : r.content = .ok c) :
    (∃ shell, r.shell = .ok shell) ∧ (∃ items, r.items = .ok items) ∧
      ∃ entries, r.entries = .ok entries := by
  cases r with
  | array item s =>
      rcases Checked.bind_eq_ok.mp h with ⟨shell, hshell, h⟩
      rcases Checked.bind_eq_ok.mp h with ⟨items, hitems, _⟩
      exact ⟨⟨shell, hshell⟩, ⟨items, hitems⟩, [], rfl⟩
  | map key value s =>
      rcases Checked.bind_eq_ok.mp h with ⟨shell, hshell, h⟩
      rcases Checked.bind_eq_ok.mp h with ⟨entries, hentries, _⟩
      exact ⟨⟨shell, hshell⟩, ⟨[], rfl⟩, entries, hentries⟩
  | _ => exact ⟨⟨c, h⟩, ⟨[], rfl⟩, [], rfl⟩

theorem payload_eq_ok {bytes : Bytes} (h : r.payload = .ok (some bytes)) :
    ∃ i, r.offset ≤ i ∧ i ≤ r.limit ∧ bytes = r.window.buffer.segment i r.limit := by
  have hslice (n : Nat)
      (h : some <$> r.window.buffer.slice (r.offset + n) r.limit =
        (.ok (some bytes) : Checked Refusal (Option Bytes))) :
      ∃ i, r.offset ≤ i ∧ i ≤ r.limit ∧ bytes = r.window.buffer.segment i r.limit := by
    rcases Checked.map_eq_ok.mp h with ⟨found, hfound, heq⟩
    cases heq
    rcases Buffer.slice_eq_ok hfound with ⟨hle, _, heq⟩
    exact ⟨r.offset + n, Nat.le_add_right _ _, hle, heq⟩
  cases r with
  | octets r => exact hslice 0 h
  | bounded r => exact hslice r.width.size h
  | string r =>
      rcases r with ⟨width, window, _ | length⟩
      · exact nomatch h
      · exact hslice width.size h
  | varstring r =>
      rcases r with ⟨window, size, _ | length⟩
      · exact nomatch h
      · exact hslice size h
  | _ => exact nomatch h

theorem fields_eq_ok {bytes : Bytes} (hle : r.offset ≤ r.limit) (h : r.fields = .ok bytes) :
    ∃ i, r.offset ≤ i ∧ i ≤ r.limit ∧ bytes = r.window.buffer.segment i r.limit := by
  cases r with
  | list s | array item s | map key value s =>
      rcases Buffer.slice_eq_ok h with ⟨hle, _, heq⟩
      exact ⟨s.fieldsOffset, s.offset_le_fieldsOffset, hle, heq⟩
  | _ =>
      cases h
      exact ⟨_, hle, Nat.le_refl _, (Buffer.segment_self _ _).symm⟩

/-- A bound reader is confined to any range around it. -/
theorem Bound.confined (hb : b.Addressable) (h : r.Bound b) {lo hi : Nat}
    (hlo : lo ≤ r.offset) (hhi : r.limit ≤ hi) : r.Confined b lo hi := by
  have hbound := h
  rcases h with ⟨settings, o, m, h⟩
  rcases Format.wrap_eq_ok hb h with ⟨c, _, _, hm, hw, _, hlimit, hle, hcontent⟩
  have hbuffer : r.window.buffer = b := congrArg Window.buffer hw
  have hoffset : r.offset = o := congrArg Window.offset hw
  have hordered : r.offset ≤ r.limit := by omega
  rcases content_eq_ok hcontent with ⟨⟨shell, hshell⟩, hitems, hentries⟩
  -- the shell asks every accessor, one after the other
  rcases Checked.bind_eq_ok.mp hshell with ⟨bytes, hbytes, hshell⟩
  rcases Checked.bind_eq_ok.mp hshell with ⟨n, hn, hshell⟩
  rcases Checked.bind_eq_ok.mp hshell with ⟨found, hfound, hshell⟩
  rcases Checked.bind_eq_ok.mp hshell with ⟨f, hf, _⟩
  refine ⟨hbuffer, hlo, hordered, hhi, by rw [size]; omega, ?_, ⟨n, hn⟩, ⟨found, hfound, ?_⟩, ?_,
    hitems, hentries, ⟨c, hcontent⟩, fun b' hb' hl ha => hbound.content_onto hb hb' ha hl⟩
  · rw [hbytes, (Buffer.slice_eq_ok hbytes).2.2, hbuffer]
  · intro payload heq
    rw [heq] at hfound
    rw [← hbuffer]
    exact payload_eq_ok hfound
  · rcases fields_eq_ok hordered hf with ⟨i, hi⟩
    rw [hbuffer] at hi
    exact ⟨f, i, hf, hi⟩

end Reader

end Bound

/-- The two entry points of every format agree on every window and never stop.
    A bound reader lies in its window, and every reader found in it, at any
    depth, is confined to its range. -/
theorem Format.wrap_confined {b : Buffer} (hb : b.Addressable) (format : Format)
    (settings : Settings) (o m : Nat) :
    (∀ r, format.tryWrap b settings o m = .ok (some r) ↔ format.wrap b settings o m = .ok r) ∧
    (∃ found, format.tryWrap b settings o m = .ok found) ∧
    format.wrap b settings o m ≠ Checked.stop ∧
    ∀ r, format.wrap b settings o m = .ok r →
      r.window = ⟨b, o, m⟩ ∧ r.format = format ∧ o ≤ r.limit ∧ r.limit ≤ m ∧ m ≤ b.size ∧
      ∀ p, r.Reaches p → p.Confined b o r.limit := by
  rw [tryWrap_eq hb]
  refine ⟨fun r => ?_, ?_, ?_, fun r h => ?_⟩
  · rcases wrap_ok_or_refuses hb format settings o m with ⟨q, hq⟩ | hrefuses
    · rw [hq, Checked.speculate_ok, Except.ok.injEq, Except.ok.injEq, Option.some.injEq]
    · rw [Checked.speculate_of_refuses hrefuses]
      exact ⟨fun h => (nomatch h), fun h => absurd h (hrefuses.ne_ok r)⟩
  · rcases wrap_ok_or_refuses hb format settings o m with ⟨q, hq⟩ | hrefuses
    · exact ⟨some q, by rw [hq, Checked.speculate_ok]⟩
    · exact ⟨none, Checked.speculate_of_refuses hrefuses⟩
  · rcases wrap_ok_or_refuses hb format settings o m with ⟨q, hq⟩ | hrefuses
    · rw [hq]
      exact fun h => nomatch h
    · exact hrefuses.ne_stop
  · rcases wrap_eq_ok hb h with ⟨c, _, _, hm, hw, hformat, hlimit, hle, _⟩
    have hoffset : r.offset = o := congrArg Window.offset hw
    refine ⟨hw, hformat, by omega, hle, hm, fun p hp => ?_⟩
    -- a reader found inside is bound to a window of its own
    rcases Reader.Bound.of_reaches hb hp (wrap_bound hb h) with ⟨hbound, hlo, hhi⟩
    exact hbound.confined hb (by omega) hhi

-- An array of the strings "hi" and null, between two bytes of something else.
theorem Format.wrap_confined_strings :
    ∃ r items, (Format.array .eight (.string .eight)).wrap
        (Buffer.ofBytes [99, 5, 2, 2, 104, 105, 255, 7]) {} 1 8 = .ok r ∧
      r.limit = 7 ∧ r.items = .ok items ∧ items.length = 2 ∧
      ∀ p, r.Reaches p → p.Confined (Buffer.ofBytes [99, 5, 2, 2, 104, 105, 255, 7]) 1 7 := by
  have hb : (Buffer.ofBytes [99, 5, 2, 2, 104, 105, 255, 7]).Addressable := by
    unfold Buffer.Addressable
    decide
  refine ⟨_, _, rfl, rfl, rfl, rfl, ?_⟩
  exact ((wrap_confined hb (.array .eight (.string .eight)) {} 1 8).2.2.2 _ rfl).2.2.2.2.2

end Wireform
