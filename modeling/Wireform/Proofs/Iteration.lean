import Wireform.Proofs.Containment

/-!
# Iteration Is Complete

The elements of an array and the entries of a map are all visited, in their order.

Binding a container walks over its elements once, strictly, and keeps nothing but
the fact that it has arrived. Iterating parses them again, one at a time and
leniently, and ends without a word where an element is not there. That this never
happens before the end is what there is to prove: wherever the walk has stepped, the
lenient parse finds the element that the strict one has passed.

Both are loops over the same steps. The steps that a walk has made are a `Chain`,
and each loop is computed along it: what is produced is the list of the chain, and a
consumer is fed with it until it is done. The chain has the geometry too, since every
step starts where the one before has ended.

Elements may be empty, and octets run to the limit of the container. Neither is
special: an empty element is a step that stays, and there are as many elements as
the count says.

## Main definitions

* `Chain`: Values found one after the other.
* `Reader.Adjoin`: Readers without gaps between them.
* `Reader.consumed`: A consumer fed with a list.

## Theorems

* `exists_chain_of_walk`: A walk that has arrived has found as many values as it has
  made steps.
* `Chain.produce`, `Chain.iterate`: Loops along a chain.
* `Chain.adjoin`, `Chain.at_index`: Where the values lie, and how far the walk was.
* `Reader.iteration_complete`: What there is to iterate over.
-/

namespace Wireform

/-- The values that are found one after the other from a position on, and the position
    past the last of them. -/
inductive Chain {α : Type} (next : Nat → Checked Refusal (α × Nat)) :
    Nat → List α → Nat → Prop where
  | nil (position : Nat) : Chain next position [] position
  | cons {position past stop : Nat} {a : α} {rest : List α} (h : next position = .ok (a, past))
      (hrest : Chain next past rest stop) : Chain next position (a :: rest) stop

namespace Reader

/-- The readers follow one another from a position to another, without gaps. -/
inductive Adjoin : Nat → List Reader → Nat → Prop where
  | nil (position : Nat) : Adjoin position [] position
  | cons {stop : Nat} {r : Reader} {rest : List Reader} (hrest : Adjoin r.limit rest stop) :
      Adjoin r.offset (r :: rest) stop

theorem Adjoin.append {start middle stop : Nat} {rs qs : List Reader}
    (h : Adjoin start rs middle) (h' : Adjoin middle qs stop) : Adjoin start (rs ++ qs) stop := by
  induction h with
  | nil position => exact h'
  | cons _ ih => exact .cons (ih h')

/-- What a consumer makes of a list, of which it takes no more than it wants. -/
def consumed {α σ : Type} (consume : σ → α → ForInStep σ) : List α → σ → σ
  | [], state => state
  | a :: rest, state =>
      match consume state a with
      | .done state => state
      | .yield state => consumed consume rest state

variable {α σ : Type}

theorem consumed_yield (visit : σ → α → σ) (as : List α) (state : σ) :
    consumed (fun state a => .yield (visit state a)) as state = as.foldl visit state := by
  induction as generalizing state with
  | nil => rfl
  | cons a rest ih => exact ih (visit state a)

theorem consumed_find (test : α → Bool) (as : List α) :
    consumed (fun _ a => if test a then .done (some a) else .yield none) as none =
      as.find? test := by
  induction as with
  | nil => rfl
  | cons a rest ih =>
      rw [consumed, List.find?_cons]
      cases test a with
      | true => rfl
      | false => exact ih

theorem consumed_any (test : α → Bool) (as : List α) :
    consumed (fun _ a => if test a then .done true else .yield false) as false =
      (as.find? test).isSome := by
  induction as with
  | nil => rfl
  | cons a rest ih =>
      rw [consumed, List.find?_cons]
      cases test a with
      | true => rfl
      | false => exact ih

end Reader

section Chains

variable {α σ : Type} {next : Nat → Checked Refusal (α × Nat)} {start stop : Nat} {as : List α}

/-- A walk that has arrived has found a value with every step. -/
theorem exists_chain_of_walk {count : Nat}
    (h : Sequence.walk (fun p => Prod.snd <$> next p) count start = .ok stop) :
    ∃ as, as.length = count ∧ Chain next start as stop := by
  induction count generalizing start with
  | zero =>
      cases h
      exact ⟨[], rfl, .nil _⟩
  | succ count ih =>
      rcases Checked.bind_eq_ok.mp h with ⟨past, hpast, h⟩
      rcases Checked.map_eq_ok.mp hpast with ⟨⟨a, past'⟩, ha, hsnd⟩
      cases hsnd
      rcases ih h with ⟨rest, hlength, hrest⟩
      exact ⟨a :: rest, congrArg (· + 1) hlength, .cons ha hrest⟩

/-- What the strict steps have found, the lenient ones produce. -/
theorem Chain.produce (h : Chain next start as stop) :
    Reader.produce (fun p => Checked.speculate (next p)) as.length start = .ok as := by
  induction h with
  | nil position => rfl
  | cons h _ ih =>
      rw [List.length_cons, Reader.produce, h, Checked.speculate_ok, Checked.ok_bind]
      simp only [ih, Checked.ok_bind]
      rfl

theorem Chain.iterate (h : Chain next start as stop) (consume : σ → α → ForInStep σ) (state : σ) :
    Reader.iterate (fun p => Checked.speculate (next p)) consume as.length start state =
      .ok (Reader.consumed consume as state) := by
  induction h generalizing state with
  | nil position => rfl
  | @cons position past stop a rest h _ ih =>
      rw [List.length_cons, Reader.iterate, h, Checked.speculate_ok, Checked.ok_bind,
        Reader.consumed]
      simp only
      -- a consumer that is done leaves the rest of the chain alone
      cases consume state a with
      | done state => rfl
      | yield state => exact ih state

/-- The parts of the values lie next to each other, if those of each value do. -/
theorem Chain.adjoin (h : Chain next start as stop) {parts : α → List Reader}
    (hparts : ∀ p a q, next p = .ok (a, q) → Reader.Adjoin p (parts a) q) :
    Reader.Adjoin start (as.flatMap parts) stop := by
  induction h with
  | nil position => exact .nil position
  | cons h _ ih =>
      rw [List.flatMap_cons]
      exact (hparts _ _ _ h).append ih

/-- After as many steps as there are values before it, the walk finds the value. -/
theorem Chain.at_index (h : Chain next start as stop) {i : Nat} {a : α}
    (ha : as[i]? = some a) :
    ∃ p q, Sequence.walk (fun p => Prod.snd <$> next p) i start = .ok p ∧
      next p = .ok (a, q) := by
  induction h generalizing i with
  | nil position => cases ha
  | @cons position past stop first rest h _ ih =>
      cases i with
      | zero =>
          cases ha
          exact ⟨position, past, rfl, h⟩
      | succ i =>
          -- one step here, and the others from where it has ended
          rcases ih ha with ⟨p, q, hwalk, hnext⟩
          refine ⟨p, q, ?_, hnext⟩
          rw [Sequence.walk, h, Checked.ok_map, Checked.ok_bind]
          exact hwalk

end Chains

section Containers

variable {b : Buffer} {settings : Settings} {o m : Nat} {r : Reader}

/-- The lenient entry point yields no reader that the strict one does not. -/
theorem Format.wrap_of_tryWrap (hb : b.Addressable) {format : Format}
    (h : format.tryWrap b settings o m = .ok (some r)) : format.wrap b settings o m = .ok r := by
  rw [tryWrap_eq hb] at h
  rcases wrap_ok_or_refuses hb format settings o m with ⟨q, hq⟩ | hrefuses
  · rw [hq, Checked.speculate_ok] at h
    cases h
    exact hq
  · rw [Checked.speculate_of_refuses hrefuses] at h
    cases h

theorem Format.element_adjoin (hb : b.Addressable) {format : Format} {limit p q : Nat}
    (h : format.element b limit p = .ok (r, q)) : Reader.Adjoin p [r] q := by
  rcases element_eq_ok hb h with ⟨_, rfl, rfl, _⟩
  exact .cons (.nil _)

theorem Format.entry_adjoin (hb : b.Addressable) {key value : Format} {limit p q : Nat}
    {entry : Reader × Reader} (h : Format.entry b key value limit p = .ok (entry, q)) :
    Reader.Adjoin p [entry.1, entry.2] q := by
  rcases entry with ⟨k, v⟩
  rcases entry_eq_ok hb h with ⟨_, _, rfl, hv, rfl, _⟩
  exact .cons (hv ▸ .cons (.nil _))

/-- An item is what the walk over the items has found at its place. -/
theorem Chain.item_at (hb : b.Addressable) {item : Format} {limit start stop i : Nat}
    {items : List Reader} (h : Chain (item.element b limit) start items stop)
    (hr : items[i]? = some r) :
    Sequence.walk (item.past b limit) i start = .ok r.offset ∧
      item.wrap b {} r.offset limit = .ok r ∧ r.limit ≤ limit := by
  rcases h.at_index hr with ⟨p, q, hwalk, hstep⟩
  rcases Format.element_eq_ok hb hstep with ⟨_, rfl, rfl, _, hle⟩
  rcases Checked.map_eq_ok.mp hstep with ⟨found, hfound, hpair⟩
  cases hpair
  rw [funext (item.past_eq b limit)]
  exact ⟨hwalk, hfound, hle⟩

theorem Chain.entry_at (hb : b.Addressable) {key value : Format} {limit start stop i : Nat}
    {entries : List (Reader × Reader)} {k v : Reader}
    (h : Chain (Format.entry b key value limit) start entries stop)
    (hkv : entries[i]? = some (k, v)) :
    Sequence.walk (Format.pastEntry b key value limit) i start = .ok k.offset ∧
      key.wrap b {} k.offset limit = .ok k ∧ value.wrap b {} v.offset limit = .ok v ∧
      k.limit ≤ v.limit ∧ v.limit ≤ limit := by
  rcases h.at_index hkv with ⟨p, q, hwalk, hstep⟩
  rcases Format.entry_eq_ok hb hstep with ⟨_, _, rfl, hv, rfl, _, hle, hlimit⟩
  rcases Checked.bind_eq_ok.mp hstep with ⟨⟨k', pastKey⟩, hkey, hstep⟩
  rcases Checked.bind_eq_ok.mp hstep with ⟨⟨v', pastValue⟩, hvalue, hpair⟩
  cases hpair
  rcases Checked.map_eq_ok.mp hkey with ⟨k', hk', hkeyPair⟩
  cases hkeyPair
  rcases Checked.map_eq_ok.mp hvalue with ⟨v', hv', hvaluePair⟩
  cases hvaluePair
  rw [funext (Format.pastEntry_eq b key value limit), hv]
  exact ⟨hwalk, hk', hv', hle, hlimit⟩

/-- An array that was bound has a chain of its items. -/
theorem Format.array_chain (hb : b.Addressable) {width : SequenceWidth} {item : Format}
    (h : (Format.array width item).wrap b settings o m = .ok r) :
    ∃ s items stop, r = .array item s ∧ s.window.buffer = b ∧
      s.fieldsOffset = o + 2 * width.size ∧ items.length = s.count ∧
      Chain (item.element b s.limit) s.fieldsOffset items stop := by
  rcases wrap_eq_ok hb h with ⟨_, _, _, _, hwindow, hformat, _⟩
  cases r with
  | array item' s =>
      cases hformat
      rcases (wrap_bound hb h).array hb with ⟨hbuffer, _, _, stop, hwalk⟩
      rw [funext (item.past_eq b s.limit)] at hwalk
      rcases exists_chain_of_walk hwalk with ⟨items, hlength, hchain⟩
      have hoffset : s.window.offset = o := congrArg Window.offset hwindow
      refine ⟨s, items, stop, rfl, hbuffer, ?_, hlength, hchain⟩
      rw [Sequence.fieldsOffset, hoffset]
  | _ => cases hformat

/-- A map that was bound has a chain of its entries. -/
theorem Format.map_chain (hb : b.Addressable) {width : SequenceWidth} {key value : Format}
    (h : (Format.map width key value).wrap b settings o m = .ok r) :
    ∃ s entries stop, r = .map key value s ∧ s.window.buffer = b ∧
      s.fieldsOffset = o + 2 * width.size ∧ entries.length = s.count / 2 ∧
      Chain (Format.entry b key value s.limit) s.fieldsOffset entries stop := by
  rcases wrap_eq_ok hb h with ⟨_, _, _, _, hwindow, hformat, _⟩
  cases r with
  | map key' value' s =>
      cases hformat
      rcases (wrap_bound hb h).map hb with ⟨hbuffer, _, _, stop, hwalk⟩
      rw [funext (pastEntry_eq b key value s.limit)] at hwalk
      rcases exists_chain_of_walk hwalk with ⟨entries, hlength, hchain⟩
      have hoffset : s.window.offset = o := congrArg Window.offset hwindow
      refine ⟨s, entries, stop, rfl, hbuffer, ?_, hlength, hchain⟩
      rw [Sequence.fieldsOffset, hoffset]
  | _ => cases hformat

/-- An array that was bound, by either entry point, has as many items as it counts.
    They lie next to each other from behind the prefixes on and do not pass the limit of
    the array. Each is the one that the walk has found after as many steps. All
    iterations go through just these, a search up to the one that it finds. The same
    holds of the entries of a map, of which there are half as many as it counts, each
    with its key in front of its value. -/
theorem Reader.iteration_complete (hb : b.Addressable) (settings : Settings) (o m : Nat) :
    (∀ width item r, ((Format.array width item).wrap b settings o m = .ok r ∨
        (Format.array width item).tryWrap b settings o m = .ok (some r)) →
      ∃ items stop, r.items = .ok items ∧ items.length = r.fieldCount ∧
        Adjoin (o + 2 * width.size) items stop ∧
        (∀ i q, items[i]? = some q →
          Sequence.walk (item.past b r.limit) i (o + 2 * width.size) = .ok q.offset ∧
          item.wrap b {} q.offset r.limit = .ok q ∧ q.limit ≤ r.limit) ∧
        (∀ (σ : Type) (visit : σ → Reader → σ) (state : σ),
          r.forEach visit state = .ok (items.foldl visit state)) ∧
        ∀ test, r.matchFirst test = .ok (items.find? test) ∧
          r.anyMatch test = .ok (items.find? test).isSome) ∧
    ∀ width key value r, ((Format.map width key value).wrap b settings o m = .ok r ∨
        (Format.map width key value).tryWrap b settings o m = .ok (some r)) →
      ∃ entries stop, r.entries = .ok entries ∧ entries.length = r.fieldCount / 2 ∧
        Adjoin (o + 2 * width.size) (entries.flatMap fun entry => [entry.1, entry.2]) stop ∧
        (∀ i k v, entries[i]? = some (k, v) →
          Sequence.walk (Format.pastEntry b key value r.limit) i (o + 2 * width.size) =
            .ok k.offset ∧
          key.wrap b {} k.offset r.limit = .ok k ∧ value.wrap b {} v.offset r.limit = .ok v ∧
          k.limit ≤ v.limit ∧ v.limit ≤ r.limit) ∧
        ∀ (σ : Type) (visit : σ → Reader × Reader → σ) (state : σ),
          r.forEachEntry visit state = .ok (entries.foldl visit state) := by
  constructor
  · intro width item r h
    have hwrap := h.elim id (Format.wrap_of_tryWrap hb)
    rcases Format.array_chain hb hwrap with
      ⟨s, items, stop, rfl, rfl, hfields, hlength, hchain⟩
    have hnext := funext (elementAt_eq hb item)
    have hiterate : ∀ {σ : Type} (consume : σ → Reader → ForInStep σ) (state : σ),
        (Reader.array item s).iterateItems consume state = .ok (consumed consume items state) := by
      intro σ consume state
      rw [iterateItems, hnext, ← hlength]
      exact hchain.iterate consume state
    refine ⟨items, stop, ?_, hlength, ?_, fun i q hq => ?_, fun σ visit state => ?_, fun test =>
      ⟨?_, ?_⟩⟩
    · rw [Reader.items, hnext, ← hlength]
      exact hchain.produce
    · have hadjoin := hchain.adjoin fun p a q h => Format.element_adjoin hb h
      rw [← hfields]
      simpa using hadjoin
    · rw [← hfields]
      exact hchain.item_at hb hq
    · rw [forEach, hiterate, consumed_yield]
    · rw [matchFirst, hiterate, consumed_find]
    · rw [anyMatch, hiterate, consumed_any]
  · intro width key value r h
    have hwrap := h.elim id (Format.wrap_of_tryWrap hb)
    rcases Format.map_chain hb hwrap with
      ⟨s, entries, stop, rfl, rfl, hfields, hlength, hchain⟩
    have hnext := funext (entryAt_eq hb key value)
    refine ⟨entries, stop, ?_, hlength, ?_, fun i k v hkv => ?_, fun σ visit state => ?_⟩
    · rw [Reader.entries, hnext, ← hlength]
      exact hchain.produce
    · rw [← hfields]
      exact hchain.adjoin fun p a q h => Format.entry_adjoin hb h
    · rw [← hfields]
      exact hchain.entry_at hb hkv
    · rw [forEachEntry, hnext, ← hlength, hchain.iterate, consumed_yield]

-- Octets run to the limit of their container, so the second item of this array is
-- empty, and the first value of this map leaves room for no other entry.
theorem Reader.iteration_complete_open :
    (∃ r items stop, (Format.array .eight .octets).wrap (.ofBytes [3, 2, 7, 8]) {} 0 4 = .ok r ∧
      r.items = .ok items ∧ items.length = 2 ∧ Adjoin 2 items stop ∧
      r.matchFirst (fun q => q.size == 0) = .ok (items.find? fun q => q.size == 0)) ∧
    ∃ r entries stop, (Format.map .eight (.fixed .uint8) .octets).tryWrap
        (.ofBytes [4, 2, 5, 9, 9]) {} 0 5 = .ok (some r) ∧
      r.entries = .ok entries ∧ entries.length = 1 ∧
      Adjoin 2 (entries.flatMap fun entry => [entry.1, entry.2]) stop := by
  have hb : (Buffer.ofBytes [3, 2, 7, 8]).Addressable := by
    unfold Buffer.Addressable
    decide
  have hb' : (Buffer.ofBytes [4, 2, 5, 9, 9]).Addressable := by
    unfold Buffer.Addressable
    decide
  have hwrap : (Format.array .eight .octets).wrap (.ofBytes [3, 2, 7, 8]) {} 0 4 =
      .ok (.array .octets ⟨.eight, ⟨.ofBytes [3, 2, 7, 8], 0, 4⟩, 3, 2⟩) := by
    rfl
  have htry : (Format.map .eight (.fixed .uint8) .octets).tryWrap (.ofBytes [4, 2, 5, 9, 9]) {}
      0 5 = .ok (some (.map (.fixed .uint8) .octets
        ⟨.eight, ⟨.ofBytes [4, 2, 5, 9, 9], 0, 5⟩, 4, 2⟩)) := by
    rfl
  rcases (iteration_complete hb {} 0 4).1 .eight .octets _ (.inl hwrap) with
    ⟨items, stop, hitems, hlength, hadjoin, _, _, hsearch⟩
  rcases (iteration_complete hb' {} 0 5).2 .eight (.fixed .uint8) .octets _ (.inr htry) with
    ⟨entries, stop', hentries, hcount, hadjoin', _⟩
  exact ⟨⟨_, items, stop, hwrap, hitems, hlength, hadjoin, (hsearch _).1⟩,
    ⟨_, entries, stop', htry, hentries, hcount, hadjoin'⟩⟩

end Containers

end Wireform
