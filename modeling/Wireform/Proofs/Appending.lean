import Wireform.Proofs.Nesting
import Wireform.Proofs.Writing

/-!
# List-Shaped Values Are Written

Lists, arrays and maps, and with them every self-delimiting format.

A list-shaped value leaves room for its prefixes and fills them in at the end.
In between it holds some fields (`Sequence.Builder.holding`), and all three
kinds only differ in what a step appends to them (`Appends`). One induction over
the steps serves all of them. As with octets, a step that fails means that the
value as a whole does not fit.

What a nested builder appends is the encoding of its value, by induction on the
format. The step of the outer builder takes up where the nested one says that it
ended, and that is the limit of its reader. So this is where reading comes into
writing (`wrap_encoded`).

## Main definitions

* `Sequence.Builder.holding`: The state of a builder between two steps.
* `Sequence.Builder.Appends`: A step appends some fields, whatever is held.

## Theorems

* `Sequence.Builder.run_exactly`: Taking fields one after the other.
* `compose_sequence`: The life of a list-shaped builder.
* `Format.wrap_encoded`: A reader of an encoding ends with it and finds the value.
* `written_list`, `written_array`, `written_map`: List-shaped values.
* `Format.written`: Every script that spells a value writes it.
-/

namespace Wireform

section Sequences

namespace Sequence.Builder

variable {b : Buffer} {o m : Nat} {width : SequenceWidth}

/-- The builder that holds some fields behind the room for its prefixes. -/
def holding (b : Buffer) (o m : Nat) (width : SequenceWidth) (count : Nat) (fields : Bytes) :
    Builder :=
  ⟨width, ⟨b.overwrite (o + 2 * width.size) fields, o, m,
    o + 2 * width.size + fields.length⟩, count⟩

theorem valid_holding (hb : b.Addressable) (hm : m ≤ b.size) (o : Nat) (width : SequenceWidth)
    (count : Nat) (fields : Bytes) :
    (holding b o m width count fields).cursor.Valid :=
  Cursor.Valid.overwrite (c := ⟨b, o, m, _⟩) ⟨hb, hm⟩ _ _

theorem wrap_exactly (hb : b.Addressable) (ho : o ≤ m) (hm : m ≤ b.size)
    (width : SequenceWidth) :
    (wrap width b o m).Exactly (o + 2 * width.size ≤ m) (holding b o m width 0 []) := by
  unfold Buffer.Addressable at hb
  rw [wrap, Cursor.wrap_of_le ho hm, Checked.ok_bind]
  exact (Checked.Exactly.bind (Word.add_exactly o (2 * width.size)) fun _ =>
    (Cursor.setLimit_exactly _ _).bind_ok _).congr ⟨fun h => ⟨by omega, h⟩, fun h => h.2⟩

theorem advance_exactly (w : Builder) (count stop : Nat) :
    (w.advance count stop).Exactly (stop ≤ w.cursor.maxLimit ∧ w.count + count < 2 ^ (64 : Nat))
      { w with cursor.limit := stop, count := w.count + count } := by
  unfold advance
  exact Checked.Exactly.bind (Cursor.setLimit_exactly w.cursor stop) fun _ =>
    (Word.add_exactly w.count count).bind_ok _

/-- The builder with bytes written at the end, which are not counted yet. -/
def appended (w : Builder) (bytes : Bytes) : Builder :=
  { w with cursor := { w.cursor with buffer := w.cursor.buffer.overwrite w.cursor.limit bytes } }

/-- Bytes written at the end are taken into account as fields. -/
theorem advance_appended_exactly (total count : Nat) (fields bytes : Bytes) :
    (((holding b o m width total fields).appended bytes).advance count
        (o + 2 * width.size + fields.length + bytes.length)).Exactly
      (o + 2 * width.size + (fields ++ bytes).length ≤ m ∧ total + count < 2 ^ (64 : Nat))
      (holding b o m width (total + count) (fields ++ bytes)) := by
  have h := advance_exactly ((holding b o m width total fields).appended bytes) count
    (o + 2 * width.size + fields.length + bytes.length)
  simp only [appended, holding] at h ⊢
  rw [b.overwrite_append] at h ⊢
  rw [List.length_append, ← Nat.add_assoc]
  exact h

/-- Whoever writes bytes at the end of a list, they are appended as fields. -/
theorem advanced_exactly (total count : Nat) (fields bytes : Bytes)
    {written : Outcome Refusal Cursor Nat}
    (h : written.Exactly (o + 2 * width.size + fields.length + bytes.length ≤ m)
      (.ok (o + 2 * width.size + fields.length + bytes.length))
      ((holding b o m width total fields).appended bytes).cursor) :
    ((written.mapState fun cursor =>
        { holding b o m width total fields with cursor := cursor }).andThen fun stop written =>
          Outcome.ofChecked written (written.advance count stop)).Exactly
      (o + 2 * width.size + (fields ++ bytes).length ≤ m ∧ total + count < 2 ^ (64 : Nat))
      (.ok ()) (holding b o m width (total + count) (fields ++ bytes)) := by
  refine ((h.mapState _).andThen fun _ => Outcome.exactly_ofChecked _
    (advance_appended_exactly total count fields bytes)).congr ?_
  rw [List.length_append, ← Nat.add_assoc]
  exact ⟨fun h => ⟨h.1, h⟩, fun h => h.2⟩

theorem fieldsFrom_exactly (hb : b.Addressable) (hm : m ≤ b.size) (total count : Nat)
    (fields bytes : Bytes) :
    ((holding b o m width total fields).fieldsFrom count bytes).Exactly
      (o + 2 * width.size + (fields ++ bytes).length ≤ m ∧ total + count < 2 ^ (64 : Nat))
      (.ok ()) (holding b o m width (total + count) (fields ++ bytes)) :=
  advanced_exactly total count fields bytes (Outcome.exactly_ofAnswer _
    (Cursor.put_exactly (valid_holding hb hm o width total fields) _ bytes))

theorem fields_exactly (hb : b.Addressable) (hm : m ≤ b.size) (total count : Nat)
    (fields bytes : Bytes) :
    ((holding b o m width total fields).fields count (.honest bytes)).Exactly
      (o + 2 * width.size + (fields ++ bytes).length ≤ m ∧ total + count < 2 ^ (64 : Nat))
      (.ok ()) (holding b o m width (total + count) (fields ++ bytes)) :=
  advanced_exactly total count fields bytes
    (Cursor.visit_exactly (valid_holding hb hm o width total fields) _ bytes)

/-- A nested writer that writes some bytes appends them as one field. -/
theorem item_exactly {write : Buffer → Nat → Nat → Outcome Refusal Buffer Nat} {P : Prop}
    (total : Nat) (fields bytes : Bytes)
    (h : (write (b.overwrite (o + 2 * width.size) fields)
        (o + 2 * width.size + fields.length) m).Exactly P
      (.ok (o + 2 * width.size + fields.length + bytes.length))
      ((b.overwrite (o + 2 * width.size) fields).overwrite
        (o + 2 * width.size + fields.length) bytes)) :
    ((holding b o m width total fields).item write).Exactly
      (P ∧ o + 2 * width.size + (fields ++ bytes).length ≤ m ∧ total + 1 < 2 ^ (64 : Nat))
      (.ok ()) (holding b o m width (total + 1) (fields ++ bytes)) := by
  unfold item
  refine (h.mapState _).andThen fun _ => ?_
  -- a nested writer that wrote something has not moved back
  have hforward : ¬ o + 2 * width.size + fields.length + bytes.length <
      (holding b o m width total fields).cursor.limit := Nat.not_lt.mpr (Nat.le_add_right _ _)
  rw [if_neg hforward]
  exact Outcome.exactly_ofChecked _ (advance_appended_exactly total 1 fields bytes)

/-- The prefixes are filled in exactly where length and count fit them. -/
theorem finish_exactly (hb : b.Addressable) (hm : m ≤ b.size) (width : SequenceWidth)
    (count : Nat) (fields : Bytes) (hroom : o + 2 * width.size + fields.length ≤ m) :
    (holding b o m width count fields).finish.Exactly (Format.FramedFits width count fields)
      ⟨b.overwrite o (Format.framed width count fields), o, m,
        o + 2 * width.size + fields.length⟩ := by
  have hvalid := valid_holding hb hm o width count fields
  -- the prefixes go in front of fields that are there already
  have hfront := b.overwrite_front o
    (Bytes.word width.size (width.size + fields.length) ++ Bytes.word width.size count) fields
  rw [List.length_append, Bytes.length_word, Bytes.length_word, ← Nat.two_mul] at hfront
  have hlength : o + 2 * width.size + fields.length - o - width.size =
      width.size + fields.length := by omega
  unfold finish
  simp only []
  rw [Word.sub_of_le (by simp only [holding]; omega), Checked.ok_bind,
    Word.sub_of_le (by simp only [holding]; omega), Checked.ok_bind]
  simp only [holding, hlength, Bytes.ofNatLE_eq_word] at hvalid ⊢
  have hstore := Cursor.store_exactly hvalid o
    (Bytes.word width.size (width.size + fields.length) ++ Bytes.word width.size count)
  rw [hfront] at hstore
  refine (Checked.exactly_ite ⟨_, rfl⟩ fun _ => Checked.exactly_ite ⟨_, rfl⟩ fun _ =>
    hstore).congr ?_
  rw [Format.FramedFits, List.length_append, Bytes.length_word, Bytes.length_word]
  simp only []
  omega

/-- The step appends fields to the builder of a list-shaped value, whatever it
    holds already, exactly when they fit and there is room for them. -/
def Appends (b : Buffer) (o m : Nat) (width : SequenceWidth) (shape : Builder → Wireform.Builder)
    (step : Step) (count : Nat) (bytes : Bytes) (fits : Prop) : Prop :=
  ∀ total fields, o + 2 * width.size + fields.length ≤ m →
    ((shape (holding b o m width total fields)).apply step).Exactly
      (fits ∧ o + 2 * width.size + (fields ++ bytes).length ≤ m ∧ total + count < 2 ^ (64 : Nat))
      (.ok ()) (shape (holding b o m width (total + count) (fields ++ bytes)))

/-- Steps that each append some fields append all of them, exactly when all fit
    and there is room for all. -/
theorem run_exactly {α : Type} {shape : Builder → Wireform.Builder} (count : α → Nat)
    (bytes : α → Bytes) (fits : α → Prop) {pieces : List α} {steps : List Step}
    (h : List.Forall₂ (fun a step => Appends b o m width shape step (count a) (bytes a) (fits a))
      pieces steps)
    (total : Nat) (fields : Bytes) (hroom : o + 2 * width.size + fields.length ≤ m)
    (htotal : total < 2 ^ (64 : Nat)) :
    ((shape (holding b o m width total fields)).run steps).Exactly
      ((∀ a ∈ pieces, fits a) ∧
        o + 2 * width.size + (fields ++ pieces.flatMap bytes).length ≤ m ∧
        total + (pieces.map count).sum < 2 ^ (64 : Nat))
      (.ok ())
      (shape (holding b o m width (total + (pieces.map count).sum)
        (fields ++ pieces.flatMap bytes))) := by
  induction h generalizing total fields with
  | nil =>
      rw [List.flatMap_nil, List.append_nil, List.map_nil, List.sum_nil, Nat.add_zero]
      exact (Outcome.exactly_of_eq (by rw [Wireform.Builder.run])).congr
        ⟨fun _ => trivial, fun _ => ⟨fun a ha => absurd ha List.not_mem_nil, hroom, htotal⟩⟩
  | @cons a step pieces steps hstep _ ih =>
      rw [Wireform.Builder.run, List.flatMap_cons, ← List.append_assoc, List.map_cons,
        List.sum_cons, ← Nat.add_assoc]
      refine ((hstep total fields hroom).andThen fun h => ih (total + count a)
        (fields ++ bytes a) h.2.1 h.2.2).congr ?_
      -- what fits at the end fits on the way
      rw [List.forall_mem_cons]
      refine ⟨fun h => ⟨⟨h.1.1, ?_, by omega⟩, h.1.2, h.2⟩,
        fun h => ⟨⟨h.1.1, h.2.1⟩, h.2.2⟩⟩
      have hlong := h.2.1
      rw [List.length_append] at hlong
      omega

end Sequence.Builder

theorem Builder.finish_exactly (before : Buffer) (format : Format) {x : Checked Refusal Cursor}
    {c : Cursor} {P : Prop} (h : x.Exactly P c) :
    (Builder.build.finish before format x).Exactly P
      (format.wrap c.buffer {} c.offset c.limit) c.buffer := by
  constructor
  · intro hp
    rw [h.1 hp]
    rfl
  · intro hp
    rcases h.2 hp with ⟨fault, hfault⟩
    exact ⟨fault, by rw [hfault]; rfl⟩

/-- A list-shaped value is written by steps that append its fields. -/
theorem compose_sequence {b : Buffer} {o m : Nat} (hb : b.Addressable) (ho : o ≤ m)
    (hm : m ≤ b.size) {format : Format} {width : SequenceWidth}
    {shape : Sequence.Builder → Builder}
    (hstart : format.start b o m = shape <$> Sequence.Builder.wrap width b o m)
    {α : Type} (count : α → Nat) (bytes : α → Bytes) (fits : α → Prop) {pieces : List α}
    {steps : List Step}
    (h : List.Forall₂ (fun a step =>
      Sequence.Builder.Appends b o m width shape step (count a) (bytes a) (fits a)) pieces steps)
    {total : Nat} {fields : Bytes} (htotal : (pieces.map count).sum = total)
    (hfields : pieces.flatMap bytes = fields)
    (hbuild : (shape (.holding b o m width total fields)).build =
      Builder.build.finish (b.overwrite (o + 2 * width.size) fields) format
        (Sequence.Builder.holding b o m width total fields).finish) :
    (format.compose steps b o m).Exactly
      ((Format.FramedFits width total fields ∧ ∀ a ∈ pieces, fits a) ∧
        o + (Format.framed width total fields).length ≤ m)
      (format.wrap (b.overwrite o (Format.framed width total fields)) {} o
        (o + (Format.framed width total fields).length))
      (b.overwrite o (Format.framed width total fields)) := by
  -- a count that fits its prefix cannot have overflowed on the way
  have hmax : width.maxValue < 2 ^ (32 : Nat) := width.width.maxValue_lt
  have hstarted := (Sequence.Builder.wrap_exactly hb ho hm width).map shape
  rw [← hstart] at hstarted
  have hrun (hroom : o + 2 * width.size ≤ m) :=
    Sequence.Builder.run_exactly count bytes fits h 0 [] hroom (by decide)
  simp only [Nat.zero_add, List.nil_append, htotal, hfields] at hrun
  have hbuilt (hroom : o + 2 * width.size + fields.length ≤ m) := Builder.finish_exactly
    (b.overwrite (o + 2 * width.size) fields) format
    (Sequence.Builder.finish_exactly hb hm width total fields hroom)
  rw [← hbuild] at hbuilt
  rw [Format.length_framed, ← Nat.add_assoc]
  refine (Format.compose_exactly hstarted hrun fun _ hq => hbuilt hq.2.1).congr ?_
  rw [Format.FramedFits]
  exact ⟨fun hc => ⟨by omega, ⟨hc.1.2, hc.2, by omega⟩, hc.1.1⟩,
    fun hc => ⟨⟨hc.2.2, hc.2.1.1⟩, hc.2.1.2.1⟩⟩

theorem written_list (width : SequenceWidth) {count : Nat} {bytes : Bytes} {steps : List Step}
    (h : Format.SpellsFields count bytes steps) :
    (Format.list width).Written (count, bytes) steps := by
  intro b o m hb ho hm
  rcases h with ⟨pieces, hcount, hbytes, hsteps⟩
  have happends : List.Forall₂ (fun piece step => Sequence.Builder.Appends b o m width .list step
      piece.1 piece.2 True) pieces steps := by
    refine hsteps.imp fun piece step hstep total fields hroom => ?_
    rcases hstep with rfl | rfl
    · rw [Builder.apply]
      exact ((Sequence.Builder.fieldsFrom_exactly hb hm total piece.1 fields piece.2).mapState
        Builder.list).congr ⟨fun h => h.2, fun h => ⟨trivial, h⟩⟩
    · rw [Builder.apply]
      exact ((Sequence.Builder.fields_exactly hb hm total piece.1 fields piece.2).mapState
        Builder.list).congr ⟨fun h => h.2, fun h => ⟨trivial, h⟩⟩
  refine (compose_sequence hb ho hm rfl Prod.fst Prod.snd (fun _ => True) happends
    hcount.symm hbytes.symm rfl).congr ?_
  exact ⟨fun h => ⟨⟨h.1, fun _ _ => trivial⟩, h.2⟩, fun h => ⟨h.1.1, h.2⟩⟩

end Sequences

section Nested

/-- A reader bound to the encoding of a value ends with it and holds the
    value. -/
theorem Format.wrap_encoded {format : Format} (h : format.isSelfDelimiting) {v : format.Value}
    (hv : format.Fits v) {b : Buffer} (hb : b.Addressable) {o m : Nat} (hm : m ≤ b.size)
    (hroom : o + (format.encode v).length ≤ m)
    (hbytes : b.segment o (o + (format.encode v).length) = format.encode v) :
    ∃ r c, format.wrap b {} o m = .ok r ∧ r.limit = o + (format.encode v).length ∧
      r.content = .ok c ∧ c.bytes = format.encode v ∧ format.value c = v := by
  -- the window is the encoding and whatever stands behind it
  have htake : (b.segment o m).take (format.encode v).length = format.encode v := by
    rw [b.segment_take hroom, hbytes]
  have hsplit : b.segment o m =
      format.encode v ++ (b.segment o m).drop (format.encode v).length :=
    (List.take_append_drop _ _).symm.trans (by rw [htake])
  rcases parse_encode_append h v hv ((b.segment o m).drop (format.encode v).length) with
    ⟨c, hparse, hc, hvalue⟩
  rw [← hsplit] at hparse
  have hf := format.wrap_follows hb {} o m (by omega) hm
  rw [hparse] at hf
  rcases hf with ⟨r, hr, _, hformat, hlimit, _, hcontent⟩
  refine ⟨r, c, hr, ?_, ?_, hc, hvalue⟩
  · rw [hlimit, Content.size, hc]
  · rw [Reader.content, hformat]
    exact hcontent

/-- A nested builder writes its value and answers with the position past it. -/
theorem Format.Written.write_exactly {format : Format} (hd : format.isSelfDelimiting)
    {v : format.Value} {steps : List Step} (h : format.Written v steps) {b : Buffer} {o m : Nat}
    (hb : b.Addressable) (ho : o ≤ m) (hm : m ≤ b.size) :
    ((Element.built format {} steps).write b o m).Exactly
      (format.Fits v ∧ o + (format.encode v).length ≤ m)
      (.ok (o + (format.encode v).length)) (b.overwrite o (format.encode v)) := by
  rw [write_built]
  constructor
  · intro hfits
    rw [(h b o m hb ho hm).1 hfits]
    have hsize := b.size_overwrite o (format.encode v)
    rcases wrap_encoded hd hfits.1 (hb.overwrite o (format.encode v)) (by omega) (Nat.le_refl _)
      (b.segment_overwrite (by omega)) with ⟨r, c, hr, hlimit, _⟩
    simp only [hr, Checked.ok_map, hlimit]
  · intro hfits
    rcases (h b o m hb ho hm).2 hfits with ⟨fault, hfault⟩
    exact ⟨fault, by rw [hfault]; rfl⟩

/-- Items written by nested builders. -/
theorem written_array (width : SequenceWidth) {item : Format} (hd : item.isSelfDelimiting)
    {items : List item.Value} {steps : List Step}
    (h : List.Forall₂ (fun v step => ∃ script, item.Written v script ∧
      step = .item (.built item {} script)) items steps) :
    (Format.array width item).Written items steps := by
  intro b o m hb ho hm
  have happends : List.Forall₂ (fun v step => Sequence.Builder.Appends b o m width
      (.array item) step 1 (item.encode v) (item.Fits v)) items steps := by
    refine h.imp fun v step hstep total fields hroom => ?_
    rcases hstep with ⟨script, hscript, rfl⟩
    -- the nested builder is given the window from the end of the fields on
    have hwrite := hscript.write_exactly hd (hb.overwrite (o + 2 * width.size) fields) hroom
      (by rw [Buffer.size_overwrite]; exact hm)
    rw [Builder.apply]
    refine ((Sequence.Builder.item_exactly total fields (item.encode v) hwrite).mapState
      (Builder.array item)).congr ?_
    rw [List.length_append, ← Nat.add_assoc]
    exact ⟨fun hc => ⟨⟨hc.1, hc.2.1⟩, hc.2⟩, fun hc => ⟨hc.1.1, hc.2⟩⟩
  have hcount : (items.map fun _ => 1).sum = items.length := by
    rw [List.map_const', List.sum_replicate_nat, Nat.mul_one]
  exact compose_sequence hb ho hm rfl (fun _ => 1) item.encode item.Fits happends hcount rfl rfl

/-- Entries whose keys and values are written by nested builders. -/
theorem written_map (width : SequenceWidth) {key value : Format}
    (hk : key.isSelfDelimiting) (hv : value.isSelfDelimiting)
    {entries : List (key.Value × value.Value)} {steps : List Step}
    (h : List.Forall₂ (fun e step => ∃ keyScript valueScript, key.Written e.1 keyScript ∧
      value.Written e.2 valueScript ∧
      step = .entry (.built key {} keyScript) (.built value {} valueScript)) entries steps) :
    (Format.map width key value).Written entries steps := by
  intro b o m hb ho hm
  have happends : List.Forall₂ (fun e step => Sequence.Builder.Appends b o m width
      (.map key value) step 2 (key.encode e.1 ++ value.encode e.2)
      (key.Fits e.1 ∧ value.Fits e.2)) entries steps := by
    refine h.imp fun e step hstep total fields hroom => ?_
    rcases hstep with ⟨keyScript, valueScript, hks, hvs, rfl⟩
    have hkey := hks.write_exactly hk (hb.overwrite (o + 2 * width.size) fields) hroom
      (by rw [Buffer.size_overwrite]; exact hm)
    -- the value is written where the key has ended
    have hvalue (hroom : o + 2 * width.size + (fields ++ key.encode e.1).length ≤ m) :=
      hvs.write_exactly hv (hb.overwrite (o + 2 * width.size) (fields ++ key.encode e.1)) hroom
        (by rw [Buffer.size_overwrite]; exact hm)
    rw [Builder.apply, ← List.append_assoc]
    refine (((Sequence.Builder.item_exactly total fields (key.encode e.1) hkey).andThen
      fun hc => Sequence.Builder.item_exactly (total + 1) (fields ++ key.encode e.1)
        (value.encode e.2) (hvalue hc.2.1)).mapState (Builder.map key value)).congr ?_
    simp only [List.length_append, ← Nat.add_assoc]
    constructor
    · rintro ⟨⟨hfk, hfv⟩, hlong, hcount⟩
      exact ⟨⟨⟨hfk, by omega⟩, by omega, by omega⟩, ⟨hfv, by omega⟩, by omega, by omega⟩
    · rintro ⟨⟨⟨hfk, _⟩, _⟩, ⟨hfv, _⟩, hlong, hcount⟩
      exact ⟨⟨hfk, hfv⟩, by omega, by omega⟩
  have hcount : (entries.map fun _ => 2).sum = 2 * entries.length := by
    rw [List.map_const', List.sum_replicate_nat, Nat.mul_comm]
  exact compose_sequence hb ho hm rfl (fun _ => 2)
    (fun e => key.encode e.1 ++ value.encode e.2) (fun e => key.Fits e.1 ∧ value.Fits e.2)
    happends hcount rfl rfl

theorem run_emptyList {w : EmptyList.Builder} {steps : List Step}
    (h : ∀ step ∈ steps, ∃ visitor, step = .fields 0 visitor) :
    (Builder.emptyList w).run steps = ⟨.ok (), .emptyList w⟩ := by
  induction steps with
  | nil => rw [Builder.run]
  | cons step rest ih =>
      rcases h step List.mem_cons_self with ⟨visitor, rfl⟩
      rw [Builder.run, Builder.apply, ← ih fun step hs => h step (List.mem_cons_of_mem _ hs)]
      rfl

theorem written_emptyList {steps : List Step}
    (h : ∀ step ∈ steps, ∃ visitor, step = .fields 0 visitor) :
    Format.emptyList.Written () steps := by
  intro b o m _ ho hm
  have hstart : (Format.emptyList.start b o m).Exactly True (.emptyList ⟨⟨b, o, m, o⟩⟩) := by
    rw [Format.start, EmptyList.Builder.wrap, Cursor.wrap_of_le ho hm]
    exact Checked.exactly_ok _
  exact (Format.compose_exactly hstart (fun _ => Outcome.exactly_of_eq (run_emptyList h))
    fun _ _ => Outcome.exactly_of_eq rfl).congr
      ⟨fun _ => ⟨trivial, trivial, trivial⟩, fun _ => ⟨trivial, ho⟩⟩

/-- Every script that spells a value of a self-delimiting format writes it. -/
theorem Format.written {format : Format} (hd : format.isSelfDelimiting) {v : format.Value}
    {steps : List Step} (h : format.Spells v steps) : format.Written v steps := by
  induction format generalizing steps with
  | fixed kind =>
      cases h
      exact written_fixed kind v
  | varint kind =>
      cases h
      exact written_varint kind v
  | octets => exact absurd hd Bool.false_ne_true
  | bounded width =>
      refine written_bounded ?_ h
      rintro rfl
      exact absurd hd Bool.false_ne_true
  | string width =>
      rcases h with ⟨placement, source, hsource, rfl⟩
      refine written_string ?_ v hsource placement
      rintro rfl
      exact absurd hd Bool.false_ne_true
  | varstring =>
      rcases h with ⟨placement, source, hsource, rfl⟩ | ⟨rfl, rfl⟩
      · exact written_varstring v hsource placement
      · exact written_varstring_unset
  | emptyList => exact written_emptyList h
  | list width => exact written_list width h
  | array width item ih =>
      have hi : item.isSelfDelimiting := hd
      refine written_array width hi (h.imp fun w step hstep => ?_)
      rcases hstep with ⟨script, hscript, rfl⟩
      exact ⟨script, ih hi hscript, rfl⟩
  | map width key value ihk ihv =>
      rcases Bool.and_eq_true_iff.mp hd with ⟨hk, hv⟩
      refine written_map width hk hv (h.imp fun e step hstep => ?_)
      rcases hstep with ⟨keyScript, valueScript, hks, hvs, rfl⟩
      exact ⟨keyScript, valueScript, ihk hk hks, ihv hv hvs, rfl⟩

end Nested

end Wireform
