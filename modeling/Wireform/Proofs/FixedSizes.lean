import Wireform.Proofs.Entries
import Wireform.Proofs.Typedefs

/-!
# Fixed Sizes Are Never Wrong

A type that is said to have a size takes as many bytes wherever it is used.

The size of a named type is found by one recursion and its description made by
another. Both follow typedefs from scope to scope, but the first counts its steps
while the second remembers the names it has met, and each reads the end of the
chain in its own way. `Sizes` says what a declaration takes without either of
them, and both are compared with it: a size that was found is the one it says, and
a description that was made has it for a limit.

The size of an array is a formula, two prefixes and the items, and what has to
agree with it is the array builder. Its items are written by whoever is called for
that, so nothing is known of them but what is asked of such a writer: to write the
item with its own builder, and to answer where it ends. An item of a fixed-width
integer then ends its width behind its start, the write position is known from the
number of items alone, and the length prefix carries it to the reader.

## Main definitions

* `Specification.Sizes`, `Specification.SizesType`: The bytes that a declaration, or
  a type seen from a path, takes wherever it is used.
* `AliasTarget.size?`: The same for what typedefs end in.
* `Builder.Itemized`: The states of an array builder.

## Theorems

* `sizes_of_fixedSizeWithin`: The size that is found is what the declaration takes.
* `size?_of_aliasTarget`: So is the size of what a typedef is described as.
* `limit_of_sizes`: A described declaration has its size for a limit.
* `Sequence.Builder.reader_of_build`: A built array ends where its builder stood.
* `Sequence.Builder.HoldsItems.item`: Where the builder stands after one more integer.
* `fixed_sizes_hold`: Sizes are the limits of descriptions and the sizes of arrays.
-/

namespace Wireform

/-- The bytes of the constants of an enum; absent where they vary. -/
def EnumDecl.size? (d : EnumDecl) : Option Nat :=
  match d.valueType with
  | none => some 4
  | some type => type.fixedWidth?

/-- The bytes that a declaration takes wherever it is used; absent where they
    vary. -/
inductive Specification.Sizes (spec : Specification) : Located → Option Nat → Prop where
  | enum {l : Located} {d : EnumDecl} (hl : l.declaration = .enum d) : spec.Sizes l d.size?
  | builtin {l : Located} {d : TypedefDecl} (hl : l.declaration = .typedef d)
      (haliased : ∀ name, d.aliased ≠ .named name) : spec.Sizes l d.aliased.fixedWidth?
  | through {l next : Located} {d : TypedefDecl} {name : String} {size : Option Nat}
      (hl : l.declaration = .typedef d) (hname : d.aliased = .named name)
      (hnext : next ∈ spec.located)
      (hresolves : Resolves spec.Defines name l.path next.qualifiedName)
      (hrest : spec.Sizes next size) : spec.Sizes l size
  | varies {l : Located} (henum : ∀ d, l.declaration ≠ .enum d)
      (htypedef : ∀ d, l.declaration ≠ .typedef d) : spec.Sizes l none

/-- The bytes that a type takes wherever it is used, with names seen from a path. -/
def Specification.SizesType (spec : Specification) (path : List String) :
    WireType → Option Nat → Prop
  | .named name, size =>
      ∃ l ∈ spec.located, Resolves spec.Defines name path l.qualifiedName ∧ spec.Sizes l size
  | type, size => size = type.fixedWidth?

/-- The bytes of what typedefs end in; absent where they vary. -/
def AliasTarget.size? : AliasTarget → Option Nat
  | .builtin type => type.fixedWidth?
  | .declared _ (.enum d) => d.size?
  | .declared _ _ => none

/-! ## The size that is found -/

section Sizes

variable {spec : Specification} {options : Options} {site : Site}
  (hunique : (spec.located.map Located.qualifiedName).Nodup)
  (hpaths : ∀ l ∈ spec.located, ∀ name ∈ l.path, IsIdentifier name)

include hunique

/-- A reference from any scope gives the entry of a declaration. -/
theorem Site.exists_located_of_resolve
    (htable : site.table = NameTable.ofSpecification spec options) {name : String}
    {entry : NameEntry} (h : site.resolve name = .ok entry) :
    ∃ l ∈ spec.located, site.table.qualify? site.scope name = some l.qualifiedName ∧
      entry = l.entry options := by
  rcases Site.resolve_eq_ok.mp h with ⟨q, hq, hentry⟩
  rw [htable] at hentry
  rcases (lookup?_ofSpecification hunique).mp hentry with ⟨l, hl, rfl, hsame⟩
  exact ⟨l, hl, hq, hsame⟩

include hpaths

/-- The size that is found is the size of the declaration that the name refers to. -/
theorem sizes_of_fixedSizeWithin (htable : site.table = NameTable.ofSpecification spec options)
    {steps : Nat} {name : String} {size : Option Nat}
    (h : site.fixedSizeWithin steps (.named name) = .ok size) :
    ∃ l ∈ spec.located, site.table.qualify? site.scope name = some l.qualifiedName ∧
      spec.Sizes l size := by
  -- on the steps that are left, from whatever scope the search has come to
  induction steps using Nat.strongRecOn generalizing site name with
  | ind steps ih =>
      rw [Site.fixedSizeWithin.eq_def] at h
      rcases Checked.bind_eq_ok.mp h with ⟨entry, hentry, h⟩
      rcases Site.exists_located_of_resolve hunique htable hentry with ⟨l, hl, hq, rfl⟩
      refine ⟨l, hl, hq, ?_⟩
      cases hdecl : l.declaration with
      | enum d =>
          rw [show (l.entry options).declaration = .enum d from hdecl] at h
          have hsize : size = d.size? := by
            rw [EnumDecl.size?]
            cases hvalue : d.valueType with
            | none =>
                simp only [hvalue] at h
                exact (Except.ok.inj h).symm
            | some type =>
                simp only [hvalue] at h
                exact (Except.ok.inj h).symm
          rw [hsize]
          exact .enum hdecl
      | typedef d =>
          rw [show (l.entry options).declaration = .typedef d from hdecl] at h
          cases steps with
          | zero => cases h
          | succ steps =>
              -- the next name is seen from the scope of the typedef
              change (site.inScope l.scope).fixedSizeWithin steps d.aliased = .ok size at h
              have htable' : (site.inScope l.scope).table =
                  NameTable.ofSpecification spec options := htable
              cases haliased : d.aliased with
              | named next =>
                  rw [haliased] at h
                  rcases ih steps (Nat.lt_succ_self steps) htable' h with ⟨k, hk, hqk, hsizes⟩
                  change site.table.qualify? l.scope next = _ at hqk
                  rw [htable] at hqk
                  have hresolves := (qualify?_ofSpecification hpaths hl next _).mp hqk
                  exact .through hdecl haliased hk hresolves hsizes
              | _ =>
                  rw [haliased] at h
                  have hsize : size = d.aliased.fixedWidth? := by
                    rw [haliased]
                    rw [Site.fixedSizeWithin.eq_def] at h
                    exact (Except.ok.inj h).symm
                  rw [hsize]
                  refine .builtin hdecl ?_
                  rw [haliased]
                  intro name hname
                  cases hname
      | _ =>
          rw [show (l.entry options).declaration = _ from hdecl] at h
          rw [← Except.ok.inj h]
          refine .varies ?_ ?_
          all_goals
            rw [hdecl]
            intro d hd
            cases hd

/-- From the scope of a declaration, the size that is found is the size of the
    type. -/
theorem sizesType_of_fixedSize (htable : site.table = NameTable.ofSpecification spec options)
    {l : Located} (hl : l ∈ spec.located) {type : WireType} {size : Option Nat}
    (h : (site.inScope l.scope).fixedSize type = .ok size) :
    spec.SizesType l.path type size := by
  cases type with
  | named name =>
      have htable' : (site.inScope l.scope).table = NameTable.ofSpecification spec options := htable
      rcases sizes_of_fixedSizeWithin hunique hpaths htable' h with ⟨k, hk, hq, hsizes⟩
      change site.table.qualify? l.scope name = _ at hq
      rw [htable] at hq
      exact ⟨k, hk, (qualify?_ofSpecification hpaths hl name _).mp hq, hsizes⟩
  | _ =>
      rw [Site.fixedSize, Site.fixedSizeWithin.eq_def] at h
      exact (Except.ok.inj h).symm

end Sizes

/-! ## The limit that is described -/

theorem describeBuiltin?_limit {identity : Identity} {type : WireType} {d : TypeDescription}
    (h : describeBuiltin? identity type = some d) {w : Nat} (hwidth : type.fixedWidth? = some w) :
    d.limit = .fixed w := by
  have hrule := WireType.limitRule?_of_fixedWidth? hwidth
  cases type with
  | fixed kind =>
      rw [describeBuiltin?, hrule] at h
      cases h
      rfl
  | _ => cases hwidth

theorem describeEnum_limit {site : Site} {d : EnumDecl} {description : TypeDescription}
    (h : describeEnum site d = .ok description) {w : Nat} (hsize : d.size? = some w) :
    description.limit = .fixed w := by
  rcases Checked.bind_eq_ok.mp h with ⟨values, _, h⟩
  rcases Checked.bind_eq_ok.mp h with ⟨⟨limit, value⟩, hencoding, h⟩
  cases h
  change limit = .fixed w
  rw [EnumDecl.size?] at hsize
  cases hvalue : d.valueType with
  | none =>
      rw [hvalue] at hsize hencoding
      cases hsize
      cases hencoding
      rfl
  | some type =>
      rw [hvalue] at hsize hencoding
      rcases Checked.bind_eq_ok.mp hencoding with ⟨identity, _, hencoding⟩
      cases hencoding
      -- only integers of fixed width have a size, and that is their limit
      rw [WireType.limitRule?_of_fixedWidth? hsize]
      rfl

section Limits

variable {spec : Specification} {options : Options} {site : Site}

theorem aliasTarget_of_builtin {steps : Nat} {seen : List String} {scope : String}
    {type : WireType} (h : ∀ name, type ≠ .named name) :
    aliasTarget site steps seen scope type = .ok (.builtin type) := by
  cases type with
  | named name => exact absurd rfl (h name)
  | _ => rw [aliasTarget.eq_def]

theorem size?_declared {l : Located} (hnot : ∀ d, l.declaration ≠ .typedef d)
    {size : Option Nat} (h : spec.Sizes l size) :
    (AliasTarget.declared l.scope l.declaration).size? = size := by
  cases h with
  | enum hl => rw [hl]; rfl
  | builtin hl _ => exact absurd hl (hnot _)
  | through hl _ _ _ _ => exact absurd hl (hnot _)
  | varies henum _ =>
      cases hdecl : l.declaration with
      | enum d => exact absurd hdecl (henum d)
      | _ => rfl

section Following

variable (hunique : (spec.located.map Located.qualifiedName).Nodup)
  (hpaths : ∀ l ∈ spec.located, ∀ name ∈ l.path, IsIdentifier name)
  (htable : site.table = NameTable.ofSpecification spec options)

include hunique hpaths htable

/-- What a typedef is followed to takes the bytes that the typedef takes. -/
theorem size?_of_aliasTarget {l : Located} {d : TypedefDecl} (hl : l ∈ spec.located)
    (hd : l.declaration = .typedef d) {size : Option Nat} (hsizes : spec.Sizes l size)
    {steps : Nat} {seen : List String} {target : AliasTarget}
    (h : aliasTarget site steps seen l.scope d.aliased = .ok target) : target.size? = size := by
  -- on the chain of typedefs, whatever names were met before it
  induction hsizes generalizing d steps seen with
  | enum hl' => cases hd.symm.trans hl'
  | varies _ htypedef => exact absurd hd (htypedef d)
  | builtin hl' haliased =>
      cases hd.symm.trans hl'
      rw [aliasTarget_of_builtin haliased] at h
      cases h
      rfl
  | @through l next e name size hl' hname hnext hresolves hrest ih =>
      cases hd.symm.trans hl'
      have hentry := Site.resolve_of_resolves hunique hpaths htable hl hnext hresolves
      rw [hname, aliasTarget.eq_def] at h
      simp only [hentry, Checked.ok_bind] at h
      by_cases hseen : (next.entry options).qualifiedName ∈ seen
      · rw [if_pos hseen] at h
        cases h
      rw [if_neg hseen, show (next.entry options).declaration = next.declaration from rfl] at h
      by_cases htypedef : ∃ f, next.declaration = .typedef f
      · rcases htypedef with ⟨f, hf⟩
        rw [hf] at h
        cases steps with
        | zero => cases h
        | succ steps => exact ih hnext hf h
      · have hnot : ∀ f, next.declaration ≠ .typedef f := fun f hf => htypedef ⟨f, hf⟩
        rw [← size?_declared hnot hrest]
        cases hdecl : next.declaration with
        | typedef f => exact absurd hdecl (hnot f)
        | _ =>
            rw [hdecl] at h
            cases h
            rfl

end Following

/-- A declaration that is described has its size for a limit. -/
theorem limit_of_sizes (hverify : spec.verify = .ok ()) {l : Located} (hl : l ∈ spec.located)
    {w : Nat} (hsizes : spec.Sizes l (some w)) {d : TypeDescription}
    (h : describeDeclaration (l.site spec options) l.declaration = .ok d) :
    d.limit = .fixed w := by
  rcases Specification.located_of_verify hverify with ⟨hpaths, _, hunique⟩
  by_cases htypedef : ∃ e, l.declaration = .typedef e
  · rcases htypedef with ⟨e, he⟩
    rw [he] at h
    rcases Checked.bind_eq_ok.mp h with ⟨target, htarget, h⟩
    have hsize := size?_of_aliasTarget hunique hpaths rfl hl he hsizes htarget
    cases target with
    | builtin type =>
        dsimp only at h
        cases hbuiltin : describeBuiltin? (l.site spec options).identity type with
        | none =>
            simp only [hbuiltin] at h
            cases h
        | some description =>
            simp only [hbuiltin] at h
            cases h
            exact describeBuiltin?_limit hbuiltin hsize
    | declared scope declaration =>
        cases declaration with
        | enum e => exact describeEnum_limit h hsize
        | _ => cases hsize
  · have hnot : ∀ e, l.declaration ≠ .typedef e := fun e he => htypedef ⟨e, he⟩
    have hsize := size?_declared hnot hsizes
    cases hdecl : l.declaration with
    | enum e =>
        rw [hdecl] at h hsize
        exact describeEnum_limit h hsize
    | typedef e => exact absurd hdecl (hnot e)
    | _ =>
        rw [hdecl] at hsize
        cases hsize

end Limits

/-! ## The size of an array -/

theorem Word.mul_eq_ok {ε : Type} {a b c : Nat} (h : (Word.mul a b : Checked ε Nat) = .ok c) :
    c = a * b := by
  rw [Word.mul, Word.fit] at h
  split at h
  · exact (Except.ok.inj h).symm
  · cases h

/-- What a field was described from. -/
theorem Site.field_eq_ok {site : Site} {m : Member} {offset : Option Nat} {f : FieldDescription}
    (h : site.field m offset = .ok f) :
    ∃ parameters size identity valueIdentity, site.parameters m.type = .ok parameters ∧
      site.memberSize m = .ok size ∧ site.identityOf m.type = .ok identity ∧
      site.valueIdentityOf m.type = .ok valueIdentity ∧
      f = { name := m.name, wireType := m.type.display, identity, valueIdentity, parameters, offset,
            size, required := m.isRequired, default := m.default, byteOrder := m.byteOrder } := by
  rcases Checked.bind_eq_ok.mp h with ⟨parameters, hparameters, h⟩
  rcases Checked.bind_eq_ok.mp h with ⟨size, hsize, h⟩
  rcases Checked.bind_eq_ok.mp h with ⟨identity, hidentity, h⟩
  rcases Checked.bind_eq_ok.mp h with ⟨valueIdentity, hvalue, h⟩
  exact ⟨parameters, size, identity, valueIdentity, hparameters, hsize, hidentity, hvalue,
    (Except.ok.inj h).symm⟩

/-- An array with a declared number of items takes two prefixes and the items. -/
theorem Site.memberSize_array {site : Site} {m : Member} {width : Width} {item : WireType}
    {count n : Nat} {size : Option Nat} (htype : m.type = .array width item)
    (hcount : m.size = some count) (hitem : site.fixedSize item = .ok (some n))
    (h : site.memberSize m = .ok size) : size = some (2 * width.size + count * n) := by
  have harray : site.fixedSize (.array width item) = .ok none := by
    rw [Site.fixedSize, Site.fixedSizeWithin.eq_def]
    rfl
  rw [Site.memberSize, htype, hcount, harray, Checked.ok_bind] at h
  simp only [hitem, Checked.ok_bind] at h
  rcases Checked.bind_eq_ok.mp h with ⟨items, hitems, h⟩
  rcases Checked.bind_eq_ok.mp h with ⟨total, htotal, h⟩
  rw [← Except.ok.inj h, Word.add_eq_ok htotal, Word.mul_eq_ok hitems, Width.bytes_eq_size]

/-- A writer that builds integers of a width answers that far behind its start. -/
theorem WritesFormat.stop_of_fixed {kind : FixedInt} {depth : Nat}
    {write : Buffer → Nat → Nat → Outcome Refusal Buffer Nat}
    (h : WritesFormat (.fixed kind) depth write) {b : Buffer} (hb : b.Addressable)
    {position maxLimit stop : Nat} (hle : position ≤ stop) (hstop : stop ≤ b.size)
    (hok : (write b position maxLimit).result = .ok stop) : stop = position + kind.width := by
  have hsize : (write b position maxLimit).state.size = b.size := (h.sameOutside b _ _).1
  -- the bytes up to the answer are those of an integer, so there is one width of them
  rcases h.isEncoding hb hok with ⟨c, hparse, hbytes⟩
  rcases Option.bind_eq_some_iff.mp hparse with ⟨front, hfront, hc⟩
  cases hc
  have hlength := Bytes.length_of_front? hfront
  rw [show front = _ from hbytes, Buffer.length_segment _ (by omega)] at hlength
  omega

/-- A built array has counted its items, and ends where its builder stood. -/
theorem Sequence.Builder.reader_of_build {s : Sequence.Builder} (hs : s.cursor.Valid)
    (hfields : s.cursor.offset + 2 * s.width.size ≤ s.cursor.limit)
    (hlimit : s.cursor.limit ≤ s.cursor.maxLimit) {item : Format} {r : Reader}
    (h : (Wireform.Builder.array item s).build.result = .ok r) :
    ∃ q, r = .array item q ∧ q.count = s.count ∧ r.limit = s.cursor.limit ∧
      r.offset = s.cursor.offset := by
  have hmax := hs.maxLimit_le
  -- the fields are whatever stands between the prefixes and the limit
  generalize hbytes : s.cursor.buffer.segment (s.cursor.offset + 2 * s.width.size)
    s.cursor.limit = fields
  have hlength : fields.length = s.cursor.limit - (s.cursor.offset + 2 * s.width.size) := by
    rw [← hbytes, Buffer.length_segment _ (by omega)]
  have hheld := s.eq_holding fields (by omega) hbytes
  have hfinish := finish_exactly hs.addressable hmax s.width s.count fields
    (o := s.cursor.offset) (by omega)
  rw [← hheld] at hfinish
  rw [Wireform.Builder.build] at h
  cases hcursor : s.finish with
  | error fault =>
      rw [hcursor] at h
      cases h
  | ok cursor =>
      rw [hcursor] at h
      rcases hfinish.of_eq_ok hcursor with ⟨hfits, rfl⟩
      rcases Checked.bind_eq_ok.mp h with ⟨q, hq, h⟩
      rcases Checked.bind_eq_ok.mp h with ⟨stop, _, h⟩
      cases h
      have hframed := Format.length_framed s.width s.count fields
      have hend : s.cursor.offset + 2 * s.width.size + fields.length =
          s.cursor.offset + (Format.framed s.width s.count fields).length := by omega
      have hroom : s.cursor.offset + (Format.framed s.width s.count fields).length ≤
          s.cursor.buffer.size := by omega
      simp only [hend] at hq
      -- the reader has read the prefixes that were written last
      have hfollows := follows_sequence (hs.addressable.overwrite s.cursor.offset
        (Format.framed s.width s.count fields)) (Nat.le_add_right _ _)
        (by rw [Buffer.size_overwrite]; exact hroom) s.width
      rw [s.cursor.buffer.segment_overwrite hroom, Format.parseSequence_framed hfits] at hfollows
      rcases hfollows with ⟨q', hq', _, hwindow, _, hle, hcontent⟩
      cases hq.symm.trans hq'
      have hused := congrArg (List.length ∘ Content.bytes) hcontent
      simp only [Function.comp_apply] at hused
      rw [Buffer.length_segment _ (by rw [Buffer.size_overwrite]; omega)] at hused
      have hoffset : q.window.offset = s.cursor.offset := congrArg Window.offset hwindow
      have hstart : s.cursor.offset ≤ q.limit := by
        rw [Sequence.limit, hoffset]
        omega
      refine ⟨q, rfl, (congrArg Content.count hcontent).symm, ?_, hoffset⟩
      change q.limit = _
      omega

/-- The states of an array builder whose items are written by builders of the
    format, whatever comes of each. -/
inductive Builder.Itemized (item : Format) (depth : Nat) (started : Builder) : Builder → Prop where
  | start : Itemized item depth started started
  | item {w : Builder} {write : Buffer → Nat → Nat → Outcome Refusal Buffer Nat}
      (h : Itemized item depth started w) (hwrite : WritesFormat item depth write) :
      Itemized item depth started (w.item write).state

/-- The builder of an array in the window `[o, m)` that holds its items, of one size
    each, and nothing else. -/
structure Sequence.Builder.HoldsItems (o m : Nat) (width : SequenceWidth) (size : Nat)
    (s : Sequence.Builder) : Prop where
  valid : s.cursor.Valid
  width_eq : s.width = width
  offset_eq : s.cursor.offset = o
  maxLimit_eq : s.cursor.maxLimit = m
  limit_eq : s.cursor.limit = o + 2 * width.size + s.count * size
  limit_le : s.cursor.limit ≤ m

section Items

variable {b : Buffer} {o m depth : Nat} {width : SequenceWidth} {kind : FixedInt}

theorem Sequence.Builder.holdsItems_of_wrap (hb : b.Addressable) (size : Nat)
    {s : Sequence.Builder} (h : Sequence.Builder.wrap width b o m = .ok s) :
    s.HoldsItems o m width size := by
  rcases Checked.bind_eq_ok.mp h with ⟨c, hc, _⟩
  have hopens := Cursor.opens_of_wrap hc
  rcases (wrap_exactly hb hopens.offset_le hopens.maxLimit_le width).of_eq_ok h with ⟨hroom, rfl⟩
  refine ⟨valid_holding hb hopens.maxLimit_le o width 0 [], rfl, rfl, rfl, ?_, hroom⟩
  rw [holding, Nat.zero_mul]
  rfl

/-- One more item, or a failure, leaves the builder holding its items. -/
theorem Sequence.Builder.HoldsItems.item {s : Sequence.Builder}
    (hs : s.HoldsItems o m width kind.width)
    {write : Buffer → Nat → Nat → Outcome Refusal Buffer Nat}
    (hwrite : WritesFormat (.fixed kind) depth write) :
    (s.item write).state.HoldsItems o m width kind.width := by
  have hframe := hwrite.sameOutside s.cursor.buffer s.cursor.limit s.cursor.maxLimit
  have hvalid : ∀ limit, Cursor.Valid { s.cursor with
      buffer := (write s.cursor.buffer s.cursor.limit s.cursor.maxLimit).state, limit } := by
    intro limit
    refine ⟨hframe.addressable hs.valid.addressable, ?_⟩
    change s.cursor.maxLimit ≤ _
    rw [hframe.1]
    exact hs.valid.maxLimit_le
  cases hresult : (s.item write).result with
  | error fault =>
      -- bytes may be left behind the limit, but the limit and the count stay
      rw [item_of_error hresult]
      exact ⟨hvalid _, hs.width_eq, hs.offset_eq, hs.maxLimit_eq, hs.limit_eq, hs.limit_le⟩
  | ok _ =>
      rcases item_of_ok hresult with ⟨stop, hok, hle, hmax, hstate⟩
      have hwidth := hwrite.stop_of_fixed hs.valid.addressable hle
        (Nat.le_trans hmax hs.valid.maxLimit_le) hok
      have hlimit := hs.limit_eq
      rw [hstate]
      refine ⟨hvalid stop, hs.width_eq, hs.offset_eq, hs.maxLimit_eq, ?_, ?_⟩
      · change stop = _ + (s.count + 1) * kind.width
        rw [Nat.succ_mul s.count]
        omega
      · change stop ≤ m
        rw [← hs.maxLimit_eq]
        exact hmax

theorem Builder.Itemized.holdsItems (hb : b.Addressable) {started w : Builder}
    (hstart : (Format.array width (.fixed kind)).start b o m = .ok started)
    (h : Builder.Itemized (.fixed kind) depth started w) :
    ∃ s, w = .array (.fixed kind) s ∧ s.HoldsItems o m width kind.width := by
  induction h with
  | start =>
      rcases Checked.map_eq_ok.mp hstart with ⟨s, hs, rfl⟩
      exact ⟨s, rfl, Sequence.Builder.holdsItems_of_wrap hb kind.width hs⟩
  | @item w write _ hwrite ih =>
      rcases ih with ⟨s, rfl, hs⟩
      exact ⟨(s.item write).state, rfl, hs.item hwrite⟩

/-- An array of integers takes two prefixes and the width of the integers for each of
    its items. -/
theorem Builder.Itemized.size_of_build (hb : b.Addressable) {started w : Builder}
    (hstart : (Format.array width (.fixed kind)).start b o m = .ok started)
    (h : Builder.Itemized (.fixed kind) depth started w) {r : Reader}
    (hr : w.build.result = .ok r) :
    ∃ q, r = .array (.fixed kind) q ∧ r.size = 2 * width.size + q.count * kind.width := by
  rcases h.holdsItems hb hstart with ⟨s, rfl, hs⟩
  have hlimit := hs.limit_eq
  have hoffset := hs.offset_eq
  have hle : s.cursor.limit ≤ s.cursor.maxLimit := hs.maxLimit_eq ▸ hs.limit_le
  rcases Sequence.Builder.reader_of_build hs.valid (by rw [hs.width_eq]; omega) hle hr with
    ⟨q, rfl, hcount, hend, hstart⟩
  refine ⟨q, rfl, ?_⟩
  rw [Reader.size, hend, hstart, hcount]
  omega

end Items

/-- A size that is found for a name is the limit of what the name refers to, from
    whatever scope and through whatever typedefs, once that is described. And where
    a member is an array with a declared number of integers of fixed width, or of
    names with such a size, every array of as many items that is built with writers
    of these integers has the size that the member is described with. -/
theorem fixed_sizes_hold {spec : Specification} (hverify : spec.verify = .ok ())
    (options : Options) :
    (∀ (site : Site) (name : String) (w : Nat),
      site.table = NameTable.ofSpecification spec options →
      site.fixedSize (.named name) = .ok (some w) →
      ∃ l ∈ spec.located, site.table.qualify? site.scope name = some l.qualifiedName ∧
        ∀ d, describeEntry site.table (l.entry options) = .ok d → d.limit = .fixed w) ∧
    ∀ (site : Site) (m : Member) (offset : Option Nat) (f : FieldDescription)
      (width : SequenceWidth) (item : WireType) (kind : FixedInt) (count : Nat),
      site.field m offset = .ok f → m.type = .array width.width item → m.size = some count →
      site.fixedSize item = .ok (some kind.width) →
      ∀ (b : Buffer) (o maxLimit depth : Nat) (started w : Builder) (r : Reader),
        b.Addressable → (Format.array width (.fixed kind)).start b o maxLimit = .ok started →
        Builder.Itemized (.fixed kind) depth started w → w.build.result = .ok r →
        ∃ q, r = .array (.fixed kind) q ∧ (q.count = count → f.size = some r.size) := by
  rcases Specification.located_of_verify hverify with ⟨hpaths, _, hunique⟩
  constructor
  · intro site name w htable hsize
    rcases sizes_of_fixedSizeWithin hunique hpaths htable hsize with ⟨l, hl, hq, hsizes⟩
    refine ⟨l, hl, hq, fun d hd => ?_⟩
    rw [htable, describeEntry_entry hunique hl] at hd
    exact limit_of_sizes hverify hl hsizes hd
  · intro site m offset f width item kind count hfield htype hcount hitem b o maxLimit depth
      started w r hb hstart hitemized hr
    rcases hitemized.size_of_build hb hstart hr with ⟨q, hq, hsize⟩
    refine ⟨q, hq, fun hitems => ?_⟩
    rcases Site.field_eq_ok hfield with ⟨_, size, _, _, _, hmember, _, _, rfl⟩
    change size = some r.size
    rw [Site.memberSize_array htype hcount hitem hmember, hsize, hitems]
    rfl

/-- A schema in which a typedef leads into another scope and back out of it, to an
    enum. -/
def levels : Specification where
  scope := .mk "example"
    [.mk "inner" [] [.typedef { name := "Code", aliased := .named "Level" }]]
    [.enum
      { name := "Level", valueType := some (.fixed .uint16), constants := [{ name := "LOW" }] },
      .typedef { name := "Mark", aliased := .named "inner::Code" }]

/-- Where a type is described that uses them. -/
def levelsSite : Site where
  table := NameTable.ofSpecification levels {}
  scope := "example"
  qualifiedName := "example::Frame"
  identity := default

/-- An array builder behind the first byte of a buffer. -/
def noMarks : Builder :=
  .array (.fixed .uint16) ⟨.eight, ⟨.ofBytes (List.replicate 12 9), 1, 10, 3⟩, 0⟩

/-- A nested builder that sets an integer. -/
def mark (n : Int) : Element :=
  .built (.fixed .uint16) {} [.set n]

/-- The array builder with two items, behind one that did not fit its type. -/
def twoMarks : Builder :=
  (((noMarks.item (mark 70000).write).state.item (mark 1).write).state.item (mark 2).write).state

/-- A member with two marks. -/
def marksMember : Member where
  name := "marks"
  type := .array .eight (.named "Mark")
  size := some 2

-- The size is found across scopes, and the array of two items has the size that the
-- member is described with.
theorem fixed_sizes_hold_levels :
    levels.verify = .ok () ∧ levelsSite.fixedSize (.named "Mark") = .ok (some 2) ∧
      (∃ l ∈ levels.located, l.qualifiedName = "example::Mark" ∧
        ∃ d, describeEntry levelsSite.table (l.entry {}) = .ok d ∧ d.limit = .fixed 2) ∧
      ∃ f r, levelsSite.field marksMember none = .ok f ∧ twoMarks.build.result = .ok r ∧
        f.size = some r.size ∧ r.size = 6 := by
  have hverify : levels.verify = .ok () := by decide +kernel
  have hsize : levelsSite.fixedSize (.named "Mark") = .ok (some 2) := by decide +kernel
  rcases fixed_sizes_hold hverify {} with ⟨hlimits, harrays⟩
  refine ⟨hverify, hsize, ?_, ?_⟩
  · have hdescribed : ∀ l ∈ levels.located,
        (describeEntry levelsSite.table (l.entry {})).isOk = true := by decide +kernel
    have hmark : levelsSite.table.qualify? levelsSite.scope "Mark" = some "example::Mark" := by
      decide +kernel
    rcases hlimits levelsSite "Mark" 2 rfl hsize with ⟨l, hl, hq, hlimit⟩
    rcases Checked.exists_of_isOk (hdescribed l hl) with ⟨d, hd⟩
    exact ⟨l, hl, (Option.some.inj (hmark.symm.trans hq)).symm, d, hd, hlimit d hd⟩
  · have hb : (Buffer.ofBytes (List.replicate 12 9)).Addressable := by
      unfold Buffer.Addressable
      decide
    have hwrites : ∀ n, WritesFormat (.fixed .uint16) 0 (mark n).write := by
      intro n
      refine Element.writesFormat fun s hs e he => ?_
      cases List.mem_singleton.mp hs
      cases he
    have hitemized : Builder.Itemized (.fixed .uint16) 0 noMarks twoMarks :=
      .item (.item (.item .start (hwrites _)) (hwrites _)) (hwrites _)
    have hbuilt : ∃ q, twoMarks.build.result = .ok (.array (.fixed .uint16) q) ∧ q.count = 2 ∧
        (Reader.array (.fixed .uint16) q).size = 6 := ⟨_, rfl, rfl, rfl⟩
    rcases hbuilt with ⟨q, hr, hcount, hsix⟩
    rcases Checked.exists_of_isOk
      (by decide +kernel : (levelsSite.field marksMember none).isOk = true) with ⟨f, hf⟩
    rcases harrays levelsSite marksMember none f .eight (.named "Mark") .uint16 2 hf rfl rfl hsize
      (.ofBytes (List.replicate 12 9)) 1 10 0 noMarks twoMarks _ hb rfl hitemized hr with
      ⟨q', hq', hsame⟩
    cases hq'
    exact ⟨f, _, hf, hr, hsame hcount, hsix⟩

end Wireform
