import ClassWeave.Proofs.ClassFile.RoundTrip
import ClassWeave.Proofs.Weaving.Edit

/-!
# Soundness under edits

Writing leaves three limits unchecked: the number of bytes of a text, the number of bytes of a
method body and the number of annotations in a list.  Apart from these, everything that reading asks
for is kept by every edit.

* `ClassFile.Sound` : a class file is as reading asks for, but for the limits.
* `ClassFile.WithinLimits` : it keeps to the limits, which can be decided.
* `ClassFile.Sound.readable_iff`, `Sound.read_iff` : a sound class file can be read back just within
  the limits.
* `ClassFile.Sound.gained`, `Sound.annotated`, `Sound.rewritten`, `Sound.reparented` : edits keep
  class files sound.
-/

namespace ClassWeave

namespace Attribute

variable {p q : ConstantPool} {a : Attribute}

/-- The attribute is as reading asks for, but for the limits that writing leaves unchecked. -/
def Sound (pool : ConstantPool) (a : Attribute) : Prop :=
  a.Named pool ∧ match a with
    | raw _ _ => True
    | annotations _ list => ∀ x ∈ list, AnnotationInfo.Fits x
    | code _ body => 0 < body.instructions.length ∧ ∀ x ∈ body.attributes, x.Fits pool

/-- The attribute keeps to the limits that writing leaves unchecked. -/
def WithinLimits : Attribute → Prop
  | raw _ _ => True
  | annotations _ list => list.length < 2 ^ 16
  | code _ body => body.instructions.length < 2 ^ 16

instance : DecidablePred WithinLimits
  | raw _ _ => .isTrue trivial
  | annotations _ list => Nat.decLt list.length (2 ^ 16)
  | code _ body => Nat.decLt body.instructions.length (2 ^ 16)

theorem fits_iff : a.Fits p ↔ a.Sound p ∧ a.WithinLimits := by
  constructor
  · intro h
    obtain ⟨hnamed, hsized⟩ := h.here
    cases h with
    | raw => exact ⟨⟨hnamed, trivial⟩, trivial⟩
    | annotations => exact ⟨⟨hnamed, hsized.2⟩, hsized.1⟩
    | code _ hnested => exact ⟨⟨hnamed, hsized.1, hnested⟩, hsized.2⟩
  · rintro ⟨⟨hnamed, hsound⟩, hlimits⟩
    cases a with
    | raw => exact .raw ⟨hnamed, trivial⟩
    | annotations => exact .annotations ⟨hnamed, hlimits, hsound⟩
    | code => exact .code ⟨hnamed, hsound.1, hlimits⟩ hsound.2

theorem Named.mono (hpq : p.Extends q) (h : a.Named p) : a.Named q := by
  obtain ⟨text, htext, hselected⟩ := h
  exact ⟨text, hpq.utf8 htext, hselected⟩

theorem Fits.mono (hpq : p.Extends q) (h : a.Fits p) : a.Fits q := by
  induction h with
  | raw h => exact .raw ⟨h.1.mono hpq, h.2⟩
  | annotations h => exact .annotations ⟨h.1.mono hpq, h.2⟩
  | code h _ ih => exact .code ⟨h.1.mono hpq, h.2⟩ ih

theorem Sound.mono (hpq : p.Extends q) (h : a.Sound p) : a.Sound q := by
  obtain ⟨hnamed, hsound⟩ := h
  refine ⟨hnamed.mono hpq, ?_⟩
  cases a with
  | raw | annotations => exact hsound
  | code => exact ⟨hsound.1, fun x hx => (hsound.2 x hx).mono hpq⟩

/-- An attribute that keeps its bytes fits under every name that selects no other form. -/
theorem fits_raw {name : UInt16} {payload : Bytes} {text : String} (hname : p.utf8 name = .ok text)
    (htext : text ≠ codeName ∧ text ≠ visibleName ∧ text ≠ invisibleName) :
    (raw name payload).Fits p :=
  .raw ⟨⟨text, hname, htext⟩, trivial⟩

theorem IsFrames.fits (h : a.IsFrames p) : a.Fits p := by
  obtain ⟨name, frames, rfl, hname⟩ := h
  exact fits_raw hname (by decide)

end Attribute

/-! ### Members -/

theorem Attribute.mem_mapCode {f : Code → Code} {a : Attribute} {as : List Attribute}
    (h : a ∈ mapCode f as) :
    a ∈ as ∨ ∃ name body, code name body ∈ as ∧ a = code name (f body) := by
  induction as with
  | nil => cases h
  | cons b as ih =>
    cases b with
    | raw | annotations =>
      rw [mapCode] at h
      · rcases List.mem_cons.1 h with rfl | h
        · exact .inl List.mem_cons_self
        · rcases ih h with h | ⟨name, body, hbody, rfl⟩
          · exact .inl (List.mem_cons_of_mem _ h)
          · exact .inr ⟨name, body, List.mem_cons_of_mem _ hbody, rfl⟩
      · simp
    | code name body =>
      rcases List.mem_cons.1 h with rfl | h
      · exact .inr ⟨name, body, List.mem_cons_self, rfl⟩
      · exact .inl (List.mem_cons_of_mem _ h)

/-- A method stays sound when other instructions are put in place. -/
theorem Edit.sound_withSites {p : ConstantPool} {m : Member} {sites : List Instruction.Site}
    (h : ∀ a ∈ m.attributes, a.Sound p) : ∀ a ∈ (withSites sites m).attributes, a.Sound p := by
  intro a ha
  rcases Attribute.mem_mapCode ha with ha | ⟨name, body, hbody, rfl⟩
  · exact h a ha
  · obtain ⟨⟨text, htext, hselected⟩, hpos, hnested⟩ := h _ hbody
    exact ⟨⟨text, htext, hselected⟩, (Instruction.length_replaceFrom 0 _ _).symm ▸ hpos, hnested⟩

theorem FieldDesign.Realized.fits {p : ConstantPool} {d : FieldDesign} {f : Member}
    (h : d.Realized p f) : f.Fits p := by
  have hattributes := h.attributes
  unfold IsConstantTable at hattributes
  intro a ha
  split at hattributes
  · simp [hattributes] at ha
  · obtain ⟨name, slot, htable, hname, -⟩ := hattributes
    obtain rfl : a = _ := by simpa [htable] using ha
    exact Attribute.fits_raw hname (by decide)

theorem MethodDesign.Realized.sound {framed : Bool} {p : ConstantPool} {d : MethodDesign}
    {m : Member} (h : d.Realized framed p m) (hcode : d.code ≠ []) :
    ∀ a ∈ m.attributes, a.Sound p := by
  obtain ⟨name, body, htable, hname, hbody⟩ := h.body
  intro a ha
  obtain rfl : a = _ := by simpa [htable] using ha
  refine ⟨⟨_, hname, rfl⟩, ?_, fun x hx => (hbody.isFrames x hx).fits⟩
  exact List.length_pos_of_ne_nil (hbody.encodes.ne_nil hcode)

namespace ClassFile

/-- The class file is as reading asks for, but for the limits that writing leaves unchecked. -/
structure Sound (versions : VersionRange) (u : ClassFile) : Prop where
  /-- The version is accepted. -/
  version : versions.accepts u.major = true
  /-- The number of slots of the pool can be told. -/
  size : u.pool.size ≤ ConstantPool.maxSlots
  /-- The slots behind the first are those of constants in a row. -/
  slots : ∃ cs, u.pool.slots.toList = none :: ConstantPool.slotsOf cs
  /-- The attributes of fields can be stored. -/
  fields : ∀ f ∈ u.fields, f.Fits u.pool
  /-- Those of methods can, within the limits. -/
  methods : ∀ m ∈ u.methods, ∀ a ∈ m.attributes, a.Sound u.pool
  /-- So can those of the class. -/
  attributes : ∀ a ∈ u.attributes, a.Sound u.pool
  /-- The names that reading asks for lead somewhere. -/
  names : u.Resolved

/-- The class file keeps to the limits that writing leaves unchecked: every text takes at most 65535
bytes, every method body has at most as many bytes of code, and every list of annotations of the
class or a method at most as many annotations. -/
structure WithinLimits (u : ClassFile) : Prop where
  /-- The texts. -/
  texts : ∀ text, some (.utf8 text) ∈ u.pool.slots.toList →
    (ModifiedUtf8.encode text).length < 2 ^ 16
  /-- The method bodies, and the annotations of methods. -/
  methods : ∀ m ∈ u.methods, ∀ a ∈ m.attributes, a.WithinLimits
  /-- The annotations of the class. -/
  attributes : ∀ a ∈ u.attributes, a.WithinLimits

variable {versions : VersionRange} {u t : ClassFile}

theorem withinLimits_iff : u.WithinLimits ↔ (∀ slot ∈ u.pool.slots.toList, ∀ c ∈ slot, c.Fits) ∧
    (∀ m ∈ u.methods, ∀ a ∈ m.attributes, a.WithinLimits) ∧
      ∀ a ∈ u.attributes, a.WithinLimits := by
  constructor
  · intro h
    refine ⟨fun slot hslot c hc => ?_, h.methods, h.attributes⟩
    cases c with
    | utf8 text => exact h.texts text (Option.mem_def.1 hc ▸ hslot)
    | _ => trivial
  · rintro ⟨hfits, hmethods, hattributes⟩
    exact ⟨fun text htext => hfits _ htext _ rfl, hmethods, hattributes⟩

instance (u : ClassFile) : Decidable u.WithinLimits := decidable_of_iff _ withinLimits_iff.symm

namespace Sound

/-- **A sound class file can be read back just within the limits.** -/
theorem readable_iff (h : u.Sound versions) : u.Readable versions ↔ u.WithinLimits := by
  obtain ⟨cs, hcs⟩ := h.slots
  constructor
  · intro hread
    obtain ⟨-, ds, hds, hfits⟩ := ConstantPool.wellFormed_iff.1 hread.pool
    refine ⟨?_, ?_, ?_⟩
    · intro text htext
      rw [hds] at htext
      exact hfits (.utf8 text) (ConstantPool.mem_slotsOf.1 (by simpa using htext))
    · intro m hm a ha
      exact (Attribute.fits_iff.1 (hread.attributes.methods m hm a ha)).2
    · intro a ha
      exact (Attribute.fits_iff.1 (hread.attributes.own a ha)).2
  · intro hlimits
    -- a sound class file lacks nothing but the limits
    refine ⟨h.version, ?_, ⟨h.fields, ?_, ?_⟩, h.names⟩
    · refine ConstantPool.wellFormed_iff.2 ⟨Nat.lt_succ_of_le h.size, cs, hcs, fun c hc => ?_⟩
      cases c with
      | utf8 text =>
        refine hlimits.texts text ?_
        rw [hcs]
        exact List.mem_cons_of_mem _ (ConstantPool.mem_slotsOf.2 hc)
      | _ => trivial
    · intro m hm a ha
      exact Attribute.fits_iff.2 ⟨h.methods m hm a ha, hlimits.methods m hm a ha⟩
    · intro a ha
      exact Attribute.fits_iff.2 ⟨h.attributes a ha, hlimits.attributes a ha⟩

/-- The bytes of a sound class file are read as that class file just within the limits. -/
theorem read_iff {b : Bytes} (h : u.Sound versions) (hb : u.write = .ok b) :
    read versions b = .ok u ↔ u.WithinLimits := by
  rw [← h.readable_iff]
  exact ⟨fun hread => readable_of_read hread hb, fun hreadable => read_of_readable hreadable hb⟩

theorem of_read {b : Bytes} (h : read versions b = .ok u) : u.Sound versions := by
  obtain ⟨hversion, hfits, hnames, _, _, ⟨hsize, cs, _, hslots, -⟩, -⟩ := read_eq_ok.1 h
  exact ⟨hversion, Nat.le_of_lt_succ hsize, ⟨cs, hslots⟩, hfits.fields,
    fun m hm a ha => (Attribute.fits_iff.1 (hfits.methods m hm a ha)).1,
    fun a ha => (Attribute.fits_iff.1 (hfits.own a ha)).1, hnames⟩

/-! ### Edits keep class files sound -/

/-- A growing pool. -/
theorem grown (h : u.Sound versions) {q : ConstantPool} (hq : u.pool.Extends q) :
    ClassFile.Sound versions { u with pool := q } := by
  obtain ⟨cs, hcs⟩ := h.slots
  obtain ⟨ds, hds⟩ := hq.slots
  refine ⟨h.version, hq.size_le h.size, ⟨cs ++ ds, ?_⟩,
    fun f hf a ha => (h.fields f hf a ha).mono hq, fun m hm a ha => (h.methods m hm a ha).mono hq,
    fun a ha => (h.attributes a ha).mono hq, ?_⟩
  · show q.slots.toList = _
    rw [hds, hcs, ConstantPool.slotsOf_append, List.cons_append]
  obtain ⟨⟨name, hname⟩, hsuper, hfields, hmethods⟩ := h.names
  refine ⟨⟨name, hq.className hname⟩, ?_, ?_, ?_⟩
  · intro hne
    obtain ⟨name, hname⟩ := hsuper hne
    exact ⟨name, hq.className hname⟩
  · intro f hf
    obtain ⟨⟨name, hname⟩, descriptor, kind, hdescriptor, hkind⟩ := hfields f hf
    exact ⟨⟨name, hq.utf8 hname⟩, descriptor, kind, hq.utf8 hdescriptor, hkind⟩
  · intro m hm
    obtain ⟨⟨name, hname⟩, descriptor, hdescriptor⟩ := hmethods m hm
    exact ⟨⟨name, hq.utf8 hname⟩, descriptor, hq.utf8 hdescriptor⟩

/-- Fewer fields. -/
theorem filtered (h : u.Sound versions) (keep : Member → Bool) :
    ClassFile.Sound versions { u with fields := u.fields.filter keep } :=
  ⟨h.version, h.size, h.slots, fun f hf => h.fields f (List.mem_of_mem_filter hf), h.methods,
    h.attributes, h.names.thisClass, h.names.superClass,
    fun f hf => h.names.fields f (List.mem_of_mem_filter hf), h.names.methods⟩

/-- New members, if the descriptors of the new fields denote kinds and no new body is empty. -/
theorem gained (h : u.Sound versions) {fs : List FieldDesign} {ms : List MethodDesign}
    (hfs : ∀ d ∈ fs, ∃ kind, ValueKind.parse d.descriptor = .ok kind) (hms : ∀ d ∈ ms, d.code ≠ [])
    (ht : u.Gained fs ms t) : t.Sound versions := by
  obtain ⟨hpool, fields, methods, hfields, hmethods, heq⟩ := ht
  have hgrown := h.grown hpool
  rw [heq]
  refine ⟨h.version, hgrown.size, hgrown.slots, ?_, ?_, hgrown.attributes,
    hgrown.names.thisClass, hgrown.names.superClass, ?_, ?_⟩
  · intro f hf
    rcases List.mem_append.1 hf with hf | hf
    · exact hgrown.fields f hf
    · obtain ⟨d, -, hd⟩ := exists_of_mem_right hfields hf
      exact hd.fits
  · intro m hm
    rcases List.mem_append.1 hm with hm | hm
    · exact hgrown.methods m hm
    · obtain ⟨d, hmem, hd⟩ := exists_of_mem_right hmethods hm
      exact hd.sound (hms d hmem)
  · intro f hf
    rcases List.mem_append.1 hf with hf | hf
    · exact hgrown.names.fields f hf
    · obtain ⟨d, hmem, hd⟩ := exists_of_mem_right hfields hf
      obtain ⟨kind, hkind⟩ := hfs d hmem
      exact ⟨⟨d.name, hd.name⟩, d.descriptor, kind, hd.descriptor, hkind⟩
  · intro m hm
    rcases List.mem_append.1 hm with hm | hm
    · exact hgrown.names.methods m hm
    · obtain ⟨d, -, hd⟩ := exists_of_mem_right hmethods hm
      exact ⟨⟨d.name, hd.name⟩, d.descriptor, hd.descriptor⟩

/-- Other instructions in place. -/
theorem rewritten (h : u.Sound versions) (hpool : u.pool.Extends t.pool)
    (hmethods : ∀ m' ∈ t.methods, ∃ m ∈ u.methods, ∃ sites, m' = Edit.withSites sites m)
    (heq : t = { u with pool := t.pool, methods := t.methods }) : t.Sound versions := by
  have hgrown := h.grown hpool
  rw [heq]
  refine ⟨h.version, hgrown.size, hgrown.slots, hgrown.fields, ?_, hgrown.attributes,
    hgrown.names.thisClass, hgrown.names.superClass, hgrown.names.fields, ?_⟩
  · intro m' hm'
    obtain ⟨m, hm, sites, rfl⟩ := hmethods m' hm'
    exact Edit.sound_withSites (hgrown.methods m hm)
  · intro m' hm'
    obtain ⟨m, hm, sites, rfl⟩ := hmethods m' hm'
    exact hgrown.names.methods m hm

/-- Another superclass. -/
theorem reparented {old new : String} (h : u.Sound versions) (ht : Edit.Reparented old new u t) :
    t.Sound versions := by
  obtain ⟨hpool, hclass, ⟨p, -, -, hmethods⟩, heq⟩ := ht
  -- first the superclass, then the calls of its constructors
  have hmoved : ClassFile.Sound versions { u with pool := t.pool, superClass := t.superClass } := by
    have hgrown := h.grown hpool
    exact ⟨h.version, hgrown.size, hgrown.slots, hgrown.fields, hgrown.methods, hgrown.attributes,
      hgrown.names.thisClass, fun _ => ⟨new, hclass⟩, hgrown.names.fields, hgrown.names.methods⟩
  refine hmoved.rewritten (.refl _) (fun m' hm' => ?_) heq
  obtain ⟨m, hm, sites, done, -, -, rfl⟩ := exists_of_mem_right hmethods hm'
  exact ⟨m, hm, done, rfl⟩

/-- Another annotation. -/
theorem annotated (h : u.Sound versions) {a : AnnotationInfo} (ha : AnnotationInfo.Fits a)
    (hpool : u.pool.Extends t.pool)
    (hannotated : Edit.AnnotatedWith a t.pool u.attributes t.attributes)
    (heq : t = { u with pool := t.pool, attributes := t.attributes }) : t.Sound versions := by
  have hgrown := h.grown hpool
  obtain ⟨front, name, list, back, hname, hbs, has⟩ := hannotated
  have hattributes : ∀ x ∈ t.attributes, x.Sound t.pool := by
    have hnamed : (Attribute.annotations name (list ++ [a])).Named t.pool :=
      ⟨_, hname, .inr rfl⟩
    have hsound : ∀ x ∈ u.attributes, x.Sound t.pool := hgrown.attributes
    rw [hbs]
    intro x hx
    -- the list was there, or the attribute is new
    rcases has with has | ⟨rfl, rfl, has⟩
    all_goals rw [has] at hsound
    · simp only [List.mem_append, List.mem_cons] at hx hsound
      rcases hx with hx | rfl | hx
      · exact hsound x (.inl hx)
      · refine ⟨hnamed, fun y hy => ?_⟩
        rcases List.mem_append.1 hy with hy | hy
        · exact (hsound _ (.inr (.inl rfl))).2 y hy
        · exact List.mem_singleton.1 hy ▸ ha
      · exact hsound x (.inr (.inr hx))
    · simp only [List.mem_append, List.mem_singleton] at hx
      rcases hx with hx | rfl
      · exact hsound x hx
      · refine ⟨hnamed, fun y hy => ?_⟩
        exact List.mem_singleton.1 hy ▸ ha
  rw [heq]
  exact ⟨h.version, hgrown.size, hgrown.slots, hgrown.fields, hgrown.methods, hattributes,
    hgrown.names.thisClass, hgrown.names.superClass, hgrown.names.fields, hgrown.names.methods⟩

end Sound

end ClassFile

end ClassWeave
