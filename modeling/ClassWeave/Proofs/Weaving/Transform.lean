import ClassWeave.Proofs.Packed.Apply
import ClassWeave.Proofs.Pooled.Apply
import ClassWeave.Proofs.Weaving.Sound
import ClassWeave.Weaving.Transform

/-!
# Reading woven units back

Every stage of weaving keeps a unit sound, so the bytes of a woven unit are read back just within
the limits that writing leaves unchecked.

* `AnnotationInfo.gives_withStrings` : a new annotation leads back to its texts.
* `Strategy.Applied`, `Edit.gives_weaveBy` : what all edits of a strategy make of a unit.
* `ClassFile.transform_eq_ok`, `ClassFile.weave_eq_ok`, `ClassFile.weave_eq_none` : what comes
  before and after the edits.
* `ClassFile.applied_of_weave` : how a unit was packed.
* `ClassFile.sound_weave` : a unit that was read and woven is sound.
* `ClassFile.read_weave_iff` : when the bytes of a woven unit are read as that unit.
-/

namespace ClassWeave

/-! ### The marker -/

namespace AnnotationInfo

/-- A named text among the elements of an annotation. -/
def IsStringElement (pool : ConstantPool) (text : String × String) (e : UInt16 × Element) : Prop :=
  pool.utf8 e.1 = .ok text.1 ∧
    ∃ value, e.2 = .const stringTag value ∧ pool.utf8 value = .ok text.2

theorem IsStringElement.mono {p q : ConstantPool} (hpq : p.Extends q) {text : String × String}
    {e : UInt16 × Element} (h : IsStringElement p text e) : IsStringElement q text e := by
  obtain ⟨hname, value, he, hvalue⟩ := h
  exact ⟨hpq.utf8 hname, value, he, hpq.utf8 hvalue⟩

theorem gives_stringElement {p q : ConstantPool} {text : String × String} {e : UInt16 × Element}
    (h : Gives (do
      let n ← Interning.utf8 text.1
      let t ← Interning.utf8 text.2
      return (n, Element.const stringTag t)) p e q) : p.Extends q ∧ IsStringElement q text e := by
  obtain ⟨n, r, hn, h₁⟩ := gives_bind.1 h
  obtain ⟨t, r', ht, h₂⟩ := gives_bind.1 h₁
  obtain ⟨rfl, rfl⟩ := gives_pure.1 h₂
  obtain ⟨hpr, hn⟩ := Interning.gives_utf8 hn
  obtain ⟨hrq, ht⟩ := Interning.gives_utf8 ht
  exact ⟨hpr.trans hrq, hrq.utf8 hn, t, rfl, ht⟩

theorem gives_stringElements {p q : ConstantPool} {texts : List (String × String)}
    {es : List (UInt16 × Element)}
    (h : Gives (texts.mapM fun (name, text) => do
      let n ← Interning.utf8 name
      let t ← Interning.utf8 text
      return (n, Element.const stringTag t)) p es q) :
    p.Extends q ∧ List.Forall₂ (IsStringElement q) texts es := by
  induction texts generalizing p es with
  | nil =>
    obtain ⟨rfl, rfl⟩ := gives_pure.1 h
    exact ⟨.refl _, .nil⟩
  | cons text texts ih =>
    rw [List.mapM_cons] at h
    obtain ⟨e, r, he, h₁⟩ := gives_bind.1 h
    obtain ⟨rest, r', hrest, h₂⟩ := gives_bind.1 h₁
    obtain ⟨rfl, rfl⟩ := gives_pure.1 h₂
    obtain ⟨hpr, he⟩ := gives_stringElement he
    obtain ⟨hrq, hrest⟩ := ih hrest
    exact ⟨hpr.trans hrq, .cons (he.mono hrq) hrest⟩

/-- A new annotation leads back to its texts. -/
theorem gives_withStrings {p q : ConstantPool} {descriptor : String}
    {texts : List (String × String)} {a : AnnotationInfo}
    (h : Gives (withStrings descriptor texts) p a q) : p.Extends q ∧
      q.utf8 a.type = .ok descriptor ∧ List.Forall₂ (IsStringElement q) texts a.elements := by
  obtain ⟨type, r, htype, h₁⟩ := gives_bind.1 h
  obtain ⟨elements, r', helements, h₂⟩ := gives_bind.1 h₁
  obtain ⟨rfl, rfl⟩ := gives_pure.1 h₂
  obtain ⟨hpr, htype⟩ := Interning.gives_utf8 htype
  obtain ⟨hrq, helements⟩ := gives_stringElements helements
  exact ⟨hpr.trans hrq, hrq.utf8 htype, helements⟩

theorem fits_of_stringElements {p : ConstantPool} {texts : List (String × String)}
    {a : AnnotationInfo} (h : List.Forall₂ (IsStringElement p) texts a.elements)
    (htexts : texts.length < 2 ^ 16) : Fits a := by
  refine ⟨h.length_eq ▸ htexts, fun e he => ?_⟩
  obtain ⟨text, -, -, value, hvalue, -⟩ := exists_of_mem_right h he
  rw [hvalue]
  exact .const rfl

end AnnotationInfo

variable {versions : VersionRange} {index : TypeIndex} {settings : Settings} {u t : ClassFile}

theorem Edit.gives_markWoven {s : Strategy} {r : Unit} (h : Gives (markWoven s) u r t) :
    ∃ fingerprint marker q, u.fingerprint = .ok fingerprint ∧ u.pool.Extends q ∧
      q.utf8 marker.type = .ok wovenMarker ∧
      List.Forall₂ (AnnotationInfo.IsStringElement q)
        [(Scan.strategyElement, s.name), (Scan.fingerprintElement, fingerprint)] marker.elements ∧
      q.Extends t.pool ∧ AnnotatedWith marker t.pool u.attributes t.attributes ∧
      t = { u with pool := t.pool, attributes := t.attributes } := by
  obtain ⟨fingerprint, v, hask, h₁⟩ := gives_bind.1 h
  obtain ⟨hfingerprint, rfl⟩ := gives_ask.1 hask
  obtain ⟨marker, v', hmarker, h₂⟩ := gives_bind.1 h₁
  obtain ⟨q, hgives, rfl⟩ := gives_interning hmarker
  obtain ⟨hext, htype, helements⟩ := AnnotationInfo.gives_withStrings hgives
  obtain ⟨hpool, hannotated, heq⟩ := gives_annotate h₂
  exact ⟨fingerprint, marker, q, hfingerprint, hext, htype, helements, hpool, hannotated, heq⟩

/-! ### The stages keep units sound -/

namespace ClassFile.Sound

theorem marked (h : u.Sound versions) {s : Strategy} {r : Unit}
    (ht : Gives (Edit.markWoven s) u r t) : t.Sound versions := by
  obtain ⟨_, marker, q, -, hext, -, helements, hpool, hannotated, heq⟩ := Edit.gives_markWoven ht
  have hfits : AnnotationInfo.Fits marker :=
    AnnotationInfo.fits_of_stringElements helements
      (by simp only [List.length_cons, List.length_nil]; decide)
  exact h.annotated hfits (hext.trans hpool) hannotated heq

theorem pooled (h : u.Sound versions) {owner : String} (ht : Pooled.Applied owner u t) :
    t.Sound versions := by
  obtain ⟨u₁, ⟨_, -, hreset⟩, hreparent⟩ := ht.stages
  have h₁ : u₁.Sound versions := by
    rcases hreset with ⟨-, rfl⟩ | ⟨-, targets, -, -, hgained⟩
    · exact h
    · refine h.gained (by simp) (fun d hd => ?_) hgained
      obtain rfl := List.mem_singleton.1 hd
      simp [Pooled.resetDesign, Pooled.resetCode]
  rcases hreparent with ⟨-, hmoved⟩ | ⟨-, rfl⟩
  · exact h₁.reparented hmoved
  · exact h₁

theorem packed (h : u.Sound versions) {owner : String} {layout : PackedLayout}
    (ht : Packed.Applied index owner layout u t) : t.Sound versions := by
  obtain ⟨u₁, u₂, u₃, u₄, hrewritten, hshared, ⟨init?, -, -, hinit⟩, hmethods, hreparent⟩ :=
    ht.stages
  -- the instructions, the fields, the method that sets up the class, and the other methods
  have h₁ : u₁.Sound versions := by
    refine h.rewritten hrewritten.pool (fun m' hm' => ?_) hrewritten.rest
    obtain ⟨m, hm, sites, done, -, -, rfl⟩ := exists_of_mem_right hrewritten.methods hm'
    exact ⟨m, hm, done, rfl⟩
  have h₂ : u₂.Sound versions :=
    (h₁.filtered _).gained (fun d hd => Packed.parse_of_mem_sharedFields hd) (by simp) hshared
  have h₃ : u₃.Sound versions := by
    refine h₂.gained (by simp) (fun d hd => ?_) hinit
    split at hd
    · obtain rfl := List.mem_singleton.1 hd
      exact List.cons_ne_nil _ _
    · cases hd
  have h₄ : u₄.Sound versions := by
    refine h₃.gained (fun d hd => ht.parse_of_mem_flyweightFields hd) (fun d hd => ?_) hmethods
    rcases List.mem_cons.1 hd with rfl | hd
    · exact List.cons_ne_nil _ _
    · obtain ⟨f, -, hd⟩ := List.mem_flatMap.1 hd
      simp only [List.mem_cons, List.not_mem_nil, or_false] at hd
      rcases hd with rfl | rfl
      · exact Packed.getterDesign_code_ne_nil
      · exact Packed.setterDesign_code_ne_nil
  rcases hreparent with ⟨-, hmoved⟩ | ⟨-, rfl⟩
  · exact h₄.reparented hmoved
  · exact h₄

end ClassFile.Sound

/-! ### The whole of weaving -/

/-- A strategy made the unit `t` of the unit `u`, and a packed one has the layout. -/
def Strategy.Applied (index : TypeIndex) (u : ClassFile) (layout? : Option PackedLayout)
    (t : ClassFile) : Strategy → Prop
  | .none => layout? = Option.none ∧ t = u
  | .pooled => layout? = Option.none ∧ ∃ owner, Pooled.Applied owner u t
  | .packed => ∃ owner layout, layout? = some layout ∧ Packed.Applied index owner layout u t

theorem Strategy.gives_apply {s : Strategy} {layout? : Option PackedLayout}
    (h : Gives (s.apply index) u layout? t) : s.Applied index u layout? t := by
  cases s with
  | none => exact gives_pure.1 h
  | pooled =>
    obtain ⟨_, v, hpooled, hend⟩ := gives_bind.1 h
    obtain ⟨rfl, rfl⟩ := gives_pure.1 hend
    exact ⟨rfl, Pooled.gives_apply hpooled⟩
  | packed =>
    have hmap : Strategy.apply index .packed = (do return some (← Packed.apply index)) := rfl
    rw [hmap] at h
    obtain ⟨layout, v, hpacked, hend⟩ := gives_bind.1 h
    obtain ⟨rfl, rfl⟩ := gives_pure.1 hend
    obtain ⟨owner, happlied⟩ := Packed.gives_apply hpacked
    exact ⟨owner, layout, rfl, happlied⟩

/-- A strategy is applied first, and then the unit is marked. -/
theorem Edit.gives_weaveBy {s : Strategy} {layout? : Option PackedLayout}
    (h : Gives (weaveBy index s) u layout? t) :
    ∃ v, s.Applied index u layout? v ∧ (s = .none ∧ t = v ∨ s ≠ .none ∧
      Gives (markWoven s) v () t) := by
  obtain ⟨r, v, happly, h₁⟩ := gives_bind.1 h
  split at h₁
  · rename_i hs
    obtain ⟨_, v', hmarked, hend⟩ := gives_bind.1 h₁
    obtain ⟨rfl, rfl⟩ := gives_pure.1 hend
    exact ⟨v, Strategy.gives_apply happly, .inr ⟨hs, hmarked⟩⟩
  · rename_i hs
    obtain ⟨rfl, rfl⟩ := gives_pure.1 h₁
    exact ⟨t, Strategy.gives_apply happly, .inl ⟨not_not.1 hs, rfl⟩⟩

/-- All edits of a strategy keep a unit sound. -/
theorem ClassFile.Sound.woven (h : u.Sound versions) {s : Strategy} {layout? : Option PackedLayout}
    (ht : Gives (Edit.weaveBy index s) u layout? t) : t.Sound versions := by
  obtain ⟨v, happlied, hmarked⟩ := Edit.gives_weaveBy ht
  -- what the strategy makes of the unit, which is then marked
  have hv : v.Sound versions := by
    cases s with
    | none => exact happlied.2 ▸ h
    | pooled =>
      obtain ⟨-, owner, happlied⟩ := happlied
      exact h.pooled happlied
    | packed =>
      obtain ⟨owner, layout, -, happlied⟩ := happlied
      exact h.packed happlied
  rcases hmarked with ⟨-, rfl⟩ | ⟨-, hmarked⟩
  · exact hv
  · exact hv.marked hmarked

namespace ClassFile

/-- A transformed unit is what all edits of the strategy make of the unit. -/
theorem transform_eq_ok {s : Strategy} {r : Woven} (h : u.transform s index settings = .ok r) :
    u.name = .ok r.name ∧ u.checkSuperclass index settings = .ok () ∧ r.strategy = s ∧
      Gives (Edit.weaveBy index s) u r.layout? r.unit ∧ r.unit.write = .ok r.bytes := by
  obtain ⟨name, hname, h₁⟩ := except_bind_eq_ok.1 h
  obtain ⟨_, hsuper, h₂⟩ := except_bind_eq_ok.1 h₁
  generalize hrun : (Edit.weaveBy index s).run u = result at h₂
  obtain ⟨_ | layout?, unit⟩ := result
  · cases h₂
  · obtain ⟨bytes, hbytes, hend⟩ := except_bind_eq_ok.1 h₂
    obtain rfl := except_pure_eq_ok.1 hend
    exact ⟨except_liftM_eq_ok.1 hname, hsuper, rfl, hrun, except_liftM_eq_ok.1 hbytes⟩

/-- A woven unit is what all edits of a strategy make of the unit, and its bytes are those that it
is written to. -/
theorem weave_eq_ok {r : Woven} (h : u.weave index settings = .ok (some r)) :
    ∃ scan, u.scan = .ok scan ∧ scan.effective = r.strategy ∧ r.strategy ≠ .none ∧
      u.name = .ok r.name ∧ u.checkSuperclass index settings = .ok () ∧
      u.validate r.strategy index = .ok () ∧
      Gives (Edit.weaveBy index r.strategy) u r.layout? r.unit ∧ r.unit.write = .ok r.bytes := by
  obtain ⟨scan, hscan, h₁⟩ := except_bind_eq_ok.1 h
  split at h₁
  · cases h₁
  rename_i heffective
  obtain ⟨_, hvalidate, h₂⟩ := except_bind_eq_ok.1 h₁
  obtain ⟨woven, htransform, hr⟩ := except_map_eq_ok.1 h₂
  cases hr
  obtain ⟨hname, hsuper, hstrategy, hgives, hbytes⟩ := transform_eq_ok htransform
  rw [hstrategy]
  exact ⟨scan, hscan, rfl, heffective, hname, hsuper, hvalidate, hgives, hbytes⟩

/-- A packed unit is what packing made of the unit, with a marker. -/
theorem applied_of_weave {r : Woven} (h : u.weave index settings = .ok (some r))
    (hpacked : r.strategy = .packed) : ∃ layout v, r.layout? = some layout ∧
      Packed.Applied index r.name layout u v ∧ v.pool.Extends r.unit.pool ∧
      r.unit = { v with pool := r.unit.pool, attributes := r.unit.attributes } := by
  obtain ⟨_, -, -, -, hname, -, -, hgives, -⟩ := weave_eq_ok h
  rw [hpacked] at hgives
  obtain ⟨v, ⟨owner, layout, hlayout, happlied⟩, ⟨hnone, -⟩ | ⟨-, hmarked⟩⟩ :=
    Edit.gives_weaveBy hgives
  · cases hnone
  obtain rfl := Except.ok.inj (happlied.name.symm.trans hname)
  obtain ⟨_, _, _, -, hvq, -, -, hqt, -, heq⟩ := Edit.gives_markWoven hmarked
  exact ⟨layout, v, hlayout, happlied, hvq.trans hqt, heq⟩

/-- Packing was among the edits that a packed unit comes from. -/
theorem exists_gives_of_weave {r : Woven} (h : u.weave index settings = .ok (some r))
    (hpacked : r.strategy = .packed) : ∃ layout v, Gives (Packed.apply index) u layout v := by
  obtain ⟨_, -, -, -, -, -, -, hgives, -⟩ := weave_eq_ok h
  rw [hpacked] at hgives
  obtain ⟨_, _, happly, -⟩ := gives_bind.1 hgives
  obtain ⟨layout, v, hpacking, -⟩ := gives_bind.1 happly
  exact ⟨layout, v, hpacking⟩

/-- A unit is left alone just when no strategy is to be applied. -/
theorem weave_eq_none : u.weave index settings = .ok none ↔
    ∃ scan, u.scan = .ok scan ∧ scan.effective = .none := by
  unfold weave
  rw [except_bind_eq_ok]
  constructor
  · rintro ⟨scan, hscan, h⟩
    split at h
    · rename_i heffective
      exact ⟨scan, hscan, heffective⟩
    · obtain ⟨_, -, h⟩ := except_bind_eq_ok.1 h
      obtain ⟨_, -, h⟩ := except_map_eq_ok.1 h
      cases h
  · rintro ⟨scan, hscan, heffective⟩
    refine ⟨scan, hscan, ?_⟩
    rw [if_pos heffective]
    rfl

/-- A unit that was read and woven is sound. -/
theorem sound_weave {b : Bytes} {r : Woven} (h : read versions b = .ok u)
    (hweave : u.weave index settings = .ok (some r)) : r.unit.Sound versions := by
  obtain ⟨_, -, -, -, -, -, -, hgives, -⟩ := weave_eq_ok hweave
  exact (Sound.of_read h).woven hgives

/-- **Reading woven units back.**  The bytes of a unit that was read and woven are read as the woven
unit just when this keeps to the limits that writing leaves unchecked: the bytes of every text, the
bytes of every method body and the annotations of every list can be counted by a half word. -/
theorem read_weave_iff {b : Bytes} {r : Woven} (h : read versions b = .ok u)
    (hweave : u.weave index settings = .ok (some r)) :
    read versions r.bytes = .ok r.unit ↔ r.unit.WithinLimits := by
  obtain ⟨_, -, -, -, -, -, -, -, hbytes⟩ := weave_eq_ok hweave
  exact (sound_weave h hweave).read_iff hbytes

/-- A class file without fields is pooled, and read back. -/
theorem read_weave_pooled :
    let u : ClassFile :=
      { minor := 0, major := 52,
        pool := ⟨#[none, some (.utf8 "A"), some (.classInfo 1), some (.utf8 "java/lang/Object"),
          some (.classInfo 3), some (.utf8 "<init>"), some (.utf8 "()V"),
          some (.utf8 "RuntimeInvisibleAnnotations"),
          some (.utf8 "Lcom/artemis/annotations/PooledWeaver;")]⟩,
        access := 0x21, thisClass := 2, superClass := 4, interfaces := [], fields := [],
        methods := [{ access := 1, name := 5, descriptor := 6, attributes := [] }],
        attributes := [.annotations 7 [{ type := 8, elements := [] }]] }
    ∃ b r, read {} b = .ok u ∧ u.weave .empty {} = .ok (some r) ∧ read {} r.bytes = .ok r.unit := by
  intro u
  obtain ⟨b, hread⟩ : ∃ b, read {} b = .ok u := exists_read (by decide +kernel)
  have hresult : Option.map (fun r => decide r.unit.WithinLimits) <$> u.weave .empty {} =
      .ok (some true) := by decide +kernel
  obtain ⟨r, hweave, hlimits⟩ := except_map_some_eq_ok.1 hresult
  exact ⟨b, r, hread, hweave, (read_weave_iff hread hweave).2 (of_decide_eq_true hlimits)⟩

end ClassFile

end ClassWeave
