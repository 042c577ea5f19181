import ClassWeave.Proofs.Weaving.Resolvable
import ClassWeave.Proofs.Weaving.Scan
import Mathlib.Data.List.Find
import Mathlib.Data.List.Perm.Basic

/-!
# How the markers of a unit are arranged

Scanning looks for markers by searching the class annotations for the first of a type.  Once all
types can be told, whether there is one does not depend on the order of the annotations, on the
attributes that they stand in, or on whether they are visible.  Only of the woven marker more than
its presence counts, so the first of several would make a difference.

Moving an annotation to an attribute that was not there needs a slot for the name of that attribute.
So the pool may change as well, as long as it tells the same wherever scanning looks.

* `ClassFile.SameTexts`, `SameTexts.of_extends` : pools in which scanning reads the same off a unit,
  among them those that have grown.
* `ClassFile.Rearranged` : units that differ in how their class annotations are arranged.
* `ClassFile.Carries` : the marker of a strategy is among the class annotations.
* `ClassFile.scan_eq_ambiguous` : when scanning finds two markers.
* `ClassFile.scan_of_rearranged` : scanning rearranged units comes to the same.
-/

namespace ClassWeave

variable {p q : ConstantPool}

/-- The first match is the same in every order when there is no second one. -/
theorem find?_of_perm {α : Type} {test : α → Bool} {as bs : List α} (hperm : as.Perm bs)
    (hone : (as.filter test).length ≤ 1) : as.find? test = bs.find? test := by
  rw [← List.head?_filter, ← List.head?_filter]
  have hmatches := hperm.filter test
  rcases Nat.le_one_iff_eq_zero_or_eq_one.1 hone with hnone | hsingle
  · rw [List.length_eq_zero_iff.1 hnone] at hmatches ⊢
    rw [List.nil_perm.1 hmatches]
  · obtain ⟨a, ha⟩ := List.length_eq_one_iff.1 hsingle
    rw [ha] at hmatches ⊢
    rw [List.singleton_perm.1 hmatches]

namespace AnnotationInfo

variable {a : AnnotationInfo} {name : String}

/-- The annotation is of the type with this descriptor. -/
def isOfType (pool : ConstantPool) (descriptor : String) (a : AnnotationInfo) : Bool :=
  (typeDescriptor pool a).toOption == some descriptor

theorem isOfType_iff {descriptor : String} :
    isOfType p descriptor a = true ↔ typeDescriptor p a = .ok descriptor := by
  unfold isOfType
  cases typeDescriptor p a <;> simp [Except.toOption]

/-! ### Elements -/

theorem elementIn?_congr {elements : List (UInt16 × Element)}
    (h : ∀ e ∈ elements, q.utf8 e.1 = p.utf8 e.1) :
    elementIn? q name elements = elementIn? p name elements := by
  induction elements with
  | nil => rfl
  | cons e elements ih =>
    obtain ⟨own, value⟩ := e
    rw [List.forall_mem_cons] at h
    simp only [elementIn?, h.1, ih h.2]

theorem mem_of_elementIn? {elements : List (UInt16 × Element)} {value : Element}
    (h : elementIn? p name elements = .ok (some value)) : ∃ own, (own, value) ∈ elements := by
  induction elements with
  | nil => cases h
  | cons e elements ih =>
    obtain ⟨text, -, h⟩ := except_bind_eq_ok.1 h
    split_ifs at h
    · cases h
      exact ⟨e.1, List.mem_cons_self⟩
    · obtain ⟨own, hown⟩ := ih h
      exact ⟨own, List.mem_cons_of_mem _ hown⟩

/-- Pools in which the names and the texts of the elements are the same. -/
structure SameElements (a : AnnotationInfo) (p q : ConstantPool) : Prop where
  /-- The names. -/
  names : ∀ e ∈ a.elements, q.utf8 e.1 = p.utf8 e.1
  /-- The texts. -/
  texts : ∀ own value, (own, .const stringTag value) ∈ a.elements → q.utf8 value = p.utf8 value

/-- Elements that resolve do so as well in pools that have grown. -/
theorem SameElements.of_extends (hpool : p.Extends q)
    (hnames : ∀ e ∈ a.elements, ∃ text, p.utf8 e.1 = .ok text)
    (htexts : ∀ own value, (own, .const stringTag value) ∈ a.elements →
      ∃ text, p.utf8 value = .ok text) : a.SameElements p q where
  names e he := by
    obtain ⟨text, htext⟩ := hnames e he
    rw [htext, hpool.utf8 htext]
  texts own value he := by
    obtain ⟨text, htext⟩ := htexts own value he
    rw [htext, hpool.utf8 htext]

theorem SameElements.stringElement?_eq (h : a.SameElements p q) (name : String) :
    stringElement? q name a = stringElement? p name a := by
  simp only [stringElement?, element?, elementIn?_congr h.names]
  cases hvalue : elementIn? p name a.elements with
  | error => rfl
  | ok value? =>
    match value? with
    | none => rfl
    | some (.const tag value) =>
      obtain ⟨own, hown⟩ := mem_of_elementIn? hvalue
      show (if tag = stringTag then some <$> q.utf8 value else pure none) =
        if tag = stringTag then some <$> p.utf8 value else pure none
      split_ifs with htag
      · rw [h.texts own value (htag ▸ hown)]
      · rfl
    | some (.enumConst ..) | some (.classLiteral _) | some (.nested _) | some (.array _) => rfl

end AnnotationInfo

namespace ClassFile

variable {u v : ClassFile} {as bs : List (AnnotationInfo × Bool)} {s : Strategy}

/-! ### Searches -/

/-- The types of all annotations can be told. -/
def Typed (pool : ConstantPool) (as : List (AnnotationInfo × Bool)) : Prop :=
  ∀ a ∈ as, ∃ text, AnnotationInfo.typeDescriptor pool a.1 = .ok text

/-- When all types can be told, a search ends with the first annotation of the type. -/
theorem firstOfType?_of_typed (h : Typed p as) (descriptor : String) :
    firstOfType? p descriptor as =
      .ok ((as.map Prod.fst).find? (AnnotationInfo.isOfType p descriptor)) := by
  induction as with
  | nil => rfl
  | cons a as ih =>
    obtain ⟨⟨text, htext⟩, hrest⟩ := List.forall_mem_cons.1 h
    obtain ⟨a, visible⟩ := a
    simp only [firstOfType?, htext, List.map_cons, List.find?_cons, ih hrest]
    by_cases heq : text = descriptor
    · rw [AnnotationInfo.isOfType_iff.2 (heq ▸ htext)]
      show (if text = descriptor then _ else _) = _
      rw [if_pos heq]
      rfl
    · have hother : AnnotationInfo.isOfType p descriptor a = false := by
        rw [Bool.eq_false_iff, Ne, AnnotationInfo.isOfType_iff, htext]
        exact fun h => heq (Except.ok.inj h)
      rw [hother]
      show (if text = descriptor then _ else _) = _
      rw [if_neg heq]

theorem findAnnotation?_of_typed (hlist : u.annotations = .ok as) (h : Typed u.pool as)
    (descriptor : String) : u.findAnnotation? descriptor =
      .ok ((as.map Prod.fst).find? (AnnotationInfo.isOfType u.pool descriptor)) := by
  simp only [findAnnotation?, hlist]
  exact firstOfType?_of_typed h descriptor

/-! ### Two markers -/

/-- The marker of a strategy is among the class annotations. -/
def Carries (u : ClassFile) (s : Strategy) : Prop :=
  ∃ as descriptor, u.annotations = .ok as ∧ s.marker? = some descriptor ∧
    ∃ a ∈ as, AnnotationInfo.typeDescriptor u.pool a.1 = .ok descriptor

theorem hasMarker_of_typed (hlist : u.annotations = .ok as) (h : Typed u.pool as) (s : Strategy) :
    ∃ found, u.hasMarker s = .ok found ∧ (found = true ↔ u.Carries s) := by
  cases hmarker : s.marker? with
  | none =>
    refine ⟨false, by simp only [hasMarker, hmarker]; rfl, by simp [Carries, hmarker]⟩
  | some descriptor =>
    refine ⟨((as.map Prod.fst).find? (AnnotationInfo.isOfType u.pool descriptor)).isSome, ?_, ?_⟩
    · simp only [hasMarker, hmarker, findAnnotation?_of_typed hlist h]
      rfl
    · simp [Carries, hmarker, hlist, AnnotationInfo.isOfType_iff]

/-- The markers are told to be two just when both are found. -/
theorem declaredStrategy_eq_ambiguous (hlist : u.annotations = .ok as) (h : Typed u.pool as)
    {first second : String} : u.declaredStrategy = .error (.ambiguous first second) ↔
      (first = Strategy.pooled.label ∧ second = Strategy.packed.label) ∧
        u.Carries .pooled ∧ u.Carries .packed := by
  obtain ⟨pooled, hpooled, hcarries⟩ := hasMarker_of_typed hlist h .pooled
  obtain ⟨packed, hpacked, hcarries'⟩ := hasMarker_of_typed hlist h .packed
  rw [← hcarries, ← hcarries']
  simp only [declaredStrategy, hpooled, hpacked]
  cases pooled <;> cases packed <;>
    simp [bind, Except.bind, pure, Except.pure, liftM, monadLift, MonadLift.monadLift,
      Except.mapError, throw, throwThe, MonadExceptOf.throw, eq_comm]

/-- Reading something off a unit never tells of two markers. -/
theorem bind_eq_ambiguous {α β : Type} {e : Except Malformation α} {k : α → Except Error β}
    {first second : String} :
    (liftM e : Except Error α) >>= k = .error (.ambiguous first second) ↔
      ∃ a, e = .ok a ∧ k a = .error (.ambiguous first second) := by
  simp only [except_bind_eq_error, except_liftM_eq_error, except_liftM_eq_ok, reduceCtorEq,
    and_false, exists_false, false_or]

theorem checkRecord_ne_ambiguous {name first second : String} {declared : Strategy}
    {record : WovenRecord} :
    u.checkRecord name declared record ≠ .error (.ambiguous first second) := by
  obtain ⟨strategy?, fingerprint?⟩ := record
  have hfingerprint : ∀ recorded, (do
      let current ← u.fingerprint
      if recorded ≠ current then throw (.stale name (.fieldTable recorded current)) :
        Except Error Unit) ≠ .error (.ambiguous first second) := by
    intro recorded h
    obtain ⟨current, -, h⟩ := bind_eq_ambiguous.1 h
    split_ifs at h
    · cases h
    · cases h
  cases strategy? with
  | none =>
    cases fingerprint? with
    | none => exact except_pure_ne_error
    | some recorded => exact hfingerprint recorded
  | some strategy =>
    unfold checkRecord
    simp only
    split_ifs
    · nofun
    · cases fingerprint? with
      | none => exact except_pure_ne_error
      | some recorded => exact hfingerprint recorded

/-- Scanning finds two markers just when the unit has a name and carries both. -/
theorem scan_eq_ambiguous (hlist : u.annotations = .ok as) (h : Typed u.pool as)
    {first second : String} : u.scan = .error (.ambiguous first second) ↔
      (first = Strategy.pooled.label ∧ second = Strategy.packed.label) ∧
        (∃ name, u.name = .ok name) ∧ u.Carries .pooled ∧ u.Carries .packed := by
  rw [and_left_comm, ← declaredStrategy_eq_ambiguous hlist h]
  constructor
  · intro hscan
    obtain ⟨name, hname, hscan⟩ := bind_eq_ambiguous.1 hscan
    refine ⟨⟨name, hname⟩, ?_⟩
    rcases except_bind_eq_error.1 hscan with hdeclared | ⟨declared, -, hscan⟩
    · exact hdeclared
    -- nothing that comes behind the markers tells of two of them
    exfalso
    obtain ⟨woven?, -, hscan⟩ := bind_eq_ambiguous.1 hscan
    cases woven? with
    | none =>
      simp only [bind_eq_ambiguous, except_pure_ne_error, and_false, exists_false] at hscan
    | some record =>
      rcases except_bind_eq_error.1 hscan with hrecord | ⟨_, -, hscan⟩
      · exact checkRecord_ne_ambiguous hrecord
      · simp only [bind_eq_ambiguous, except_pure_ne_error, and_false, exists_false] at hscan
  · rintro ⟨⟨name, hname⟩, hdeclared⟩
    exact bind_eq_ambiguous.2 ⟨name, hname, except_bind_eq_error.2 (.inl hdeclared)⟩

/-! ### The same texts -/

/-- A pool in which scanning reads the same off a unit as in its own. -/
structure SameTexts (u : ClassFile) (as : List (AnnotationInfo × Bool)) (q : ConstantPool) :
    Prop where
  /-- The name of the class. -/
  thisClass : q.className u.thisClass = u.pool.className u.thisClass
  /-- The name of the superclass, if there is one. -/
  superClass : u.superClass ≠ 0 → q.className u.superClass = u.pool.className u.superClass
  /-- The names of the members. -/
  names : ∀ m ∈ u.fields ++ u.methods, m.nameIn q = m.nameIn u.pool
  /-- The descriptors of the members. -/
  descriptors : ∀ m ∈ u.fields ++ u.methods, m.descriptorIn q = m.descriptorIn u.pool
  /-- The types of the annotations. -/
  types : ∀ a ∈ as, AnnotationInfo.typeDescriptor q a.1 = AnnotationInfo.typeDescriptor u.pool a.1
  /-- The elements of the annotations. -/
  elements : ∀ a ∈ as, a.1.SameElements u.pool q

/-- When everything resolves, the pool may have grown. -/
theorem SameTexts.of_extends (hpool : u.pool.Extends q) (hnames : u.Resolved)
    (htypes : Typed u.pool as)
    (helements : ∀ a ∈ as, ∀ e ∈ a.1.elements, ∃ text, u.pool.utf8 e.1 = .ok text)
    (htexts : ∀ a ∈ as, ∀ own value, (own, .const AnnotationInfo.stringTag value) ∈ a.1.elements →
      ∃ text, u.pool.utf8 value = .ok text) : u.SameTexts as q where
  thisClass := by
    obtain ⟨name, hname⟩ := hnames.thisClass
    rw [hname, hpool.className hname]
  superClass hsuper := by
    obtain ⟨name, hname⟩ := hnames.superClass hsuper
    rw [hname, hpool.className hname]
  names m hm := by
    obtain ⟨⟨name, hname⟩, -⟩ :=
      (List.mem_append.1 hm).elim (hnames.fieldTexts m) (hnames.methods m)
    rw [hname]
    exact hpool.utf8 hname
  descriptors m hm := by
    obtain ⟨-, descriptor, hdescriptor⟩ :=
      (List.mem_append.1 hm).elim (hnames.fieldTexts m) (hnames.methods m)
    rw [hdescriptor]
    exact hpool.utf8 hdescriptor
  types a ha := by
    obtain ⟨text, htext⟩ := htypes a ha
    rw [htext]
    exact hpool.utf8 htext
  elements a ha := .of_extends hpool (helements a ha) (htexts a ha)

theorem firstMethod?_congr {name descriptor : String} {ms : List Member}
    (h : ∀ m ∈ ms, m.nameIn q = m.nameIn p ∧ m.descriptorIn q = m.descriptorIn p) :
    firstMethod? q name descriptor ms = firstMethod? p name descriptor ms := by
  induction ms with
  | nil => rfl
  | cons m ms ih =>
    obtain ⟨⟨hname, hdescriptor⟩, hrest⟩ := List.forall_mem_cons.1 h
    simp only [firstMethod?, hname, hdescriptor, ih hrest]

/-! ### Rearranged units -/

/-- Two units differ in how their class annotations are arranged, and in what scanning does not look
at. -/
structure Rearranged (u v : ClassFile) (as bs : List (AnnotationInfo × Bool)) : Prop where
  /-- The class. -/
  thisClass : v.thisClass = u.thisClass
  /-- The superclass. -/
  superClass : v.superClass = u.superClass
  /-- The fields. -/
  fields : v.fields = u.fields
  /-- The methods. -/
  methods : v.methods = u.methods
  /-- The texts. -/
  texts : u.SameTexts as v.pool
  /-- The annotations of the one, in the order in which they are met. -/
  annotations : u.annotations = .ok as
  /-- Those of the other. -/
  annotations' : v.annotations = .ok bs
  /-- They are the same, in some order, each visible or not. -/
  perm : (as.map Prod.fst).Perm (bs.map Prod.fst)

namespace Rearranged

variable (h : Rearranged u v as bs)
include h

theorem name_eq : v.name = u.name := by
  unfold name
  rw [h.thisClass, h.texts.thisClass]

theorem superName?_eq : v.superName? = u.superName? := by
  unfold superName?
  rw [h.superClass]
  split_ifs with hnone
  · rfl
  · rw [h.texts.superClass hnone]

theorem fieldsView_eq : v.fieldsView = u.fieldsView := by
  unfold fieldsView
  rw [h.fields]
  refine except_mapM_congr fun f hf => ?_
  have hmem := List.mem_append_left u.methods hf
  unfold viewOf
  rw [h.texts.names f hmem, h.texts.descriptors f hmem]

theorem fingerprint_eq : v.fingerprint = u.fingerprint := by
  unfold fingerprint instanceFields
  rw [h.fields]
  congr 1
  refine except_mapM_congr fun f hf => ?_
  have hmem := List.mem_append_left u.methods (List.mem_of_mem_filter hf)
  rw [h.texts.names f hmem, h.texts.descriptors f hmem]

theorem findMethod?_eq (name descriptor : String) :
    v.findMethod? name descriptor = u.findMethod? name descriptor := by
  unfold findMethod?
  rw [h.methods]
  exact firstMethod?_congr fun m hm => ⟨h.texts.names m (List.mem_append_right _ hm),
    h.texts.descriptors m (List.mem_append_right _ hm)⟩

theorem typed (htypes : Typed u.pool as) : Typed v.pool bs := by
  intro b hb
  obtain ⟨a, ha, heq⟩ := List.mem_map.1 (h.perm.mem_iff.2 (List.mem_map_of_mem hb))
  rw [← heq, h.texts.types a ha]
  exact htypes a ha

/-- An annotation is of the same type in both units. -/
theorem isOfType_eq (descriptor : String) : ∀ b ∈ bs.map Prod.fst,
    b.isOfType v.pool descriptor = b.isOfType u.pool descriptor := by
  intro b hb
  obtain ⟨a, ha, rfl⟩ := List.mem_map.1 (h.perm.mem_iff.2 hb)
  unfold AnnotationInfo.isOfType
  rw [h.texts.types a ha]

/-- Whether there is an annotation of a type does not depend on the arrangement. -/
theorem hasMarker_eq (htypes : Typed u.pool as) (s : Strategy) : v.hasMarker s = u.hasMarker s := by
  unfold hasMarker
  cases s.marker? with
  | none => rfl
  | some descriptor =>
    simp only [findAnnotation?_of_typed h.annotations htypes,
      findAnnotation?_of_typed h.annotations' (h.typed htypes)]
    have hfound : ((bs.map Prod.fst).find? (AnnotationInfo.isOfType v.pool descriptor)).isSome =
        ((as.map Prod.fst).find? (AnnotationInfo.isOfType u.pool descriptor)).isSome := by
      rw [List.find?_congr (h.isOfType_eq descriptor), Bool.eq_iff_iff, List.find?_isSome,
        List.find?_isSome]
      simp only [h.perm.mem_iff]
    exact congrArg Except.ok hfound

theorem declaredStrategy_eq (htypes : Typed u.pool as) :
    v.declaredStrategy = u.declaredStrategy := by
  unfold declaredStrategy
  rw [h.hasMarker_eq htypes, h.hasMarker_eq htypes]

/-- If there is one annotation of a type at most, the same one is found. -/
theorem findAnnotation?_eq (htypes : Typed u.pool as) {descriptor : String}
    (hone : (as.filter fun a => a.1.isOfType u.pool descriptor).length ≤ 1) :
    v.findAnnotation? descriptor = u.findAnnotation? descriptor := by
  rw [findAnnotation?_of_typed h.annotations htypes,
    findAnnotation?_of_typed h.annotations' (h.typed htypes),
    List.find?_congr (h.isOfType_eq descriptor)]
  refine congrArg Except.ok (find?_of_perm h.perm ?_).symm
  rwa [List.filter_map, List.length_map]

theorem wovenRecord?_eq (htypes : Typed u.pool as)
    (hone : (as.filter fun a => a.1.isOfType u.pool wovenMarker).length ≤ 1) :
    v.wovenRecord? = u.wovenRecord? := by
  unfold wovenRecord?
  rw [h.findAnnotation?_eq htypes hone, findAnnotation?_of_typed h.annotations htypes]
  cases hfound : (as.map Prod.fst).find? (AnnotationInfo.isOfType u.pool wovenMarker) with
  | none => rfl
  | some a =>
    obtain ⟨a, ha, rfl⟩ := List.mem_map.1 (List.mem_of_find?_eq_some hfound)
    simp only [bind, Except.bind, (h.texts.elements a ha).stringElement?_eq]

theorem scan_eq (htypes : Typed u.pool as)
    (hone : (as.filter fun a => a.1.isOfType u.pool wovenMarker).length ≤ 1) :
    v.scan = u.scan := by
  unfold scan checkRecord
  rw [h.name_eq, h.declaredStrategy_eq htypes, h.wovenRecord?_eq htypes hone, h.fingerprint_eq,
    h.fieldsView_eq, h.superName?_eq, h.findMethod?_eq, h.findMethod?_eq]

end Rearranged

/-- **Scanning does not see the arrangement.**  Units whose class annotations are arranged
differently scan to the same, or fail in the same way, as long as all types can be told and there
is one woven marker at most.  They fail for two markers just when both are there; a woven marker
makes no difference to that. -/
theorem scan_of_rearranged (h : u.Rearranged v as bs) (htypes : Typed u.pool as)
    (hone : (as.filter fun a => a.1.isOfType u.pool wovenMarker).length ≤ 1) :
    v.scan = u.scan ∧
    (∀ first second, u.scan = .error (.ambiguous first second) ↔
      (first = Strategy.pooled.label ∧ second = Strategy.packed.label) ∧
        (∃ name, u.name = .ok name) ∧ u.Carries .pooled ∧ u.Carries .packed) ∧
    ∀ versions data, read versions data = .ok u →
      (u.scan = .error (.ambiguous Strategy.pooled.label Strategy.packed.label) ↔
        u.Carries .pooled ∧ u.Carries .packed) := by
  have hambiguous (first second : String) : u.scan = .error (.ambiguous first second) ↔ _ :=
    scan_eq_ambiguous h.annotations htypes
  refine ⟨h.scan_eq htypes hone, hambiguous, fun versions data hread => ?_⟩
  rw [hambiguous]
  exact ⟨fun hscan => hscan.2.2, fun hboth =>
    ⟨⟨rfl, rfl⟩, (Sound.of_read hread).resolvable.name, hboth⟩⟩

/-- A woven class carries both markers.  One of them becomes visible, and the others are split over
two attributes. -/
theorem scan_of_rearranged_split :
    let u : ClassFile :=
      { minor := 0, major := 52,
        pool := ⟨#[none, some (.utf8 "A"), some (.classInfo 1), some (.utf8 "java/lang/Object"),
          some (.classInfo 3), some (.utf8 "RuntimeInvisibleAnnotations"),
          some (.utf8 "Lcom/artemis/annotations/PackedWeaver;"),
          some (.utf8 "Lcom/artemis/annotations/PooledWeaver;"),
          some (.utf8 "Lcom/artemis/annotations/internal/Transmuted;"), some (.utf8 "strategy"),
          some (.utf8 "packed")]⟩,
        access := 0x21, thisClass := 2, superClass := 4, interfaces := [], fields := [],
        methods := [],
        attributes := [.annotations 5 [⟨6, []⟩, ⟨8, [(9, .const 0x73 10)]⟩, ⟨7, []⟩]] }
    let v : ClassFile :=
      { u with
        pool := u.pool.push (.utf8 "RuntimeVisibleAnnotations")
        attributes := [.annotations 5 [⟨8, [(9, .const 0x73 10)]⟩], .annotations 11 [⟨7, []⟩],
          .annotations 5 [⟨6, []⟩]] }
    (∃ data, read {} data = .ok u) ∧ v.scan = u.scan ∧
      u.scan = .error (.ambiguous "pooled" "packed") := by
  intro u v
  obtain ⟨data, hread⟩ : ∃ data, read {} data = .ok u := exists_read (by decide +kernel)
  let as : List (AnnotationInfo × Bool) :=
    [(⟨6, []⟩, false), (⟨8, [(9, .const 0x73 10)]⟩, false), (⟨7, []⟩, false)]
  have htypes : Typed u.pool as := by
    simp only [Typed, as, List.forall_mem_cons]
    exact ⟨⟨_, rfl⟩, ⟨_, rfl⟩, ⟨_, rfl⟩, nofun⟩
  have hpool : u.pool.Extends v.pool :=
    ConstantPool.extends_push (c := .utf8 "RuntimeVisibleAnnotations") (by decide)
  have htexts : u.SameTexts as v.pool := by
    refine .of_extends hpool (Sound.of_read hread).names htypes ?_ ?_
    · simp only [as, List.forall_mem_cons]
      exact ⟨nofun, ⟨⟨_, rfl⟩, nofun⟩, nofun, nofun⟩
    · simp only [as, List.forall_mem_cons]
      refine ⟨nofun, ?_, nofun, nofun⟩
      rintro own value hvalue
      cases List.mem_singleton.1 hvalue
      exact ⟨_, rfl⟩
  have hrearranged : u.Rearranged v as
      [(⟨8, [(9, .const 0x73 10)]⟩, false), (⟨7, []⟩, true), (⟨6, []⟩, false)] :=
    { thisClass := rfl, superClass := rfl, fields := rfl, methods := rfl, texts := htexts
      annotations := rfl, annotations' := rfl, perm := by decide }
  obtain ⟨hscan, -, hambiguous⟩ := scan_of_rearranged hrearranged htypes (by decide)
  refine ⟨⟨data, hread⟩, hscan, (hambiguous {} data hread).2 ⟨?_, ?_⟩⟩
  · exact ⟨as, _, rfl, rfl, (⟨7, []⟩, false), by decide, rfl⟩
  · exact ⟨as, _, rfl, rfl, (⟨6, []⟩, false), by decide, rfl⟩

end ClassFile

end ClassWeave
