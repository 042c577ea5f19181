import ClassWeave.Proofs.Weaving.Rescan
import Mathlib.Data.Set.Function

/-!
# What fingerprints tell apart

A fingerprint is the digest of a text with a line for each instance field: the name, a colon and the
descriptor.  The text is taken as it is, though a name may have a colon in it, and a line break.
So field tables that differ may have the same text, and a unit whose fields were changed may pass
for the one that was woven.

* `ClassFile.fieldText` : the text.
* `ClassFile.fieldText_inj` : tables with the same text are the same if no name has a colon in it,
  and no descriptor a line break.
* `ClassFile.scan_withFields` : what scanning makes of a woven unit with other fields.
* `ClassFile.fingerprint_detects` : a change of the fields is seen just when it changes the text.
-/

namespace ClassWeave

namespace ClassFile

/-! ### The text -/

/-- The text that the fingerprint condenses: a line for each field. -/
def fieldText (fs : List (String × String)) : Bytes :=
  fs.flatMap fun (name, descriptor) => fieldLine name descriptor

/-- No name has a colon in it, and no descriptor a line break. -/
def IsPlainTable (fs : List (String × String)) : Prop :=
  ∀ f ∈ fs, ':' ∉ f.1.toList ∧ '\n' ∉ f.2.toList

instance (fs : List (String × String)) : Decidable (IsPlainTable fs) :=
  inferInstanceAs (Decidable (∀ f ∈ fs, _))

/-- The characters of the text. -/
def fieldChars (fs : List (String × String)) : List Char :=
  fs.flatMap fun (name, descriptor) => name.toList ++ ':' :: (descriptor.toList ++ ['\n'])

theorem fieldText_eq (fs : List (String × String)) :
    fieldText fs = (String.ofList (fieldChars fs)).toUTF8.data.toList := by
  induction fs with
  | nil => rfl
  | cons f fs ih =>
    obtain ⟨name, descriptor⟩ := f
    have hline : name ++ ":" ++ descriptor ++ "\n" =
        String.ofList (name.toList ++ ':' :: (descriptor.toList ++ ['\n'])) := by
      rw [← String.toList_inj]
      simp
    show fieldLine name descriptor ++ fieldText fs = _
    rw [ih, fieldLine, hline]
    simp [fieldChars, String.ofList_append, String.toUTF8]

/-- What stands in front of the first separator, and what stands behind it. -/
theorem eq_of_append_cons {c : Char} {xs ys zs ws : List Char} (hxs : c ∉ xs) (hys : c ∉ ys)
    (h : xs ++ c :: zs = ys ++ c :: ws) : xs = ys ∧ zs = ws := by
  induction xs generalizing ys with
  | nil =>
    cases ys with
    | nil => exact ⟨rfl, (List.cons.inj h).2⟩
    | cons y ys => exact absurd ((List.cons.inj h).1 ▸ List.mem_cons_self) hys
  | cons x xs ih =>
    cases ys with
    | nil => exact absurd ((List.cons.inj h).1 ▸ List.mem_cons_self) hxs
    | cons y ys =>
      obtain ⟨rfl, hrest⟩ := List.cons.inj h
      obtain ⟨rfl, rfl⟩ := ih (List.not_mem_of_not_mem_cons hxs)
        (List.not_mem_of_not_mem_cons hys) hrest
      exact ⟨rfl, rfl⟩

/-- A table can be told from its characters if it is plain: a name ends at the first colon, and a
descriptor at the first line break behind it. -/
theorem fieldChars_inj {fs gs : List (String × String)} (hfs : IsPlainTable fs)
    (hgs : IsPlainTable gs) : fieldChars fs = fieldChars gs ↔ fs = gs := by
  refine ⟨fun h => ?_, congrArg fieldChars⟩
  induction fs generalizing gs with
  | nil =>
    cases gs with
    | nil => rfl
    | cons g gs => simp [fieldChars] at h
  | cons f fs ih =>
    cases gs with
    | nil => simp [fieldChars] at h
    | cons g gs =>
      obtain ⟨name, descriptor⟩ := f
      obtain ⟨name', descriptor'⟩ := g
      obtain ⟨⟨hname, hdescriptor⟩, hrest⟩ := List.forall_mem_cons.1 hfs
      obtain ⟨⟨hname', hdescriptor'⟩, hrest'⟩ := List.forall_mem_cons.1 hgs
      simp only [fieldChars, List.flatMap_cons, List.append_assoc, List.cons_append,
        List.nil_append] at h
      obtain ⟨hnames, hbehind⟩ := eq_of_append_cons hname hname' h
      obtain ⟨hdescriptors, hlines⟩ := eq_of_append_cons hdescriptor hdescriptor' hbehind
      have hhead : (name, descriptor) = (name', descriptor') :=
        Prod.ext (String.toList_inj.1 hnames) (String.toList_inj.1 hdescriptors)
      rw [hhead, ih hrest hrest' hlines]

/-- **Plain tables** can be told from their texts. -/
theorem fieldText_inj {fs gs : List (String × String)} (hfs : IsPlainTable fs)
    (hgs : IsPlainTable gs) : fieldText fs = fieldText gs ↔ fs = gs := by
  rw [fieldText_eq, fieldText_eq, ← fieldChars_inj hfs hgs]
  constructor
  · intro h
    have hstring := String.toByteArray_inj.1 (ByteArray.ext (Array.toList_inj.1 h))
    simpa using congrArg String.toList hstring
  · intro h
    rw [h]

/-! ### Fingerprints -/

variable {u v : ClassFile} {fs gs : List (String × String)}

theorem fingerprint_of_instanceFields (h : u.instanceFields = .ok fs) :
    u.fingerprint = .ok (Sha1.hexDigest (fieldText fs)) :=
  except_bind_eq_ok.2 ⟨fs, h, rfl⟩

/-! ### Woven units with other fields -/

/-- A unit with other fields, whose texts may stand in a larger pool. -/
def withFields (u : ClassFile) (pool : ConstantPool) (fields : List Member) : ClassFile :=
  { u with pool, fields }

variable {q : ConstantPool} {fields : List Member}

theorem findAnnotation?_withFields (hpool : u.pool.Extends q) {type : String}
    {a? : Option AnnotationInfo} (h : u.findAnnotation? type = .ok a?) :
    (u.withFields q fields).findAnnotation? type = .ok a? := by
  obtain ⟨list, hlist, h⟩ := except_bind_eq_ok.1 h
  exact except_bind_eq_ok.2 ⟨list, annotationsOf_mono hpool hlist, firstOfType?_mono hpool h⟩

theorem declaredStrategy_withFields (hpool : u.pool.Extends q) {declared : Strategy}
    (h : u.declaredStrategy = .ok declared) :
    (u.withFields q fields).declaredStrategy = .ok declared :=
  declaredStrategy_of_findAnnotation? (fun _ _ _ _ ha => findAnnotation?_withFields hpool ha) h

end ClassFile

namespace AnnotationInfo

variable {p q : ConstantPool} {name : String} {a : AnnotationInfo}

theorem elementIn?_mono (hpq : p.Extends q) {elements : List (UInt16 × Element)}
    {value? : Option Element} (h : elementIn? p name elements = .ok value?) :
    elementIn? q name elements = .ok value? := by
  induction elements with
  | nil => exact h
  | cons e elements ih =>
    obtain ⟨own, hown, h⟩ := except_bind_eq_ok.1 h
    refine except_bind_eq_ok.2 ⟨own, hpq.utf8 hown, ?_⟩
    split_ifs at h ⊢
    · exact h
    · exact ih h

theorem stringElement?_mono (hpq : p.Extends q) {text? : Option String}
    (h : stringElement? p name a = .ok text?) : stringElement? q name a = .ok text? := by
  obtain ⟨value?, hvalue, h⟩ := except_bind_eq_ok.1 h
  refine except_bind_eq_ok.2 ⟨value?, elementIn?_mono hpq hvalue, ?_⟩
  split at h
  · split_ifs at h ⊢
    · obtain ⟨text, htext, rfl⟩ := except_map_eq_ok.1 h
      exact except_map_eq_ok.2 ⟨text, hpq.utf8 htext, rfl⟩
    · exact h
  · exact h

end AnnotationInfo

namespace ClassFile

variable {u v : ClassFile} {fs gs : List (String × String)} {q : ConstantPool}
  {fields : List Member}

theorem wovenRecord?_withFields (hpool : u.pool.Extends q) {record? : Option WovenRecord}
    (h : u.wovenRecord? = .ok record?) : (u.withFields q fields).wovenRecord? = .ok record? := by
  obtain ⟨a?, ha, h⟩ := except_bind_eq_ok.1 h
  refine except_bind_eq_ok.2 ⟨a?, findAnnotation?_withFields hpool ha, ?_⟩
  cases a? with
  | none => exact h
  | some a =>
    obtain ⟨text?, htext, h⟩ := except_bind_eq_ok.1 h
    refine except_bind_eq_ok.2 ⟨text?, AnnotationInfo.stringElement?_mono hpool htext, ?_⟩
    -- the fingerprint is looked for behind whatever strategy is named
    cases text? with
    | none | some text =>
      obtain ⟨strategy?, hstrategy, h⟩ := except_bind_eq_ok.1 h
      obtain ⟨fingerprint?, hfingerprint, h⟩ := except_bind_eq_ok.1 h
      exact except_bind_eq_ok.2 ⟨strategy?, hstrategy, except_bind_eq_ok.2 ⟨fingerprint?,
        AnnotationInfo.stringElement?_mono hpool hfingerprint, h⟩⟩

/-- A record that names another fingerprint than the unit has is no longer true. -/
theorem checkRecord_of_fingerprint_ne {name recorded current : String} {declared : Strategy}
    (h : u.fingerprint = .ok current) (hne : recorded ≠ current) :
    u.checkRecord name declared { strategy? := some declared, fingerprint? := some recorded } =
      .error (.stale name (.fieldTable recorded current)) := by
  simp [checkRecord, h, hne, bind, Except.bind, liftM, monadLift, MonadLift.monadLift,
    Except.mapError, throw, throwThe, MonadExceptOf.throw]

/-- Reading something off a unit fails as malformed, and in no other way. -/
theorem bind_ne_stale {α β : Type} {e : Except Malformation α} {k : α → Except Error β}
    {owner : String} {drift : Drift} (h : ∀ a, k a ≠ .error (.stale owner drift)) :
    (liftM e : Except Error α) >>= k ≠ .error (.stale owner drift) := by
  cases e with
  | error m => exact fun heq => Error.noConfusion (Except.error.inj heq)
  | ok a => exact h a

/-- Once a record was found to be true, scanning never says that the unit has changed. -/
theorem scan_ne_stale {name : String} {declared : Strategy} {record : WovenRecord}
    (hname : u.name = .ok name) (hdeclared : u.declaredStrategy = .ok declared)
    (hwoven : u.wovenRecord? = .ok (some record))
    (hrecord : u.checkRecord name declared record = .ok ()) (owner : String) (drift : Drift) :
    u.scan ≠ .error (.stale owner drift) := by
  simp only [scan, hname, hdeclared, hwoven]
  show (u.checkRecord name declared record >>= _) ≠ _
  rw [hrecord]
  refine bind_ne_stale fun fields => ?_
  refine bind_ne_stale fun super? => ?_
  refine bind_ne_stale fun constructor? => ?_
  exact bind_ne_stale fun reset? => except_pure_ne_error

/-- Scanning fails as soon as a record was found to be false. -/
theorem scan_of_checkRecord {name : String} {declared : Strategy} {record : WovenRecord}
    {e : Error} (hname : u.name = .ok name) (hdeclared : u.declaredStrategy = .ok declared)
    (hwoven : u.wovenRecord? = .ok (some record))
    (hrecord : u.checkRecord name declared record = .error e) : u.scan = .error e := by
  simp only [scan, hname, hdeclared, hwoven]
  show (u.checkRecord name declared record >>= _) = _
  rw [hrecord]
  rfl

/-- **Scanning a woven unit with other fields** fails if they change the text, and does not see that
they are others if they do not. -/
theorem scan_withFields {index : TypeIndex} {settings : Settings} {r : Woven}
    (h : u.weave index settings = .ok (some r)) (hpool : r.unit.pool.Extends q)
    (hfs : r.unit.instanceFields = .ok fs)
    (hgs : (r.unit.withFields q fields).instanceFields = .ok gs) :
    (Sha1.hexDigest (fieldText fs) ≠ Sha1.hexDigest (fieldText gs) →
      (r.unit.withFields q fields).scan = .error (.stale r.name
        (.fieldTable (Sha1.hexDigest (fieldText fs)) (Sha1.hexDigest (fieldText gs))))) ∧
    (Sha1.hexDigest (fieldText fs) = Sha1.hexDigest (fieldText gs) → ∀ owner drift,
      (r.unit.withFields q fields).scan ≠ .error (.stale owner drift)) := by
  obtain ⟨scan, fingerprint, hscan, hdeclared, -, hfingerprint, hwoven⟩ := scan_of_weave h
  obtain ⟨name, declared, woven?, view, super?, constructor?, reset?, hname, hstrategy, hrecord, -,
    -, -, -, -, rfl⟩ := scan_eq_ok.1 hscan
  obtain rfl : declared = r.strategy := hdeclared
  obtain rfl : woven? = _ := hwoven
  obtain rfl := Except.ok.inj ((fingerprint_of_instanceFields hfs).symm.trans hfingerprint)
  have hcurrent := fingerprint_of_instanceFields hgs
  obtain rfl := Except.ok.inj (hname.symm.trans (name_of_woven h))
  have hname' : (r.unit.withFields q fields).name = .ok r.name := hpool.className hname
  have hstrategy' : (r.unit.withFields q fields).declaredStrategy = .ok r.strategy :=
    declaredStrategy_withFields hpool hstrategy
  have hrecord' : (r.unit.withFields q fields).wovenRecord? = .ok (some _) :=
    wovenRecord?_withFields hpool hrecord
  constructor
  · intro hne
    exact scan_of_checkRecord hname' hstrategy' hrecord'
      (checkRecord_of_fingerprint_ne hcurrent hne)
  · intro heq
    refine scan_ne_stale hname' hstrategy' hrecord' ?_
    rw [heq]
    exact checkRecord_of_fingerprint hcurrent

/-- **What fingerprints detect**, as far as digests of different texts differ.  Two units have the
same fingerprint just when their instance fields have the same text.  For plain tables that is when
they have the same names and descriptors in the same order.  Scanning a woven unit whose fields were
replaced fails just when their text is another one, so that a change from or to a table that is not
plain may remain unseen. -/
theorem fingerprint_detects {texts : Set Bytes} (hsha : Set.InjOn Sha1.hexDigest texts) :
    (∀ (u v : ClassFile) (fs gs : List (String × String)), u.instanceFields = .ok fs →
      v.instanceFields = .ok gs → fieldText fs ∈ texts → fieldText gs ∈ texts →
        (u.fingerprint = v.fingerprint ↔ fieldText fs = fieldText gs)) ∧
    (∀ fs gs : List (String × String), IsPlainTable fs → IsPlainTable gs →
      (fieldText fs = fieldText gs ↔ fs = gs)) ∧
    ∀ (index : TypeIndex) (settings : Settings) (u : ClassFile) (r : Woven),
      u.weave index settings = .ok (some r) →
      ∀ (q : ConstantPool) (fields : List Member) (fs gs : List (String × String)),
        r.unit.pool.Extends q → r.unit.instanceFields = .ok fs →
        (r.unit.withFields q fields).instanceFields = .ok gs →
        fieldText fs ∈ texts → fieldText gs ∈ texts →
        (fieldText fs ≠ fieldText gs → (r.unit.withFields q fields).scan = .error (.stale r.name
          (.fieldTable (Sha1.hexDigest (fieldText fs)) (Sha1.hexDigest (fieldText gs))))) ∧
        (fieldText fs = fieldText gs → ∀ owner drift,
          (r.unit.withFields q fields).scan ≠ .error (.stale owner drift)) := by
  refine ⟨fun u v fs gs hfs hgs hmem hmem' => ?_, fun fs gs => fieldText_inj,
    fun index settings u r h q fields fs gs hpool hfs hgs hmem hmem' => ?_⟩
  · rw [fingerprint_of_instanceFields hfs, fingerprint_of_instanceFields hgs, Except.ok.injEq]
    exact hsha.eq_iff hmem hmem'
  · obtain ⟨hchanged, hsame⟩ := scan_withFields h hpool hfs hgs
    exact ⟨fun hne => hchanged fun heq => hne (hsha hmem hmem' heq),
      fun heq => hsame (congrArg Sha1.hexDigest heq)⟩

/-- A unit with two fields, whose line is the name of a field in the pool. -/
def withTwoFields : ClassFile :=
  { minor := 0, major := 52,
    pool := ⟨#[none, some (.utf8 "A"), some (.classInfo 1), some (.utf8 "java/lang/Object"),
      some (.classInfo 3), some (.utf8 "<init>"), some (.utf8 "()V"),
      some (.utf8 "RuntimeInvisibleAnnotations"),
      some (.utf8 "Lcom/artemis/annotations/PooledWeaver;"), some (.utf8 "a"), some (.utf8 "b"),
      some (.utf8 "I"), some (.utf8 "a:I\nb")]⟩,
    access := 0x21, thisClass := 2, superClass := 4, interfaces := [],
    fields := [{ access := 0, name := 9, descriptor := 11, attributes := [] },
      { access := 0, name := 10, descriptor := 11, attributes := [] }],
    methods := [{ access := 1, name := 5, descriptor := 6, attributes := [] }],
    attributes := [.annotations 7 [{ type := 8, elements := [] }]] }

/-- Dropping the second field after weaving is seen, but one field in place of both is not. -/
theorem fingerprint_detects_withTwoFields : ∃ r, withTwoFields.weave .empty {} = .ok (some r) ∧
    (∃ fields, (r.unit.withFields r.unit.pool fields).instanceFields = .ok [("a", "I")] ∧
      ∃ drift, (r.unit.withFields r.unit.pool fields).scan = .error (.stale r.name drift)) ∧
    ∃ fields, (r.unit.withFields r.unit.pool fields).instanceFields = .ok [("a:I\nb", "I")] ∧
      ∀ owner drift,
        (r.unit.withFields r.unit.pool fields).scan ≠ .error (.stale owner drift) := by
  let first : List Member := [{ access := 0, name := 9, descriptor := 11, attributes := [] }]
  let merged : List Member := [{ access := 0, name := 12, descriptor := 11, attributes := [] }]
  -- the digests of the texts at hand differ
  have hsha : Set.InjOn Sha1.hexDigest
      {fieldText [("a", "I"), ("b", "I")], fieldText [("a", "I")]} :=
    Set.injOn_pair.2 fun heq => absurd heq (by decide +kernel)
  have hresult : Option.map (fun r =>
      (decide (r.unit.instanceFields = .ok [("a", "I"), ("b", "I")]),
      decide ((r.unit.withFields r.unit.pool first).instanceFields = .ok [("a", "I")]),
      decide ((r.unit.withFields r.unit.pool merged).instanceFields = .ok [("a:I\nb", "I")]))) <$>
        withTwoFields.weave .empty {} = .ok (some (true, true, true)) := by
    decide +kernel
  obtain ⟨r, hweave, hr⟩ := except_map_some_eq_ok.1 hresult
  simp only [Prod.mk.injEq, decide_eq_true_eq] at hr
  obtain ⟨htwo, hfirst, hmerged⟩ := hr
  obtain ⟨-, -, hscan⟩ := fingerprint_detects hsha
  have hsame : fieldText [("a", "I"), ("b", "I")] = fieldText [("a:I\nb", "I")] := by
    decide +kernel
  obtain ⟨hstale, -⟩ := hscan _ _ _ r hweave _ first _ _ (.refl _) htwo hfirst (.inl rfl) (.inr rfl)
  obtain ⟨-, hunseen⟩ := hscan _ _ _ r hweave _ merged _ _ (.refl _) htwo hmerged (.inl rfl)
    (.inl hsame.symm)
  exact ⟨r, hweave, ⟨first, hfirst, _, hstale (by decide +kernel)⟩, merged, hmerged, hunseen hsame⟩

end ClassFile

end ClassWeave
