import ClassWeave.ClassFile.Basic
import ClassWeave.Proofs.Except
import ClassWeave.Proofs.Pool.Growth

/-!
# Answers that stay

What was asked of a unit is answered the same once the pool has grown, and further members or
annotations change an answer only by what they are.

* `ClassFile.viewOf_eq_ok`, `ClassFile.Viewable` : fields that can be viewed.
* `Member.SameHead`, `Member.HasTexts` : methods by what is looked at when they are searched.
* `ClassFile.firstMethod?_eq_some`, `firstMethod?_eq_none` : what a search finds.
* `ClassFile.exists_firstMethod?`, `ClassFile.publicSignatures_append` : methods that were there
  before others.
* `ClassFile.firstOfType?_insert` : annotations among which another one was put.
-/

namespace ClassWeave

variable {p q : ConstantPool}

/-! ### Fields -/

namespace ClassFile

/-- What it takes to view a field. -/
theorem viewOf_eq_ok {m : Member} {f : Field} : viewOf p m = .ok f ↔
    ∃ name descriptor kind, m.nameIn p = .ok name ∧ m.descriptorIn p = .ok descriptor ∧
      ValueKind.parse descriptor = .ok kind ∧ f = { name, kind, isStatic := !m.isInstance } := by
  simp only [viewOf, except_bind_eq_ok, except_pure_eq_ok]
  constructor
  · rintro ⟨name, hname, descriptor, hdescriptor, kind, hkind, rfl⟩
    exact ⟨name, descriptor, kind, hname, hdescriptor, hkind, rfl⟩
  · rintro ⟨name, descriptor, kind, hname, hdescriptor, hkind, rfl⟩
    exact ⟨name, hname, descriptor, hdescriptor, kind, hkind, rfl⟩

/-- All of the fields can be viewed. -/
def Viewable (pool : ConstantPool) (fields : List Member) : Prop :=
  ∀ f ∈ fields, ∃ view, viewOf pool f = .ok view

theorem Viewable.mono {fields : List Member} (hpq : p.Extends q) (h : Viewable p fields) :
    Viewable q fields := by
  intro f hf
  obtain ⟨view, hview⟩ := h f hf
  obtain ⟨name, descriptor, kind, hname, hdescriptor, hkind, rfl⟩ := viewOf_eq_ok.1 hview
  exact ⟨_, viewOf_eq_ok.2
    ⟨name, descriptor, kind, hpq.utf8 hname, hpq.utf8 hdescriptor, hkind, rfl⟩⟩

theorem exists_fieldsView_iff {u : ClassFile} :
    (∃ view, u.fieldsView = .ok view) ↔ Viewable u.pool u.fields :=
  exists_mapM_eq_ok

end ClassFile

/-! ### Methods -/

namespace Member

/-- Two members have the same access flags, and the same slots of their name and descriptor. -/
structure SameHead (m m' : Member) : Prop where
  /-- The access flags. -/
  access : m'.access = m.access
  /-- The slot of the name. -/
  name : m'.name = m.name
  /-- The slot of the descriptor. -/
  descriptor : m'.descriptor = m.descriptor

/-- The slots of the name and of the descriptor lead to texts. -/
def HasTexts (pool : ConstantPool) (m : Member) : Prop :=
  (∃ name, m.nameIn pool = .ok name) ∧ ∃ descriptor, m.descriptorIn pool = .ok descriptor

theorem HasTexts.mono (hpq : p.Extends q) {m : Member} (h : m.HasTexts p) : m.HasTexts q := by
  obtain ⟨⟨name, hname⟩, descriptor, hdescriptor⟩ := h
  exact ⟨⟨name, hpq.utf8 hname⟩, descriptor, hpq.utf8 hdescriptor⟩

end Member

namespace ClassFile

variable {ms old new : List Member}

theorem exists_firstMethod?_of_hasTexts (name descriptor : String)
    (h : ∀ m ∈ ms, m.HasTexts p) : ∃ r, firstMethod? p name descriptor ms = .ok r := by
  induction ms with
  | nil => exact ⟨none, rfl⟩
  | cons m ms ih =>
    obtain ⟨⟨n, hn⟩, d, hd⟩ := h m List.mem_cons_self
    obtain ⟨r, hr⟩ := ih fun m hm => h m (List.mem_cons_of_mem _ hm)
    unfold firstMethod?
    simp only [hn, hd, bind, Except.bind]
    split_ifs
    · exact ⟨some m, rfl⟩
    · exact ⟨r, hr⟩
    · exact ⟨r, hr⟩

/-- A method is found only if it has the name and the descriptor. -/
theorem firstMethod?_eq_some {name descriptor : String} {m : Member}
    (h : firstMethod? p name descriptor ms = .ok (some m)) :
    m ∈ ms ∧ m.nameIn p = .ok name ∧ m.descriptorIn p = .ok descriptor := by
  induction ms with
  | nil => cases h
  | cons first ms ih =>
    -- the search goes on behind the first method
    have hlater (h : firstMethod? p name descriptor ms = .ok (some m)) :
        m ∈ first :: ms ∧ m.nameIn p = .ok name ∧ m.descriptorIn p = .ok descriptor :=
      ⟨List.mem_cons_of_mem first (ih h).1, (ih h).2⟩
    obtain ⟨n, hn, h⟩ := except_bind_eq_ok.1 h
    split at h
    · rename_i hname
      obtain ⟨d, hd, h⟩ := except_bind_eq_ok.1 h
      split at h
      · rename_i hdescriptor
        cases h
        exact ⟨List.mem_cons_self, hname ▸ hn, hdescriptor ▸ hd⟩
      · exact hlater h
    · exact hlater h

/-- Methods that have the name and the descriptor are found. -/
theorem firstMethod?_eq_none {name descriptor : String}
    (h : firstMethod? p name descriptor ms = .ok none) :
    ∀ m ∈ ms, ¬ (m.nameIn p = .ok name ∧ m.descriptorIn p = .ok descriptor) := by
  induction ms with
  | nil => exact fun _ hm => absurd hm List.not_mem_nil
  | cons first ms ih =>
    obtain ⟨n, hn, h⟩ := except_bind_eq_ok.1 h
    rw [List.forall_mem_cons]
    split at h
    · obtain ⟨d, hd, h⟩ := except_bind_eq_ok.1 h
      split at h
      · cases h
      · rename_i hdescriptor
        exact ⟨fun hfirst => hdescriptor (Except.ok.inj (hd.symm.trans hfirst.2)), ih h⟩
    · rename_i hname
      exact ⟨fun hfirst => hname (Except.ok.inj (hn.symm.trans hfirst.1)), ih h⟩

/-- A search that ends among methods ends among those with the same heads, with others behind
them. -/
theorem exists_firstMethod? (hpq : p.Extends q) (hold : List.Forall₂ Member.SameHead ms old)
    (hnew : ∀ m ∈ new, m.HasTexts q) {name descriptor : String}
    (h : ∃ r, firstMethod? p name descriptor ms = .ok r) :
    ∃ r, firstMethod? q name descriptor (old ++ new) = .ok r := by
  induction hold with
  | nil => exact exists_firstMethod?_of_hasTexts name descriptor hnew
  | @cons m m' ms old hm _ ih =>
    obtain ⟨r, hr⟩ := h
    obtain ⟨n, hn, h₁⟩ := except_bind_eq_ok.1 hr
    have hn' : m'.nameIn q = .ok n := by
      unfold Member.nameIn
      rw [hm.name]
      exact hpq.utf8 hn
    rw [List.cons_append]
    unfold firstMethod?
    simp only [hn', bind, Except.bind]
    by_cases hname : n = name
    · rw [if_pos hname] at h₁ ⊢
      obtain ⟨d, hd, h₂⟩ := except_bind_eq_ok.1 h₁
      have hd' : m'.descriptorIn q = .ok d := by
        unfold Member.descriptorIn
        rw [hm.descriptor]
        exact hpq.utf8 hd
      simp only [hd']
      split_ifs at h₂ ⊢
      · exact ⟨some m', rfl⟩
      · exact ih ⟨r, h₂⟩
    · rw [if_neg hname] at h₁ ⊢
      exact ih ⟨r, h₁⟩

/-- The public signatures stay when methods with the same heads come in place, and others behind
them that are not public. -/
theorem publicSignatures_append {u t : ClassFile} (hpool : u.pool.Extends t.pool)
    (hmethods : t.methods = old ++ new) (hold : List.Forall₂ Member.SameHead u.methods old)
    (hnew : ∀ m ∈ new, m.access.has Access.publicFlag = false)
    {signatures : List (String × String)} (h : u.publicSignatures = .ok signatures) :
    t.publicSignatures = .ok signatures := by
  obtain ⟨list, hlist, h⟩ := except_bind_eq_ok.1 h
  have hpublic : List.Forall₂ Member.SameHead
      (u.methods.filter (·.access.has Access.publicFlag))
      (t.methods.filter (·.access.has Access.publicFlag)) := by
    have hnone : new.filter (·.access.has Access.publicFlag) = [] :=
      List.filter_eq_nil_iff.2 fun m hm => by simp [hnew m hm]
    rw [hmethods, List.filter_append, hnone, List.append_nil]
    refine List.rel_filter (fun m m' hm => ?_) hold
    simp only [hm.access]
  refine except_bind_eq_ok.2 ⟨list, except_mapM_of_forall₂ (hpublic.imp fun m m' hm => ?_) hlist, h⟩
  intro signature hsignature
  simp only [Member.nameIn, Member.descriptorIn, except_bind_eq_ok] at hsignature ⊢
  obtain ⟨name, hname, descriptor, hdescriptor, hpair⟩ := hsignature
  rw [hm.name, hm.descriptor]
  exact ⟨name, hpool.utf8 hname, descriptor, hpool.utf8 hdescriptor, hpair⟩

/-! ### Annotations -/

variable {as bs : List Attribute} {list l₁ l₂ : List (AnnotationInfo × Bool)}

theorem annotationsOf_append_eq_ok : annotationsOf p (as ++ bs) = .ok list ↔
    ∃ l₁ l₂, annotationsOf p as = .ok l₁ ∧ annotationsOf p bs = .ok l₂ ∧ list = l₁ ++ l₂ := by
  induction as generalizing list with
  | nil =>
    constructor
    · intro h
      exact ⟨[], list, rfl, h, rfl⟩
    · rintro ⟨l₁, l₂, h₁, h₂, rfl⟩
      cases h₁
      exact h₂
  | cons a as ih =>
    cases a with
    | raw | code => exact ih
    | annotations name own =>
      simp only [List.cons_append, annotationsOf, except_bind_eq_ok, except_pure_eq_ok, ih]
      constructor
      · rintro ⟨text, htext, _, ⟨l₁, l₂, h₁, h₂, rfl⟩, rfl⟩
        exact ⟨_, l₂, ⟨text, htext, l₁, h₁, rfl⟩, h₂, (List.append_assoc ..).symm⟩
      · rintro ⟨_, l₂, ⟨text, htext, l₁, h₁, rfl⟩, h₂, rfl⟩
        exact ⟨text, htext, _, ⟨l₁, l₂, h₁, h₂, rfl⟩, List.append_assoc ..⟩

theorem annotationsOf_mono (hpq : p.Extends q) (h : annotationsOf p as = .ok list) :
    annotationsOf q as = .ok list := by
  induction as generalizing list with
  | nil => exact h
  | cons a as ih =>
    cases a with
    | raw | code => exact ih h
    | annotations name own =>
      simp only [annotationsOf, except_bind_eq_ok, except_pure_eq_ok] at h ⊢
      obtain ⟨text, htext, rest, hrest, rfl⟩ := h
      exact ⟨text, hpq.utf8 htext, rest, ih hrest, rfl⟩

theorem firstOfType?_mono (hpq : p.Extends q) {type : String} {r : Option AnnotationInfo}
    (h : firstOfType? p type list = .ok r) : firstOfType? q type list = .ok r := by
  induction list with
  | nil => exact h
  | cons x list ih =>
    obtain ⟨text, htext, h⟩ := except_bind_eq_ok.1 h
    refine except_bind_eq_ok.2 ⟨text, hpq.utf8 htext, ?_⟩
    split_ifs at h ⊢
    · exact h
    · exact ih h

/-- Annotations in a row are searched one list after the other. -/
theorem firstOfType?_append (p : ConstantPool) (type : String)
    (l₁ l₂ : List (AnnotationInfo × Bool)) : firstOfType? p type (l₁ ++ l₂) =
      firstOfType? p type l₁ >>= fun
        | some a => .ok (some a)
        | none => firstOfType? p type l₂ := by
  induction l₁ with
  | nil => rfl
  | cons x l₁ ih =>
    simp only [List.cons_append, firstOfType?, ih, bind_assoc]
    refine bind_congr fun text => ?_
    split_ifs
    · rfl
    · rfl

/-- An annotation of another type does not change which one is found first. -/
theorem firstOfType?_insert_of_ne {a : AnnotationInfo} {visible : Bool} {own type : String}
    (ha : AnnotationInfo.typeDescriptor p a = .ok own) (hne : own ≠ type)
    {r : Option AnnotationInfo} (h : firstOfType? p type (l₁ ++ l₂) = .ok r) :
    firstOfType? p type (l₁ ++ (a, visible) :: l₂) = .ok r := by
  have hskip : firstOfType? p type ((a, visible) :: l₂) = firstOfType? p type l₂ := by
    rw [firstOfType?, ha]
    exact if_neg hne
  rw [firstOfType?_append] at h ⊢
  rwa [hskip]

/-- The first annotation of a type is found among others. -/
theorem firstOfType?_insert {a : AnnotationInfo} {visible : Bool} {type : String}
    (ha : AnnotationInfo.typeDescriptor p a = .ok type)
    (h : firstOfType? p type (l₁ ++ l₂) = .ok none) :
    firstOfType? p type (l₁ ++ (a, visible) :: l₂) = .ok (some a) := by
  have hfound : firstOfType? p type ((a, visible) :: l₂) = .ok (some a) := by
    rw [firstOfType?, ha]
    exact if_pos rfl
  rw [firstOfType?_append] at h ⊢
  obtain ⟨found?, hfront, h⟩ := except_bind_eq_ok.1 h
  refine except_bind_eq_ok.2 ⟨found?, hfront, ?_⟩
  cases found? with
  | some => cases h
  | none => exact hfound

end ClassFile

end ClassWeave
