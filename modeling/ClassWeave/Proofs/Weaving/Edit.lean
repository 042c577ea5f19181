import ClassWeave.Proofs.Instruction
import ClassWeave.Proofs.Weaving.Growth
import ClassWeave.Weaving.Edit

/-!
# What an edit changes

Every edit that succeeds grows the pool, and apart from that changes what it is there for and no
more.

* `ClassFile.Gained` : a unit has gained members that realize given designs, and nothing else.
* `Edit.Redirected`, `Edit.Rewritten` : an instruction, and a method, with others in place.
* `Edit.gives_grow`, `gives_annotate`, `gives_rewriteSites`, `gives_reparent` : the edits.
-/

namespace ClassWeave

/-- The second unit is the first with members that realize the designs at its end, in a pool that
extends that of the first. -/
structure ClassFile.Gained (fs : List FieldDesign) (ms : List MethodDesign) (u t : ClassFile) :
    Prop where
  /-- The pool grows. -/
  pool : u.pool.Extends t.pool
  /-- The new members come last, and nothing else changes. -/
  members : ∃ fields methods, List.Forall₂ (FieldDesign.Realized t.pool) fs fields ∧
    List.Forall₂ (MethodDesign.Realized u.needsFrames t.pool) ms methods ∧
    t = { u with pool := t.pool, fields := u.fields ++ fields, methods := u.methods ++ methods }

theorem ClassFile.Gained.refl (u : ClassFile) : u.Gained [] [] u := by
  refine ⟨.refl _, [], [], .nil, .nil, ?_⟩
  simp

namespace Edit

variable {α : Type} {u t : ClassFile} {p q : ConstantPool}

theorem gives_ask {question : ClassFile → Except Malformation α} {a : α} :
    Gives (ask question) u a t ↔ question u = .ok a ∧ t = u := by
  rw [ask, gives_bind]
  simp only [gives_get]
  cases hasked : question u with
  | error cause => simp [hasked, gives_throw]
  | ok b => simp [hasked, gives_pure, eq_comm]

theorem run_grow (act : Growing α) (u : ClassFile) : Id.run ((grow act).run u) =
    match Id.run ((act.run (.start u)).run u.pool) with
    | ((result, g), q) => (result.mapError .malformed, g.appendTo { u with pool := q }) :=
  rfl

theorem gains_of_gives_grow {act : Growing α} {a : α} (h : Gives (grow act) u a t) :
    ∃ g q, Growing.Gains act (.start u) u.pool a g q ∧ t = g.appendTo { u with pool := q } := by
  unfold Gives at h
  rw [run_grow] at h
  unfold Growing.Gains
  generalize Id.run ((act.run (.start u)).run u.pool) = result at h ⊢
  obtain ⟨⟨_ | b, g⟩, q⟩ := result
  · cases congrArg Prod.fst h
  · cases h
    exact ⟨g, q, rfl, rfl⟩

/-- A successful growth keeps the new members and the new constants. -/
theorem gives_grow {act : Growing α} {fs : List FieldDesign} {ms : List MethodDesign}
    (hact : Growing.Adds u.needsFrames u.pool act fs ms) {a : α} (h : Gives (grow act) u a t) :
    u.Gained fs ms t := by
  obtain ⟨g, q, hgains, rfl⟩ := gains_of_gives_grow h
  obtain ⟨hext, -, fields, methods, hfields, hmethods, hgf, hgm⟩ :=
    hact _ _ _ _ _ rfl (.refl _) hgains
  refine ⟨hext, fields, methods, hfields, hmethods, ?_⟩
  simp [Growth.appendTo, hgf, hgm, Growth.start]

theorem gives_interning {act : Interning α} {a : α} (h : Gives (interning act) u a t) :
    ∃ q, Gives act u.pool a q ∧ t = { u with pool := q } := by
  have hrun : Id.run ((interning act).run u) =
      match Id.run (act.run u.pool) with
      | (result, q) =>
        (result.mapError .malformed, (Growth.start u).appendTo { u with pool := q }) :=
    rfl
  unfold Gives at h ⊢
  rw [hrun] at h
  generalize Id.run (act.run u.pool) = result at h ⊢
  obtain ⟨_ | b, q⟩ := result
  · cases congrArg Prod.fst h
  · cases h
    exact ⟨q, rfl, by simp [Growth.appendTo, Growth.start]⟩

/-! ### Annotations and the superclass -/

/-- An annotation is added to the first list of invisible annotations among attributes. -/
theorem addToInvisible_eq_some {a : AnnotationInfo} {as bs : List Attribute}
    (h : addToInvisible p a as = .ok (some bs)) : ∃ front name list back,
      as = front ++ .annotations name list :: back ∧ p.utf8 name = .ok Attribute.invisibleName ∧
        bs = front ++ .annotations name (list ++ [a]) :: back := by
  induction as generalizing bs with
  | nil => cases h
  | cons first rest ih =>
    obtain ⟨text, htext, h⟩ := except_bind_eq_ok.1 h
    -- the attribute stays, and a later one gets the annotation
    have hlater (h : (do return (← addToInvisible p a rest).map (first :: ·)) =
        (.ok (some bs) : Except Malformation _)) : ∃ front name list back,
          first :: rest = front ++ .annotations name list :: back ∧
            p.utf8 name = .ok Attribute.invisibleName ∧
            bs = front ++ .annotations name (list ++ [a]) :: back := by
      obtain ⟨later?, hlater, h⟩ := except_bind_eq_ok.1 h
      obtain ⟨bs', hbs', rfl⟩ := Option.map_eq_some_iff.1 (except_pure_eq_ok.1 h).symm
      subst hbs'
      obtain ⟨front, name, list, back, rfl, hname, rfl⟩ := ih hlater
      exact ⟨first :: front, name, list, back, rfl, hname, rfl⟩
    cases first with
    | raw | code => exact hlater h
    | annotations name list =>
      by_cases hinvisible : text = Attribute.invisibleName
      · subst hinvisible
        simp only [if_pos] at h
        cases h
        exact ⟨[], name, list, rest, rfl, htext, rfl⟩
      · simp only [if_neg hinvisible] at h
        exact hlater h

/-- The attributes of a unit with another annotation in a list of invisible ones. -/
def AnnotatedWith (a : AnnotationInfo) (pool : ConstantPool) (as bs : List Attribute) : Prop :=
  ∃ front name list back, pool.utf8 name = .ok Attribute.invisibleName ∧
    bs = front ++ .annotations name (list ++ [a]) :: back ∧
    (as = front ++ .annotations name list :: back ∨ list = [] ∧ back = [] ∧ as = front)

/-- Annotating adds the annotation to an attribute that is there, or to a new one. -/
theorem gives_annotate {a : AnnotationInfo} {r : Unit} (h : Gives (annotate a) u r t) :
    u.pool.Extends t.pool ∧ AnnotatedWith a t.pool u.attributes t.attributes ∧
      t = { u with pool := t.pool, attributes := t.attributes } := by
  obtain ⟨found?, m, hask, h⟩ := gives_bind.1 h
  obtain ⟨hfound, rfl⟩ := gives_ask.1 hask
  cases found? with
  | some attributes =>
    obtain rfl := gives_modify.1 h
    obtain ⟨front, name, list, back, has, hname, hbs⟩ := addToInvisible_eq_some hfound
    exact ⟨.refl _, ⟨front, name, list, back, hname, hbs, .inl has⟩, rfl⟩
  | none =>
    obtain ⟨name, m', hname, h⟩ := gives_bind.1 h
    obtain ⟨q, hgives, rfl⟩ := gives_interning hname
    obtain rfl := gives_modify.1 h
    obtain ⟨hext, htext⟩ := Interning.gives_utf8 hgives
    exact ⟨hext, ⟨m.attributes, name, [], [], htext, rfl, .inr ⟨rfl, rfl, rfl⟩⟩, rfl⟩

theorem gives_setSuperName {name : String} {r : Unit} (h : Gives (setSuperName name) u r t) :
    u.pool.Extends t.pool ∧ t.pool.className t.superClass = .ok name ∧
      t = { u with pool := t.pool, superClass := t.superClass } := by
  obtain ⟨superClass, m, hname, h⟩ := gives_bind.1 h
  obtain ⟨q, hgives, rfl⟩ := gives_interning hname
  obtain rfl := gives_modify.1 h
  obtain ⟨hext, hclass⟩ := Interning.gives_classRef hgives
  exact ⟨hext, hclass, rfl⟩

/-! ### Rewriting instructions -/

open Instruction (Site)

/-- The chosen member instructions of a method body. -/
def sitesOf (choose : Member → Site → Except Malformation Bool) (m : Member) :
    Except Malformation (List Site) :=
  match m.code? with
  | some code => do (← Instruction.memberSites code.instructions).filterM (choose m)
  | none => return []

/-- An instruction was redirected while the pool grew from `p` to `q`. -/
def Redirected (redirect : Site → Interning Site) (p q : ConstantPool) (s s' : Site) : Prop :=
  ∃ a b, p.Extends a ∧ Gives (redirect s) a s' b ∧ b.Extends q

/-- A method with other instructions in place. -/
def withSites (sites : List Site) (m : Member) : Member :=
  m.mapCode fun code => { code with instructions := Instruction.replace sites code.instructions }

/-- The chosen instructions of a method were redirected while the pool grew from `p` to `q`, and
put in place. -/
def Rewritten (choose : Member → Site → Except Malformation Bool)
    (redirect : Site → Interning Site) (p q : ConstantPool) (m m' : Member) : Prop :=
  ∃ sites done, sitesOf choose m = .ok sites ∧
    List.Forall₂ (Redirected redirect p q) sites done ∧ m' = withSites done m

section

variable {redirect : Site → Interning Site}

theorem Redirected.widen {p' q' : ConstantPool} {s s' : Site} (hp : p'.Extends p)
    (hq : q.Extends q') (h : Redirected redirect p q s s') : Redirected redirect p' q' s s' := by
  obtain ⟨a, b, ha, hgives, hb⟩ := h
  exact ⟨a, b, hp.trans ha, hgives, hb.trans hq⟩

variable (hredirect : ∀ s a s' b, Gives (redirect s) a s' b → a.Extends b)
include hredirect

theorem redirectSites_done {sites done : List Site}
    (h : redirectSites redirect sites p = ((done, none), q)) :
    p.Extends q ∧ List.Forall₂ (Redirected redirect p q) sites done := by
  induction sites generalizing p done with
  | nil =>
    cases h
    exact ⟨.refl _, .nil⟩
  | cons s sites ih =>
    unfold redirectSites at h
    split at h
    · cases h
    · rename_i s' r hs
      have hgives : Gives (redirect s) p s' r := hs
      have hpr := hredirect s p s' r hgives
      rcases hrest : redirectSites redirect sites r with ⟨⟨done', failure?⟩, q'⟩
      rw [hrest] at h
      cases h
      -- the pool grows to `r` with this instruction, and from there to `q` with the others
      obtain ⟨hrq, hdone⟩ := ih hrest
      exact ⟨hpr.trans hrq, .cons ⟨p, r, .refl p, hgives, hrq⟩
        (hdone.imp fun _ _ h => h.widen hpr (.refl q))⟩

theorem redirectMethods_done {pairs : List (Member × List Site)} {methods : List Member}
    (h : redirectMethods redirect pairs p = ((methods, none), q)) :
    p.Extends q ∧ List.Forall₂ (fun pair m' => ∃ done,
      List.Forall₂ (Redirected redirect p q) pair.2 done ∧ m' = withSites done pair.1)
        pairs methods := by
  induction pairs generalizing p methods with
  | nil =>
    cases h
    exact ⟨.refl _, .nil⟩
  | cons pair pairs ih =>
    obtain ⟨m, sites⟩ := pair
    unfold redirectMethods at h
    rcases hsites : redirectSites redirect sites p with ⟨⟨done, failure?⟩, r⟩
    rw [hsites] at h
    cases failure? with
    | some cause => cases h
    | none =>
      rcases hrest : redirectMethods redirect pairs r with ⟨⟨methods', failure?⟩, q'⟩
      simp only [hrest] at h
      cases h
      obtain ⟨hpr, hdone⟩ := redirectSites_done hredirect hsites
      obtain ⟨hrq, hmethods⟩ := ih hrest
      refine ⟨hpr.trans hrq, .cons ⟨done, hdone.imp fun _ _ h => h.widen (.refl p) hrq, rfl⟩ ?_⟩
      refine hmethods.imp fun _ _ ⟨done, h, heq⟩ => ⟨done, ?_, heq⟩
      exact h.imp fun _ _ h => h.widen hpr (.refl _)

end

theorem forall₂_of_zip {β γ : Type} {R : α → β → Prop} {S : α × β → γ → Prop} {as : List α}
    {bs : List β} {cs : List γ} (h : List.Forall₂ R as bs) (h' : List.Forall₂ S (as.zip bs) cs) :
    List.Forall₂ (fun a c => ∃ b, R a b ∧ S (a, b) c) as cs := by
  induction h generalizing cs with
  | nil =>
    cases h'
    exact .nil
  | cons hab _ ih =>
    cases h' with
    | cons hc hcs => exact .cons ⟨_, hab, hc⟩ (ih hcs)

/-- What rewriting is made of when it succeeds: all sites are chosen first, and then none fails. -/
theorem exists_chosen_of_gives {choose : ConstantPool → Member → Site → Except Malformation Bool}
    {redirect : ConstantPool → Site → Interning Site} {r : Unit}
    (h : Gives (rewriteSites choose redirect) u r t) :
    t = { u with pool := t.pool, methods := t.methods } ∧
      ∃ chosen, chooseSites (choose u.pool) u.methods = .ok chosen ∧
        redirectMethods (redirect u.pool) (u.methods.zip chosen) u.pool =
          ((t.methods, none), t.pool) := by
  obtain ⟨chosen, u₁, hask, h₁⟩ := gives_bind.1 h
  obtain ⟨hchosen, rfl⟩ := gives_ask.1 hask
  obtain ⟨u₂, u₃, hget, h₂⟩ := gives_bind.1 h₁
  obtain ⟨rfl, rfl⟩ := gives_get.1 hget
  generalize hmethods : redirectMethods (redirect u₃.pool) (u₃.methods.zip chosen) u₃.pool =
    result at h₂
  obtain ⟨⟨methods, failure?⟩, q⟩ := result
  obtain ⟨_, u₄, hset, h₃⟩ := gives_bind.1 h₂
  obtain rfl := gives_set.1 hset
  cases failure? with
  | some cause => exact absurd h₃ gives_throw
  | none =>
    obtain ⟨-, rfl⟩ := gives_pure.1 h₃
    exact ⟨rfl, chosen, hchosen, hmethods⟩

/-- **Rewriting changes the chosen instructions and no more.** -/
theorem gives_rewriteSites {choose : ConstantPool → Member → Site → Except Malformation Bool}
    {redirect : ConstantPool → Site → Interning Site}
    (hredirect : ∀ s a s' b, Gives (redirect u.pool s) a s' b → a.Extends b) {r : Unit}
    (h : Gives (rewriteSites choose redirect) u r t) : u.pool.Extends t.pool ∧
      List.Forall₂ (Rewritten (choose u.pool) (redirect u.pool) u.pool t.pool)
        u.methods t.methods ∧
      t = { u with pool := t.pool, methods := t.methods } := by
  obtain ⟨hrest, chosen, hchosen, hmethods⟩ := exists_chosen_of_gives h
  obtain ⟨hext, hdone⟩ := redirectMethods_done hredirect hmethods
  refine ⟨hext, ?_, hrest⟩
  refine (forall₂_of_zip (except_mapM_eq_ok.1 hchosen) hdone).imp fun m m' h => ?_
  obtain ⟨sites, hsites, done, hdone, heq⟩ := h
  exact ⟨sites, done, hsites, hdone, heq⟩

/-! ### Moving to another superclass -/

/-- The same constructor is called, of the other class. -/
theorem gives_redirectConstructor {new : String} {s s' : Site} {a b : ConstantPool}
    (h : Gives (redirectConstructor new p s) a s' b) :
    a.Extends b ∧ s'.offset = s.offset ∧ s'.opcode = s.opcode ∧
      ∃ target, p.memberRef s.operand = .ok target ∧
        b.memberRef s'.operand = .ok { target with owner := new, name := "<init>" } := by
  obtain ⟨target, c, htarget, h₁⟩ := gives_bind.1 h
  obtain ⟨hmember, rfl⟩ := gives_lift.1 htarget
  obtain ⟨operand, d, hoperand, h₂⟩ := gives_bind.1 h₁
  obtain ⟨rfl, rfl⟩ := gives_pure.1 h₂
  obtain ⟨hext, hmethod⟩ := Interning.gives_methodRef hoperand
  exact ⟨hext, rfl, rfl, target, hmember, ConstantPool.memberRef_of_refAt? (.inr rfl) hmethod⟩

/-- A unit was moved from the superclass `old` to the superclass `new`. -/
structure Reparented (old new : String) (u t : ClassFile) : Prop where
  /-- The pool grows. -/
  pool : u.pool.Extends t.pool
  /-- The new superclass is in place. -/
  superClass : t.pool.className t.superClass = .ok new
  /-- The calls of constructors of the old superclass go to the new one. -/
  methods : ∃ p, u.pool.Extends p ∧ p.Extends t.pool ∧
    List.Forall₂ (Rewritten (callsConstructorOf old p) (redirectConstructor new p) p t.pool)
      u.methods t.methods
  /-- Nothing else has changed. -/
  rest : t = { u with pool := t.pool, superClass := t.superClass, methods := t.methods }

/-- A unit is moved to the new superclass, or has another superclass and stays as it is. -/
theorem gives_reparent {old new : String} {r : Unit} (h : Gives (reparent old new) u r t) :
    u.superName? = .ok (some old) ∧ Reparented old new u t ∨
      (∃ name?, u.superName? = .ok name? ∧ name? ≠ some old) ∧ t = u := by
  obtain ⟨name?, u₁, hask, h₁⟩ := gives_bind.1 h
  obtain ⟨hname, rfl⟩ := gives_ask.1 hask
  split at h₁
  · -- the old superclass is there
    rename_i hold
    subst hold
    obtain ⟨_, u₂, hsuper, h₂⟩ := gives_bind.1 h₁
    obtain ⟨hpool, hclass, hu₂⟩ := gives_setSuperName hsuper
    obtain ⟨hext, hmethods, ht⟩ :=
      gives_rewriteSites (fun _ _ _ _ h => (gives_redirectConstructor h).1) h₂
    refine .inl ⟨hname, hpool.trans hext, ?_, ⟨u₂.pool, hpool, hext, ?_⟩, ?_⟩
    · rw [ht]
      exact hext.className hclass
    · rw [hu₂] at hmethods
      exact hmethods
    · rw [ht, hu₂]
  · rename_i hother
    obtain ⟨-, rfl⟩ := gives_pure.1 h₁
    exact .inr ⟨⟨name?, hname, hother⟩, rfl⟩

/-! ### Methods that stay as they are -/

theorem withSites_nil (m : Member) : withSites [] m = m := by
  have hcode (code : Bytes) : Instruction.replace [] code = code :=
    Instruction.replaceFrom_nil 0 code
  have hmap (as : List Attribute) : Attribute.mapCode (fun code : Code =>
      { code with instructions := Instruction.replace [] code.instructions }) as = as := by
    induction as with
    | nil => rfl
    | cons a as ih =>
      cases a with
      | raw | annotations =>
        rw [Attribute.mapCode, ih]
        simp
      | code => simp only [Attribute.mapCode, hcode]
  unfold withSites Member.mapCode
  rw [hmap]

/-- In a method whose name is not that of constructors no constructor call is chosen. -/
theorem eq_nil_of_sitesOf_constructors {old name : String} {m : Member} {sites : List Site}
    (h : sitesOf (callsConstructorOf old p) m = .ok sites) (hname : p.utf8 m.name = .ok name)
    (hne : name ≠ "<init>") : sites = [] := by
  have hfalse (s : Site) : callsConstructorOf old p m s ≠ .ok true := by
    unfold callsConstructorOf Member.nameIn
    split
    · simp [pure, Except.pure]
    · simp [bind, Except.bind, pure, Except.pure, hname, hne]
  unfold sitesOf at h
  split at h
  · obtain ⟨found, -, hfilter⟩ := except_bind_eq_ok.1 h
    exact List.eq_nil_iff_forall_not_mem.2 fun s hs => hfalse s (test_of_filterM hfilter s hs)
  · exact except_pure_eq_ok.1 h

/-- A method whose name is not that of constructors calls none on behalf of its own object. -/
theorem eq_of_rewritten_of_name_ne {old new name : String} {m m' : Member}
    (h : Rewritten (callsConstructorOf old p) (redirectConstructor new p) p q m m')
    (hname : p.utf8 m.name = .ok name) (hne : name ≠ "<init>") : m' = m := by
  obtain ⟨sites, done, hsites, hdone, rfl⟩ := h
  obtain rfl := eq_nil_of_sitesOf_constructors hsites hname hne
  cases hdone
  exact withSites_nil m

section

variable {old new : String}
  (hmoved : u.superName? = .ok (some old) ∧ Reparented old new u t ∨
    (∃ name?, u.superName? = .ok name? ∧ name? ≠ some old) ∧ t = u)
include hmoved

theorem extends_of_moved : u.pool.Extends t.pool := by
  rcases hmoved with ⟨-, hreparented⟩ | ⟨-, rfl⟩
  · exact hreparented.pool
  · exact .refl _

/-- Moving to another superclass keeps the number of methods. -/
theorem length_methods_of_moved : t.methods.length = u.methods.length := by
  rcases hmoved with ⟨-, hreparented⟩ | ⟨-, rfl⟩
  · obtain ⟨_, -, -, hmethods⟩ := hreparented.methods
    exact hmethods.length_eq.symm
  · rfl

/-- A method that is no constructor stays in its place as it was. -/
theorem getElem?_of_moved {k : Nat} {m : Member} {name : String} (hm : u.methods[k]? = some m)
    (hname : m.nameIn u.pool = .ok name) (hne : name ≠ "<init>") : t.methods[k]? = some m := by
  rcases hmoved with ⟨-, hreparented⟩ | ⟨-, rfl⟩
  · obtain ⟨p, hp, -, hmethods⟩ := hreparented.methods
    obtain ⟨hk, hget⟩ := List.getElem?_eq_some_iff.1 hm
    have hk' : k < t.methods.length := hmethods.length_eq ▸ hk
    have hrewritten := hmethods.get hk hk'
    rw [List.get_eq_getElem, List.get_eq_getElem, hget] at hrewritten
    have hsame := eq_of_rewritten_of_name_ne hrewritten (hp.utf8 hname) hne
    rw [List.getElem?_eq_getElem hk', hsame]
  · exact hm

end

/-- Moving to another superclass leaves methods alone that are not constructors. -/
theorem realized_of_rewritten {framed : Bool} {old new : String} {designs : List MethodDesign}
    {ms ms' : List Member} (hpq : p.Extends q) (hnames : ∀ d ∈ designs, d.name ≠ "<init>")
    (h : List.Forall₂ (MethodDesign.Realized framed p) designs ms)
    (h' : List.Forall₂ (Rewritten (callsConstructorOf old p) (redirectConstructor new p) p q)
      ms ms') : List.Forall₂ (MethodDesign.Realized framed q) designs ms' := by
  induction h generalizing ms' with
  | nil =>
    cases h'
    exact .nil
  | @cons d m _ _ hd _ ih =>
    cases h' with
    | cons hm hms =>
      have heq := eq_of_rewritten_of_name_ne hm hd.name (hnames d List.mem_cons_self)
      subst heq
      exact .cons (hd.mono hpq) (ih (fun d hd => hnames d (List.mem_cons_of_mem _ hd)) hms)

end Edit

end ClassWeave
