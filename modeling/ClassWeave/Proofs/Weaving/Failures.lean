import ClassWeave.Proofs.Verifier.Listing
import ClassWeave.Proofs.Weaving.Conserved
import ClassWeave.Proofs.Weaving.Overflow
import Mathlib.Algebra.Order.BigOperators.Group.List
import Mathlib.Algebra.Order.Group.Nat

/-!
# Why an edit fails

An edit fails as a question about the unit has no answer, as an instruction does not tell whether it
is to be replaced, or as the pool is full.

* `Member.Unsplit`, `Member.sites` : bodies that are no instructions in a row, and the member
  instructions of the others.
* `Edit.Unsearchable`, `Edit.fails_rewriteSites` : methods in which nothing can be chosen, and the
  failures of rewriting.
* `Edit.Immovable`, `Edit.fails_reparent` : the failures of moving to another superclass.
-/

namespace ClassWeave

open Instruction (Site)

namespace Member

variable {m : Member} {body : Code} {s : Site} {cause : Malformation}

/-- The method has a body that does not split into instructions. -/
def Unsplit (m : Member) (cause : Malformation) : Prop :=
  ∃ body, m.code? = some body ∧ Instruction.offsets body.instructions = .error cause

/-- The member instructions in the body of a method, if it has one that splits. -/
def sites (m : Member) : List Site :=
  match m.code? with
  | some body => (Instruction.memberSites body.instructions).toOption.getD []
  | none => []

theorem sites_eq {list : List Site} (hbody : m.code? = some body)
    (h : Instruction.memberSites body.instructions = .ok list) : m.sites = list := by
  simp only [sites, hbody, h]
  rfl

/-- How many member instructions there are in some methods. -/
def siteCount (ms : List Member) : Nat := (ms.map (·.sites.length)).sum

/-- Generated bodies split into instructions. -/
theorem not_unsplit_of_realized {framed : Bool} {p : ConstantPool} {d : MethodDesign}
    (h : d.Realized framed p m) : ¬ m.Unsplit cause := by
  rintro ⟨found, hfound, hfails⟩
  obtain ⟨name, body, htable, -, hbody⟩ := h.body
  rw [code?, htable] at hfound
  cases hfound
  obtain ⟨row, hrow, hflat⟩ := hbody.encodes.exists_row 0
  rw [hflat, Instruction.offsets, hrow.offsetsFrom] at hfails
  cases hfails

end Member

namespace Edit

variable {α : Type} {u t : ClassFile} {e : Error} {cause : Malformation} {p q : ConstantPool}
  {k n : Nat}

theorem fails_ask {question : ClassFile → Except Malformation α} :
    Fails (ask question) u e ↔ ∃ cause, question u = .error cause ∧ e = .malformed cause := by
  rw [ask, fails_bind]
  simp only [not_fails_get, gives_get, false_or]
  cases hasked : question u with
  | error cause => simp [hasked, fails_throw]
  | ok a => simp [hasked, not_fails_pure]

/-! ### Growing -/

theorem fails_grow {act : Growing α} : Fails (grow act) u e ↔
    ∃ cause, Growing.Stops act (.start u) u.pool cause ∧ e = .malformed cause := by
  unfold Fails Growing.Stops
  rw [run_grow]
  rcases Id.run ((act.run (.start u)).run u.pool) with ⟨⟨found | a, g⟩, q⟩
  · simp [Except.mapError, eq_comm]
  · simp [Except.mapError]

theorem lacks_of_fails_grow {act : Growing α} (hact : Growing.Takes n act)
    (h : Fails (grow act) u e) : ∃ cause, e = .malformed cause ∧ u.pool.Lacks n cause := by
  obtain ⟨cause, hstops, he⟩ := fails_grow.1 h
  exact ⟨cause, he, hact.lacks _ _ cause hstops⟩

theorem size_of_gives_grow {act : Growing α} {a : α} (hact : Growing.Takes n act)
    (h : Gives (grow act) u a t) : t.pool.size ≤ u.pool.size + n := by
  obtain ⟨g, q, hgains, rfl⟩ := gains_of_gives_grow h
  exact hact.size _ _ a g q hgains

theorem takes_superName {name : String} : Growing.Takes 2 (Growing.interning (.classRef name)) :=
  Growing.takes_interning Interning.takes_classRef

theorem lacks_of_fails_setSuperName {name : String} (h : Fails (setSuperName name) u e) :
    ∃ cause, e = .malformed cause ∧ u.pool.Lacks 2 cause := by
  rcases fails_bind.1 h with hname | ⟨superClass, t, -, hmodify⟩
  · exact lacks_of_fails_grow takes_superName hname
  · exact absurd hmodify not_fails_modify

theorem size_of_gives_setSuperName {name : String} {r : Unit}
    (h : Gives (setSuperName name) u r t) : t.pool.size ≤ u.pool.size + 2 := by
  obtain ⟨superClass, v, hname, hmodify⟩ := gives_bind.1 h
  have hsize : v.pool.size ≤ u.pool.size + 2 := size_of_gives_grow takes_superName hname
  obtain rfl := gives_modify.1 hmodify
  exact hsize

/-! ### Rewriting instructions -/

section

variable {choose : Member → Site → Except Malformation Bool} {redirect : Site → Interning Site}
  {m : Member} {ms : List Member}

/-- In the method it cannot be told which instructions are to be replaced. -/
def Unsearchable (choose : Member → Site → Except Malformation Bool) (m : Member)
    (cause : Malformation) : Prop :=
  m.Unsplit cause ∨ ∃ s ∈ m.sites, choose m s = .error cause

theorem unsearchable_of_sitesOf (h : sitesOf choose m = .error cause) :
    Unsearchable choose m cause := by
  unfold sitesOf at h
  split at h
  · rename_i body hbody
    rcases except_bind_eq_error.1 h with hsites | ⟨sites, hsites, hfilter⟩
    · exact .inl ⟨body, hbody, Instruction.memberSitesFrom_eq_error.1 hsites⟩
    · obtain ⟨s, hs, hchoose⟩ := exists_of_filterM_eq_error hfilter
      exact .inr ⟨s, Member.sites_eq hbody hsites ▸ hs, hchoose⟩
  · exact absurd h except_pure_ne_error

/-- How many instructions of a method are to be replaced. -/
def chosenIn (choose : Member → Site → Except Malformation Bool) (m : Member) : Nat :=
  match sitesOf choose m with
  | .ok sites => sites.length
  | .error _ => 0

theorem chosenIn_eq {sites : List Site} (h : sitesOf choose m = .ok sites) :
    chosenIn choose m = sites.length := by
  simp only [chosenIn, h]

theorem chosenIn_le : chosenIn choose m ≤ m.sites.length := by
  cases hsites : sitesOf choose m with
  | error cause => simp only [chosenIn, hsites, Nat.zero_le]
  | ok sites =>
    rw [chosenIn_eq hsites]
    unfold sitesOf at hsites
    split at hsites
    · rename_i body hbody
      obtain ⟨all, hall, hfilter⟩ := except_bind_eq_ok.1 hsites
      rw [Member.sites_eq hbody hall, (except_filterM_eq_ok hfilter).2]
      exact List.length_filter_le _ _
    · rw [except_pure_eq_ok.1 hsites]
      exact Nat.zero_le _

theorem sum_chosenIn_le (choose : Member → Site → Except Malformation Bool) (ms : List Member) :
    (ms.map (chosenIn choose)).sum ≤ Member.siteCount ms :=
  List.sum_le_sum fun _ _ => chosenIn_le

/-- A run of redirections has taken at most `n` slots of the pool, or there are fewer left. -/
def Afforded (p : ConstantPool) (n : Nat) (failure? : Option Malformation) (q : ConstantPool) :
    Prop :=
  match failure? with
  | none => q.size ≤ p.size + n
  | some cause => p.Lacks n cause

theorem Afforded.after {failure? : Option Malformation} {r : ConstantPool}
    (h : Afforded q n failure? r) (hq : q.size ≤ p.size + k) : Afforded p (n + k) failure? r := by
  cases failure? with
  | none =>
    have hr : r.size ≤ q.size + n := h
    show r.size ≤ p.size + (n + k)
    omega
  | some cause => exact ConstantPool.Lacks.mono h (by omega)

theorem Afforded.widen {failure? : Option Malformation} (h : Afforded p n failure? q)
    (hle : n ≤ k) : Afforded p k failure? q := by
  cases failure? with
  | none => exact Nat.le_trans h (by omega)
  | some cause => exact ConstantPool.Lacks.mono h (by omega)

theorem afforded_redirectSites {sites done : List Site} {failure? : Option Malformation}
    (hredirect : ∀ s ∈ sites, Interning.Takes k (redirect s))
    (h : redirectSites redirect sites p = ((done, failure?), q)) :
    Afforded p (k * sites.length) failure? q := by
  induction sites generalizing p done with
  | nil =>
    cases h
    exact Nat.le_add_right _ _
  | cons s sites ih =>
    rw [List.forall_mem_cons] at hredirect
    rw [List.length_cons, Nat.mul_succ]
    unfold redirectSites at h
    split at h
    · rename_i found r hs
      cases h
      have hfails : Fails (redirect s) p found := congrArg Prod.fst hs
      exact (hredirect.1.lacks p found hfails).mono (by omega)
    · rename_i s' r hs
      rcases hrest : redirectSites redirect sites r with ⟨⟨done', failure'?⟩, q'⟩
      rw [hrest] at h
      cases h
      exact (ih hredirect.2 hrest).after (hredirect.1.size p s' r hs)

theorem afforded_redirectMethods {pairs : List (Member × List Site)} {methods : List Member}
    {failure? : Option Malformation}
    (hredirect : ∀ pair ∈ pairs, ∀ s ∈ pair.2, Interning.Takes k (redirect s))
    (h : redirectMethods redirect pairs p = ((methods, failure?), q)) :
    Afforded p (k * (pairs.map (·.2.length)).sum) failure? q := by
  induction pairs generalizing p methods with
  | nil =>
    cases h
    exact Nat.le_add_right _ _
  | cons pair pairs ih =>
    obtain ⟨m, sites⟩ := pair
    rw [List.forall_mem_cons] at hredirect
    rw [List.map_cons, List.sum_cons, Nat.add_comm, Nat.mul_add]
    unfold redirectMethods at h
    rcases hsites : redirectSites redirect sites p with ⟨⟨done, found?⟩, r⟩
    have hfirst := afforded_redirectSites hredirect.1 hsites
    rw [hsites] at h
    cases found? with
    | some found =>
      cases h
      exact hfirst.widen (Nat.le_add_left _ _)
    | none =>
      rcases hrest : redirectMethods redirect pairs r with ⟨⟨methods', failure'?⟩, q'⟩
      simp only [hrest] at h
      cases h
      exact (ih hredirect.2 hrest).after hfirst

/-- All methods are searched before the first instruction is replaced. -/
theorem afforded_chosen {chosen : List (List Site)} {methods : List Member}
    {failure? : Option Malformation}
    (hredirect : ∀ m s, choose m s = .ok true → Interning.Takes k (redirect s))
    (hchosen : chooseSites choose ms = .ok chosen)
    (h : redirectMethods redirect (ms.zip chosen) p = ((methods, failure?), q)) :
    Afforded p (k * (ms.map (chosenIn choose)).sum) failure? q := by
  have hall : List.Forall₂ (fun m sites => sitesOf choose m = .ok sites) ms chosen :=
    except_mapM_eq_ok.1 hchosen
  have hcount : ((ms.zip chosen).map (·.2.length)) = ms.map (chosenIn choose) := by
    clear hchosen h
    induction hall with
    | nil => rfl
    | cons hm _ ih => rw [List.zip_cons_cons, List.map_cons, List.map_cons, ih, chosenIn_eq hm]
  rw [← hcount]
  refine afforded_redirectMethods (fun pair hpair s hs => ?_) h
  -- what is redirected was chosen
  have hsites : sitesOf choose pair.1 = .ok pair.2 := List.forall₂_zip hall hpair
  unfold sitesOf at hsites
  split at hsites
  · obtain ⟨all, -, hfilter⟩ := except_bind_eq_ok.1 hsites
    exact hredirect pair.1 s (test_of_filterM hfilter s hs)
  · rw [except_pure_eq_ok.1 hsites] at hs
    cases hs

end

section

variable {choose : ConstantPool → Member → Site → Except Malformation Bool}
  {redirect : ConstantPool → Site → Interning Site}
  (hredirect : ∀ m s, choose u.pool m s = .ok true → Interning.Takes k (redirect u.pool s))
include hredirect

/-- **Rewriting fails** at a method in which nothing can be chosen, or as there is no room for what
the chosen instructions are to refer to. -/
theorem fails_rewriteSites (h : Fails (rewriteSites choose redirect) u e) :
    ∃ cause, e = .malformed cause ∧
      ((∃ m ∈ u.methods, Unsearchable (choose u.pool) m cause) ∨
        u.pool.Lacks (k * (u.methods.map (chosenIn (choose u.pool))).sum) cause) := by
  rcases fails_bind.1 h with hask | ⟨chosen, u₁, hask, h₁⟩
  · obtain ⟨cause, hchoose, rfl⟩ := fails_ask.1 hask
    obtain ⟨m, hm, hsites⟩ := exists_of_mapM_eq_error hchoose
    exact ⟨cause, rfl, .inl ⟨m, hm, unsearchable_of_sitesOf hsites⟩⟩
  obtain ⟨hchosen, rfl⟩ := gives_ask.1 hask
  rcases fails_bind.1 h₁ with hget | ⟨u₂, u₃, hget, h₂⟩
  · exact absurd hget not_fails_get
  obtain ⟨rfl, rfl⟩ := gives_get.1 hget
  generalize hmethods : redirectMethods (redirect u₃.pool) (u₃.methods.zip chosen) u₃.pool =
    result at h₂
  obtain ⟨⟨methods, failure?⟩, q⟩ := result
  rcases fails_bind.1 h₂ with hset | ⟨_, u₄, -, h₃⟩
  · exact absurd hset not_fails_set
  cases failure? with
  | none => exact absurd h₃ not_fails_pure
  | some cause =>
    exact ⟨cause, fails_throw.1 h₃, .inr (afforded_chosen hredirect hchosen hmethods)⟩

/-- Rewriting takes slots for what the chosen instructions are to refer to. -/
theorem size_of_gives_rewriteSites {r : Unit} (h : Gives (rewriteSites choose redirect) u r t) :
    t.pool.size ≤ u.pool.size + k * (u.methods.map (chosenIn (choose u.pool))).sum := by
  obtain ⟨-, chosen, hchosen, hmethods⟩ := exists_chosen_of_gives h
  exact afforded_chosen hredirect hchosen hmethods

end

/-- A rewritten body splits into instructions, and each of its member instructions has taken the
place of one. -/
theorem sites_of_rewritten {choose : Member → Site → Except Malformation Bool}
    {redirect : Site → Interning Site} {m m' : Member} (hexchanges : Exchanges choose redirect)
    (h : Rewritten choose redirect p q m m') : (∀ cause, ¬ m'.Unsplit cause) ∧
      List.Forall₂ (Turned (choose m) redirect p q) m.sites m'.sites := by
  obtain ⟨⟨edit, rfl, -⟩, hsites⟩ := retouched_of_rewritten hexchanges h
  cases hbody : m.code? with
  | none =>
    have hbody' : (m.editCode edit).code? = none := by rw [Member.code?_editCode, hbody]; rfl
    constructor
    · rintro cause ⟨body', hcode, -⟩
      rw [hbody'] at hcode
      cases hcode
    · simp only [Member.sites, hbody, hbody']
      exact .nil
  | some body =>
    obtain ⟨body', sites, sites', hbody', hmember, hmember', hall⟩ := hsites body hbody
    constructor
    · rintro cause ⟨found, hfound, hfails⟩
      obtain rfl := Option.some.inj (hbody'.symm.trans hfound)
      rw [Instruction.memberSites, Instruction.memberSitesFrom_eq_error.2 hfails] at hmember'
      cases hmember'
    · rw [Member.sites_eq hbody hmember, Member.sites_eq hbody' hmember']
      exact hall

/-- So there are as many of them as before. -/
theorem siteCount_of_rewritten {choose : Member → Site → Except Malformation Bool}
    {redirect : Site → Interning Site} {ms ms' : List Member}
    (hexchanges : Exchanges choose redirect)
    (h : List.Forall₂ (Rewritten choose redirect p q) ms ms') :
    Member.siteCount ms' = Member.siteCount ms := by
  unfold Member.siteCount
  induction h with
  | nil => rfl
  | cons hm _ ih =>
    rw [List.map_cons, List.map_cons, List.sum_cons, List.sum_cons, ih,
      (sites_of_rewritten hexchanges hm).2.length_eq]

/-! ### Moving to another superclass -/

theorem callsConstructorOf_eq_error {owner : String} {m : Member} {s : Site}
    (h : callsConstructorOf owner p m s = .error cause) : s.opcode = Opcode.invokeSpecial ∧
      (m.nameIn p = .error cause ∨
        m.nameIn p = .ok "<init>" ∧ p.memberRef s.operand = .error cause) := by
  unfold callsConstructorOf at h
  split_ifs at h with hopcode
  · exact absurd h except_pure_ne_error
  refine ⟨not_not.1 hopcode, ?_⟩
  rcases except_bind_eq_error.1 h with hname | ⟨name, hname, h⟩
  · exact .inl hname
  split_ifs at h with hother
  · exact absurd h except_pure_ne_error
  obtain rfl := not_not.1 hother
  rcases except_bind_eq_error.1 h with htarget | ⟨_, -, h⟩
  · exact .inr ⟨hname, htarget⟩
  · exact absurd h except_pure_ne_error

/-- A call of a constructor of the old superclass names a method, so there is nothing but the room
in the pool that it can fail for. -/
theorem takes_redirectConstructor {old new : String} {m : Member} {s : Site}
    (hchosen : callsConstructorOf old p m s = .ok true) :
    Interning.Takes 6 (redirectConstructor new p s) := by
  obtain ⟨-, -, target, htarget, -⟩ := callsConstructorOf_eq_true.1 hchosen
  exact .lift htarget (Interning.takes_methodRef.bind fun _ => Interning.takes_pure _)

/-- Why a unit cannot be moved from the superclass `old` to another one. -/
inductive Immovable (old : String) (u : ClassFile) (cause : Malformation) : Prop
  /-- The superclass cannot be told. -/
  | superName : u.superName? = .error cause → Immovable old u cause
  /-- There is no room for the name of the new superclass. -/
  | name : u.pool.Lacks 2 cause → Immovable old u cause
  /-- With that name in the pool, constructor calls cannot be told in a method. -/
  | search (p : ConstantPool) (m : Member) : u.pool.Extends p → m ∈ u.methods →
      Unsearchable (callsConstructorOf old p) m cause → Immovable old u cause
  /-- There is no room for the constructors of the new superclass. -/
  | calls (p : ConstantPool) : u.pool.Extends p → u.pool.Lacks
      (6 * (u.methods.map (chosenIn (callsConstructorOf old p))).sum + 2) cause →
      Immovable old u cause

/-- **Moving to another superclass fails** for one of these reasons. -/
theorem fails_reparent {old new : String} (h : Fails (reparent old new) u e) :
    ∃ cause, e = .malformed cause ∧ Immovable old u cause := by
  rcases fails_bind.1 h with hask | ⟨name?, u₁, hask, h₁⟩
  · obtain ⟨cause, hname, rfl⟩ := fails_ask.1 hask
    exact ⟨cause, rfl, .superName hname⟩
  obtain ⟨-, rfl⟩ := gives_ask.1 hask
  split at h₁
  · rcases fails_bind.1 h₁ with hsuper | ⟨_, u₂, hsuper, h₂⟩
    · obtain ⟨cause, he, hlacks⟩ := lacks_of_fails_setSuperName hsuper
      exact ⟨cause, he, .name hlacks⟩
    have hsize := size_of_gives_setSuperName hsuper
    obtain ⟨hpool, -, hu₂⟩ := gives_setSuperName hsuper
    have hmethods : u₂.methods = u₁.methods := by rw [hu₂]
    obtain ⟨cause, rfl, hwhy⟩ :=
      fails_rewriteSites (fun _ _ hchosen => takes_redirectConstructor hchosen) h₂
    rw [hmethods] at hwhy
    refine ⟨cause, rfl, ?_⟩
    rcases hwhy with ⟨m, hm, hwhy⟩ | hlacks
    · exact .search u₂.pool m hpool hm hwhy
    · exact .calls u₂.pool hpool (hlacks.mono (by omega))
  · exact absurd h₁ not_fails_pure

/-- A generated method that is no constructor is searched, and no constructor call is found in
it. -/
theorem searched_of_realized {framed : Bool} {old : String} {d : MethodDesign} {m : Member}
    (h : d.Realized framed p m) (hne : d.name ≠ "<init>") :
    (∀ cause, ¬ Unsearchable (callsConstructorOf old p) m cause) ∧
      chosenIn (callsConstructorOf old p) m = 0 := by
  constructor
  · rintro cause (hbody | ⟨s, -, hchoose⟩)
    · exact Member.not_unsplit_of_realized h hbody
    rcases (callsConstructorOf_eq_error hchoose).2 with hnone | ⟨hinit, -⟩
    · rw [Member.nameIn, h.name] at hnone
      cases hnone
    · exact hne (Except.ok.inj (h.name.symm.trans hinit))
  · cases hsites : sitesOf (callsConstructorOf old p) m with
    | error cause => simp only [chosenIn, hsites]
    | ok sites =>
      rw [chosenIn_eq hsites, eq_nil_of_sitesOf_constructors hsites h.name hne]
      rfl

end Edit

end ClassWeave
