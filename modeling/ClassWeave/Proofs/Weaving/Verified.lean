import ClassWeave.Proofs.Packed.Verified
import ClassWeave.Proofs.Pooled.Verified
import ClassWeave.Proofs.Weaving.Transform

/-!
# The methods that weaving appends pass the verifier

* `Strategy.Appends` : the methods that a strategy appends, by their names and descriptors.
* `Strategy.verified_of_apply` : whatever the strategy is, all of them are verified.
-/

namespace ClassWeave

/-- A strategy appends methods with these names and descriptors to a unit: a reset, or what makes
room for a slot and a pair of accessors for each instance field, possibly behind what sets up the
class. -/
def Strategy.Appends (u : ClassFile) (texts : List (String × String)) : Strategy → Prop
  | .none => texts = []
  | .pooled => texts = [] ∨ texts = [(Scan.resetName, Scan.plainDescriptor)]
  | .packed => ∃ view, u.fieldsView = .ok view ∧
      (texts = Packed.methodTexts (.ofFields view) ∨
        texts = (Packed.staticInitName, Scan.plainDescriptor) ::
          Packed.methodTexts (.ofFields view))

/-- **Every method that a strategy appends passes the verifier**, in every unit with plain types
that the strategy can be applied to.  It has frames where branches lead if the version asks for
them, and none below. -/
theorem Strategy.verified_of_apply {s : Strategy} {index : TypeIndex} {u t : ClassFile}
    {layout? : Option PackedLayout} (hplain : u.HasPlainTypes)
    (hvalid : u.validate s index = .ok ()) (happly : Gives (s.apply index) u layout? t) :
    ∃ texts, s.Appends u texts ∧ List.Forall₂ (Member.VerifiedAs (50 ≤ u.major) t.pool) texts
      (t.methods.drop u.methods.length) := by
  have happlied := Strategy.gives_apply happly
  cases s with
  | none =>
    obtain ⟨-, rfl⟩ := happlied
    rw [List.drop_length]
    exact ⟨[], rfl, .nil⟩
  | pooled =>
    obtain ⟨-, owner, happlied⟩ := happlied
    exact happlied.verified hplain
  | packed =>
    obtain ⟨owner, layout, -, happlied⟩ := happlied
    obtain ⟨texts, htexts, hverified⟩ := happlied.verified hplain hvalid
    obtain ⟨view, hview, rfl⟩ := happlied.view
    exact ⟨texts, ⟨view, hview, htexts⟩, hverified⟩

/-- A class with a nested component and a number that takes two places is packed: the six methods
that it gains are verified, with frames. -/
theorem Strategy.verified_of_apply_nested :
    let u : ClassFile :=
      { minor := 0, major := 52,
        pool := ⟨#[.none, some (.utf8 "A"), some (.classInfo 1), some (.utf8 "java/lang/Object"),
          some (.classInfo 3), some (.utf8 "x"), some (.utf8 "LB;"), some (.utf8 "y"),
          some (.utf8 "J")]⟩,
        access := 0x21, thisClass := 2, superClass := 4, interfaces := [],
        fields := [{ access := 0, name := 5, descriptor := 6, attributes := [] },
          { access := 0, name := 7, descriptor := 8, attributes := [] }],
        methods := [], attributes := [] }
    let index : TypeIndex := FiniteMap.empty.insert "B" .packed
    u.HasPlainTypes ∧ u.validate .packed index = .ok () ∧ ∃ layout? t,
      Gives (Strategy.apply index .packed) u layout? t ∧ t.methods.length = 6 ∧
        ∀ m ∈ t.methods, m.Verified true t.pool := by
  intro u index
  have hplain : u.HasPlainTypes := by
    intro m hm _ descriptor kind hdescriptor hkind
    simp only [u, List.mem_cons, List.not_mem_nil, or_false] at hm
    rcases hm with rfl | rfl
    · obtain rfl : "LB;" = descriptor := Except.ok.inj hdescriptor
      obtain rfl : ValueKind.object "B" = kind :=
        Except.ok.inj ((by decide +kernel : _ = .ok (.object "B")).symm.trans hkind)
      intro name hname c hc
      obtain rfl : "B" = name := Option.some.inj hname
      obtain rfl : c = 'B' := List.mem_singleton.1 ((by decide : "B".toList = ['B']) ▸ hc)
      decide
    · obtain rfl : "J" = descriptor := Except.ok.inj hdescriptor
      obtain rfl : ValueKind.long = kind :=
        Except.ok.inj ((by decide +kernel : _ = .ok .long).symm.trans hkind)
      exact nofun
  have hvalid : u.validate .packed index = .ok () := by decide +kernel
  have hresult : Prod.map (Except.map fun _ => ()) (·.methods.length)
      (Id.run ((Strategy.apply index .packed).run u)) = (.ok (), 6) := by decide +kernel
  obtain ⟨layout?, t, happly, hlength⟩ : ∃ layout? t,
      Gives (Strategy.apply index .packed) u layout? t ∧ t.methods.length = 6 := by
    generalize hrun : Id.run ((Strategy.apply index .packed).run u) = result at hresult
    obtain ⟨_ | layout?, t⟩ := result
    · cases congrArg Prod.fst hresult
    · exact ⟨layout?, t, hrun, congrArg Prod.snd hresult⟩
  obtain ⟨texts, -, hverified⟩ := Strategy.verified_of_apply hplain hvalid happly
  refine ⟨hplain, hvalid, layout?, t, happly, hlength, fun m hm => ?_⟩
  obtain ⟨text, -, hm⟩ := exists_of_mem_right hverified hm
  exact hm.verified

end ClassWeave
