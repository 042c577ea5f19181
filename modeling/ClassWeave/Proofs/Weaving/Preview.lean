import ClassWeave.Proofs.Weaving.Scan
import ClassWeave.Proofs.Weaving.Transform

/-!
# What a preview foretells

A preview scans and validates a unit, and lays its fields out by what scanning found; weaving does
the first two as well, but packing asks the unit itself for its fields.  The two come to the same.

* `PackedLayout.ofFields_filter` : static fields make no difference to a layout.
* `ClassFile.preview_eq_ok` : what a preview is made of.
* `Preview.Foretells` : what a preview says about weaving.
* `ClassFile.foretells_preview` : every preview says so.
-/

namespace ClassWeave

/-- The layout is the same without the static fields. -/
theorem PackedLayout.ofFields_filter (fs : List Field) :
    ofFields (fs.filter (!·.isStatic)) = ofFields fs := by
  simp only [ofFields, List.filter_filter, Bool.and_self]

/-- What the preview of a unit says about weaving it. -/
structure Preview.Foretells (u : ClassFile) (index : TypeIndex) (settings : Settings)
    (p : Preview) : Prop where
  /-- If there is no strategy to be applied, there is no problem, and the unit is left alone. -/
  idle : p.effective = .none → p.problem? = none ∧ u.weave index settings = .ok none
  /-- If a problem is told, weaving fails, and words its error so. -/
  problem : ∀ text, p.problem?.map Error.message = some text →
    ∃ e, u.weave index settings = .error e ∧ p.problem? = some e ∧ e.message = text
  /-- Otherwise the strategy is applied. -/
  applied : p.effective ≠ .none → p.problem? = none →
    u.weave index settings = some <$> u.transform p.effective index settings
  /-- A unit that is woven has the name, the strategy and the layout of its preview. -/
  woven : ∀ r, u.weave index settings = .ok (some r) → p.problem? = none ∧ p.name = r.name ∧
    p.effective = r.strategy ∧ p.layout? = r.layout? ∧ (r.strategy = .pooled → p.layout? = none)

namespace ClassFile

variable {u : ClassFile} {index : TypeIndex} {settings : Settings} {scan : Scan} {p : Preview}

/-- A preview fails just when scanning does. -/
theorem preview_eq_error {e : Error} : u.preview index = .error e ↔ u.scan = .error e := by
  unfold preview
  cases u.scan with
  | error => simp [bind, Except.bind]
  | ok => simp [bind, Except.bind, pure, Except.pure]

/-- What a preview is made of. -/
theorem preview_eq_ok (h : u.preview index = .ok p) : ∃ scan, u.scan = .ok scan ∧
    p.name = scan.name ∧ p.effective = scan.effective ∧
    p.layout? = (if scan.effective = .packed then some (.ofFields scan.fields) else none) ∧
    ∀ e, p.problem? = some e ↔ u.validate scan.effective index = .error e := by
  obtain ⟨scan, hscan, h⟩ := except_bind_eq_ok.1 h
  obtain rfl := except_pure_eq_ok.1 h
  refine ⟨scan, hscan, rfl, rfl, rfl, fun e => ?_⟩
  cases u.validate scan.effective index <;> simp

/-- What weaving does with a unit that was scanned. -/
theorem weave_of_scan (index : TypeIndex) (settings : Settings) (hscan : u.scan = .ok scan) :
    u.weave index settings =
      if scan.effective = .none then .ok none
      else u.validate scan.effective index >>= fun _ =>
        some <$> u.transform scan.effective index settings := by
  rw [weave, hscan]
  rfl

/-- Nothing is checked when there is no strategy to be applied. -/
theorem validate_none (hscan : u.scan = .ok scan) : u.validate .none index = .ok () := by
  obtain ⟨name, _, _, _, _, _, _, hname, -⟩ := scan_eq_ok.1 hscan
  rw [validate, hname]
  rfl

/-- A unit that is packed has the layout of the fields that scanning found, and one that is pooled
has none. -/
theorem layout?_of_weave {r : Woven} (hscan : u.scan = .ok scan)
    (h : u.weave index settings = .ok (some r)) :
    r.layout? = if r.strategy = .packed then some (.ofFields scan.fields) else none := by
  obtain ⟨_, -, -, hne, -, -, -, hgives, -⟩ := weave_eq_ok h
  obtain ⟨_, happlied, -⟩ := Edit.gives_weaveBy hgives
  cases hstrategy : r.strategy with
  | none => exact absurd hstrategy hne
  | pooled =>
    rw [hstrategy] at happlied
    exact happlied.1
  | packed =>
    rw [hstrategy] at happlied
    obtain ⟨_, layout, hlayout, hpacked⟩ := happlied
    obtain ⟨view, hview, rfl⟩ := hpacked.view
    obtain ⟨_, _, _, fields, _, _, _, -, -, -, -, hfields, -, -, -, rfl⟩ := scan_eq_ok.1 hscan
    obtain rfl := Except.ok.inj (hview.symm.trans hfields)
    rw [hlayout, if_pos rfl, PackedLayout.ofFields_filter]

/-- **A preview tells what weaving does.**  There is a preview of a unit unless scanning fails, in
which case weaving fails with the same error; and what the preview says about weaving is so. -/
theorem foretells_preview (u : ClassFile) (index : TypeIndex) (settings : Settings) :
    (∀ e, u.preview index = .error e ↔ u.scan = .error e) ∧
    (∀ e, u.preview index = .error e → u.weave index settings = .error e) ∧
    ∀ p, u.preview index = .ok p → p.Foretells u index settings := by
  refine ⟨fun e => preview_eq_error, fun e he => ?_, fun p hp => ?_⟩
  · rw [weave, preview_eq_error.1 he]
    rfl
  obtain ⟨scan, hscan, hname, heffective, hlayout, hproblem⟩ := preview_eq_ok hp
  have hweave := weave_of_scan index settings hscan
  have hnone : p.problem? = none ↔ u.validate scan.effective index = .ok () := by
    cases hvalid : u.validate scan.effective index with
    | error e => simp [(hproblem e).2 hvalid]
    | ok => simp [Option.eq_none_iff_forall_ne_some, hproblem, hvalid]
  refine ⟨fun hidle => ?_, fun text htext => ?_, fun hne hfine => ?_, fun r hr => ?_⟩
  · rw [heffective] at hidle
    rw [hnone, hweave, if_pos hidle, hidle]
    exact ⟨validate_none hscan, rfl⟩
  · obtain ⟨e, he, rfl⟩ := Option.map_eq_some_iff.1 htext
    have hinvalid := (hproblem e).1 he
    have hne : scan.effective ≠ .none := by
      intro hidle
      rw [hidle, validate_none hscan] at hinvalid
      cases hinvalid
    refine ⟨e, ?_, he, rfl⟩
    rw [hweave, if_neg hne, hinvalid]
    rfl
  · rw [heffective] at hne ⊢
    rw [hweave, if_neg hne, hnone.1 hfine]
    rfl
  · obtain ⟨scan', hscan', hstrategy, -, hname', -, hvalid, -⟩ := weave_eq_ok hr
    obtain rfl := Except.ok.inj (hscan.symm.trans hscan')
    rw [← hstrategy] at hvalid
    have hsame : p.layout? = r.layout? := by
      rw [hlayout, layout?_of_weave hscan hr, hstrategy]
    refine ⟨hnone.2 hvalid, ?_, heffective.trans hstrategy, hsame, fun hpooled => ?_⟩
    · obtain ⟨_, _, _, _, _, _, _, hown, -, -, -, -, -, -, -, rfl⟩ := scan_eq_ok.1 hscan
      exact hname.trans (Except.ok.inj (hown.symm.trans hname'))
    · rw [hsame, layout?_of_weave hscan hr, hpooled]
      rfl

/-- A unit with a component of the type `B`.  If that is packed, the preview has the layout of the
woven unit; otherwise it has the problem that weaving fails for. -/
theorem foretells_preview_nested :
    let u : ClassFile :=
      { minor := 0, major := 52,
        pool := ⟨#[none, some (.utf8 "A"), some (.classInfo 1), some (.utf8 "java/lang/Object"),
          some (.classInfo 3), some (.utf8 "RuntimeInvisibleAnnotations"),
          some (.utf8 "Lcom/artemis/annotations/PackedWeaver;"), some (.utf8 "x"),
          some (.utf8 "LB;")]⟩,
        access := 0x21, thisClass := 2, superClass := 4, interfaces := [],
        fields := [{ access := 0, name := 7, descriptor := 8, attributes := [] }], methods := [],
        attributes := [.annotations 5 [{ type := 6, elements := [] }]] }
    let index : TypeIndex := FiniteMap.empty.insert "B" .packed
    (∃ p r, u.preview index = .ok p ∧ u.weave index {} = .ok (some r) ∧ p.problem? = none ∧
      p.effective = r.strategy ∧ p.layout? = r.layout? ∧
        r.layout? = some ⟨4, [⟨"x", .object "B", 0, 4⟩]⟩) ∧
    ∃ p e, u.preview .empty = .ok p ∧ p.problem? = some e ∧ u.weave .empty {} = .error e ∧
      e.message = "Field can not be packed - x" := by
  intro u index
  constructor
  · have heffective : Preview.effective <$> u.preview index = .ok .packed := by decide +kernel
    obtain ⟨p, hp, -⟩ := except_map_eq_ok.1 heffective
    have hresult : Option.map Woven.layout? <$> u.weave index {} =
        .ok (some (some ⟨4, [⟨"x", .object "B", 0, 4⟩]⟩)) := by
      decide +kernel
    obtain ⟨r, hweave, hlayout⟩ := except_map_some_eq_ok.1 hresult
    obtain ⟨-, -, hforetells⟩ := foretells_preview u index {}
    obtain ⟨hfine, -, hstrategy, hsame, -⟩ := (hforetells p hp).woven r hweave
    exact ⟨p, r, hp, hweave, hfine, hstrategy, hsame, hlayout⟩
  · have hproblem : (fun p => p.problem?.map Error.message) <$> u.preview .empty =
        .ok (some "Field can not be packed - x") := by
      decide +kernel
    obtain ⟨p, hp, htext⟩ := except_map_eq_ok.1 hproblem
    obtain ⟨-, -, hforetells⟩ := foretells_preview u .empty {}
    obtain ⟨e, hweave, he, hmessage⟩ := (hforetells p hp).problem _ htext.symm
    exact ⟨p, e, hp, he, hweave, hmessage⟩

end ClassFile

end ClassWeave
