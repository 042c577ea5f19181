import ClassWeave.Command.Inspect
import ClassWeave.Command.Weave
import ClassWeave.Proofs.Run.Index
import ClassWeave.Proofs.Run.Nested
import Mathlib.Data.List.Induction

/-!
# Inspecting a unit and weaving it

Inspecting a class file of a directory tells what weaving the directory does with it.  Both commands
first note which types the units of the directory declare to be packed.  A run only notes what a
unit declares for the type that it is stored under; the other command notes it for whatever type the
unit is named after, and what it notes last counts.  So the commands agree unless a unit that is
stored under another name than its own is named after the type of a field.

* `TypeIndex.get?_insertScanned` : what noting units in a row comes to.
* `Directory.StoresPacked`, `Directory.ShowsPacked` : the types that a run, and the other command,
  take for packed.
* `Directory.Holds` : a class file of a directory that holds a unit under its own name.
* `InspectRequest.foretells_weave` : the problem that is shown, and the failure that is reported.
-/

namespace ClassWeave

/-! ### Noting units in a row -/

/-- **Noting units in a row**: of those that are named after a type the last one counts. -/
theorem TypeIndex.get?_insertScanned {us : List ClassFile} {type : String} :
    (us.foldl insertScanned .empty).get? type =
      (us.filterMap (ClassFile.declaredAs? type)).getLast? := by
  induction us using List.reverseRecOn with
  | nil => rfl
  | append_singleton us u ih =>
    rw [List.foldl_append, List.foldl_cons, List.foldl_nil, List.filterMap_append,
      List.getLast?_append, ← ih]
    unfold insertScanned ClassFile.declaredAs?
    cases hscan : u.scan with
    | error => simp [hscan]
    | ok scan =>
      simp only [FiniteMap.get?_insert, List.filterMap_cons, hscan, List.filterMap_nil]
      by_cases htype : scan.name = type
      · simp [htype]
      · simp [htype, Ne.symm htype]

/-! ### What is known of a type -/

namespace Directory

variable {d : Directory} {t : FileTree} {names : List String} {us : List ClassFile}
  {u : ClassFile} {scan : Scan} {file type : String}

/-- A run over the directory takes the type for packed: the unit that is stored under the name of
the type declares it. -/
def StoresPacked (d : Directory) (t : FileTree) (names : List String) (type : String) : Prop :=
  type ∈ names ∧ ∃ v, Run.readUnit d.storage {} t type = .ok v ∧ v.declaredAs? type = some .packed

/-- The type is taken for packed when a unit is inspected beside others: of those that are named
after the type the last one declares it. -/
def ShowsPacked (us : List ClassFile) (u : ClassFile) (type : String) : Prop :=
  ((us ++ [u]).filterMap (ClassFile.declaredAs? type)).getLast? = some .packed

/-- No unit that is stored under another name is named after the type. -/
def KeepsName (d : Directory) (t : FileTree) (names : List String) (type : String) : Prop :=
  ∀ name ∈ names, ∀ v, Run.readUnit d.storage {} t name = .ok v → ∀ s,
    v.declaredAs? type = some s → name = type

/-- A class file of the directory holds a unit, which can be scanned, under the name that the unit
has itself. -/
structure Holds (d : Directory) (t : FileTree) (names : List String) (file : String)
    (u : ClassFile) (scan : Scan) : Prop where
  /-- The names of all units. -/
  listing : d.names t = .ok names
  /-- The name of the unit is among them. -/
  listed : scan.name ∈ names
  /-- The file is the one in which the directory keeps the unit. -/
  stored : ∃ data, t.read (.ofText file) = .ok data ∧ d.read scan.name t = .ok data ∧
    ClassFile.read {} data = .ok u
  /-- The unit can be scanned. -/
  scan : u.scan = .ok scan

theorem readUnit_storage {settings : Settings} {name : String} :
    Run.readUnit d.storage settings t name = .ok u ↔
      ∃ data, d.read name t = .ok data ∧ ClassFile.read settings.versions data = .ok u := by
  simp only [Run.readUnit, storage, except_bind_eq_ok, except_liftM_eq_ok]

theorem Holds.readUnit (h : d.Holds t names file u scan) :
    Run.readUnit d.storage {} t scan.name = .ok u := by
  obtain ⟨data, -, hread, hunit⟩ := h.stored
  exact readUnit_storage.2 ⟨data, hread, hunit⟩

theorem mem_readable (hnames : d.names t = .ok names) (hus : d.readable t = .ok us) :
    u ∈ us ↔ ∃ name ∈ names, Run.readUnit d.storage {} t name = .ok u := by
  obtain ⟨names', hnames', hus⟩ := except_bind_eq_ok.1 hus
  obtain rfl := Except.ok.inj (hnames.symm.trans hnames')
  obtain rfl := except_pure_eq_ok.1 hus
  simp only [List.mem_filterMap, readUnit_storage]
  refine exists_congr fun name => and_congr_right fun _ => ?_
  cases d.read name t with
  | error => simp
  | ok data => cases hread : ClassFile.read {} data <;> simp [Except.toOption, hread]

/-- **The commands know the same of a type** after which no unit is named that is stored under
another name. -/
theorem showsPacked_iff (h : d.Holds t names file u scan) (hus : d.readable t = .ok us)
    (hkeeps : d.KeepsName t names type) : ShowsPacked us u type ↔ d.StoresPacked t names type := by
  -- what is noted for the type is noted of the unit that is stored under its name
  have hnoted : ∀ v ∈ us ++ [u], ∀ s, v.declaredAs? type = some s →
      type ∈ names ∧ Run.readUnit d.storage {} t type = .ok v := by
    intro v hv s hs
    obtain ⟨name, hname, hread⟩ : ∃ name ∈ names, Run.readUnit d.storage {} t name = .ok v := by
      rcases List.mem_append.1 hv with hv | hv
      · exact (mem_readable h.listing hus).1 hv
      · rw [List.mem_singleton.1 hv]
        exact ⟨scan.name, h.listed, h.readUnit⟩
    obtain rfl := hkeeps name hname v hread s hs
    exact ⟨hname, hread⟩
  constructor
  · intro hlast
    obtain ⟨v, hv, hs⟩ := List.mem_filterMap.1 (List.mem_of_getLast? hlast)
    obtain ⟨hname, hread⟩ := hnoted v hv _ hs
    exact ⟨hname, v, hread, hs⟩
  · rintro ⟨hname, v, hread, hs⟩
    have hmem : v ∈ us ++ [u] :=
      List.mem_append_left _ ((mem_readable h.listing hus).2 ⟨type, hname, hread⟩)
    have hne : (us ++ [u]).filterMap (ClassFile.declaredAs? type) ≠ [] :=
      List.ne_nil_of_mem (List.mem_filterMap.2 ⟨v, hmem, hs⟩)
    obtain ⟨w, hw, hlast⟩ := List.mem_filterMap.1 (List.getLast_mem hne)
    obtain rfl := Except.ok.inj (hread.symm.trans (hnoted w hw _ hlast).2)
    rw [ShowsPacked, List.getLast?_eq_some_getLast hne, ← hlast, hs]

end Directory

/-! ### Both commands -/

section

variable {r : WeaveRequest} {d : Directory} {t : FileTree} {names : List String}
  {us : List ClassFile} {u : ClassFile} {scan : Scan} {file : String} {report : Report}

/-- What is found in a class file beside the other units of the directory. -/
theorem InspectRequest.run_of_holds (hopen : Directory.openAt t (.ofText r.root) = .ok d)
    (h : d.Holds t names file u scan) (hus : d.readable t = .ok us) :
    ∃ i, run { file, classes? := some r.root } t = .ok i ∧
      u.preview ((us ++ [u]).foldl TypeIndex.insertScanned .empty) = .ok i.preview := by
  obtain ⟨data, hfile, -, hunit⟩ := h.stored
  cases hpreview : u.preview ((us ++ [u]).foldl TypeIndex.insertScanned .empty) with
  | error e =>
    cases h.scan.symm.trans (ClassFile.preview_eq_error.1 hpreview)
  | ok preview =>
    refine ⟨⟨u.minor, u.major, preview⟩, ?_, rfl⟩
    have hunit : InspectRequest.unit { file, classes? := some r.root } t = .ok u := by
      simp only [InspectRequest.unit, hfile, hunit]
      rfl
    have hindex : InspectRequest.index { file, classes? := some r.root } t =
        .ok (us.foldl TypeIndex.insertScanned .empty) := by
      simp only [InspectRequest.index, hopen, Directory.index, hus]
      rfl
    rw [List.foldl_append, List.foldl_cons, List.foldl_nil] at hpreview
    refine except_bind_eq_ok.2 ⟨u, hunit, except_bind_eq_ok.2 ⟨_, hindex, ?_⟩⟩
    rw [hpreview]
    rfl

theorem WeaveRequest.run_of_open (hopen : Directory.openAt t (.ofText r.root) = .ok d)
    (hnames : d.names t = .ok names) : ∃ report t', r.run t = (.ok report, t') ∧
      Run.Reported d.storage r.settings t report := by
  have hrun : ∃ report t', Run.run d.storage r.settings t = (.ok report, t') := by
    unfold Run.run
    rw [show d.storage.names t = .ok names from hnames]
    exact ⟨_, _, rfl⟩
  obtain ⟨report, t', hrun⟩ := hrun
  refine ⟨report, t', ?_, Run.reported_run hrun⟩
  simp only [run, hopen, hrun]

/-- A directory is not asked to stop. -/
theorem Directory.isCancelled_storage (t : FileTree) : d.storage.isCancelled t = false := rfl

/-- Writing to a directory fails for reasons of storage. -/
theorem Directory.kind_of_write {name : String} {data : Bytes} {e : Error}
    (h : (d.storage.write name data t).1 = .error e) : e.kind ∉ ErrorKind.obstacles := by
  have hstorage : ∃ fault, e = .storage fault := by
    change (d.write name data t).1 = .error e at h
    unfold Directory.write at h
    simp only at h
    split at h
    · exact ⟨_, (Except.error.inj h).symm⟩
    · split at h
      · exact ⟨_, (Except.error.inj h).symm⟩
      · cases h
  obtain ⟨fault, rfl⟩ := hstorage
  simp [Error.kind, ErrorKind.obstacles]

/-- **Inspecting a unit foretells what weaving does.**  A class file of a directory is inspected
beside the units of the directory, before these are woven.  The command shows a problem just when
something stands in the way of the unit as the shown types are packed; and in whatever order the
units are worked on, the run over the directory fails with an error of validation just when
something stands in the way of the unit as the stored types are packed.  So both tell of the same
error if for the type of each field no unit is named after it that is stored under another name.  A
unit that is woven has the strategy and the stride that were shown, in any case. -/
theorem InspectRequest.foretells_weave (hopen : Directory.openAt t (.ofText r.root) = .ok d)
    (h : d.Holds t names file u scan) :
    ∃ us i, d.readable t = .ok us ∧ run { file, classes? := some r.root } t = .ok i ∧
      (∃ report t', r.run t = (.ok report, t') ∧ Run.Reported d.storage r.settings t report) ∧
      (∀ e, i.preview.problem? = some e ↔ scan.Obstacle (Directory.ShowsPacked us u) e) ∧
      ∀ report, Run.Reported d.storage r.settings t report →
        (∀ e, e.kind ∈ ErrorKind.obstacles → ({ name := scan.name, error := e } ∈ report.failed ↔
          scan.Obstacle (d.StoresPacked t names) e)) ∧
        ((∀ f ∈ scan.fields, ∀ type, f.kind = .object type → d.KeepsName t names type) →
          ∀ e, i.preview.problem? = some e ↔
            e.kind ∈ ErrorKind.obstacles ∧ { name := scan.name, error := e } ∈ report.failed) ∧
        ∀ w ∈ report.woven, w.name = scan.name →
          i.preview.effective = w.strategy ∧ i.stride? = w.stride? := by
  obtain ⟨us, hus⟩ : ∃ us, d.readable t = .ok us :=
    ⟨_, except_bind_eq_ok.2 ⟨names, h.listing, rfl⟩⟩
  obtain ⟨i, hrun, hpreview⟩ := run_of_holds hopen h hus
  obtain ⟨scan', hscan, -, heffective, hlayout, hproblem⟩ := ClassFile.preview_eq_ok hpreview
  obtain rfl := Except.ok.inj (h.scan.symm.trans hscan)
  have hshown (e : Error) :
      i.preview.problem? = some e ↔ scan.Obstacle (Directory.ShowsPacked us u) e := by
    rw [hproblem, ClassFile.validate_eq_error hscan]
    refine Scan.obstacle_congr fun f _ type _ => ?_
    rw [TypeIndex.isPacked, beq_iff_eq, TypeIndex.get?_insertScanned]
    rfl
  refine ⟨us, i, hus, hrun, WeaveRequest.run_of_open hopen h.listing, hshown, ?_⟩
  intro report hreport
  have hmem : (scan.name, u) ∈ (Run.load d.storage r.settings t names).units :=
    Run.mem_units_load.2 ⟨h.listed, Run.readScanned_eq_ok.2
      ⟨h.readUnit, scan, Run.scanUnit_eq_ok.2 ⟨hscan, rfl⟩⟩⟩
  have hfailed (e : Error) (he : e.kind ∈ ErrorKind.obstacles) :
      { name := scan.name, error := e } ∈ report.failed ↔
        scan.Obstacle (d.StoresPacked t names) e := by
    rw [hreport.mem_failed h.listing Directory.isCancelled_storage hmem he
      fun _ _ _ _ => Directory.kind_of_write, ClassFile.weave_eq_obstacle hscan he]
    exact Scan.obstacle_congr fun f _ type _ => Run.isPacked_load
  refine ⟨hfailed, fun hkeeps e => ?_, fun w hw hname => ?_⟩
  · rw [hshown, Scan.obstacle_congr fun f hf type hkind =>
      Directory.showsPacked_iff h hus (hkeeps f hf type hkind)]
    constructor
    · intro hobstacle
      exact ⟨hobstacle.kind_mem, (hfailed e hobstacle.kind_mem).2 hobstacle⟩
    · rintro ⟨he, hmem⟩
      exact (hfailed e he).1 hmem
  · have hweave := hreport.weave_of_mem_woven h.listing Directory.isCancelled_storage hmem hw hname
    obtain ⟨scan', hscan', hstrategy, -⟩ := ClassFile.weave_eq_ok hweave
    obtain rfl := Except.ok.inj (hscan.symm.trans hscan')
    refine ⟨heffective.trans hstrategy, ?_⟩
    rw [Inspection.stride?, Woven.stride?, hlayout, ClassFile.layout?_of_weave hscan hweave,
      hstrategy]

end

/-! ### A unit that is stored under another name -/

/-- A unit with a component. -/
def withComponent : ClassFile := Run.component "A" [6] [(8, 12)]

/-- The component is named after its type, and stored under another name. -/
def misplacedTree : FileTree :=
  { entries :=
      { entries := [(["r"], .directory),
          (["r", "A.class"], .file (withComponent.write.toOption.getD [])),
          (["r", "C.class"], .file ((Run.component "B" [6] []).write.toOption.getD []))] } }

theorem names_misplacedTree : Directory.names ⟨.ofText "r"⟩ misplacedTree = .ok ["A", "C"] := by
  have hroot : misplacedTree.resolve (.ofText "r") = .ok (["r"], .directory) := by decide +kernel
  have hfiles : (misplacedTree.filesBelow ["r"]).filterMap (Directory.nameOf? ·.1) =
      ["A", "C"] := by
    decide +kernel
  unfold Directory.names
  simp only [hroot, hfiles]
  rw [List.mergeSort_of_pairwise (by decide)]

theorem readable_misplacedTree : Directory.readable ⟨.ofText "r"⟩ misplacedTree =
    .ok [withComponent, Run.component "B" [6] []] := by
  unfold Directory.readable
  rw [names_misplacedTree]
  decide +kernel

/-- No problem is shown, and the unit cannot be woven. -/
theorem InspectRequest.foretells_weave_misplaced :
    ∃ i report t', run { file := "r/A.class", classes? := some "r" } misplacedTree = .ok i ∧
      ({ root := "r" } : WeaveRequest).run misplacedTree = (.ok report, t') ∧
      i.preview.problem? = none ∧
        { name := "A", error := .unpackableField "x" } ∈ report.failed := by
  let scan : Scan :=
    { name := "A", superName? := some "java/lang/Object", declared := .packed, effective := .packed
      woven? := none, fields := [{ name := "x", kind := .object "B", isStatic := false }]
      hasDefaultConstructor := false, hasReset := false }
  have hholds : Directory.Holds ⟨.ofText "r"⟩ misplacedTree ["A", "C"] "r/A.class"
      withComponent scan :=
    { listing := names_misplacedTree
      listed := List.mem_cons_self
      stored := ⟨withComponent.write.toOption.getD [], by decide +kernel, by decide +kernel,
        by decide +kernel⟩
      scan := by decide +kernel }
  obtain ⟨us, i, hus, hrun, ⟨report, t', hweave, hreport⟩, hproblem, hreports⟩ :=
    foretells_weave (r := { root := "r" }) (by decide +kernel) hholds
  obtain ⟨hfailed, -, -⟩ := hreports report hreport
  obtain rfl := Except.ok.inj (hus.symm.trans readable_misplacedTree)
  refine ⟨i, report, t', hrun, hweave, ?_, (hfailed _ (by decide)).2 ?_⟩
  · have hshown : Directory.ShowsPacked [withComponent, Run.component "B" [6] []] withComponent
        "B" := by
      unfold Directory.ShowsPacked
      decide +kernel
    refine Option.eq_none_iff_forall_ne_some.2 fun e he => ?_
    rcases (Scan.obstacle_of_packed rfl).1 ((hproblem e).1 he) with
      ⟨hbase, -⟩ | ⟨-, front, f, back, hfields, -, hf, -⟩
    · exact absurd hbase (by decide)
    · have hmem : f ∈ scan.fields := hfields ▸ List.mem_append_right _ List.mem_cons_self
      rw [List.mem_singleton.1 hmem] at hf
      exact hf ⟨by decide, hshown⟩
  · refine .field [] { name := "x", kind := .object "B", isStatic := false } [] rfl (by decide) rfl
      nofun fun hstorable => ?_
    exact absurd hstorable.2.1 (by decide)

end ClassWeave
