import ClassWeave.Proofs.Text.Order
import ClassWeave.Proofs.Tree.FileTree
import ClassWeave.Tree.Directory
import Mathlib.Data.List.Nodup

/-!
# Names of units and paths of class files

The name of a unit is the path of its file without the extension of that file, and the path is
formed again by putting the extension of class files in place of whatever extension the last part
of the name has.  So a file whose name has a dot in front of the extension is listed under a name
that leads to another file.

* `Directory.addressed` : the name of the file to which the name of a unit leads.
* `Directory.addressed_eq_iff` : for which files that is the file itself.
* `Directory.entry?_of_write` : what a write that succeeds does to the tree.
* `Directory.Reaches`, `Directory.Misses` : a name that leads to the file of its unit, and one that
  does not.
* `Directory.files_of_names` : which names do.
-/

namespace ClassWeave

namespace Directory

open FileTree (pathLimit)

variable {d : Directory} {t t' : FileTree} {base : Place} {dirs names : List String}
  {file name last : String} {path : Path} {data : Bytes}

/-! ### Class files -/

/-- The names that lead to a class file. -/
def IsClassFile (names : List String) : Prop :=
  ∃ dirs file, names = dirs ++ [file] ∧ Name.extension? file = some unitExtension

/-- A name that leads somewhere, without an extension. -/
def IsUndotted (own : String) : Prop := own ≠ ".." ∧ Name.splitExtension own = none

instance (own : String) : Decidable (IsUndotted own) := inferInstanceAs (Decidable (_ ∧ _))

/-- The name of the file to which the name of a unit leads. -/
def addressed (file : String) : String :=
  if Name.dropExtension file = ".." then ".."
  else Name.withExtension (Name.dropExtension file) unitExtension

theorem extension?_eq_class : Name.extension? file = some unitExtension ↔
    ∃ own, own ≠ "" ∧ file = own ++ "." ++ unitExtension :=
  Name.extension?_eq_some (by decide) (by decide)

theorem dropExtension_class {own : String} (hown : own ≠ "") :
    Name.dropExtension (own ++ "." ++ unitExtension) = if own = "." then ".." else own :=
  Name.dropExtension_append hown (by decide) (by decide)

/-- What is left of the name of a class file leads somewhere. -/
theorem idle_dropExtension (h : Name.extension? file = some unitExtension) :
    Name.isIdle (Name.dropExtension file) = false := by
  obtain ⟨own, hown, rfl⟩ := extension?_eq_class.1 h
  rw [dropExtension_class hown]
  split_ifs with hdot
  · decide
  · simp [Name.isIdle, hown, hdot]

/-- **The name of a unit leads to its file** just when nothing but the extension starts with a dot
in the name of the file. -/
theorem addressed_eq_iff (h : Name.extension? file = some unitExtension) :
    addressed file = file ↔ IsUndotted (Name.dropExtension file) := by
  obtain ⟨own, hown, rfl⟩ := extension?_eq_class.1 h
  have hup := Name.append_ne_up hown (by decide : unitExtension ≠ "")
  unfold addressed IsUndotted
  split_ifs with hdrop
  · exact ⟨fun heq => absurd heq.symm hup, fun hund => absurd hdrop hund.1⟩
  · rw [dropExtension_class hown] at hdrop ⊢
    split_ifs at hdrop ⊢ with hdot
    · exact absurd rfl hdrop
    · rw [Name.withExtension_eq_append_iff]
      exact ⟨fun hnone => ⟨hdrop, hnone⟩, And.right⟩

/-- The names that lead to a class file lead somewhere, also without its extension. -/
theorem idle_parts (hdirs : ∀ dir ∈ dirs, Name.IsProper dir)
    (h : Name.extension? file = some unitExtension) :
    ∀ part ∈ dirs ++ [Name.dropExtension file], Name.isIdle part = false :=
  List.forall_mem_append.2 ⟨fun dir hdir => (hdirs dir hdir).idle,
    List.forall_mem_singleton.2 (idle_dropExtension h)⟩

/-- The name of a unit is that of its file, without its extension. -/
theorem nameOf?_append_singleton (hdirs : ∀ dir ∈ dirs, Name.IsProper dir)
    (h : Name.extension? file = some unitExtension) : nameOf? (dirs ++ [file]) =
      some (String.intercalate "/" (dirs ++ [Name.dropExtension file])) := by
  simp [nameOf?, h, Path.components_of_not_idle (idle_parts hdirs h)]

/-- A slash in what is left of a name stands in the name. -/
theorem slash_dropExtension (hfile : '/' ∉ file.toList)
    (h : Name.extension? file = some unitExtension) :
    '/' ∉ (Name.dropExtension file).toList := by
  obtain ⟨own, hown, rfl⟩ := extension?_eq_class.1 h
  rw [dropExtension_class hown]
  split_ifs
  · decide
  · intro hmem
    exact hfile (by simp [hmem])

/-- There are no slashes in the names that lead to a class file, also without its extension. -/
theorem slash_parts (hdirs : ∀ dir ∈ dirs, Name.IsProper dir) (hfile : '/' ∉ file.toList)
    (h : Name.extension? file = some unitExtension) :
    ∀ part ∈ dirs ++ [Name.dropExtension file], '/' ∉ part.toList :=
  List.forall_mem_append.2 ⟨fun dir hdir => (hdirs dir hdir).slash,
    List.forall_mem_singleton.2 (slash_dropExtension hfile h)⟩

/-- The path to which the name of a unit leads. -/
theorem pathOf_intercalate (hdirs : ∀ dir ∈ dirs, Name.IsProper dir) (hfile : '/' ∉ file.toList)
    (h : Name.extension? file = some unitExtension) :
    (d.pathOf (String.intercalate "/" (dirs ++ [Name.dropExtension file]))).segments =
      d.root.front ++ (dirs ++ [addressed file]) := by
  have hread := Path.ofText_intercalate (by simp) (slash_parts hdirs hfile h)
  have hne : ∀ part ∈ dirs ++ [Name.dropExtension file], part ≠ "" :=
    fun part hpart => Name.ne_empty_of_isIdle (idle_parts hdirs h part hpart)
  have hpushed := Path.segments_pushAll (p := d.root) (by rw [hread]; simp) (hread.symm ▸ hne)
  rw [hread, ← List.append_assoc] at hpushed
  rw [pathOf, Path.segments_withExtension hpushed (idle_dropExtension h), List.append_assoc]
  rfl

/-! ### Following the path of a file -/

/-- A path below the directory is followed to its last name. -/
theorem locate_below (hroot : t.locate d.root = .ok base)
    (hdirs : t.follow base dirs = .ok (base ++ dirs))
    (hpath : path.segments = d.root.front ++ (dirs ++ [last])) :
    t.locate path = (do
      FileTree.checkPath path
      t.child (base ++ dirs) last) := by
  rw [FileTree.locate_front hroot (by simp) hpath, FileTree.follow_append, hdirs]
  show (do FileTree.checkPath path; t.follow (base ++ dirs) [last]) = _
  rw [FileTree.follow_singleton]

/-- A path below the directory can be followed if its names are proper and it is not too long. -/
theorem checkPath_below (hroot : t.locate d.root = .ok base) (hne : names ≠ [])
    (hproper : ∀ part ∈ names, Name.IsProper part) (hpath : path.segments = d.root.front ++ names)
    (hsize : path.text.utf8ByteSize ≤ pathLimit) : FileTree.checkPath path = .ok () := by
  obtain ⟨⟨⟩, hcheck, -⟩ := except_bind_eq_ok.1 hroot
  obtain ⟨hzero, -, -⟩ := FileTree.checkPath_eq_ok.1 hcheck
  refine FileTree.checkPath_eq_ok.2 ⟨fun hmem => ?_, fun hempty => ?_, hsize⟩
  · obtain ⟨part, hpart, hmem⟩ := (Path.mem_text (by decide)).1 hmem
    rw [hpath] at hpart
    rcases List.mem_append.1 hpart with hpart | hpart
    · exact hzero ((Path.mem_text (by decide)).2 ⟨part, d.root.front_subset hpart, hmem⟩)
    · exact (hproper part hpart).zero hmem
  · -- the first name has a first letter
    obtain ⟨part, hpart⟩ := List.exists_mem_of_ne_nil names hne
    obtain ⟨c, hc⟩ := List.exists_mem_of_ne_nil part.toList fun hnil =>
      Name.ne_empty_of_isIdle (hproper part hpart).idle (String.toList_eq_nil_iff.1 hnil)
    have hslash : c ≠ '/' := fun heq => (hproper part hpart).slash (heq ▸ hc)
    have hmem : c ∈ path.text.toList :=
      (Path.mem_text hslash).2 ⟨part, hpath ▸ List.mem_append_right _ hpart, hc⟩
    rw [hempty] at hmem
    exact absurd hmem List.not_mem_nil

theorem endsInName_append {above : List String} (hpath : path.segments = above ++ [last]) :
    FileTree.endsInName path = (!Name.isIdle last && last != "..") := by
  simp [FileTree.endsInName, hpath]

/-- Where a path below the directory leads that ends in the name of a file. -/
theorem place_of_locate (hroot : t.locate d.root = .ok base)
    (hdirs : t.follow base dirs = .ok (base ++ dirs)) {place : Place}
    (hpath : path.segments = d.root.front ++ (dirs ++ [last]))
    (hname : FileTree.endsInName path = true) (h : t.locate path = .ok place) :
    place = base ++ (dirs ++ [last]) := by
  rw [locate_below hroot hdirs hpath] at h
  obtain ⟨-, -, h⟩ := except_bind_eq_ok.1 h
  rw [← List.append_assoc] at hpath
  rw [endsInName_append hpath] at hname
  simp only [Bool.and_eq_true, Bool.not_eq_true', bne_iff_ne, ne_eq] at hname
  obtain ⟨rfl, -⟩ := FileTree.child_eq_append h hname.1 hname.2
  rw [List.append_assoc]

/-! ### Writing -/

theorem write_eq_ok : d.write name data t = (.ok (), t') ↔ ∃ staged,
    t.write (d.stagingPathOf name) data = .ok staged ∧
      staged.rename (d.stagingPathOf name) (d.pathOf name) = .ok t' := by
  unfold write
  dsimp only
  cases hstaged : t.write (d.stagingPathOf name) data with
  | error fault => simp
  | ok staged =>
    simp only [Except.ok.injEq, exists_eq_left']
    cases hrename : staged.rename (d.stagingPathOf name) (d.pathOf name) with
    | error fault => simp
    | ok last => simp

/-- **What a write that succeeds does to the tree**: the bytes stand at the path of the unit,
nothing stands beside it where they were written first, and everything else stays. -/
theorem entry?_of_write (hroot : t.locate d.root = .ok base)
    (hdirs : t.follow base dirs = .ok (base ++ dirs))
    (hpath : (d.pathOf name).segments = d.root.front ++ (dirs ++ [last]))
    (h : d.write name data t = (.ok (), t')) : FileTree.endsInName (d.pathOf name) = true ∧
      ∀ place, t'.entry? place = if place = base ++ (dirs ++ [last]) then some (.file data)
        else if place = base ++ (dirs ++ [last ++ stagingSuffix]) then none
        else t.entry? place := by
  obtain ⟨staged, hstaged, hrename⟩ := write_eq_ok.1 h
  have hstaging : (d.stagingPathOf name).segments =
      d.root.front ++ (dirs ++ [last ++ stagingSuffix]) := by
    rw [← List.append_assoc] at hpath ⊢
    exact Path.segments_append hpath
  obtain ⟨beside, hbeside, hname, hfree, rfl⟩ := FileTree.write_eq_ok.1 hstaged
  obtain rfl := place_of_locate hroot hdirs hstaging hname hbeside
  have hadmits : t.Admits (base ++ (dirs ++ [last ++ stagingSuffix])) (.file data) :=
    FileTree.admits_of_locate hname hbeside hfree
  -- the paths still lead where they led
  have hkeeps : ∀ place, t.entry? place = some .directory →
      FileTree.entry? (t.set (base ++ (dirs ++ [last ++ stagingSuffix])) (.file data)) place =
        some .directory := by
    intro place hdir
    rw [FileTree.entry?_set hadmits, if_neg (by rintro rfl; exact hfree hdir)]
    exact hdir
  have hroot' := FileTree.locate_mono FileTree.here_set hkeeps hroot
  have hdirs' := FileTree.follow_mono hkeeps hdirs
  obtain ⟨_, _, moved, hstart, hgoal, hname', hfile, hfree', rfl⟩ := FileTree.rename_eq_ok.1 hrename
  obtain rfl := place_of_locate hroot' hdirs' hstaging hname hstart
  obtain rfl := place_of_locate hroot' hdirs' hpath hname' hgoal
  rw [FileTree.entry?_set hadmits, if_pos rfl] at hfile
  obtain rfl : data = moved := by simpa using hfile
  have hstart : FileTree.entry? (t.set (base ++ (dirs ++ [last ++ stagingSuffix])) (.file data))
      (base ++ (dirs ++ [last ++ stagingSuffix])) ≠ some .directory := by
    rw [FileTree.entry?_set hadmits, if_pos rfl]
    nofun
  have hadmits' : FileTree.Admits _ (base ++ (dirs ++ [last])) (.file data) :=
    (FileTree.admits_of_locate hname' hgoal hfree').clear hstart
  refine ⟨hname', fun place => ?_⟩
  rw [FileTree.entry?_set hadmits', FileTree.entry?_clear hstart, FileTree.entry?_set hadmits]
  split_ifs <;> rfl

/-! ### Names that lead to their files, and names that do not -/

/-- The name leads to the file: reading gives its bytes, as long as the path is not too long, and
writing replaces them and those of no other class file. -/
structure Reaches (d : Directory) (t : FileTree) (base : Place) (names : List String)
    (name : String) : Prop where
  /-- Reading gives the bytes of the file. -/
  read : ∀ data, t.entry? (base ++ names) = some (.file data) →
    (d.pathOf name).text.utf8ByteSize ≤ pathLimit → d.read name t = .ok data
  /-- Writing replaces them. -/
  write : ∀ data t', d.write name data t = (.ok (), t') →
    t'.entry? (base ++ names) = some (.file data) ∧
      ∀ place, IsClassFile place → place ≠ base ++ names → t'.entry? place = t.entry? place

/-- The name leads to another class file, if it leads to one at all: that one is read and written,
and the file stays. -/
structure Misses (d : Directory) (t : FileTree) (base : Place) (names : List String)
    (name : String) : Prop where
  /-- Reading gives the bytes of another file. -/
  read : ∀ data, d.read name t = .ok data → ∃ other, IsClassFile other ∧ other ≠ names ∧
    t.entry? (base ++ other) = some (.file data)
  /-- Writing replaces those of another file. -/
  write : ∀ data t', d.write name data t = (.ok (), t') →
    t'.entry? (base ++ names) = t.entry? (base ++ names) ∧
      ∃ other, IsClassFile other ∧ other ≠ names ∧ t'.entry? (base ++ other) = some (.file data)

/-- A class file is not one that is still being written. -/
theorem ne_append_stagingSuffix (h : Name.extension? file = some unitExtension) :
    file ≠ last ++ stagingSuffix := by
  rintro rfl
  obtain ⟨own, -, heq⟩ := extension?_eq_class.1 h
  -- the last letters differ
  have hlast := congrArg (fun text : String => text.toList.getLast?) heq
  simp [stagingSuffix, unitExtension] at hlast

theorem IsClassFile.append (h : IsClassFile names) (place : Place) :
    IsClassFile (place ++ names) := by
  obtain ⟨dirs, file, rfl, hfile⟩ := h
  exact ⟨place ++ dirs, file, by rw [List.append_assoc], hfile⟩

theorem IsClassFile.ne_staging (h : IsClassFile names) :
    names ≠ base ++ (dirs ++ [last ++ stagingSuffix]) := by
  obtain ⟨own, file, rfl, hfile⟩ := h
  rw [← List.append_assoc]
  intro heq
  obtain ⟨-, heq⟩ := List.append_inj' heq rfl
  exact ne_append_stagingSuffix hfile (List.singleton_inj.1 heq)

/-- A name with an extension is that of a file. -/
theorem leads_of_extension? (h : Name.extension? file = some unitExtension) :
    Name.isIdle file = false ∧ file ≠ ".." := by
  obtain ⟨own, hown, rfl⟩ := extension?_eq_class.1 h
  exact ⟨Name.isIdle_append hown (by decide), Name.append_ne_up hown (by decide)⟩

/-- What the name of a unit leads to is a class file, unless it leads upwards. -/
theorem extension?_addressed (h : Name.extension? file = some unitExtension)
    (hup : addressed file ≠ "..") : Name.extension? (addressed file) = some unitExtension := by
  unfold addressed at hup ⊢
  split_ifs at hup ⊢ with hdrop
  · exact absurd rfl hup
  · have hown := Name.ne_empty_of_isIdle (idle_dropExtension h)
    exact extension?_eq_class.2 ⟨_, Name.stem_ne_empty hown, rfl⟩

section

variable (hroot : t.resolve d.root = .ok (base, .directory))
  (hext : Name.extension? file = some unitExtension)
  (hfile : t.entry? (base ++ (dirs ++ [file])) = some (.file data))

include hfile

theorem proper_of_file : ∀ part ∈ dirs ++ [file], Name.IsProper part :=
  fun part hpart => FileTree.proper_of_entry hfile part (List.mem_append_right _ hpart)

theorem directory_of_file : t.entry? (base ++ dirs) = some .directory := by
  rw [← List.append_assoc] at hfile
  exact FileTree.parent_of_entry hfile

theorem follow_dirs : t.follow base dirs = .ok (base ++ dirs) :=
  FileTree.follow_of_entry (directory_of_file hfile)

include hroot hext

/-- **A file without another dot** is reached by the name of its unit. -/
theorem reaches_of_undotted (hown : IsUndotted (Name.dropExtension file)) :
    Reaches d t base (dirs ++ [file])
      (String.intercalate "/" (dirs ++ [Name.dropExtension file])) := by
  obtain ⟨hlocate, -⟩ := FileTree.resolve_eq_ok.1 hroot
  have hproper := proper_of_file hfile
  obtain ⟨hdirs, hlast⟩ := List.forall_mem_append.1 hproper
  have hlast := List.forall_mem_singleton.1 hlast
  have hfollow := follow_dirs hfile
  have hpath := pathOf_intercalate (d := d) hdirs hlast.slash hext
  rw [(addressed_eq_iff hext).2 hown] at hpath
  refine ⟨fun data' hdata hsize => ?_, fun data' t' hwrite => ?_⟩
  · have hcheck := checkPath_below hlocate (by simp) hproper hpath hsize
    have hplace : t.locate (d.pathOf (String.intercalate "/" (dirs ++ [Name.dropExtension file]))) =
        .ok (base ++ (dirs ++ [file])) := by
      rw [locate_below hlocate hfollow hpath, hcheck, ← List.append_assoc]
      exact FileTree.child_of_proper (directory_of_file hfile) hlast
    rw [read, FileTree.read_eq_ok.2 ⟨_, hplace, hdata⟩]
    rfl
  · obtain ⟨-, hentries⟩ := entry?_of_write hlocate hfollow hpath hwrite
    refine ⟨by rw [hentries, if_pos rfl], fun place hclass hne => ?_⟩
    rw [hentries, if_neg hne, if_neg hclass.ne_staging]

/-- **A file with another dot** is missed by the name of its unit. -/
theorem misses_of_dotted (hown : ¬ IsUndotted (Name.dropExtension file)) :
    Misses d t base (dirs ++ [file])
      (String.intercalate "/" (dirs ++ [Name.dropExtension file])) := by
  obtain ⟨hlocate, -⟩ := FileTree.resolve_eq_ok.1 hroot
  obtain ⟨hdirs, hlast⟩ := List.forall_mem_append.1 (proper_of_file hfile)
  have hlast := List.forall_mem_singleton.1 hlast
  have hfollow := follow_dirs hfile
  have hpath := pathOf_intercalate (d := d) hdirs hlast.slash hext
  have hne : dirs ++ [addressed file] ≠ dirs ++ [file] := fun heq =>
    hown ((addressed_eq_iff hext).1 (List.singleton_inj.1 (List.append_cancel_left heq)))
  refine ⟨fun data' hread => ?_, fun data' t' hwrite => ?_⟩
  · rw [read] at hread
    obtain ⟨place, hplace, hentry⟩ := FileTree.read_eq_ok.1 (except_mapError_eq_ok.1 hread)
    rw [locate_below hlocate hfollow hpath] at hplace
    obtain ⟨-, -, hplace⟩ := except_bind_eq_ok.1 hplace
    obtain ⟨hdir, rfl⟩ := FileTree.child_eq_ok hplace
    by_cases hup : addressed file = ".."
    · -- a directory stands above
      rw [hup, if_neg (by decide), if_pos rfl, FileTree.directory_dropLast hdir] at hentry
      cases hentry
    · have hext' := extension?_addressed hext hup
      rw [if_neg (by simp [(leads_of_extension? hext').1]), if_neg hup, List.append_assoc] at hentry
      exact ⟨_, ⟨dirs, _, rfl, hext'⟩, hne, hentry⟩
  · obtain ⟨hname, hentries⟩ := entry?_of_write hlocate hfollow hpath hwrite
    rw [← List.append_assoc] at hpath
    rw [endsInName_append hpath, Bool.and_eq_true, bne_iff_ne] at hname
    have hclass : IsClassFile (dirs ++ [file]) := ⟨dirs, file, rfl, hext⟩
    refine ⟨?_, dirs ++ [addressed file], ⟨dirs, _, rfl, extension?_addressed hext hname.2⟩, hne,
      ?_⟩
    · rw [hentries, if_neg fun heq => hne (List.append_cancel_left heq).symm,
        if_neg (hclass.append base).ne_staging]
    · rw [hentries, if_pos rfl]

end

/-! ### All names -/

theorem isSome_nameOf? : (nameOf? names).isSome = true ↔ IsClassFile names := by
  constructor
  · intro h
    unfold nameOf? at h
    split at h
    · cases h
    · rename_i file hlast
      split_ifs at h with hext
      · exact ⟨names.dropLast, file, (List.dropLast_append_getLast? file hlast).symm, hext⟩
      · cases h
  · rintro ⟨dirs, file, rfl, hext⟩
    simp [nameOf?, hext]

/-- The class files below a place. -/
def classFiles (t : FileTree) (base : Place) : List (List String) :=
  ((t.filesBelow base).map Prod.fst).filter fun names => (nameOf? names).isSome

theorem mem_classFiles : names ∈ classFiles t base ↔
    IsClassFile names ∧ ∃ data, t.entry? (base ++ names) = some (.file data) := by
  rw [classFiles, List.mem_filter, isSome_nameOf?, and_comm, List.mem_map]
  refine and_congr_right fun hclass => ?_
  have hne : names ≠ [] := by
    obtain ⟨dirs, file, rfl, -⟩ := hclass
    simp
  constructor
  · rintro ⟨⟨_, data⟩, hmem, rfl⟩
    exact ⟨data, ((FileTree.mem_filesBelow).1 hmem).2⟩
  · rintro ⟨data, hdata⟩
    exact ⟨(names, data), (FileTree.mem_filesBelow).2 ⟨hne, hdata⟩, rfl⟩

theorem nodup_classFiles : (classFiles t base).Nodup :=
  FileTree.nodup_filesBelow.filter _

/-- The names are those of the class files, sorted. -/
theorem exists_names (hroot : t.resolve d.root = .ok (base, .directory)) : ∃ names,
    d.names t = .ok names ∧ names.Pairwise (· ≤ ·) ∧
      (names.map some).Perm ((classFiles t base).map nameOf?) := by
  have hfound : ((t.filesBelow base).filterMap (nameOf? ·.1)).map some =
      (classFiles t base).map nameOf? := by
    rw [List.map_filterMap_some_eq_filter_map_isSome, classFiles,
      show (nameOf? ·.1 : List String × Bytes → Option String) = nameOf? ∘ Prod.fst from rfl,
      ← List.map_map, List.filter_map]
    rfl
  refine ⟨_, by rw [Directory.names, hroot], ?_, ?_⟩
  · exact (Text.pairwise_mergeSort id _).imp Text.not_lt_iff_le.1
  · rw [← hfound]
    exact (List.mergeSort_perm ..).map _

/-- Two class files of one name differ in no more than the dots in front. -/
theorem dropExtension_inj {file' : String} (h : Name.extension? file = some unitExtension)
    (h' : Name.extension? file' = some unitExtension)
    (heq : Name.dropExtension file = Name.dropExtension file') : file = file' ∨
      file = "..class" ∧ file' = "...class" ∨ file = "...class" ∧ file' = "..class" := by
  obtain ⟨own, hown, rfl⟩ := extension?_eq_class.1 h
  obtain ⟨own', hown', rfl⟩ := extension?_eq_class.1 h'
  rw [dropExtension_class hown, dropExtension_class hown'] at heq
  split_ifs at heq with hdot hdot' hdot'
  · exact .inl (by rw [hdot, hdot'])
  · exact .inr (.inl ⟨by rw [hdot]; decide, by rw [← heq]; decide⟩)
  · exact .inr (.inr ⟨by rw [heq]; decide, by rw [hdot']; decide⟩)
  · exact .inl (by rw [heq])

/-- The class files whose units have one name. -/
theorem nameOf?_inj {dirs' : List String} {file' : String}
    (hproper : ∀ part ∈ dirs ++ [file], Name.IsProper part)
    (hproper' : ∀ part ∈ dirs' ++ [file'], Name.IsProper part)
    (h : Name.extension? file = some unitExtension)
    (h' : Name.extension? file' = some unitExtension)
    (heq : nameOf? (dirs ++ [file]) = nameOf? (dirs' ++ [file'])) :
    dirs = dirs' ∧ (file = file' ∨
      file = "..class" ∧ file' = "...class" ∨ file = "...class" ∧ file' = "..class") := by
  obtain ⟨hdirs, hlast⟩ := List.forall_mem_append.1 hproper
  obtain ⟨hdirs', hlast'⟩ := List.forall_mem_append.1 hproper'
  have hslash := (List.forall_mem_singleton.1 hlast).slash
  have hslash' := (List.forall_mem_singleton.1 hlast').slash
  rw [nameOf?_append_singleton hdirs h, nameOf?_append_singleton hdirs' h'] at heq
  have hpaths := congrArg (fun text => (Path.ofText text).segments) (Option.some.inj heq)
  rw [Path.ofText_intercalate (by simp) (slash_parts hdirs hslash h),
    Path.ofText_intercalate (by simp) (slash_parts hdirs' hslash' h')] at hpaths
  obtain ⟨rfl, hown⟩ := List.append_inj' hpaths rfl
  exact ⟨rfl, dropExtension_inj h h' (List.singleton_inj.1 hown)⟩

/-- No two units have the same name, unless there are two class files in one directory that are
named by nothing but dots. -/
theorem nodup_map_nameOf? : ((classFiles t base).map nameOf?).Nodup ↔
    ∀ dirs, ¬ (dirs ++ ["..class"] ∈ classFiles t base ∧
      dirs ++ ["...class"] ∈ classFiles t base) := by
  rw [List.nodup_map_iff_inj_on nodup_classFiles]
  constructor
  · rintro hinj dirs ⟨htwo, hthree⟩
    obtain ⟨-, _, hdata⟩ := mem_classFiles.1 htwo
    have hdirs := (List.forall_mem_append.1 (proper_of_file hdata)).1
    have hsame : nameOf? (dirs ++ ["..class"]) = nameOf? (dirs ++ ["...class"]) := by
      rw [nameOf?_append_singleton hdirs (by decide), nameOf?_append_singleton hdirs (by decide)]
      rfl
    exact absurd (List.append_cancel_left (hinj _ htwo _ hthree hsame)) (by decide)
  · intro hnone names hnames names' hnames' heq
    obtain ⟨⟨dirs, file, rfl, hext⟩, _, hdata⟩ := mem_classFiles.1 hnames
    obtain ⟨⟨dirs', file', rfl, hext'⟩, _, hdata'⟩ := mem_classFiles.1 hnames'
    obtain ⟨rfl, hfiles⟩ := nameOf?_inj (proper_of_file hdata) (proper_of_file hdata')
      hext hext' heq
    rcases hfiles with rfl | ⟨rfl, rfl⟩ | ⟨rfl, rfl⟩
    · rfl
    · exact absurd ⟨hnames, hnames'⟩ (hnone dirs)
    · exact absurd ⟨hnames', hnames⟩ (hnone dirs)

/-- **The names of a directory.**  Every class file below it, and no other file, has one name in the
list, which is sorted, and no two have the same name unless they are named by nothing but dots.  The
name leads to the file just when no other dot starts an extension; otherwise it leads to another
file. -/
theorem files_of_names (hroot : t.resolve d.root = .ok (base, .directory)) :
    ∃ (files : List (List String)) (names : List String), files.Nodup ∧
      (∀ file, file ∈ files ↔
        IsClassFile file ∧ ∃ data, t.entry? (base ++ file) = some (.file data)) ∧
      d.names t = .ok names ∧ names.Pairwise (· ≤ ·) ∧ (names.map some).Perm (files.map nameOf?) ∧
      (names.Nodup ↔ ∀ dirs, ¬ (dirs ++ ["..class"] ∈ files ∧ dirs ++ ["...class"] ∈ files)) ∧
      ∀ dirs file, dirs ++ [file] ∈ files → ∃ name, nameOf? (dirs ++ [file]) = some name ∧
        (IsUndotted (Name.dropExtension file) → Reaches d t base (dirs ++ [file]) name) ∧
        (¬ IsUndotted (Name.dropExtension file) → Misses d t base (dirs ++ [file]) name) := by
  obtain ⟨names, hnames, hsorted, hperm⟩ := exists_names hroot
  refine ⟨classFiles t base, names, nodup_classFiles, fun file => mem_classFiles, hnames,
    hsorted, hperm, ?_, fun dirs file hmem => ?_⟩
  · rw [← nodup_map_nameOf?, ← hperm.nodup_iff, List.nodup_map_iff fun _ _ => Option.some.inj]
  · obtain ⟨⟨dirs', file', heq, hext⟩, data, hfile⟩ := mem_classFiles.1 hmem
    obtain ⟨rfl, hlast⟩ := List.append_inj' heq rfl
    obtain rfl := List.singleton_inj.1 hlast
    have hproper := proper_of_file hfile
    exact ⟨_, nameOf?_append_singleton (List.forall_mem_append.1 hproper).1 hext,
      reaches_of_undotted hroot hext hfile, misses_of_dotted hroot hext hfile⟩

/-- A directory with two class files, one of which has a dot in front of the extension. -/
def dottedTree : FileTree :=
  { entries :=
      { entries := [(["r"], .directory), (["r", "a.class"], .file [2]),
          (["r", "a.b.class"], .file [1])] } }

/-- What is read under the name of the second is the first. -/
theorem files_of_names_dottedTree :
    dottedTree.resolve (Path.ofText "r") = .ok (["r"], .directory) ∧
    Reaches ⟨Path.ofText "r"⟩ dottedTree ["r"] ["a.class"] "a" ∧
    Misses ⟨Path.ofText "r"⟩ dottedTree ["r"] ["a.b.class"] "a.b" ∧
    read ⟨Path.ofText "r"⟩ "a.b" dottedTree = .ok [2] := by
  have hroot : dottedTree.resolve (Path.ofText "r") = .ok (["r"], .directory) := by decide +kernel
  obtain ⟨files, names, -, hfiles, -, -, -, -, hnames⟩ :=
    files_of_names (d := ⟨Path.ofText "r"⟩) hroot
  have hfirst : [] ++ ["a.class"] ∈ files :=
    (hfiles _).2 ⟨⟨[], "a.class", rfl, by decide⟩, [2], by decide⟩
  have hsecond : [] ++ ["a.b.class"] ∈ files :=
    (hfiles _).2 ⟨⟨[], "a.b.class", rfl, by decide⟩, [1], by decide⟩
  obtain ⟨name, hname, hreaches, -⟩ := hnames _ _ hfirst
  obtain ⟨name', hname', -, hmisses⟩ := hnames _ _ hsecond
  have hname : name = "a" := by
    have hown : nameOf? ([] ++ ["a.class"]) = some "a" := by decide +kernel
    exact (Option.some.inj (hown.symm.trans hname)).symm
  have hname' : name' = "a.b" := by
    have hown : nameOf? ([] ++ ["a.b.class"]) = some "a.b" := by decide +kernel
    exact (Option.some.inj (hown.symm.trans hname')).symm
  exact ⟨hroot, hname ▸ hreaches (by decide), hname' ▸ hmisses (by decide),
    by decide +kernel⟩

end Directory

end ClassWeave
