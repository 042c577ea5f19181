import ClassWeave.Proofs.Except
import ClassWeave.Proofs.Tree.Path
import ClassWeave.Tree.FileTree

/-!
# Operations on file trees

* `FileTree.entry?_set`, `entry?_clear` : what stands in a tree after something was put or taken.
* `FileTree.follow_of_entry`, `follow_mono` : what stands at a place is led to by its names, as long
  as the directories on the way are there.
* `FileTree.locate_front` : paths that go on from a path that leads somewhere.
* `FileTree.read_eq_ok`, `write_eq_ok`, `rename_eq_ok` : what operations do when they succeed.
* `FileTree.admits_of_locate` : what is written by a path that ends in a name can stand where the
  path leads.
* `FileTree.mem_filesBelow`, `nodup_filesBelow` : every file below a place is listed once.
-/

namespace ClassWeave

namespace FileTree

variable {t t' : FileTree} {place base goal : Place} {name : String} {names : List String}
  {entry : Entry} {path root : Path} {start : Place} {data : Bytes}

/-! ### Entries -/

theorem entry?_set (h : t.Admits place entry) (other : Place) :
    entry? (t.set place entry) other = if other = place then some entry else t.entry? other := by
  rw [set, dif_pos h]
  unfold entry?
  by_cases hother : other = []
  · simp [hother, Ne.symm h.ne]
  · rw [if_neg hother, if_neg hother]
    exact FiniteMap.get?_insert ..

theorem entry?_clear (h : t.entry? place ≠ some .directory) (other : Place) :
    entry? (t.clear place) other = if other = place then none else t.entry? other := by
  have hne : place ≠ [] := by
    rintro rfl
    exact h rfl
  rw [clear, dif_neg h]
  unfold entry?
  by_cases hother : other = []
  · simp [hother, Ne.symm hne]
  · rw [if_neg hother, if_neg hother]
    exact FiniteMap.get?_erase ..

@[simp] theorem here_set : (t.set place entry).here = t.here := by
  unfold set
  split <;> rfl

@[simp] theorem here_clear : (t.clear place).here = t.here := by
  unfold clear
  split <;> rfl

/-- What stands at a place has proper names. -/
theorem proper_of_entry (h : t.entry? place = some entry) : ∀ name ∈ place, Name.IsProper name := by
  by_cases hroot : place = []
  · rw [hroot]
    exact nofun
  · exact proper_of_get? (entry?_of_ne hroot ▸ h)

/-- What stands at a place stands in a directory. -/
theorem parent_of_entry (h : t.entry? (place ++ [name]) = some entry) :
    t.entry? place = some .directory := by
  rw [entry?_of_ne (by simp)] at h
  have hparent := parent_of_get? h
  rwa [List.dropLast_concat] at hparent

theorem ancestor_of_entry (hne : names ≠ []) (h : t.entry? (place ++ names) = some entry) :
    t.entry? place = some .directory := by
  induction names using List.reverseRecOn generalizing entry with
  | nil => exact absurd rfl hne
  | append_singleton names name ih =>
    rw [← List.append_assoc] at h
    have hparent := parent_of_entry h
    by_cases hnames : names = []
    · rwa [hnames, List.append_nil] at hparent
    · exact ih hnames hparent

theorem directory_dropLast (h : t.entry? place = some .directory) :
    t.entry? place.dropLast = some .directory := by
  induction place using List.reverseRecOn with
  | nil => exact h
  | append_singleton place name ih =>
    rw [List.dropLast_concat]
    exact parent_of_entry h

/-! ### Following names -/

theorem child_of_proper (hdir : t.entry? place = some .directory) (h : Name.IsProper name) :
    t.child place name = .ok (place ++ [name]) := by
  simp [child, hdir, h.idle, h.up, Nat.not_lt.2 h.size]

/-- What one step that succeeds does. -/
theorem child_eq_ok (h : t.child place name = .ok goal) : t.entry? place = some .directory ∧
    goal = if Name.isIdle name then place else if name = ".." then place.dropLast
      else place ++ [name] := by
  unfold child at h
  split at h
  · cases h
  · cases h
  · rename_i hdir
    refine ⟨hdir, ?_⟩
    split_ifs at h ⊢ <;> cases h <;> rfl

theorem child_mono (hkeeps : ∀ place, t.entry? place = some .directory →
    t'.entry? place = some .directory) (h : t.child place name = .ok goal) :
    t'.child place name = .ok goal := by
  obtain ⟨hdir, -⟩ := child_eq_ok h
  unfold child at h ⊢
  rw [hkeeps place hdir]
  rwa [hdir] at h

/-- Where a step by the name of a file leads. -/
theorem child_eq_append (h : t.child place name = .ok goal) (hidle : Name.isIdle name = false)
    (hup : name ≠ "..") : goal = place ++ [name] ∧ name.utf8ByteSize ≤ Name.limit := by
  obtain ⟨hdir, hgoal⟩ := child_eq_ok h
  rw [if_neg (by simp [hidle]), if_neg hup] at hgoal
  refine ⟨hgoal, Nat.not_lt.1 fun hlong => ?_⟩
  simp [child, hdir, hidle, hup, hlong] at h

theorem follow_append (place : Place) (names names' : List String) :
    t.follow place (names ++ names') = (do t.follow (← t.follow place names) names') :=
  List.foldlM_append

theorem follow_singleton (place : Place) (name : String) :
    t.follow place [name] = t.child place name :=
  bind_pure _

/-- Names are followed as before while the directories stay. -/
theorem follow_mono (hkeeps : ∀ place, t.entry? place = some .directory →
    t'.entry? place = some .directory) (h : t.follow place names = .ok goal) :
    t'.follow place names = .ok goal := by
  induction names generalizing place with
  | nil => exact h
  | cons name names ih =>
    obtain ⟨next, hnext, h⟩ := except_bind_eq_ok.1 h
    exact except_bind_eq_ok.2 ⟨next, child_mono hkeeps hnext, ih h⟩

/-- The names of a place at which something stands lead to it. -/
theorem follow_of_entry (h : t.entry? (place ++ names) = some entry) :
    t.follow place names = .ok (place ++ names) := by
  induction names generalizing place with
  | nil => rw [List.append_nil]; rfl
  | cons name names ih =>
    have hdir := ancestor_of_entry (List.cons_ne_nil _ _) h
    have hproper := proper_of_entry h name (List.mem_append_right _ List.mem_cons_self)
    rw [List.append_cons] at h ⊢
    exact except_bind_eq_ok.2 ⟨_, child_of_proper hdir hproper, ih h⟩

/-! ### Paths -/

theorem checkPath_eq_ok : checkPath path = .ok () ↔ '\x00' ∉ path.text.toList ∧
    path.text ≠ "" ∧ path.text.utf8ByteSize ≤ pathLimit := by
  have hlast : (if pathLimit < path.text.utf8ByteSize then
      (throw .nameTooLong : Except StorageFault Unit) else pure ()) = .ok () ↔
        path.text.utf8ByteSize ≤ pathLimit := by
    split_ifs with h
    · exact ⟨nofun, fun hle => absurd h (Nat.not_lt.2 hle)⟩
    · exact ⟨fun _ => Nat.not_lt.1 h, fun _ => rfl⟩
  unfold checkPath
  exact except_guard_eq_ok.trans (and_congr (by simp)
    (except_guard_eq_ok.trans (and_congr Iff.rfl hlast)))

theorem resolve_eq_ok : t.resolve path = .ok (place, entry) ↔
    t.locate path = .ok place ∧ t.entry? place = some entry := by
  unfold resolve
  rw [except_bind_eq_ok]
  constructor
  · rintro ⟨place', hlocate, h⟩
    split at h
    · rename_i entry' hentry
      obtain ⟨rfl, rfl⟩ := Prod.mk.inj (except_pure_eq_ok.1 h)
      exact ⟨hlocate, hentry⟩
    · cases h
  · rintro ⟨hlocate, hentry⟩
    refine ⟨place, hlocate, ?_⟩
    rw [hentry]
    rfl

/-- Paths are followed as before while the directories stay. -/
theorem locate_mono (hhere : t'.here = t.here) (hkeeps : ∀ place,
    t.entry? place = some .directory → t'.entry? place = some .directory)
    (h : t.locate path = .ok place) : t'.locate path = .ok place := by
  obtain ⟨_, hcheck, hfollow⟩ := except_bind_eq_ok.1 h
  refine except_bind_eq_ok.2 ⟨_, hcheck, ?_⟩
  rw [hhere]
  exact follow_mono hkeeps hfollow

/-- A path that goes on from one that leads to a place is followed from there. -/
theorem locate_front (hroot : t.locate root = .ok base) (hne : names ≠ [])
    (hpath : path.segments = root.front ++ names) : t.locate path = (do
      checkPath path
      t.follow base names) := by
  obtain ⟨⟨⟩, hcheck, hfollow⟩ := except_bind_eq_ok.1 hroot
  obtain ⟨-, hempty, -⟩ := checkPath_eq_ok.1 hcheck
  have hbase : t.follow (if root.isAbsolute then [] else t.here) root.front = .ok base := by
    rcases root.segments_eq_front with heq | heq
    · rwa [heq] at hfollow
    · -- the slash at the end leads nowhere
      rw [heq, follow_append] at hfollow
      obtain ⟨place, hplace, hlast⟩ := except_bind_eq_ok.1 hfollow
      rw [follow_singleton] at hlast
      obtain ⟨-, rfl⟩ := child_eq_ok hlast
      exact hplace
  unfold locate
  rw [Path.isAbsolute_of_front hempty hne hpath, hpath, follow_append, hbase]
  rfl

/-! ### Files -/

theorem read_eq_ok : t.read path = .ok data ↔
    ∃ place, t.locate path = .ok place ∧ t.entry? place = some (.file data) := by
  unfold read
  rw [except_bind_eq_ok]
  constructor
  · rintro ⟨⟨place, entry⟩, hresolve, h⟩
    obtain ⟨hlocate, hentry⟩ := resolve_eq_ok.1 hresolve
    cases entry with
    | directory => cases h
    | file data' =>
      obtain rfl := except_pure_eq_ok.1 h
      exact ⟨place, hlocate, hentry⟩
  · rintro ⟨place, hlocate, hentry⟩
    exact ⟨(place, .file data), resolve_eq_ok.2 ⟨hlocate, hentry⟩, rfl⟩

theorem write_eq_ok : t.write path data = .ok t' ↔ ∃ place, t.locate path = .ok place ∧
    endsInName path = true ∧ t.entry? place ≠ some .directory ∧ t' = t.set place (.file data) := by
  unfold write
  rw [except_bind_eq_ok]
  refine exists_congr fun place => and_congr_right fun _ => except_guard_eq_ok.trans ?_
  rw [except_pure_eq_ok, ← and_assoc]
  simp

theorem rename_eq_ok {source target : Path} : t.rename source target = .ok t' ↔
    ∃ start goal data, t.locate source = .ok start ∧ t.locate target = .ok goal ∧
      endsInName target = true ∧ t.entry? start = some (.file data) ∧
      t.entry? goal ≠ some .directory ∧ t' = (t.clear start).set goal (.file data) := by
  unfold rename
  constructor
  · intro h
    obtain ⟨start, hstart, h⟩ := except_bind_eq_ok.1 h
    obtain ⟨goal, hgoal, h⟩ := except_bind_eq_ok.1 h
    obtain ⟨hname, h⟩ := except_guard_eq_ok.1 h
    have hname : endsInName target = true := by simpa using hname
    split at h
    · rename_i data hfile
      obtain ⟨hdir, h⟩ := except_guard_eq_ok.1 h
      exact ⟨start, goal, data, hstart, hgoal, hname, hfile, hdir, except_pure_eq_ok.1 h⟩
    · cases h
    · cases h
  · rintro ⟨start, goal, data, hstart, hgoal, hname, hfile, hdir, rfl⟩
    refine except_bind_eq_ok.2 ⟨start, hstart, except_bind_eq_ok.2 ⟨goal, hgoal, ?_⟩⟩
    simp only [hname, hfile, hdir]
    rfl

/-! ### Where a file can be written -/

/-- A path that ends in the name of a file leads to a place at which a file can stand, if that is no
directory. -/
theorem admits_of_locate (hname : endsInName path = true) (h : t.locate path = .ok place)
    (hfree : t.entry? place ≠ some .directory) : t.Admits place (.file data) := by
  obtain ⟨⟨⟩, hcheck, hfollow⟩ := except_bind_eq_ok.1 h
  obtain ⟨hzero, -, -⟩ := checkPath_eq_ok.1 hcheck
  unfold endsInName at hname
  cases hlast : path.segments.getLast? with
  | none =>
    rw [hlast] at hname
    cases hname
  | some name =>
    simp only [hlast, Bool.and_eq_true, Bool.not_eq_true', bne_iff_ne, ne_eq] at hname
    have hmem := List.mem_of_getLast? hlast
    rw [← List.dropLast_append_getLast? name hlast, follow_append] at hfollow
    obtain ⟨dir, -, hchild⟩ := except_bind_eq_ok.1 hfollow
    rw [follow_singleton] at hchild
    obtain ⟨hdir, -⟩ := child_eq_ok hchild
    obtain ⟨rfl, hsize⟩ := child_eq_append hchild hname.1 hname.2
    have hproper : Name.IsProper name :=
      ⟨path.plain name hmem, fun hz => hzero ((Path.mem_text (by decide)).2 ⟨name, hmem, hz⟩),
        hname.1, hname.2, hsize⟩
    refine ⟨by simp, ?_, by rwa [List.dropLast_concat], fun h => absurd h hfree⟩
    exact List.forall_mem_append.2 ⟨proper_of_entry hdir, List.forall_mem_singleton.2 hproper⟩

/-- Where a file can be put it can also be put when another one has been taken away. -/
theorem Admits.clear (h : t.Admits place (.file data)) (hstart : t.entry? start ≠ some .directory) :
    (t.clear start).Admits place (.file data) := by
  have hstays {other : Place} (hdir : t.entry? other = some .directory) :
      entry? (t.clear start) other = some .directory := by
    rw [entry?_clear hstart, if_neg (by rintro rfl; exact hstart hdir)]
    exact hdir
  refine ⟨h.ne, h.proper, hstays h.parent, fun hdir => h.free ?_⟩
  rw [entry?_clear hstart] at hdir
  split_ifs at hdir
  exact hdir

/-! ### All files below a place -/

theorem namesFrom?_eq_some : namesFrom? base place = some names ↔
    names ≠ [] ∧ place = base ++ names := by
  induction base generalizing place with
  | nil =>
    rw [namesFrom?, List.nil_append]
    split_ifs with hempty
    · rw [hempty]
      exact ⟨nofun, fun ⟨hne, heq⟩ => absurd heq.symm hne⟩
    · rw [Option.some.injEq]
      exact ⟨fun heq => ⟨heq ▸ hempty, heq⟩, And.right⟩
  | cons n base ih =>
    cases place with
    | nil => simp [namesFrom?]
    | cons m place =>
      rw [namesFrom?]
      split_ifs with hnm
      · rw [ih, hnm]
        simp
      · simp [Ne.symm hnm]

theorem mem_filesBelow_iff : (names, data) ∈ t.filesBelow base ↔
    names ≠ [] ∧ (base ++ names, .file data) ∈ t.entries.entries := by
  unfold filesBelow
  rw [List.mem_filterMap]
  constructor
  · rintro ⟨⟨place, entry⟩, hmem, hfile⟩
    simp only at hfile
    split at hfile
    · rename_i names' data' hnames
      obtain ⟨rfl, rfl⟩ := Prod.mk.inj (Option.some.inj hfile)
      obtain ⟨hne, rfl⟩ := namesFrom?_eq_some.1 hnames
      exact ⟨hne, hmem⟩
    · cases hfile
  · rintro ⟨hne, hmem⟩
    refine ⟨_, hmem, ?_⟩
    simp only [namesFrom?_eq_some.2 ⟨hne, rfl⟩]

/-- What is listed are the files below the place. -/
theorem mem_filesBelow : (names, data) ∈ t.filesBelow base ↔
    names ≠ [] ∧ t.entry? (base ++ names) = some (.file data) := by
  rw [mem_filesBelow_iff]
  refine and_congr_right fun hne => ?_
  rw [entry?_of_ne (by simp [hne]), FiniteMap.mem_entries]

/-- No file is listed twice. -/
theorem nodup_filesBelow : ((t.filesBelow base).map Prod.fst).Nodup := by
  unfold filesBelow
  rw [List.Nodup, List.pairwise_map, List.pairwise_filterMap]
  have hdistinct := List.pairwise_map.1 t.entries.distinct
  refine hdistinct.imp fun {a b} hne file hfile file' hfile' heq => hne ?_
  obtain ⟨place, entry⟩ := a
  obtain ⟨place', entry'⟩ := b
  simp only at hfile hfile' ⊢
  split at hfile
  · rename_i hnames
    split at hfile'
    · rename_i hnames'
      cases hfile
      cases hfile'
      obtain rfl := heq
      rw [(namesFrom?_eq_some.1 hnames).2, (namesFrom?_eq_some.1 hnames').2]
    · cases hfile'
  · cases hfile

end FileTree

end ClassWeave
