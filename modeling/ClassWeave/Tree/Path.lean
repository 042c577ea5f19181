/-!
# Paths

A path is written as names with slashes between them.  Empty names and single dots are kept, since a
path is shown the way it was made, but they lead nowhere.  There is no slash in a name, and whatever
makes a path keeps it so.

* `Path.ofText`, `Path.text` : reading and showing a path.
* `Path.pushAll` : further names at the end of a path, as `push` adds them one by one.
* `Path.withExtension` : the path with what follows the last dot of its file name replaced,
  `set_extension`.
* `Path.components` : the names that are left when those that lead nowhere are dropped,
  `components`.
* `Name.stem`, `Name.extension?` : what stands before and after the last dot of a name.
* `Name.splitExtension_eq_some` : where the extension of a name starts.
-/

namespace ClassWeave

/-! ### Names -/

namespace Name

/-- What stands before and after the last dot. -/
def splitLastDot : List Char → Option (List Char × List Char)
  | [] => none
  | c :: cs =>
    match splitLastDot cs with
    | some (before, after) => some (c :: before, after)
    | none => if c = '.' then some ([], cs) else none

/-- What stands in `name` before and after the dot at which its extension starts.  A dot at the
front of a name starts no extension, and neither do the two dots that lead upwards. -/
def splitExtension (name : String) : Option (String × String) :=
  if name = ".." then none
  else
    match splitLastDot name.toList with
    | some (before, after) =>
      if before = [] then none else some (String.ofList before, String.ofList after)
    | none => none

/-- The name without its extension. -/
def stem (name : String) : String :=
  match splitExtension name with
  | some (before, _) => before
  | none => name

/-- The name after its extension is dropped, and then the dot in front of it.  When the former
leaves the two dots that lead upwards, they stay. -/
def dropExtension (name : String) : String :=
  match splitExtension name with
  | some (before, _) => if before = "." then ".." else before
  | none => name

/-- The extension of a name. -/
def extension? (name : String) : Option String := (splitExtension name).map Prod.snd

/-- The name with `extension` in place of its own, or behind it if it has none. -/
def withExtension (name extension : String) : String := stem name ++ "." ++ extension

/-- Whether `name` does not lead anywhere. -/
def isIdle (name : String) : Bool := name == "" || name == "."

section

variable {cs before after : List Char} {name own extension : String}

theorem splitLastDot_eq_none : splitLastDot cs = none ↔ '.' ∉ cs := by
  induction cs with
  | nil => simp [splitLastDot]
  | cons c cs ih =>
    unfold splitLastDot
    cases h : splitLastDot cs with
    | some pair =>
      have hmem : '.' ∈ cs := Decidable.of_not_not fun hnot => by
        rw [ih.2 hnot] at h
        cases h
      simp [hmem]
    | none =>
      have hnot := ih.1 h
      by_cases hc : c = '.'
      · simp [hc]
      · simp [hc, hnot, Ne.symm hc]

theorem splitLastDot_append (h : '.' ∉ after) :
    splitLastDot (before ++ '.' :: after) = some (before, after) := by
  induction before with
  | nil => simp [splitLastDot, splitLastDot_eq_none.2 h]
  | cons c before ih => simp [splitLastDot, ih]

theorem splitLastDot_eq_some : splitLastDot cs = some (before, after) ↔
    cs = before ++ '.' :: after ∧ '.' ∉ after := by
  refine ⟨fun h => ?_, fun ⟨heq, h⟩ => heq ▸ splitLastDot_append h⟩
  induction cs generalizing before with
  | nil => cases h
  | cons c cs ih =>
    unfold splitLastDot at h
    cases hcs : splitLastDot cs with
    | some pair =>
      simp only [hcs, Option.some.injEq, Prod.mk.injEq] at h
      obtain ⟨rfl, rfl⟩ := h
      obtain ⟨rfl, hafter⟩ := ih hcs
      exact ⟨rfl, hafter⟩
    | none =>
      simp only [hcs] at h
      split at h
      · rename_i hc
        cases h
        exact ⟨by rw [hc, List.nil_append], splitLastDot_eq_none.1 hcs⟩
      · cases h

theorem splitExtension_eq_some : splitExtension name = some (own, extension) ↔
    name = own ++ "." ++ extension ∧ own ≠ "" ∧ '.' ∉ extension.toList ∧ name ≠ ".." := by
  have hlist : name = own ++ "." ++ extension ↔
      name.toList = own.toList ++ '.' :: extension.toList := by
    rw [← String.toList_inj]
    simp
  rw [hlist]
  constructor
  · intro h
    unfold splitExtension at h
    split at h
    · cases h
    · rename_i hup
      split at h
      · rename_i before after hdot
        obtain ⟨heq, hafter⟩ := splitLastDot_eq_some.1 hdot
        split at h
        · cases h
        · rename_i hbefore
          cases h
          simp only [String.toList_ofList, ne_eq, ← String.toList_eq_nil_iff]
          exact ⟨heq, hbefore, hafter, hup⟩
      · cases h
  · rintro ⟨hname, hown, hext, hup⟩
    unfold splitExtension
    rw [if_neg hup, splitLastDot_eq_some.2 ⟨hname, hext⟩]
    simp [hown]

/-- A name with another extension has no slashes either. -/
theorem slash_withExtension (hname : '/' ∉ name.toList) (hextension : '/' ∉ extension.toList) :
    '/' ∉ (withExtension name extension).toList := by
  have hstem : '/' ∉ (stem name).toList := by
    unfold stem
    split
    · rename_i hsplit
      obtain ⟨rfl, -⟩ := splitExtension_eq_some.1 hsplit
      intro hmem
      exact hname (by simp [hmem])
    · exact hname
  simp [withExtension, hstem, hextension]

end

end Name

/-! ### Paths -/

/-- A path, as the texts between its slashes. -/
structure Path where
  /-- The texts between the slashes. -/
  segments : List String
  /-- There is no slash in them. -/
  plain : ∀ segment ∈ segments, '/' ∉ segment.toList
  deriving DecidableEq, Repr

namespace Path

/-! #### Texts between slashes -/

/-- The texts between the slashes of a text, of which there is one at least. -/
def splitSlashes : List Char → List (List Char)
  | [] => [[]]
  | c :: cs =>
    if c = '/' then [] :: splitSlashes cs
    else
      match splitSlashes cs with
      | [] => [[c]]
      | segment :: segments => (c :: segment) :: segments

theorem notMem_splitSlashes {cs : List Char} : ∀ segment ∈ splitSlashes cs, '/' ∉ segment := by
  induction cs with
  | nil => simp [splitSlashes]
  | cons c cs ih =>
    unfold splitSlashes
    split
    · exact List.forall_mem_cons.2 ⟨List.not_mem_nil, ih⟩
    · rename_i hc
      split
      · simp [Ne.symm hc]
      · rename_i segment segments heq
        rw [heq] at ih
        obtain ⟨hsegment, hsegments⟩ := List.forall_mem_cons.1 ih
        refine List.forall_mem_cons.2 ⟨?_, hsegments⟩
        rw [List.mem_cons, not_or]
        exact ⟨Ne.symm hc, hsegment⟩

/-- The texts `segments` with `name` behind them.  An empty text at the end, which stands for a
slash at the end of a path, makes way. -/
def pushName (segments : List String) (name : String) : List String :=
  if segments.getLast? = some "" then segments.dropLast ++ [name] else segments ++ [name]

theorem mem_pushName {segments : List String} {name segment : String}
    (h : segment ∈ pushName segments name) : segment ∈ segments ∨ segment = name := by
  unfold pushName at h
  split at h
  · rcases List.mem_append.1 h with h | h
    · exact .inl (List.dropLast_subset _ h)
    · exact .inr (List.mem_singleton.1 h)
  · rcases List.mem_append.1 h with h | h
    · exact .inl h
    · exact .inr (List.mem_singleton.1 h)

theorem mem_foldl_pushName {segments names : List String} {segment : String}
    (h : segment ∈ names.foldl pushName segments) : segment ∈ segments ∨ segment ∈ names := by
  induction names generalizing segments with
  | nil => exact .inl h
  | cons name names ih =>
    rcases ih h with h | h
    · rcases mem_pushName h with h | rfl
      · exact .inl h
      · exact .inr List.mem_cons_self
    · exact .inr (List.mem_cons_of_mem _ h)

/-- The texts up to the last one that leads somewhere, the last of them in front. -/
def trimmed (segments : List String) : List String := segments.reverse.dropWhile Name.isIdle

/-- The texts with what follows the last dot of the file name replaced.  When they end upwards, or
have no names at all, there is no file name and they stay as they are. -/
def replaceExtension (segments : List String) (extension : String) : List String :=
  match trimmed segments with
  | [] => segments
  | name :: above =>
    if name = ".." then segments else (Name.withExtension name extension :: above).reverse

theorem mem_replaceExtension {segments : List String} {extension segment : String}
    (h : segment ∈ replaceExtension segments extension) :
    segment ∈ segments ∨ ∃ name ∈ segments, segment = Name.withExtension name extension := by
  unfold replaceExtension at h
  split at h
  · exact .inl h
  · rename_i name above htrimmed
    have hsub : name :: above ⊆ segments := by
      rw [← htrimmed]
      exact fun part hpart => List.mem_reverse.1 ((List.dropWhile_sublist _).subset hpart)
    split at h
    · exact .inl h
    · rcases List.mem_cons.1 (List.mem_reverse.1 h) with heq | h
      · exact .inr ⟨name, hsub List.mem_cons_self, heq⟩
      · exact .inl (hsub (List.mem_cons_of_mem _ h))

/-! #### Operations -/

/-- The path that `text` denotes. -/
def ofText (text : String) : Path where
  segments := (splitSlashes text.toList).map String.ofList
  plain := by
    intro name hname
    obtain ⟨segment, hsegment, rfl⟩ := List.mem_map.1 hname
    rw [String.toList_ofList]
    exact notMem_splitSlashes segment hsegment

variable (p : Path)

/-- The text of the path. -/
def text : String := String.intercalate "/" p.segments

/-- Whether the path starts at the root of all places. -/
def isAbsolute : Bool := p.segments.head? == some "" && decide (1 < p.segments.length)

/-- The path `p` with the names of the path `q` at its end, one behind the other. -/
def pushAll (q : Path) : Path where
  segments := q.segments.foldl pushName p.segments
  plain := fun segment h => (mem_foldl_pushName h).elim (p.plain segment) (q.plain segment)

/-- The path with `suffix` appended to its last name. -/
def append (suffix : String) (h : '/' ∉ suffix.toList) : Path where
  segments := p.segments.dropLast ++ [p.segments.getLast?.getD "" ++ suffix]
  plain := by
    refine List.forall_mem_append.2 ⟨fun part hpart => p.plain part (List.dropLast_subset _ hpart),
      List.forall_mem_singleton.2 ?_⟩
    have hlast : '/' ∉ (p.segments.getLast?.getD "").toList := by
      cases hlast : p.segments.getLast? with
      | none => simp
      | some name => exact p.plain name (List.mem_of_getLast? hlast)
    simp [hlast, h]

/-- The path with `extension` in place of what follows the last dot of its file name, if it has a
file name. -/
def withExtension (extension : String) (h : '/' ∉ extension.toList) : Path where
  segments := replaceExtension p.segments extension
  plain := by
    intro segment hsegment
    rcases mem_replaceExtension hsegment with hsegment | ⟨name, hname, rfl⟩
    · exact p.plain segment hsegment
    · exact Name.slash_withExtension (p.plain name hname) h

/-- The names of the relative path with these `segments`; a dot counts only at its front. -/
def components (segments : List String) : List String :=
  match segments with
  | "." :: rest => "." :: rest.filter (!Name.isIdle ·)
  | segments => segments.filter (!Name.isIdle ·)

end Path

end ClassWeave
