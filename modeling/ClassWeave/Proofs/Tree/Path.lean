import ClassWeave.Tree.Path
import Mathlib.Data.List.Infix

/-!
# Names and paths

* `Name.dropExtension_append`, `withExtension_eq_append_iff` : dropping an extension, and putting
  one in place of another.  The latter undoes the former only for names that have no extension left.
* `Path.ofText_intercalate` : names joined by slashes are read as they were.
* `Path.segments_pushAll`, `segments_withExtension` : names pushed to a path, and the extension of
  the last one replaced.
-/

namespace ClassWeave

namespace Name

variable {name own ext : String}

/-- A name that leads somewhere is not empty. -/
theorem ne_empty_of_isIdle (h : isIdle name = false) : name ≠ "" := by
  rintro rfl
  exact absurd h (by decide)

theorem two_lt_length_append (hown : own ≠ "") (hne : ext ≠ "") :
    2 < (own ++ "." ++ ext).length := by
  have hown := String.length_eq_zero_iff.not.2 hown
  have hne := String.length_eq_zero_iff.not.2 hne
  have hone : (".").length = 1 := by decide
  simp only [String.length_append]
  omega

/-- A name with an extension does not lead upwards. -/
theorem append_ne_up (hown : own ≠ "") (hne : ext ≠ "") : own ++ "." ++ ext ≠ ".." := by
  intro heq
  have hlength := two_lt_length_append hown hne
  rw [heq] at hlength
  exact absurd hlength (by decide)

/-- A name with an extension leads somewhere. -/
theorem isIdle_append (hown : own ≠ "") (hne : ext ≠ "") : isIdle (own ++ "." ++ ext) = false := by
  have hlength := two_lt_length_append hown hne
  simp only [isIdle, Bool.or_eq_false_iff, beq_eq_false_iff_ne]
  constructor <;> intro heq <;> rw [heq] at hlength <;> exact absurd hlength (by decide)

/-- The extension of a name, if it is not empty. -/
theorem extension?_eq_some (hne : ext ≠ "") (hext : '.' ∉ ext.toList) :
    extension? name = some ext ↔ ∃ own, own ≠ "" ∧ name = own ++ "." ++ ext := by
  unfold extension?
  rw [Option.map_eq_some_iff]
  constructor
  · rintro ⟨⟨own, ext'⟩, hsplit, rfl⟩
    obtain ⟨hname, hown, -⟩ := splitExtension_eq_some.1 hsplit
    exact ⟨own, hown, hname⟩
  · rintro ⟨own, hown, rfl⟩
    exact ⟨(own, ext), splitExtension_eq_some.2 ⟨rfl, hown, hext, append_ne_up hown hne⟩, rfl⟩

/-- What is left when an extension is dropped. -/
theorem dropExtension_append (hown : own ≠ "") (hne : ext ≠ "") (hext : '.' ∉ ext.toList) :
    dropExtension (own ++ "." ++ ext) = if own = "." then ".." else own := by
  unfold dropExtension
  rw [splitExtension_eq_some.2 ⟨rfl, hown, hext, append_ne_up hown hne⟩]

theorem stem_ne_empty (h : name ≠ "") : stem name ≠ "" := by
  unfold stem
  split
  · rename_i hsplit
    exact (splitExtension_eq_some.1 hsplit).2.1
  · exact h

/-- An extension is put behind a name just when there was none. -/
theorem withExtension_eq_append_iff :
    withExtension name ext = name ++ "." ++ ext ↔ splitExtension name = none := by
  unfold withExtension stem
  cases h : splitExtension name with
  | none => simp
  | some pair =>
    obtain ⟨before, after⟩ := pair
    obtain ⟨hname, -⟩ := splitExtension_eq_some.1 h
    simp only [String.append_left_inj, reduceCtorEq, iff_false]
    intro heq
    -- the name is longer than what stands before its extension
    have hlength := congrArg String.length (heq.trans hname)
    have hone : (".").length = 1 := by decide
    simp only [String.length_append] at hlength
    omega

end Name

/-! ### Paths -/

namespace Path

variable {p q : Path} {names above : List String} {name : String}

theorem splitSlashes_of_notMem {cs : List Char} (h : '/' ∉ cs) : splitSlashes cs = [cs] := by
  induction cs with
  | nil => rfl
  | cons c cs ih =>
    rw [List.mem_cons, not_or] at h
    rw [splitSlashes, if_neg (Ne.symm h.1), ih h.2]

theorem splitSlashes_append_cons {cs rest : List Char} (h : '/' ∉ cs) :
    splitSlashes (cs ++ '/' :: rest) = cs :: splitSlashes rest := by
  induction cs with
  | nil => rw [List.nil_append, splitSlashes, if_pos rfl]
  | cons c cs ih =>
    rw [List.mem_cons, not_or] at h
    rw [List.cons_append, splitSlashes, if_neg (Ne.symm h.1), ih h.2]

theorem splitSlashes_intercalate {parts : List (List Char)} (hne : parts ≠ [])
    (h : ∀ part ∈ parts, '/' ∉ part) : splitSlashes (['/'].intercalate parts) = parts := by
  induction parts with
  | nil => exact absurd rfl hne
  | cons part parts ih =>
    obtain ⟨hpart, hparts⟩ := List.forall_mem_cons.1 h
    cases parts with
    | nil => rw [List.intercalate_singleton, splitSlashes_of_notMem hpart]
    | cons next parts =>
      rw [List.intercalate_cons_cons, List.append_assoc, List.singleton_append,
        splitSlashes_append_cons hpart, ih (List.cons_ne_nil _ _) hparts]

/-- Names joined by slashes are read as they were. -/
theorem ofText_intercalate (hne : names ≠ []) (h : ∀ name ∈ names, '/' ∉ name.toList) :
    (ofText (String.intercalate "/" names)).segments = names := by
  have hparts : ∀ part ∈ names.map String.toList, '/' ∉ part := List.forall_mem_map.2 h
  show (splitSlashes (String.intercalate "/" names).toList).map String.ofList = names
  rw [String.toList_intercalate]
  show (splitSlashes (['/'].intercalate _)).map String.ofList = names
  rw [splitSlashes_intercalate (by simpa using hne) hparts]
  simp

/-- The segments behind which names are pushed: a slash at the end of a path is not doubled. -/
def front (p : Path) : List String :=
  if p.segments.getLast? = some "" then p.segments.dropLast else p.segments

theorem segments_eq_front (p : Path) : p.segments = p.front ∨ p.segments = p.front ++ [""] := by
  unfold front
  split_ifs with hlast
  · exact .inr (List.dropLast_append_getLast? "" hlast).symm
  · exact .inl rfl

theorem front_subset (p : Path) : p.front ⊆ p.segments := by
  rcases p.segments_eq_front with heq | heq <;> rw [heq]
  · exact List.Subset.refl _
  · exact List.subset_append_left _ _

/-- Names behind a path do not change whether it starts at the root of all places. -/
theorem isAbsolute_of_front (hp : p.text ≠ "") (hne : names ≠ [])
    (hq : q.segments = p.front ++ names) : q.isAbsolute = p.isAbsolute := by
  have hlength : 0 < names.length := List.length_pos_of_ne_nil hne
  unfold isAbsolute
  rw [hq]
  cases hfront : p.front with
  | nil =>
    -- no segment at all, or a single one that is empty
    rcases p.segments_eq_front with heq | heq <;> rw [hfront] at heq <;>
      exact absurd (by rw [text, heq]; rfl) hp
  | cons first rest =>
    rcases p.segments_eq_front with heq | heq <;> rw [heq, hfront]
    · cases rest with
      | nil =>
        have hfirst : first ≠ "" := by
          rintro rfl
          exact hp (by rw [text, heq, hfront]; rfl)
        simp [hfirst]
      | cons next rest => simp
    · have hlong : 1 < (first :: rest ++ names).length := by
        simp only [List.cons_append, List.length_cons, List.length_append]
        omega
      have hlong' : 1 < (first :: rest ++ [""]).length := by simp
      rw [decide_eq_true hlong, decide_eq_true hlong', List.head?_append_of_ne_nil _ (by simp),
        List.head?_append_of_ne_nil _ (by simp)]

theorem pushName_eq (p : Path) (name : String) :
    pushName p.segments name = p.front ++ [name] := by
  unfold pushName front
  split_ifs <;> rfl

theorem foldl_pushName_append (h : ∀ name ∈ names, name ≠ "") {last : String} (hlast : last ≠ "") :
    names.foldl pushName (above ++ [last]) = above ++ [last] ++ names := by
  induction names generalizing above last with
  | nil => rw [List.foldl_nil, List.append_nil]
  | cons name names ih =>
    obtain ⟨hname, hnames⟩ := List.forall_mem_cons.1 h
    have hpush : pushName (above ++ [last]) name = above ++ [last] ++ [name] := by
      simp [pushName, hlast]
    rw [List.foldl_cons, hpush, ih hnames hname, List.append_assoc _ [name], List.singleton_append]

/-- Names that are not empty are pushed one behind the other. -/
theorem segments_pushAll (hne : q.segments ≠ []) (h : ∀ name ∈ q.segments, name ≠ "") :
    (p.pushAll q).segments = p.front ++ q.segments := by
  show q.segments.foldl pushName p.segments = _
  cases hq : q.segments with
  | nil => exact absurd hq hne
  | cons name names =>
    rw [hq] at h
    obtain ⟨hname, hnames⟩ := List.forall_mem_cons.1 h
    rw [List.foldl_cons, pushName_eq, foldl_pushName_append hnames hname, List.append_assoc,
      List.singleton_append]

/-- The extension of the last name is replaced, unless that leads upwards. -/
theorem segments_withExtension {ext : String} {hext : '/' ∉ ext.toList}
    (hp : p.segments = above ++ [name]) (h : Name.isIdle name = false) :
    (p.withExtension ext hext).segments =
      above ++ [if name = ".." then ".." else Name.withExtension name ext] := by
  show replaceExtension p.segments ext = _
  unfold replaceExtension trimmed
  rw [hp, List.reverse_append, List.reverse_singleton, List.singleton_append,
    List.dropWhile_cons_of_neg (by simp [h])]
  by_cases hup : name = ".."
  · simp [hup]
  · simp [hup]

theorem segments_append {suffix : String} {hsuffix : '/' ∉ suffix.toList}
    (hp : p.segments = above ++ [name]) :
    (p.append suffix hsuffix).segments = above ++ [name ++ suffix] := by
  simp [append, hp]

/-- Names that lead somewhere are all kept. -/
theorem components_of_not_idle (h : ∀ name ∈ names, Name.isIdle name = false) :
    components names = names := by
  have hkept : names.filter (!Name.isIdle ·) = names :=
    List.filter_eq_self.2 fun name hname => by rw [h name hname]; rfl
  unfold components
  split
  · rename_i rest
    exact absurd (h "." List.mem_cons_self) (by decide)
  · exact hkept

/-- A character of a path, apart from the slashes, is one of its segments. -/
theorem mem_text {c : Char} (hc : c ≠ '/') :
    c ∈ p.text.toList ↔ ∃ name ∈ p.segments, c ∈ name.toList := by
  rw [text, String.toList_intercalate]
  show c ∈ ['/'].intercalate (p.segments.map String.toList) ↔ _
  induction p.segments with
  | nil => simp
  | cons name names ih =>
    cases names with
    | nil => simp
    | cons next names =>
      rw [List.map_cons, List.map_cons, List.intercalate_cons_cons, ← List.map_cons,
        List.mem_append, List.mem_append, ih]
      simp [hc]

end Path

end ClassWeave
