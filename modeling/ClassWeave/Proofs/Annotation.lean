import ClassWeave.Annotation
import ClassWeave.Proofs.Bytes.Reading

/-!
# The stored forms of annotations

* `Element.Fits`, `AnnotationInfo.Fits` : values and annotations that can be stored, however deep
  they nest.
* `Element.decodes_reader` : a reader that is given as much depth as there are bytes reads exactly
  these values, each from the bytes that it is written to.
* `AnnotationInfo.readList_eq_ok` : the same of lists that make up all their bytes.
* `AnnotationInfo.inverse_readList_writeList` : reading and writing lists of annotations undo each
  other.
-/

namespace ClassWeave

open Reader

namespace Element

/-- The values that can be stored: the letter of a constant is known, and every table inside has a
length that fits into a half word. -/
inductive Fits : Element → Prop
  | const {tag : UInt8} {value : UInt16} : isConstTag tag = true → Fits (.const tag value)
  | enumConst {type name : UInt16} : Fits (.enumConst type name)
  | classLiteral {descriptor : UInt16} : Fits (.classLiteral descriptor)
  | nested {inner : AnnotationOf Element} : inner.elements.length < 2 ^ 16 →
      (∀ e ∈ inner.elements, Fits e.2) → Fits (.nested inner)
  | array {values : List Element} : values.length < 2 ^ 16 → (∀ v ∈ values, Fits v) →
      Fits (.array values)

/-- The bytes of a named value. -/
def writePair (e : UInt16 × Element) : Bytes := bytes16 e.1 ++ e.2.write

theorem writeAll_eq (vs : List Element) : writeAll vs = vs.flatMap write := by
  induction vs with
  | nil => rfl
  | cons v vs ih => rw [writeAll, ih, List.flatMap_cons]

theorem writeNamed_eq (es : List (UInt16 × Element)) : writeNamed es = es.flatMap writePair := by
  induction es with
  | nil => rfl
  | cons e es ih =>
    rw [writeNamed, ih, List.flatMap_cons, writePair, List.append_assoc]

theorem write_ne_nil (e : Element) : e.write ≠ [] := by
  cases e <;> simp [write]

/-- The stored form of a value. -/
def Form (e : Element) (bs : Bytes) : Prop := e.Fits ∧ bs = e.write

end Element

namespace AnnotationInfo

/-- The annotations that can be stored. -/
def Fits (a : AnnotationInfo) : Prop :=
  a.elements.length < 2 ^ 16 ∧ ∀ e ∈ a.elements, e.2.Fits

/-- The stored form of an annotation. -/
def Form (a : AnnotationInfo) (bs : Bytes) : Prop := Fits a ∧ bs = write a

theorem decodes_reader {n : Nat} {value : Reader Element} (h : value.Decodes n Element.Form) :
    (AnnotationOf.reader value).Decodes n Form := by
  -- an element is its name and its value
  have hpair : (do
      let name ← Reader.u16
      let v ← value
      return (name, v) : Reader (UInt16 × Element)).Decodes n
      fun e bs => e.2.Fits ∧ bs = Element.writePair e := by
    refine (decodes_bind (decodes_u16 n) fun name => decodes_map h (Prod.mk name)).congr ?_
    rintro ⟨name, v⟩ bs
    constructor
    · rintro ⟨_, _, _, rfl, ⟨_, ⟨⟩, hv, rfl⟩, rfl⟩
      exact ⟨hv, rfl⟩
    · rintro ⟨hv, rfl⟩
      exact ⟨name, _, _, rfl, ⟨v, rfl, hv, rfl⟩, rfl⟩
  refine (decodes_bind (decodes_u16 n) fun type =>
    decodes_map (decodes_table_of_write hpair) (AnnotationOf.mk type)).congr ?_
  rintro ⟨type, elements⟩ bs
  constructor
  · rintro ⟨_, _, _, rfl, ⟨_, ⟨⟩, hlen, hfits, rfl⟩, rfl⟩
    exact ⟨⟨hlen, hfits⟩, by rw [write, Element.writeNamed_eq]⟩
  · rintro ⟨⟨hlen, hfits⟩, rfl⟩
    exact ⟨type, _, _, rfl, ⟨elements, rfl, hlen, hfits, rfl⟩, by rw [write, Element.writeNamed_eq]⟩

end AnnotationInfo

namespace Element

theorem decodes_reader (depth : Nat) : (reader depth).Decodes depth Form := by
  -- the depth bounds the bytes that are left: the tag of a value takes one of them
  induction depth with
  | zero =>
    intro data hdata e rest
    constructor
    · intro h
      exact (throw_ne_ok h).elim
    · rintro ⟨_, ⟨-, rfl⟩, rfl⟩
      have := write_ne_nil e
      simp_all
  | succ depth ih =>
    refine (decodes_tagged fun tag =>
      decodes_ite (fun _ => decodes_map (decodes_u16 depth) (const tag)) fun _ =>
      decodes_ite (fun _ => decodes_bind (decodes_u16 depth) fun type =>
        decodes_map (decodes_u16 depth) (enumConst type)) fun _ =>
      decodes_ite (fun _ => decodes_map (decodes_u16 depth) classLiteral) fun _ =>
      decodes_ite (fun _ => decodes_map (AnnotationInfo.decodes_reader ih) nested) fun _ =>
      decodes_ite (fun _ => decodes_map (decodes_table_of_write ih) array) fun _ =>
      decodes_throw depth (.unknownElementTag tag)).congr fun e bs => ?_
    constructor
    · rintro ⟨tag, back, h, rfl⟩
      split at h
      · rename_i htag
        obtain ⟨value, rfl, rfl⟩ := h
        exact ⟨.const htag, rfl⟩
      split at h
      · rename_i htag
        obtain ⟨type, _, _, rfl, ⟨name, rfl, rfl⟩, rfl⟩ := h
        exact ⟨.enumConst, by rw [htag, write]⟩
      split at h
      · rename_i htag
        obtain ⟨descriptor, rfl, rfl⟩ := h
        exact ⟨.classLiteral, by rw [htag, write]⟩
      split at h
      · rename_i htag
        obtain ⟨inner, rfl, ⟨hlen, hfits⟩, rfl⟩ := h
        exact ⟨.nested hlen hfits, by rw [htag, write, AnnotationInfo.write]⟩
      split at h
      · rename_i htag
        obtain ⟨values, rfl, hlen, hfits, rfl⟩ := h
        exact ⟨.array hlen hfits, by rw [htag, write, writeAll_eq]⟩
      · exact h.elim
    · rintro ⟨hfits, rfl⟩
      cases hfits with
      | @const tag value htag =>
        exact ⟨tag, _, by rw [if_pos htag]; exact ⟨value, rfl, rfl⟩, rfl⟩
      | @enumConst type name =>
        exact ⟨0x65, _, ⟨type, _, _, rfl, ⟨name, rfl, rfl⟩, rfl⟩, rfl⟩
      | @classLiteral descriptor => exact ⟨0x63, _, ⟨descriptor, rfl, rfl⟩, rfl⟩
      | @nested inner hlen hfits => exact ⟨0x40, _, ⟨inner, rfl, ⟨hlen, hfits⟩, rfl⟩, rfl⟩
      | @array values hlen hfits =>
        exact ⟨0x5b, _, ⟨values, rfl, hlen, hfits, rfl⟩, by rw [write, writeAll_eq]⟩

end Element

namespace AnnotationInfo

/-- **Lists of annotations.**  The bytes of a list are read as that list and no other, and no other
bytes are. -/
theorem readList_eq_ok {data : Bytes} {list : List AnnotationInfo} :
    readList data = .ok list ↔
      list.length < 2 ^ 16 ∧ (∀ a ∈ list, Fits a) ∧ data = writeList list := by
  have hreader := decodes_reader (Element.decodes_reader data.length)
  rw [readList, whole_eq_ok (decodes_table_of_write hreader), writeList]

/-- **Annotations there and back.**  A list of annotations is read back from its bytes if and only
if it can be stored: no list, table of elements or array in it has more than 65535 entries, and
every constant has one of the nine letters.  A list that was read is written to the bytes that it
was read from.  So writing is a bijection from the lists that can be stored onto the bytes that can
be read, and reading is its inverse. -/
theorem inverse_readList_writeList :
    (∀ list, readList (writeList list) = .ok list ↔
      list.length ≤ 65535 ∧ ∀ a ∈ list, Fits a) ∧
      ∀ data list, readList data = .ok list → writeList list = data := by
  constructor
  · intro list
    rw [readList_eq_ok, Nat.lt_succ_iff]
    constructor
    · rintro ⟨hlength, hfits, -⟩
      exact ⟨hlength, hfits⟩
    · rintro ⟨hlength, hfits⟩
      exact ⟨hlength, hfits, rfl⟩
  · intro data list h
    obtain ⟨-, -, hdata⟩ := readList_eq_ok.1 h
    exact hdata.symm

/-- An annotation with a text and an array that holds an annotation, a class literal, an enum
constant and an empty array. -/
theorem inverse_readList_writeList_nested :
    let a : AnnotationInfo :=
      { type := 1
        elements :=
          [(2, .array [.nested ⟨3, [(4, .const 0x49 5)]⟩, .classLiteral 6, .enumConst 7 8,
            .array []]), (9, .const 0x73 10)] }
    let data : Bytes := [0, 1, 0, 1, 0, 2, 0, 2, 0x5b, 0, 4, 0x40, 0, 3, 0, 1, 0, 4, 0x49, 0, 5,
      0x63, 0, 6, 0x65, 0, 7, 0, 8, 0x5b, 0, 0, 0, 9, 0x73, 0, 10]
    readList data = .ok [a] ∧ writeList [a] = data ∧ ∀ b ∈ [a], Fits b := by
  intro a data
  have hread : readList data = .ok [a] := by rfl
  have hwrite : writeList [a] = data := inverse_readList_writeList.2 data [a] hread
  have hfits := (inverse_readList_writeList.1 [a]).1 (by rw [hwrite, hread])
  exact ⟨hread, hwrite, hfits.2⟩

end AnnotationInfo

end ClassWeave
