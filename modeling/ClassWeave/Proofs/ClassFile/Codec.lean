import ClassWeave.ClassFile.Codec
import ClassWeave.Proofs.Attribute
import ClassWeave.Proofs.Pool.Codec

/-!
# The stored forms of a class file

* `Member.Fits`, `ClassFile.AttributesFit` : all attributes of a member, or of a class file with its
  members, can be stored.
* `ClassFile.Resolved` : the names that reading asks for lead somewhere.
* `ClassFile.write_eq_ok`, `ClassFile.read_eq_ok` : what is written, and what is read.  Both are
  the bytes in front of the pool, those of the pool and those behind it; they differ in the pool
  only, where reading takes every form of a text.
* `ClassFile.prefixFree_of_read` : no bytes that are read are the front of others that are.
-/

namespace ClassWeave

open Reader

namespace Member

/-- Every attribute of a field or method can be stored. -/
def Fits (pool : ConstantPool) (m : Member) : Prop := ∀ a ∈ m.attributes, a.Fits pool

/-- The stored form of a field or method. -/
def Form (pool : ConstantPool) (m : Member) (bs : Bytes) : Prop := m.Fits pool ∧ m.write = .ok bs

theorem write_eq_ok {m : Member} {bs : Bytes} : m.write = .ok bs ↔
    ∃ table, Attribute.writeTable m.attributes = .ok table ∧
      bs = bytes16 m.access ++ (bytes16 m.name ++ (bytes16 m.descriptor ++ table)) := by
  rw [write, except_bind_eq_ok]
  simp only [except_pure_eq_ok]

theorem decodes_reader (pool : ConstantPool) (depth : Nat) :
    (reader pool depth).Decodes depth (Form pool) := by
  refine (decodes_bind (decodes_u16 depth) fun access =>
    decodes_bind (decodes_u16 depth) fun name =>
    decodes_bind (decodes_u16 depth) fun descriptor =>
    decodes_map (Attribute.decodes_tableReader pool depth)
      (Member.mk access name descriptor)).congr ?_
  rintro ⟨access, name, descriptor, attributes⟩ bs
  simp only [Form, write_eq_ok]
  constructor
  · rintro ⟨_, _, _, rfl, ⟨_, _, _, rfl, ⟨_, _, table, rfl, ⟨_, ⟨⟩, hfits, htable⟩, rfl⟩, rfl⟩,
      rfl⟩
    exact ⟨hfits, table, htable, rfl⟩
  · rintro ⟨hfits, table, htable, rfl⟩
    exact ⟨_, _, _, rfl, ⟨_, _, _, rfl, ⟨_, _, table, rfl, ⟨_, rfl, hfits, htable⟩, rfl⟩, rfl⟩, rfl⟩

end Member

namespace ClassFile

theorem writeMembers_cons_eq_ok {m : Member} {ms : List Member} {bs : Bytes} :
    writeMembers (m :: ms) = .ok bs ↔
      ∃ front, m.write = .ok front ∧ ∃ back, writeMembers ms = .ok back ∧ bs = front ++ back := by
  simp only [writeMembers, except_bind_eq_ok, except_pure_eq_ok]

theorem writeCount_eq_ok {table : UnitTable} {count : Nat} {bs : Bytes} :
    writeCount table count = .ok bs ↔ count < 2 ^ 16 ∧ bs = bytesOfCount count := by
  unfold writeCount
  split
  · rename_i h
    constructor
    · rintro ⟨⟩
      exact ⟨h, rfl⟩
    · rintro ⟨-, rfl⟩
      rfl
  · rename_i h
    simp only [reduceCtorEq, h, false_and]

variable {versions : VersionRange} {u : ClassFile} {b : Bytes}

/-- The bytes of a class file in front of its pool. -/
def front (u : ClassFile) : Bytes := bytes32 magic ++ (bytes16 u.minor ++ bytes16 u.major)

/-- The bytes of a class file behind its pool: the tables can be stored, and lie in a row. -/
def BackForm (u : ClassFile) (bs : Bytes) : Prop :=
  (u.interfaces.length < 2 ^ 16 ∧ u.fields.length < 2 ^ 16 ∧ u.methods.length < 2 ^ 16) ∧
    ∃ fields methods attributes, writeMembers u.fields = .ok fields ∧
      writeMembers u.methods = .ok methods ∧ Attribute.writeTable u.attributes = .ok attributes ∧
      bs = bytes16 u.access ++ (bytes16 u.thisClass ++ (bytes16 u.superClass ++
        (bytesOfCount u.interfaces.length ++ (u.interfaces.flatMap bytes16 ++
        (bytesOfCount u.fields.length ++ (fields ++ (bytesOfCount u.methods.length ++
        (methods ++ attributes))))))))

theorem write_eq_ok :
    u.write = .ok b ↔ ∃ back, u.BackForm back ∧ b = u.front ++ (u.pool.write ++ back) := by
  simp only [write, except_bind_eq_ok, except_pure_eq_ok, writeCount_eq_ok, BackForm]
  constructor
  · rintro ⟨_, ⟨hi, rfl⟩, _, ⟨hf, rfl⟩, fields, hfields, _, ⟨hm, rfl⟩, methods, hmethods,
      attributes, hattributes, rfl⟩
    exact ⟨_, ⟨⟨hi, hf, hm⟩, fields, methods, attributes, hfields, hmethods, hattributes, rfl⟩,
      by simp [front]⟩
  · rintro ⟨_, ⟨⟨hi, hf, hm⟩, fields, methods, attributes, hfields, hmethods, hattributes, rfl⟩,
      rfl⟩
    exact ⟨_, ⟨hi, rfl⟩, _, ⟨hf, rfl⟩, fields, hfields, _, ⟨hm, rfl⟩, methods, hmethods,
      attributes, hattributes, by simp [front]⟩

/-- Every attribute of a class file, of its fields and of its methods can be stored. -/
structure AttributesFit (u : ClassFile) : Prop where
  /-- Those of the fields. -/
  fields : ∀ f ∈ u.fields, f.Fits u.pool
  /-- Those of the methods. -/
  methods : ∀ m ∈ u.methods, m.Fits u.pool
  /-- Those of the class. -/
  own : ∀ a ∈ u.attributes, a.Fits u.pool

theorem decodes_interfaces (n : Nat) : (table u16).Decodes n fun is bs =>
    is.length < 2 ^ 16 ∧ bs = bytesOfCount is.length ++ is.flatMap bytes16 := by
  have hitem : u16.Decodes n fun k bs => True ∧ bs = bytes16 k :=
    (decodes_u16 n).congr fun k bs => by simp
  refine (decodes_table_of_write hitem).congr fun is bs => ?_
  simp

theorem decodes_members (pool : ConstantPool) (n : Nat) :
    (table (Member.reader pool n)).Decodes n fun ms bs => (∀ m ∈ ms, m.Fits pool) ∧
      ms.length < 2 ^ 16 ∧ ∃ rows, writeMembers ms = .ok rows ∧
        bs = bytesOfCount ms.length ++ rows :=
  (decodes_table (Member.decodes_reader pool n)).congr fun _ _ =>
    table_iff_writeAll (fun _ _ _ => writeMembers_cons_eq_ok) rfl

/-- Reads what stands behind the pool. -/
def backReader (minor major : UInt16) (pool : ConstantPool) (depth : Nat) : Reader ClassFile := do
  let access ← Reader.u16
  let thisClass ← Reader.u16
  let superClass ← Reader.u16
  let interfaces ← Reader.table Reader.u16
  let fields ← Reader.table (Member.reader pool depth)
  let methods ← Reader.table (Member.reader pool depth)
  let attributes ← Attribute.tableReader pool depth
  return { minor, major, pool, access, thisClass, superClass, interfaces, fields, methods,
           attributes }

theorem decodes_backReader (minor major : UInt16) (pool : ConstantPool) (n : Nat) :
    (backReader minor major pool n).Decodes n fun u bs =>
      (u.minor = minor ∧ u.major = major ∧ u.pool = pool) ∧ u.AttributesFit ∧ u.BackForm bs := by
  refine (decodes_bind (decodes_u16 n) fun access => decodes_bind (decodes_u16 n) fun thisClass =>
    decodes_bind (decodes_u16 n) fun superClass =>
    decodes_bind (decodes_interfaces n) fun interfaces =>
    decodes_bind (decodes_members pool n) fun fields =>
    decodes_bind (decodes_members pool n) fun methods =>
    decodes_map (Attribute.decodes_tableReader pool n)
      (mk minor major pool access thisClass superClass interfaces fields methods)).congr ?_
  intro u bs
  constructor
  · rintro ⟨access, _, _, rfl, ⟨thisClass, _, _, rfl, ⟨superClass, _, _, rfl, ⟨interfaces, _, _,
      ⟨hi, rfl⟩, ⟨fields, _, _, ⟨hff, hf, frows, hfrows, rfl⟩, ⟨methods, _, _,
      ⟨hmf, hm, mrows, hmrows, rfl⟩, ⟨attributes, rfl, haf, hattributes⟩, rfl⟩, rfl⟩, rfl⟩, rfl⟩,
      rfl⟩, rfl⟩
    exact ⟨⟨rfl, rfl, rfl⟩, ⟨hff, hmf, haf⟩, ⟨hi, hf, hm⟩, frows, mrows, _, hfrows, hmrows,
      hattributes, by simp⟩
  · rintro ⟨⟨rfl, rfl, rfl⟩, ⟨hff, hmf, haf⟩, ⟨hi, hf, hm⟩, frows, mrows, arows, hfrows, hmrows,
      hattributes, rfl⟩
    refine ⟨_, _, _, rfl, ⟨_, _, _, rfl, ⟨_, _, _, rfl, ⟨_, _, _, ⟨hi, rfl⟩, ⟨_, _, _,
      ⟨hff, hf, frows, hfrows, rfl⟩, ⟨_, _, arows, ⟨hmf, hm, mrows, hmrows, rfl⟩,
      ⟨u.attributes, rfl, haf, hattributes⟩, rfl⟩, rfl⟩, rfl⟩, rfl⟩, rfl⟩, ?_⟩
    simp

theorem decodes_reader (versions : VersionRange) (n : Nat) :
    (reader versions n).Decodes n fun u bs => versions.accepts u.major = true ∧ u.AttributesFit ∧
      ∃ pool back, u.pool.Form pool ∧ u.BackForm back ∧ bs = u.front ++ (pool ++ back) := by
  refine (decodes_bind (decodes_u32 n) fun found =>
    decodes_ite (fun _ => decodes_throw n (.wrongMagic found)) fun _ =>
    decodes_bind (decodes_u16 n) fun minor => decodes_bind (decodes_u16 n) fun major =>
    decodes_ite (fun _ => decodes_throw n
      (.unsupportedVersion major minor versions.least versions.greatest)) fun _ =>
    decodes_bind (ConstantPool.decodes_reader n) fun pool =>
    decodes_backReader minor major pool n).congr ?_
  intro u bs
  constructor
  · rintro ⟨found, _, _, rfl, h, rfl⟩
    split at h
    · exact h.elim
    rename_i hmagic
    obtain ⟨minor, _, _, rfl, ⟨major, _, _, rfl, h, rfl⟩, rfl⟩ := h
    split at h
    · exact h.elim
    rename_i hmajor
    obtain ⟨pool, poolBytes, back, hpool, ⟨⟨rfl, rfl, rfl⟩, hfits, hback⟩, rfl⟩ := h
    obtain rfl : found = magic := Classical.not_not.1 hmagic
    exact ⟨by simpa using hmajor, hfits, poolBytes, back, hpool, hback, by simp [front]⟩
  · rintro ⟨hmajor, hfits, poolBytes, back, hpool, hback, rfl⟩
    have hversion : ¬ (!versions.accepts u.major) = true := by simp [hmajor]
    refine ⟨magic, _, bytes16 u.minor ++ (bytes16 u.major ++ (poolBytes ++ back)), rfl, ?_,
      by simp [front]⟩
    rw [if_neg (by simp)]
    refine ⟨u.minor, _, bytes16 u.major ++ (poolBytes ++ back), rfl, ?_, rfl⟩
    refine ⟨u.major, _, poolBytes ++ back, rfl, ?_, rfl⟩
    rw [if_neg hversion]
    exact ⟨u.pool, poolBytes, back, hpool, ⟨⟨rfl, rfl, rfl⟩, hfits, hback⟩, rfl⟩

/-! ### Names that lead somewhere -/

/-- The names that reading asks for lead somewhere: those of the class and its superclass, and the
names and descriptors of the members. -/
structure Resolved (u : ClassFile) : Prop where
  /-- The class has a name. -/
  thisClass : ∃ name, u.pool.className u.thisClass = .ok name
  /-- So has the superclass, if there is one. -/
  superClass : u.superClass ≠ 0 → ∃ name, u.pool.className u.superClass = .ok name
  /-- Fields have a name, and a descriptor that denotes a kind of value. -/
  fields : ∀ f ∈ u.fields, (∃ name, u.pool.utf8 f.name = .ok name) ∧
    ∃ descriptor kind, u.pool.utf8 f.descriptor = .ok descriptor ∧
      ValueKind.parse descriptor = .ok kind
  /-- Methods have a name and a descriptor. -/
  methods : ∀ m ∈ u.methods, (∃ name, u.pool.utf8 m.name = .ok name) ∧
    ∃ descriptor, u.pool.utf8 m.descriptor = .ok descriptor

theorem checkField_eq_ok {pool : ConstantPool} {f : Member} : checkField pool f = .ok () ↔
    (∃ name, pool.utf8 f.name = .ok name) ∧ ∃ descriptor kind,
      pool.utf8 f.descriptor = .ok descriptor ∧ ValueKind.parse descriptor = .ok kind := by
  simp only [checkField, except_bind_eq_ok, except_pure_eq_ok, Member.nameIn, Member.descriptorIn]
  constructor
  · rintro ⟨descriptor, hd, kind, hk, name, hn, -⟩
    exact ⟨⟨name, hn⟩, descriptor, kind, hd, hk⟩
  · rintro ⟨⟨name, hn⟩, descriptor, kind, hd, hk⟩
    exact ⟨descriptor, hd, kind, hk, name, hn, trivial⟩

theorem checkMethod_eq_ok {pool : ConstantPool} {m : Member} : checkMethod pool m = .ok () ↔
    (∃ name, pool.utf8 m.name = .ok name) ∧ ∃ descriptor,
      pool.utf8 m.descriptor = .ok descriptor := by
  simp only [checkMethod, except_bind_eq_ok, except_pure_eq_ok, Member.nameIn, Member.descriptorIn]
  constructor
  · rintro ⟨name, hn, descriptor, hd, -⟩
    exact ⟨⟨name, hn⟩, descriptor, hd⟩
  · rintro ⟨⟨name, hn⟩, descriptor, hd⟩
    exact ⟨name, hn, descriptor, hd, trivial⟩

theorem superName?_eq_ok {u : ClassFile} : (∃ name?, u.superName? = .ok name?) ↔
    (u.superClass ≠ 0 → ∃ name, u.pool.className u.superClass = .ok name) := by
  unfold superName?
  split
  · rename_i h
    simp [h]
  · rename_i h
    simp only [except_map_eq_ok]
    constructor
    · rintro ⟨_, name, hname, rfl⟩ -
      exact ⟨name, hname⟩
    · intro hname
      obtain ⟨name, hname⟩ := hname h
      exact ⟨_, name, hname, rfl⟩

theorem checkNames_eq_ok {u : ClassFile} : u.checkNames = .ok () ↔ u.Resolved := by
  simp only [checkNames, except_bind_eq_ok, except_forM_eq_ok, checkField_eq_ok,
    checkMethod_eq_ok]
  constructor
  · rintro ⟨name, hname, name?, hsuper, _, hfields, hmethods⟩
    exact ⟨⟨name, hname⟩, superName?_eq_ok.1 ⟨name?, hsuper⟩, hfields, hmethods⟩
  · intro h
    obtain ⟨name, hname⟩ := h.thisClass
    obtain ⟨name?, hsuper⟩ := superName?_eq_ok.2 h.superClass
    exact ⟨name, hname, name?, hsuper, (), h.fields, h.methods⟩

/-- **What is read.**  The bytes of a class file are those in front of its pool, a stored form of
the pool, and those behind it. -/
theorem read_eq_ok : read versions b = .ok u ↔
    versions.accepts u.major = true ∧ u.AttributesFit ∧ u.Resolved ∧
      ∃ pool back, u.pool.Form pool ∧ u.BackForm back ∧ b = u.front ++ (pool ++ back) := by
  unfold read
  split
  · -- no bytes are no class file
    rename_i hempty
    obtain rfl : b = [] := by simpa using hempty
    constructor
    · intro h
      exact (except_throw_ne_ok h).elim
    · rintro ⟨-, -, -, pool, back, -, -, h⟩
      simp [front, bytes32, BigEndian.encode] at h
  · rw [except_bind_eq_ok]
    simp only [whole_eq_ok (decodes_reader versions b.length), except_bind_eq_ok, except_pure_eq_ok]
    constructor
    · rintro ⟨u', ⟨hversion, hfits, hbytes⟩, ⟨⟩, hnames, rfl⟩
      exact ⟨hversion, hfits, checkNames_eq_ok.1 hnames, hbytes⟩
    · rintro ⟨hversion, hfits, hnames, hbytes⟩
      exact ⟨u, ⟨hversion, hfits, hbytes⟩, (), checkNames_eq_ok.2 hnames, rfl⟩

/-- A class file that is read from what it is written to is read from something. -/
theorem exists_read (h : (u.write >>= fun b => read versions b) = .ok u) :
    ∃ b, read versions b = .ok u := by
  obtain ⟨b, -, hb⟩ := except_bind_eq_ok.1 h
  exact ⟨b, hb⟩

/-! ### No class file is the front of another -/

variable {versions' : VersionRange} {u' : ClassFile} {b' x : Bytes}

/-- Which versions are accepted does not change what is read. -/
theorem read_of_accepts (h : read versions b = .ok u)
    (hversion : versions'.accepts u.major = true) : read versions' b = .ok u := by
  obtain ⟨-, hread⟩ := read_eq_ok.1 h
  exact read_eq_ok.2 ⟨hversion, hread⟩

/-- What follows a class file is left over. -/
theorem reader_append (h : read versions b = .ok u) (x : Bytes) :
    reader versions (b ++ x).length (b ++ x) = .ok (u, x) := by
  obtain ⟨hversion, hfits, -, hbytes⟩ := read_eq_ok.1 h
  exact (decodes_reader versions _ _ (Nat.le_refl _) u x).2 ⟨b, ⟨hversion, hfits, hbytes⟩, rfl⟩

/-- Bytes that follow a class file are told, and fail it. -/
theorem read_append (h : read versions b = .ok u) (hx : x ≠ []) :
    read versions (b ++ x) = .error (.trailingBytes x.length) := by
  obtain ⟨c, cs, rfl⟩ := List.exists_cons_of_ne_nil hx
  unfold read whole
  rw [if_neg (by simp), reader_append h]
  rfl

theorem eq_of_isPrefix (h : read versions b = .ok u) (h' : read versions' b' = .ok u')
    (hstart : b <+: b') : b' = b := by
  obtain ⟨x, rfl⟩ := hstart
  -- both are read when all versions are accepted
  have hall (major : UInt16) : VersionRange.accepts ⟨0, 0xffff⟩ major = true := by
    have hle : major.toNat ≤ 0xffff := Nat.le_of_lt_succ major.toNat_lt
    simpa [VersionRange.accepts, UInt16.le_iff_toNat_le] using hle
  have hshort := read_of_accepts h (hall u.major)
  have hlong := read_of_accepts h' (hall u'.major)
  by_contra hne
  rw [read_append hshort (by simpa using hne)] at hlong
  cases hlong

/-- **No class file is the front of another.**  Whatever follows the bytes of a class file, reading
fails with the number of bytes that are left over; and of all bytes that are a front of them or have
them as a front, only they themselves are read, whichever versions are accepted. -/
theorem prefixFree_of_read (h : read versions b = .ok u) :
    (∀ x, x ≠ [] → read versions (b ++ x) = .error (.trailingBytes x.length)) ∧
      ∀ versions' b', b' <+: b ∨ b <+: b' → b' ≠ b → ∃ cause, read versions' b' = .error cause := by
  refine ⟨fun x => read_append h, fun versions' b' hstart hne => ?_⟩
  cases h' : read versions' b' with
  | error cause => exact ⟨cause, rfl⟩
  | ok u' =>
    rcases hstart with hstart | hstart
    · exact absurd (eq_of_isPrefix h' h hstart).symm hne
    · exact absurd (eq_of_isPrefix h h' hstart) hne

/-- A class with a constant of two slots, under a name outside of the ASCII range, and with a method
body that has another one inside of it, and in that one an annotation with nested values. -/
def nestedBodies : ClassFile :=
  { minor := 0, major := 52,
    pool := ⟨#[none, some (.utf8 "A"), some (.classInfo 1), some (.utf8 "java/lang/Object"),
      some (.classInfo 3), some (.utf8 "größe"), some (.utf8 "J"), some (.utf8 "ConstantValue"),
      some (.long 7), none, some (.utf8 "m"), some (.utf8 "()V"), some (.utf8 "Code"),
      some (.utf8 "RuntimeInvisibleAnnotations"), some (.utf8 "LB;")]⟩,
    access := 0x21, thisClass := 2, superClass := 4, interfaces := [4],
    fields := [{ access := 0x18, name := 5, descriptor := 6, attributes := [.raw 7 [0, 8]] }],
    methods := [{ access := 1, name := 10, descriptor := 11, attributes := [.code 12
      ⟨0, 1, [177], [], [.code 12 ⟨0, 0, [0], [], [.annotations 13
        [⟨14, [(10, .array [.nested ⟨14, []⟩, .const 0x4A 8])]⟩]]⟩]⟩] }],
    attributes := [.annotations 13 [⟨14, []⟩]] }

/-- The bytes of that class are read, but not with one more, and none of them can be spared at the
end. -/
theorem prefixFree_of_read_nestedBodies : ∃ b, read {} b = .ok nestedBodies ∧
    read {} (b ++ [0]) = .error (.trailingBytes 1) ∧
      ∀ k < b.length, ∃ cause, read {} (b.take k) = .error cause := by
  obtain ⟨b, hread⟩ : ∃ b, read {} b = .ok nestedBodies := exists_read (by decide +kernel)
  obtain ⟨hmore, hother⟩ := prefixFree_of_read hread
  refine ⟨b, hread, hmore [0] (by decide), fun k hk => ?_⟩
  refine hother {} (b.take k) (.inl (List.take_prefix k b)) fun heq => ?_
  have hlength := congrArg List.length heq
  rw [List.length_take_of_le (Nat.le_of_lt hk)] at hlength
  omega

end ClassFile

end ClassWeave
