import ClassWeave.ClassFile.Basic
import ClassWeave.Pool.Codec

/-!
# The bytes of a class file

The order of the tables is that of JVMS 4.1.

* `ClassFile.read` : the model of the bytes, which have to be one class file and nothing else;
  `read_versioned`, and `read` with the versions of `VersionRange` by default.
* `ClassFile.write` : the bytes of a model, which fails when a table is too long; `to_bytes`.
* `ClassFile.checkNames` : all names that later work relies on lead somewhere; reading asks it of
  every model.
-/

namespace ClassWeave

/-- The major versions that a reader accepts. -/
structure VersionRange where
  /-- The least. -/
  least : UInt16 := 45
  /-- The greatest. -/
  greatest : UInt16 := 69
  deriving DecidableEq, Repr

/-- Whether the `major` version lies in the range. -/
def VersionRange.accepts (r : VersionRange) (major : UInt16) : Bool :=
  r.least ≤ major && major ≤ r.greatest

namespace ClassFile

/-- The word that every class file starts with. -/
def magic : UInt32 := 0xCAFEBABE

/-- Reads a class file of one of the `versions`; see `Attribute.reader` for `depth`. -/
def reader (versions : VersionRange) (depth : Nat) : Reader ClassFile := do
  let found ← Reader.u32
  if found ≠ magic then throw (.wrongMagic found)
  let minor ← Reader.u16
  let major ← Reader.u16
  if !versions.accepts major then
    throw (.unsupportedVersion major minor versions.least versions.greatest)
  let pool ← ConstantPool.reader
  let access ← Reader.u16
  let thisClass ← Reader.u16
  let superClass ← Reader.u16
  let interfaces ← Reader.table Reader.u16
  let fields ← Reader.table (Member.reader pool depth)
  let methods ← Reader.table (Member.reader pool depth)
  let attributes ← Attribute.tableReader pool depth
  return { minor, major, pool, access, thisClass, superClass, interfaces, fields, methods,
           attributes }

/-- The name and the descriptor of the field `m` lead somewhere, and the latter denotes a kind of
value. -/
def checkField (pool : ConstantPool) (m : Member) : Except Malformation Unit := do
  let _ ← ValueKind.parse (← m.descriptorIn pool)
  let _ ← m.nameIn pool

/-- The name and the descriptor of the method `m` lead somewhere. -/
def checkMethod (pool : ConstantPool) (m : Member) : Except Malformation Unit := do
  let _ ← m.nameIn pool
  let _ ← m.descriptorIn pool

/-- The names of the class, its superclass and its members lead somewhere. -/
def checkNames (u : ClassFile) : Except Malformation Unit := do
  let _ ← u.name
  let _ ← u.superName?
  u.fields.forM (checkField u.pool)
  u.methods.forM (checkMethod u.pool)

/-- The class file that `data` is, if its version is one of `versions`.  The bytes are more than the
levels of what nests in them, so their number is depth enough. -/
def read (versions : VersionRange) (data : Bytes) : Except Malformation ClassFile := do
  if data.isEmpty then throw .emptyUnit
  let u ← Reader.whole (reader versions data.length) (fun rest => .trailingBytes rest.length) data
  u.checkNames
  return u

/-- The `count` in front of a top-level `table`, which the failure names. -/
def writeCount (table : UnitTable) (count : Nat) : Except Malformation Bytes :=
  if count < 2 ^ 16 then .ok (bytesOfCount count) else .error (.tooManyEntries table count)

/-- The bytes of members in a row. -/
def writeMembers : List Member → Except Malformation Bytes
  | [] => .ok []
  | m :: ms => do
    let first ← m.write
    let others ← writeMembers ms
    return first ++ others

/-- The bytes of a class file. -/
def write (u : ClassFile) : Except Malformation Bytes := do
  let interfaceCount ← writeCount .interfaces u.interfaces.length
  let fieldCount ← writeCount .fields u.fields.length
  let fields ← writeMembers u.fields
  let methodCount ← writeCount .methods u.methods.length
  let methods ← writeMembers u.methods
  let attributes ← Attribute.writeTable u.attributes
  return bytes32 magic ++ (bytes16 u.minor ++ (bytes16 u.major ++ (u.pool.write ++
    (bytes16 u.access ++ (bytes16 u.thisClass ++ (bytes16 u.superClass ++
    (interfaceCount ++ (u.interfaces.flatMap bytes16 ++ (fieldCount ++ (fields ++
    (methodCount ++ (methods ++ attributes))))))))))))

end ClassFile

end ClassWeave
