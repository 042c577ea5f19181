import ClassWeave.ClassFile.Basic
import ClassWeave.Digest.Sha1
import ClassWeave.Error

/-!
# What a unit declares

Scanning reads off a unit which strategy it declares, whether it has been woven already, and what
the strategies have to know about its members.

* `ClassFile.declaredStrategy` : the strategy of the marker that the unit carries; two markers are
  an error; `declared_type`.
* `ClassFile.wovenRecord?` : what the woven marker records, `woven_marker`.
* `ClassFile.fingerprint` : a digest of the instance fields, by which changes since weaving are
  seen; `fingerprint`.
* `ClassFile.scan` : all of it; a woven unit that has changed since is an error; `scan`.
-/

namespace ClassWeave

/-- What the woven marker records.  A marker need not record anything. -/
structure WovenRecord where
  /-- The strategy by which the unit was woven. -/
  strategy? : Option Strategy
  /-- The fingerprint of the field table after weaving. -/
  fingerprint? : Option String
  deriving DecidableEq, Repr

/-- What there is to know about a unit before weaving. -/
structure Scan where
  /-- The internal name. -/
  name : String
  /-- The internal name of the superclass. -/
  superName? : Option String
  /-- The strategy that the markers declare. -/
  declared : Strategy
  /-- The strategy that is to be applied: none once the unit is woven. -/
  effective : Strategy
  /-- What the woven marker records, if there is one. -/
  woven? : Option WovenRecord
  /-- The instance fields in the order of their declaration. -/
  fields : List Field
  /-- Whether the unit has a constructor that takes nothing. -/
  hasDefaultConstructor : Bool
  /-- Whether the unit has a `reset` that takes and returns nothing. -/
  hasReset : Bool
  deriving DecidableEq, Repr

namespace Scan

/-- The element of the woven marker that names the strategy. -/
def strategyElement : String := "strategy"

/-- The element of the woven marker that holds the fingerprint. -/
def fingerprintElement : String := "fingerprint"

/-- The name of constructors. -/
def constructorName : String := "<init>"

/-- The name of the method that resets a pooled component. -/
def resetName : String := "reset"

/-- The descriptor of methods that take and return nothing. -/
def plainDescriptor : String := "()V"

end Scan

namespace ClassFile

variable (u : ClassFile)

/-! ### Fingerprints -/

/-- The line of the field `name` of type `descriptor` in the text that the fingerprint condenses. -/
def fieldLine (name descriptor : String) : Bytes :=
  (name ++ ":" ++ descriptor ++ "\n").toUTF8.data.toList

/-- The names and descriptors of the instance fields, in the order of their declaration. -/
def instanceFields : Except Malformation (List (String × String)) :=
  (u.fields.filter Member.isInstance).mapM fun f => do
    let name ← f.nameIn u.pool
    let descriptor ← f.descriptorIn u.pool
    return (name, descriptor)

/-- The digest of the names and descriptors of the instance fields, a line for each. -/
def fingerprint : Except Malformation String := do
  return Sha1.hexDigest ((← u.instanceFields).flatMap fun (name, descriptor) =>
    fieldLine name descriptor)

/-! ### Markers -/

/-- Whether the class carries the marker of the strategy `s`. -/
def hasMarker (s : Strategy) : Except Malformation Bool := do
  match s.marker? with
  | some descriptor => return (← u.findAnnotation? descriptor).isSome
  | none => return false

/-- The strategy that the markers of a class declare. -/
def declaredStrategy : Except Error Strategy := do
  let pooled ← u.hasMarker .pooled
  let packed ← u.hasMarker .packed
  if pooled && packed then throw (.ambiguous Strategy.pooled.label Strategy.packed.label)
  return if pooled then .pooled else if packed then .packed else .none

/-- The strategy whose name a marker records as `text`. -/
def recordedStrategy (text : String) : Except Malformation Strategy :=
  match Strategy.ofName? text with
  | some s => .ok s
  | none => .error (.unknownStrategy text)

/-- What the woven marker of a class records, if it carries one. -/
def wovenRecord? : Except Malformation (Option WovenRecord) := do
  match ← u.findAnnotation? wovenMarker with
  | none => return none
  | some a =>
    let strategy? ← match ← AnnotationInfo.stringElement? u.pool Scan.strategyElement a with
      | some text => some <$> recordedStrategy text
      | none => pure none
    let fingerprint? ← AnnotationInfo.stringElement? u.pool Scan.fingerprintElement a
    return some { strategy?, fingerprint? }

/-- Checks that a woven unit, which is called `name` and declares the strategy `declared`, is still
what its marker records. -/
def checkRecord (name : String) (declared : Strategy) (r : WovenRecord) :
    Except Error Unit := do
  if let some strategy := r.strategy? then
    if strategy ≠ declared then throw (.stale name (.strategy declared strategy))
  if let some recorded := r.fingerprint? then
    let current ← u.fingerprint
    if recorded ≠ current then throw (.stale name (.fieldTable recorded current))

/-- Scans a unit. -/
def scan : Except Error Scan := do
  let name ← u.name
  let declared ← u.declaredStrategy
  let woven? ← u.wovenRecord?
  if let some r := woven? then u.checkRecord name declared r
  let fields ← u.fieldsView
  let superName? ← u.superName?
  let constructor? ← u.findMethod? Scan.constructorName Scan.plainDescriptor
  let reset? ← u.findMethod? Scan.resetName Scan.plainDescriptor
  return {
    name, superName?, declared, woven?
    effective := if woven?.isSome then .none else declared
    fields := fields.filter (!·.isStatic)
    hasDefaultConstructor := constructor?.isSome
    hasReset := reset?.isSome }

end ClassFile

end ClassWeave
