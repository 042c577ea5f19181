import ClassWeave.ClassFile.Codec
import ClassWeave.Weaving.Packed
import ClassWeave.Weaving.Pooled
import ClassWeave.Weaving.Settings
import ClassWeave.Weaving.Validation

/-!
# Weaving one unit

* `ClassFile.transform` : applies a strategy, attaches the woven marker and writes the bytes;
  `transform`.
* `ClassFile.weave` : scans, validates and transforms a unit by the strategy that it declares;
  nothing when it declares none or has been woven already; `weave`.
* `ClassFile.preview` : what weaving would do, without doing it; `preview`.
-/

namespace ClassWeave

/-- A woven unit. -/
structure Woven where
  /-- The internal name. -/
  name : String
  /-- The strategy that was applied. -/
  strategy : Strategy
  /-- The unit after weaving. -/
  unit : ClassFile
  /-- Its bytes. -/
  bytes : Bytes
  /-- The layout of a packed unit. -/
  layout? : Option PackedLayout
  deriving DecidableEq, Repr

/-- Applies a strategy to a unit, which knows of other types what `index` tells; yields the layout
of a packed one. -/
def Strategy.apply (index : TypeIndex) : Strategy → Edit (Option PackedLayout)
  | .none => return Option.none
  | .pooled => do
    Pooled.apply
    return Option.none
  | .packed => some <$> Packed.apply index

/-- Attaches the marker that records the strategy `s` and the fingerprint of the fields as they
are. -/
def Edit.markWoven (s : Strategy) : Edit Unit := do
  let fingerprint ← ask ClassFile.fingerprint
  let marker ← interning (AnnotationInfo.withStrings wovenMarker
    [(Scan.strategyElement, s.name), (Scan.fingerprintElement, fingerprint)])
  annotate marker

/-- All changes that the strategy `s` makes to a unit. -/
def Edit.weaveBy (index : TypeIndex) (s : Strategy) : Edit (Option PackedLayout) := do
  let layout? ← s.apply index
  if s ≠ .none then markWoven s
  return layout?

namespace ClassFile

variable (u : ClassFile)

/-- Checks that the superclass is known: from outside, or as a type of `index`. -/
def checkSuperclass (index : TypeIndex) (settings : Settings) : Except Error Unit := do
  if let some superName := ← u.superName? then
    if !settings.isExternal superName && !index.contains superName then
      throw (.unresolved superName)

/-- Applies the strategy `s` to the unit, whatever it declares. -/
def transform (s : Strategy) (index : TypeIndex) (settings : Settings) : Except Error Woven := do
  let name ← u.name
  u.checkSuperclass index settings
  match (Edit.weaveBy index s).run u with
  | (.error e, _) => throw e
  | (.ok layout?, unit) =>
    let bytes ← unit.write
    return { name, strategy := s, unit, bytes, layout? }

/-- Weaves the unit by the strategy that it declares. -/
def weave (index : TypeIndex) (settings : Settings) : Except Error (Option Woven) := do
  let scan ← u.scan
  if scan.effective = .none then return none
  u.validate scan.effective index
  some <$> u.transform scan.effective index settings

end ClassFile

/-- What weaving a unit would do. -/
structure Preview where
  /-- The internal name. -/
  name : String
  /-- The internal name of the superclass. -/
  superName? : Option String
  /-- The strategy that the markers declare. -/
  declared : Strategy
  /-- The strategy that would be applied. -/
  effective : Strategy
  /-- What the woven marker records, if there is one. -/
  woven? : Option WovenRecord
  /-- The instance fields; those of a packed unit with where they would lie. -/
  fields : List Field
  /-- The layout of a unit that would be packed. -/
  layout? : Option PackedLayout
  /-- Why the strategy cannot be applied. -/
  problem? : Option Error
  deriving DecidableEq, Repr

/-- What weaving the unit `u` would do; problems of the strategy are part of the answer. -/
def ClassFile.preview (u : ClassFile) (index : TypeIndex) : Except Error Preview := do
  let scan ← u.scan
  let problem? := match u.validate scan.effective index with
    | .ok _ => none
    | .error e => some e
  let layout? :=
    if scan.effective = .packed then some (PackedLayout.ofFields scan.fields) else none
  let fields := match layout? with
    | some layout =>
      scan.fields.map fun f => { f with offset? := (layout.field? f.name).map (·.offset) }
    | none => scan.fields
  return { name := scan.name, superName? := scan.superName?, declared := scan.declared,
           effective := scan.effective, woven? := scan.woven?, fields, layout?, problem? }

end ClassWeave
