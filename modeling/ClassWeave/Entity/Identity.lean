import ClassWeave.FiniteMap
import ClassWeave.Text.Hex

/-!
# Lasting identifiers of entities

The numbers of entities are used again and again, so whatever outlives a run refers to entities by
identifiers that are unique for all time.  At any moment an identifier belongs to at most one entity
and an entity has at most one.

`Identities` models `Mappings`, the two maps behind the lock of `IdentityManager`; every operation
holds the lock from its beginning to its end, so it is a function from one pair of maps to the next.

* `Identities.bind` : gives an identifier to an entity, whatever either of them had before; `bind`
  and `reassign`.
* `Identities.release` : forgets an entity, but not an identifier that has gone to another;
  `release`.
* `Identities.assign` : binds an identifier that is given or, if none is, a new one; `assign`.
* `Identities.lookup`, `Identities.identifierOf` : both directions, `lookup` and `uuid_of`.
-/

namespace ClassWeave

/-- An entity of the running world. -/
structure Entity where
  /-- Its number. -/
  id : UInt32
  deriving DecidableEq, Repr

/-- How diagnostics show an entity. -/
def Entity.text (e : Entity) : String := s!"Entity[{e.id.toNat}]"

/-- A universally unique identifier of 128 bits. -/
structure Uuid where
  /-- The number that its digits write. -/
  bits : BitVec 128
  deriving DecidableEq, Repr

namespace Uuid

/-- The identifier in lowercase digits, in groups of 8, 4, 4, 4 and 12. -/
def text (u : Uuid) : String :=
  let digits := (Hex.ofNat 32 u.bits.toNat).toList
  let group (start count : Nat) := String.ofList ((digits.drop start).take count)
  String.intercalate "-" [group 0 8, group 8 4, group 12 4, group 16 4, group 20 12]

/-- The value of the hexadecimal digit `c` of either case. -/
def digitValue? (c : Char) : Option Nat :=
  if '0' ≤ c ∧ c ≤ '9' then some (c.toNat - '0'.toNat)
  else if 'a' ≤ c ∧ c ≤ 'f' then some (c.toNat - 'a'.toNat + 10)
  else if 'A' ≤ c ∧ c ≤ 'F' then some (c.toNat - 'A'.toNat + 10)
  else none

/-- The identifier that `text` writes in groups of 8, 4, 4, 4 and 12 digits of either case. -/
def ofText? (text : String) : Option Uuid := do
  let groups := text.splitOn "-"
  guard (groups.map String.length = [8, 4, 4, 4, 12])
  let digits ← (groups.flatMap String.toList).mapM digitValue?
  return ⟨BitVec.ofNat 128 (digits.foldl (fun n d => n * 16 + d) 0)⟩

end Uuid

/-- An identifier: one that is given, or one that was made up at random.  Of the latter nothing is
known but that it differs from all others, so the order of their making stands for them. -/
inductive Identifier where
  /-- An identifier with these bits. -/
  | given (uuid : Uuid)
  /-- The identifier that was made up after so many others. -/
  | generated (serial : Nat)
  deriving DecidableEq, Repr

/-- How an identifier is shown; made-up ones by their number. -/
def Identifier.text : Identifier → String
  | given uuid => uuid.text
  | generated serial => s!"#{serial}"

/-- Which entity has which identifier, both ways round. -/
structure Identities where
  /-- The entity of an identifier. -/
  byIdentifier : FiniteMap Identifier Entity := .empty
  /-- The identifier of an entity. -/
  byEntity : FiniteMap Entity Identifier := .empty
  /-- How many identifiers were made up. -/
  generated : Nat := 0
  deriving DecidableEq, Repr

namespace Identities

variable (m : Identities)

/-- The entity that has the identifier `i`. -/
def lookup (i : Identifier) : Option Entity := m.byIdentifier.get? i

/-- The identifier of the entity `e`. -/
def identifierOf (e : Entity) : Option Identifier := m.byEntity.get? e

/-- The number of entities with an identifier. -/
def size : Nat := m.byEntity.size

/-- No entity has an identifier. -/
def isEmpty : Bool := m.byEntity.isEmpty

/-- Forgets the identifier `i` if it belongs to the entity `e`. -/
def dropIdentifier (i : Identifier) (e : Entity) : Identities :=
  if m.lookup i = some e then { m with byIdentifier := m.byIdentifier.erase i } else m

/-- Takes the previous identifier of the entity `e` away, unless it is the new one `i`. -/
def dropPrevious (e : Entity) (i : Identifier) : Identities :=
  match m.identifierOf e with
  | some previous => if previous = i then m else m.dropIdentifier previous e
  | none => m

/-- Takes the identifier `i` away from the entity that has it, unless that is `e`. -/
def dropDisplaced (e : Entity) (i : Identifier) : Identities :=
  match m.lookup i with
  | some displaced =>
    if displaced = e then m else { m with byEntity := m.byEntity.erase displaced }
  | none => m

/-- Gives the identifier `i` to the entity `e`.  The entity loses the one it had, and so does the
entity that had the identifier. -/
def bind (e : Entity) (i : Identifier) : Identities :=
  let m := (m.dropPrevious e i).dropDisplaced e i
  { m with byIdentifier := m.byIdentifier.insert i e, byEntity := m.byEntity.insert e i }

/-- Gives the identifier `i?` to the entity `e`, a new one if none is given; yields the
identifier. -/
def assign (e : Entity) (i? : Option Identifier) : Identifier × Identities :=
  match i? with
  | some i => (i, m.bind e i)
  | none =>
    let i := .generated m.generated
    (i, { m with generated := m.generated + 1 }.bind e i)

/-- Forgets the entity `e`. -/
def release (e : Entity) : Identities :=
  match m.identifierOf e with
  | some i => { m with byEntity := m.byEntity.erase e }.dropIdentifier i e
  | none => m

end Identities

end ClassWeave
