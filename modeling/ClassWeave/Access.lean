/-!
# Access flags

The access flags of classes, fields and methods (JVMS 4.1, 4.5, 4.6) are half words.  Every bit is
kept, also those that no flag names.  The three sets `ClassAccess`, `FieldAccess` and `MethodAccess`
of named flags are the values of one function `AccessTarget.flags`.

* `AccessTarget.flags` : the flags that exist, by what they are attached to.
* `Access.has` : whether a flag is set, as `contains` asks it of a set.
* `AccessTarget.names`, `AccessTarget.unknown` : a half word as the flags that it holds.
-/

namespace ClassWeave

/-- The flags of a class, field or method. -/
abbrev Access := UInt16

namespace Access

/-- Declared public. -/
def publicFlag : Access := 0x0001
/-- Declared private. -/
def privateFlag : Access := 0x0002
/-- Declared protected. -/
def protectedFlag : Access := 0x0004
/-- Declared static. -/
def staticFlag : Access := 0x0008
/-- Declared final. -/
def finalFlag : Access := 0x0010
/-- Of a class: methods of the superclass are invoked in the newer way. -/
def superFlag : Access := 0x0020
/-- Not present in the source text. -/
def syntheticFlag : Access := 0x1000

/-- Whether all bits of `flag` are set in `access`. -/
def has (access flag : Access) : Bool := access &&& flag == flag

end Access

/-- What access flags can be attached to. -/
inductive AccessTarget where
  | classes
  | fields
  | methods
  deriving DecidableEq, Repr

namespace AccessTarget

/-- The flags that exist, with their names, lowest bit first. -/
def flags : AccessTarget → List (String × Access)
  | classes =>
    [("PUBLIC", 0x0001), ("FINAL", 0x0010), ("SUPER", 0x0020), ("INTERFACE", 0x0200),
      ("ABSTRACT", 0x0400), ("SYNTHETIC", 0x1000), ("ANNOTATION", 0x2000), ("ENUM", 0x4000),
      ("MODULE", 0x8000)]
  | fields =>
    [("PUBLIC", 0x0001), ("PRIVATE", 0x0002), ("PROTECTED", 0x0004), ("STATIC", 0x0008),
      ("FINAL", 0x0010), ("VOLATILE", 0x0040), ("TRANSIENT", 0x0080), ("SYNTHETIC", 0x1000),
      ("ENUM", 0x4000)]
  | methods =>
    [("PUBLIC", 0x0001), ("PRIVATE", 0x0002), ("PROTECTED", 0x0004), ("STATIC", 0x0008),
      ("FINAL", 0x0010), ("SYNCHRONIZED", 0x0020), ("BRIDGE", 0x0040), ("VARARGS", 0x0080),
      ("NATIVE", 0x0100), ("ABSTRACT", 0x0400), ("STRICT", 0x0800), ("SYNTHETIC", 0x1000)]

/-- The names of the flags of `target` that are set in `access`, lowest bit first. -/
def names (target : AccessTarget) (access : Access) : List String :=
  (target.flags.filter fun (_, flag) => Access.has access flag).map Prod.fst

/-- The bits of `access` that no flag of `target` names. -/
def unknown (target : AccessTarget) (access : Access) : Access :=
  target.flags.foldl (fun rest (_, flag) => rest &&& ~~~flag) access

end AccessTarget

end ClassWeave
