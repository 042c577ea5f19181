import ClassWeave.ClassFile.Codec

/-!
# Settings

What a run may be told: the accepted versions, the superclasses that need not be among the units,
whether output is written, and whether units may fail.  It is the `WeaverConfig`.

* `Settings.isExternal` : the superclass is known from outside, `is_external`.
-/

namespace ClassWeave

/-- The settings of a run. -/
structure Settings where
  /-- How many units are worked on at once; 0 leaves it to the machine. -/
  threads : Nat := 0
  /-- The classes known from outside. -/
  externals : List String :=
    ["java/lang/Object", "com/artemis/Component", "com/artemis/PooledComponent",
      "com/artemis/PackedComponent"]
  /-- The accepted major versions. -/
  versions : VersionRange := {}
  /-- Whether woven units replace the units they were made from. -/
  writesOutput : Bool := true
  /-- Whether a run in which units failed still counts as done. -/
  toleratesFailures : Bool := false
  deriving DecidableEq, Repr

namespace Settings

/-- With the class `name` known from outside as well. -/
def withExternal (s : Settings) (name : String) : Settings :=
  { s with externals := s.externals ++ [name] }

/-- Whether the class `name` is known from outside. -/
def isExternal (s : Settings) (name : String) : Bool := s.externals.contains name

end Settings

end ClassWeave
