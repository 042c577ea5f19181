import ClassWeave.Text.Hex

/-!
# Constants

The entries of a constant pool (JVMS 4.4).  Constants refer to each other by slot numbers; floating
point constants are kept as raw bits, so that every payload of a NaN survives.

* `Constant.isWide`, `Constant.width` : a `long` or `double` takes two slots, all others one;
  `is_wide`.
* `Constant.describe` : the form in which a diagnostic shows a constant.
-/

namespace ClassWeave

/-- An entry of the constant pool. -/
inductive Constant where
  /-- A text, decoded from modified UTF-8. -/
  | utf8 (text : String)
  /-- A 32-bit integer. -/
  | integer (value : Int32)
  /-- The bits of a 32-bit floating point number. -/
  | float (bits : UInt32)
  /-- A 64-bit integer; takes two slots. -/
  | long (value : Int64)
  /-- The bits of a 64-bit floating point number; takes two slots. -/
  | double (bits : UInt64)
  /-- A class or array type, by the slot of its internal name. -/
  | classInfo (name : UInt16)
  /-- A string literal, by the slot of its text. -/
  | string (text : UInt16)
  /-- A field: its class and its name and type. -/
  | fieldRef (owner nameAndType : UInt16)
  /-- A method of a class: its class and its name and type. -/
  | methodRef (owner nameAndType : UInt16)
  /-- A method of an interface: the interface and its name and type. -/
  | interfaceMethodRef (owner nameAndType : UInt16)
  /-- A member name and its descriptor. -/
  | nameAndType (name descriptor : UInt16)
  /-- A method handle: the kind of the reference and what it refers to. -/
  | methodHandle (kind : UInt8) (target : UInt16)
  /-- A method type, by the slot of its descriptor. -/
  | methodType (descriptor : UInt16)
  /-- A dynamically computed constant: bootstrap method, name and type. -/
  | dynamic (bootstrap nameAndType : UInt16)
  /-- A dynamically computed call site: bootstrap method, name and type. -/
  | invokeDynamic (bootstrap nameAndType : UInt16)
  /-- A module, by the slot of its name. -/
  | moduleInfo (name : UInt16)
  /-- A package, by the slot of its name. -/
  | packageInfo (name : UInt16)
  deriving DecidableEq, Repr

namespace Constant

/-- A 64-bit constant takes a second slot, which stays empty. -/
def isWide : Constant → Bool
  | long _ | double _ => true
  | _ => false

/-- The number of slots a constant takes. -/
def width (c : Constant) : Nat := if c.isWide then 2 else 1

/-- A character as it stands inside a quoted text: quotes, backslashes and control characters are
escaped. -/
def quotedChar : Char → String
  | '"' => "\\\""
  | '\\' => "\\\\"
  | '\n' => "\\n"
  | '\r' => "\\r"
  | '\t' => "\\t"
  | '\x00' => "\\0"
  | c =>
    if c.toNat < 0x20 || c.toNat == 0x7f then "\\u\x7b" ++ Hex.ofNat 1 c.toNat ++ "\x7d"
    else String.singleton c

/-- The `text` between double quotes. -/
def quoted (text : String) : String :=
  "\"" ++ String.join (text.toList.map quotedChar) ++ "\""

/-- The `label` with its `arguments`, as in `Label(a, b)`. -/
def applied (label : String) (arguments : List String) : String :=
  label ++ "(" ++ String.intercalate ", " arguments ++ ")"

/-- The form in which a diagnostic shows a constant: its kind and its contents. -/
def describe : Constant → String
  | utf8 text => applied "Utf8" [quoted text]
  | integer value => applied "Integer" [toString value.toInt]
  | float bits => applied "Float" [toString bits.toNat]
  | long value => applied "Long" [toString value.toInt]
  | double bits => applied "Double" [toString bits.toNat]
  | classInfo name => applied "Class" [toString name.toNat]
  | string text => applied "String" [toString text.toNat]
  | fieldRef owner member => applied "Fieldref" [toString owner.toNat, toString member.toNat]
  | methodRef owner member => applied "Methodref" [toString owner.toNat, toString member.toNat]
  | interfaceMethodRef owner member =>
    applied "InterfaceMethodref" [toString owner.toNat, toString member.toNat]
  | nameAndType name descriptor =>
    applied "NameAndType" [toString name.toNat, toString descriptor.toNat]
  | methodHandle kind target =>
    applied "MethodHandle" [toString kind.toNat, toString target.toNat]
  | methodType descriptor => applied "MethodType" [toString descriptor.toNat]
  | dynamic bootstrap member =>
    applied "Dynamic" [toString bootstrap.toNat, toString member.toNat]
  | invokeDynamic bootstrap member =>
    applied "InvokeDynamic" [toString bootstrap.toNat, toString member.toNat]
  | moduleInfo name => applied "Module" [toString name.toNat]
  | packageInfo name => applied "Package" [toString name.toNat]

end Constant

end ClassWeave
