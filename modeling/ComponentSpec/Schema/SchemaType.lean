import ComponentSpec.Value

/-!
# Type annotations of a schema

What a schema says about the type of a prop, a state member, an event's payload or a command's
parameter.

* `Entry` — a named and perhaps optional member of some type;
* `SchemaType` — the types;
* `SchemaType.toValue` — the form in which they leave, with a `type` tag first.

A name or a default is a value and not a text: what the tree holds in the place of a name is carried
into the schema as it is, and defaults are literals of any kind.
-/

namespace ComponentSpec

/-- The types without parts. -/
inductive BasicType where
  | boolean
  | string
  | int32
  | double
  | float
deriving DecidableEq, Inhabited

/-- The built-in types of values with a meaning of their own. -/
inductive Primitive where
  | color
  | imageSource
  | point
  | edgeInsets
  | imageRequest
  | dimension
deriving DecidableEq, Inhabited

/-- **A member.** -/
structure Entry (α : Type) where
  name : Value
  optional : Bool
  type : α
deriving Inhabited

/-- **The types of a schema.** Basic types and enums carry a default where one is called for. -/
inductive SchemaType where
  | basic (type : BasicType) (default : Option Value)
  | stringEnum (options : List String) (default : Option Value)
  | int32Enum (options : List Int) (default : Option Value)
  | reserved (primitive : Primitive)
  | mixed
  | array (element : SchemaType)
  | object (properties : List (Entry SchemaType))
deriving Inhabited

def BasicType.tag : BasicType → String
  | .boolean => "BooleanTypeAnnotation"
  | .string => "StringTypeAnnotation"
  | .int32 => "Int32TypeAnnotation"
  | .double => "DoubleTypeAnnotation"
  | .float => "FloatTypeAnnotation"

def Primitive.name : Primitive → String
  | .color => "ColorPrimitive"
  | .imageSource => "ImageSourcePrimitive"
  | .point => "PointPrimitive"
  | .edgeInsets => "EdgeInsetsPrimitive"
  | .imageRequest => "ImageRequestPrimitive"
  | .dimension => "DimensionPrimitive"

/-- The tag under which an entry of this type leaves, given the form of its type. -/
def Entry.toValue (name : Value) (optional : Bool) (type : Value) : Value :=
  .record [("name", name), ("optional", .bool optional), ("typeAnnotation", type)]

namespace SchemaType

def tag : SchemaType → String
  | .basic type _ => type.tag
  | .stringEnum .. => "StringEnumTypeAnnotation"
  | .int32Enum .. => "Int32EnumTypeAnnotation"
  | .reserved _ => "ReservedPropTypeAnnotation"
  | .mixed => "MixedTypeAnnotation"
  | .array _ => "ArrayTypeAnnotation"
  | .object _ => "ObjectTypeAnnotation"

/-- The entry for a default, if there is one. -/
def defaultEntry : Option Value → List (String × Value)
  | some v => [("default", v)]
  | none => []

mutual

/-- **The form of a type.** -/
def toValue : SchemaType → Value
  | .basic type default => .record (("type", .str type.tag) :: defaultEntry default)
  | .stringEnum options default =>
    .record (("type", "StringEnumTypeAnnotation")
      :: ("options", .arr (options.map Value.str)) :: defaultEntry default)
  | .int32Enum options default =>
    .record (("type", "Int32EnumTypeAnnotation")
      :: ("options", .arr (options.map Value.int)) :: defaultEntry default)
  | .reserved primitive =>
    .record [("type", "ReservedPropTypeAnnotation"), ("name", .str primitive.name)]
  | .mixed => .record [("type", "MixedTypeAnnotation")]
  | .array element =>
    .record [("type", "ArrayTypeAnnotation"), ("elementType", element.toValue)]
  | .object properties =>
    .record [("type", "ObjectTypeAnnotation"), ("properties", .arr (entryValues properties))]

/-- The forms of members. -/
def entryValues : List (Entry SchemaType) → List Value
  | [] => []
  | ⟨name, optional, type⟩ :: es =>
    Entry.toValue name optional type.toValue :: entryValues es

end

end SchemaType

end ComponentSpec
