import FastDdsSpy.Model.Json
import FastDdsSpy.Model.ModelParser

/-! # `YamlWriter`

The YAML of a keyed topic, with the conversion of its instances from JSON. -/

namespace FastDdsSpy

/-! ## Numbers -/

/-- The number types of `nlohmann::json`, with floats of type `φ`. -/
inductive JsonNumber (φ : Type*)
  | integer (value : Int64)
  | unsigned (value : UInt64)
  | float (value : φ)
  deriving DecidableEq

/-- `double`: the conversions from and to the integer types, and the text of a scalar. -/
structure DoubleSupport (φ : Type*) where
  ofInt64 : Int64 → φ
  ofUInt64 : UInt64 → φ
  toInt64 : φ → Int64
  toUInt64 : φ → UInt64
  encode : φ → String

namespace JsonNumber

variable {φ : Type*} (ds : DoubleSupport φ)

/-- Holds for both integer types. -/
def isNumberInteger : JsonNumber φ → Bool
  | .integer _ | .unsigned _ => true
  | .float _ => false

def isNumberUnsigned : JsonNumber φ → Bool
  | .unsigned _ => true
  | _ => false

def isNumberFloat : JsonNumber φ → Bool
  | .float _ => true
  | _ => false

/-- `get<int64_t>`. -/
def getInt64 : JsonNumber φ → Int64
  | .integer value => value
  | .unsigned value => value.toInt64
  | .float value => ds.toInt64 value

/-- `get<uint64_t>`. -/
def getUInt64 : JsonNumber φ → UInt64
  | .integer value => value.toUInt64
  | .unsigned value => value
  | .float value => ds.toUInt64 value

/-- `get<double>`. -/
def getDouble : JsonNumber φ → φ
  | .integer value => ds.ofInt64 value
  | .unsigned value => ds.ofUInt64 value
  | .float value => value

end JsonNumber

/-! ## YAML nodes -/

inductive EmitterStyle
  | default | block | flow
  deriving DecidableEq, Repr

/-- `YAML::Node`. The members of a map are in the order in which they were set. -/
inductive YamlNode
  | null
  | scalar (value : String)
  | sequence (items : List YamlNode) (style : EmitterStyle)
  | map (members : List (String × YamlNode))

/-- `node[key] = value`, on the members of a map. -/
def YamlNode.assign (key : String) (value : YamlNode) :
    List (String × YamlNode) → List (String × YamlNode)
  | [] => [(key, value)]
  | member :: members =>
    if member.1 = key then (key, value) :: members
    else member :: YamlNode.assign key value members

section Conversion

variable {φ : Type*} (ds : DoubleSupport φ)

/-- `is_primitive_array`. -/
def isPrimitiveArray : Json (JsonNumber φ) → Bool
  | .array values => !values.isEmpty && values.all fun element => element.primitive?.isSome
  | _ => false

/-- The branches of `json_to_yaml` for numbers, in the order of the source. -/
def numberToYaml (j : JsonNumber φ) : YamlNode :=
  if j.isNumberInteger then .scalar (toString (j.getInt64 ds).toInt)
  else if j.isNumberUnsigned then .scalar (toString (j.getUInt64 ds).toNat)
  else if j.isNumberFloat then .scalar (ds.encode (j.getDouble ds))
  else .null

mutual

def jsonToYaml : Json (JsonNumber φ) → YamlNode
  | .primitive .null => .null
  | .primitive (.boolean value) => .scalar (if value then "true" else "false")
  | .primitive (.number value) => numberToYaml ds value
  | .primitive (.string value) => .scalar value
  | .array values =>
    if isPrimitiveArray (.array values) then .sequence (pushElements values []) .flow
    else .sequence (pushElements values []) .default
  | .object members => .map (assignMembers members [])
termination_by structural j => j

/-- The loop over an array. -/
def pushElements : List (Json (JsonNumber φ)) → List YamlNode → List YamlNode
  | [], node => node
  | element :: rest, node => pushElements rest (node ++ [jsonToYaml element])
termination_by structural values => values

/-- The loop over an object. -/
def assignMembers : List (String × Json (JsonNumber φ)) → List (String × YamlNode) →
    List (String × YamlNode)
  | [], node => node
  | (key, value) :: rest, node => assignMembers rest (YamlNode.assign key (jsonToYaml value) node)
termination_by structural members => members

end

variable (nt : NumberText (JsonNumber φ))

/-- The node of an instance. A text that does not parse is shown as it is. -/
def instanceToYaml (instanceJsonStr : String) : YamlNode :=
  match Json.parse nt instanceJsonStr.toList with
  | some j => jsonToYaml ds j
  | none => .scalar instanceJsonStr

/-- `set` for `TopicKeysData`. -/
def topicKeysToYaml (value : TopicKeysData) (isCompact : Bool) : YamlNode :=
  let keys := [("topic", YamlNode.scalar value.topicName),
    ("keys", .sequence (value.keyFields.map .scalar) .default)]
  let instances :=
    if isCompact then []
    else [("instances", YamlNode.sequence (value.instances.map (instanceToYaml ds nt)) .default)]
  .map (keys ++ instances ++ [("instance_count", .scalar (toString value.instanceCount))])

end Conversion

end FastDdsSpy
