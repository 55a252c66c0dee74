import FastDdsSpy.Model.Backend
import FastDdsSpy.Model.InstanceCache
import FastDdsSpy.Model.Json
import FastDdsSpy.Model.SpyModel

/-! # Concrete parameters

Instances of the external functions on which the model can be run. -/

namespace FastDdsSpy

open InstanceCache

/-- A type with one key member whose samples all have the same key. -/
def keyedType : TypeSupport Unit Unit Unit where
  getName _ := "Keyed"
  getAllMembers _ := some [⟨"id", some true⟩]
  deserialize _ _ := some ()
  copyKeyMembers _ data := data
  jsonSerialize _ := some "\x7b\"id\": 1\x7d"

theorem keyedType_serializes : serializeKeyToJson keyedType () () ≠ "" := by decide

/-- `keyedType` with payloads that may be corrupt. -/
def corruptibleType : TypeSupport Unit Bool Unit where
  getName := keyedType.getName
  getAllMembers := keyedType.getAllMembers
  deserialize _ intact := if intact then some () else none
  copyKeyMembers := keyedType.copyKeyMembers
  jsonSerialize := keyedType.jsonSerialize

def keyedTopic : DdsTopic := ⟨"topic", "Keyed", ⟨.volatile, .reliable⟩⟩

/-- A topic with the name of `keyedTopic` and another type. -/
def otherTopic : DdsTopic := { keyedTopic with typeName := "Other" }

def keyedSample (w : Guid) (h : InstanceHandle) : RtpsPayloadData Unit := ⟨w, h, 0, ()⟩

/-- Patterns without wildcards match by equality, and names are not mangled. -/
def literal : External where
  matchPattern pattern subject := pattern == subject
  topicMatches filter topic :=
    (filter.topicName.all (· == topic.topicName)) && (filter.typeName.all (· == topic.typeName))
  demangleIfRosTopic := id
  demangleIfRosType := id
  guidToString guid := toString guid.guidPrefix.toNat ++ "|" ++ toString guid.entityId.toNat
  guidOfString _ := default

/-- Matching of a pattern in which `*` stands for any characters. -/
def globMatch : List Char → List Char → Bool
  | [], subject => subject.isEmpty
  | '*' :: pattern, subject => subject.tails.any (globMatch pattern)
  | c :: pattern, subject =>
      match subject with
      | [] => false
      | d :: subject => c == d && globMatch pattern subject

def matchWildcard (pattern subject : String) : Bool :=
  globMatch pattern.toList subject.toList

/-- Patterns with the wildcard `*`; the rest is as in `literal`. -/
def wildcard : External :=
  { literal with
    matchPattern := matchWildcard
    topicMatches := fun filter topic =>
      filter.topicName.all (matchWildcard · topic.topicName) &&
        filter.typeName.all (matchWildcard · topic.typeName) }

/-- A discovery record of a writer on `keyedTopic` in one partition. -/
def writerRecord (guid : Guid) (partition : String) (active : Bool) : EndpointInfoData :=
  ⟨⟨guid, .writer, keyedTopic, active,
    (∅ : Std.ExtTreeMap String String).insert (literal.guidToString guid) partition⟩, ""⟩

/-- A discovery record of an active writer without partitions. -/
def writerOn (guid : Guid) (topic : DdsTopic) : EndpointInfoData :=
  ⟨⟨guid, .writer, topic, true, ∅⟩, ""⟩

/-- A discovery record of an active reader without partitions. -/
def readerOn (guid : Guid) (topic : DdsTopic) : EndpointInfoData :=
  ⟨⟨guid, .reader, topic, true, ∅⟩, ""⟩

/-- A model with a writer and a reader on one topic and a writer on another one. -/
def sampleNetwork : SpyModel Unit Unit :=
  ((SpyModel.empty false).newEndpointInfo (writerOn ⟨1, 2⟩ keyedTopic)
    |>.newEndpointInfo (readerOn ⟨2, 2⟩ keyedTopic)
    |>.newEndpointInfo (writerOn ⟨3, 2⟩ { keyedTopic with topicName := "square" }))

/-- A configuration with these partition filters and no topic filters. -/
def withPartitions (allowedPartitionList : Std.ExtTreeSet String) : Configuration :=
  ⟨false, true, allowedPartitionList, ∅⟩

/-- The integers without a sign. -/
def decimals : NumberText ℕ where
  dumpNumber value := Nat.toDigits 10 value
  scanNumber text :=
    match text.takeWhile Char.isDigit with
    | [] => none
    | digit :: digits =>
      some (Nat.ofDigitChars 10 (digit :: digits) 0, text.dropWhile Char.isDigit)
  scanNumber_shorter {text value rest} h := by
    have hsplit : text.takeWhile Char.isDigit ++ text.dropWhile Char.isDigit = text :=
      List.takeWhile_append_dropWhile
    have hlength := congrArg List.length hsplit
    split at h
    · simp at h
    · next hdigits =>
        simp only [Option.some.injEq, Prod.mk.injEq] at h
        rw [List.length_append, hdigits, h.2, List.length_cons] at hlength
        omega

end FastDdsSpy
