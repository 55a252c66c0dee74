import FastDdsSpy.Library.Decimals
import FastDdsSpy.Model.YamlWriter
import FastDdsSpy.Verification.Json.Ordered
import FastDdsSpy.Verification.Json.Parser

/-! # Key values in YAML

The conversion keeps the shape of every document. It keeps the integers too, unless one is
stored as unsigned and does not fit the signed type. -/

namespace FastDdsSpy

open Json

variable {φ ν : Type*} (ds : DoubleSupport φ)

/-! ## What survives -/

/-- The mathematical integer of a number that is kept as an integer. -/
def JsonNumber.integer? : JsonNumber φ → Option ℤ
  | .integer value => some value.toInt
  | .unsigned value => some value.toNat
  | .float _ => none

/-- A scalar has a text that denotes the integer. -/
def Denotes (text : String) (n : ℤ) : Prop := Decimals.integer? text.toList = some n

/-- The node has the shape of the value, and the same integers at its leaves. -/
inductive Survives : Json (JsonNumber φ) → YamlNode → Prop
  | null : Survives (.primitive .null) .null
  | boolean (value) :
      Survives (.primitive (.boolean value)) (.scalar (if value then "true" else "false"))
  | number (value text) (h : ∀ n, value.integer? = some n → Denotes text n) :
      Survives (.primitive (.number value)) (.scalar text)
  | string (value) : Survives (.primitive (.string value)) (.scalar value)
  | array {values items style} (h : List.Forall₂ Survives values items) :
      Survives (.array values) (.sequence items style)
  | object {members nodes} (hkeys : members.map Prod.fst = nodes.map Prod.fst)
      (h : List.Forall₂ Survives (members.map Prod.snd) (nodes.map Prod.snd)) :
      Survives (.object members) (.map nodes)

/-- All numbers in a value have a property. -/
inductive Json.AllNumbers (p : ν → Prop) : Json ν → Prop
  | primitive (value) (h : ∀ n, value = .number n → p n) : AllNumbers p (.primitive value)
  | array {values} (h : ∀ j ∈ values, AllNumbers p j) : AllNumbers p (.array values)
  | object {members} (h : ∀ m ∈ members, AllNumbers p m.2) : AllNumbers p (.object members)

/-- Two values differ at most in their numbers, which are related. -/
inductive Json.Rel (r : ν → ν → Prop) : Json ν → Json ν → Prop
  | primitive (value) (h : ∀ n, value ≠ .number n) : Rel r (.primitive value) (.primitive value)
  | number {m n} (h : r m n) : Rel r (.primitive (.number m)) (.primitive (.number n))
  | array {values values'} (h : List.Forall₂ (Rel r) values values') :
      Rel r (.array values) (.array values')
  | object {members members' : List (String × Json ν)}
      (hkeys : members.map Prod.fst = members'.map Prod.fst)
      (h : List.Forall₂ (Rel r) (members.map Prod.snd) (members'.map Prod.snd)) :
      Rel r (.object members) (.object members')

/-- A number that the signed type can hold. -/
def JsonNumber.FitsSigned : JsonNumber φ → Prop
  | .unsigned value => value.toNat < 2 ^ 63
  | _ => True

/-! ## The loops of the conversion -/

theorem pushElements_eq (values : List (Json (JsonNumber φ))) (node : List YamlNode) :
    pushElements ds values node = node ++ values.map (jsonToYaml ds) := by
  induction values generalizing node with
  | nil => simp [pushElements]
  | cons element rest ih => simp [pushElements, ih]

theorem YamlNode.assign_of_notMem {key : String} {members : List (String × YamlNode)}
    (h : key ∉ members.map Prod.fst) (value : YamlNode) :
    YamlNode.assign key value members = members ++ [(key, value)] := by
  induction members with
  | nil => rfl
  | cons member members ih =>
      obtain ⟨hne, hrest⟩ := not_or.mp (List.mem_cons.not.mp h)
      rw [YamlNode.assign, if_neg (Ne.symm hne), ih hrest, List.cons_append]

/-- Members with different keys are all added at the end. -/
theorem assignMembers_eq {members : List (String × Json (JsonNumber φ))}
    {node : List (String × YamlNode)}
    (h : (node.map Prod.fst ++ members.map Prod.fst).Nodup) :
    assignMembers ds members node =
      node ++ members.map fun m => (m.1, jsonToYaml ds m.2) := by
  induction members generalizing node with
  | nil => simp [assignMembers]
  | cons m rest ih =>
      have hkey : m.1 ∉ node.map Prod.fst := fun hmem =>
        (List.nodup_append.mp h).2.2 m.1 hmem m.1 List.mem_cons_self rfl
      have hrest : ((node ++ [(m.1, jsonToYaml ds m.2)]).map Prod.fst ++
          rest.map Prod.fst).Nodup := by
        simpa using h
      rw [assignMembers, YamlNode.assign_of_notMem hkey, ih hrest]
      simp

theorem keys_nodup {members : List (String × Json ν)} (h : OrderedPairs.Sorted members) :
    (members.map Prod.fst).Nodup :=
  List.Pairwise.map Prod.fst (fun _ _ hlt => hlt.ne) h

theorem jsonToYaml_array (values : List (Json (JsonNumber φ))) :
    ∃ style, jsonToYaml ds (.array values) = .sequence (values.map (jsonToYaml ds)) style := by
  rw [jsonToYaml, pushElements_eq, List.nil_append]
  split
  · exact ⟨.flow, rfl⟩
  · exact ⟨.default, rfl⟩

theorem jsonToYaml_object {members : List (String × Json (JsonNumber φ))}
    (h : OrderedPairs.Sorted members) :
    jsonToYaml ds (.object members) = .map (members.map fun m => (m.1, jsonToYaml ds m.2)) := by
  rw [jsonToYaml, assignMembers_eq ds (by simpa using keys_nodup h), List.nil_append]

/-! ## Numbers -/

theorem denotes_toString_iff (m n : ℤ) : Denotes (toString m) n ↔ m = n := by
  rw [Denotes, Decimals.integer?_toString, Option.some_inj]

theorem toInt_toInt64_eq_iff (value : UInt64) :
    value.toInt64.toInt = value.toNat ↔ value.toNat < 2 ^ 63 := by
  have hlt : value.toNat < 2 ^ 64 := value.toNat_lt
  have hcond : value.toInt64.toInt = value.toBitVec.toInt := rfl
  rw [hcond, BitVec.toInt_eq_toNat_cond, UInt64.toNat_toBitVec]
  split <;> omega

/-- Unsigned numbers are read as signed ones. -/
theorem numberToYaml_unsigned (value : UInt64) :
    numberToYaml ds (.unsigned value) = .scalar (toString value.toInt64.toInt) := rfl

theorem survives_number_iff (value : JsonNumber φ) :
    Survives (.primitive (.number value)) (numberToYaml ds value) ↔ value.FitsSigned := by
  cases value with
  | integer value =>
      refine iff_of_true (.number _ _ ?_) trivial
      intro n hn
      exact (denotes_toString_iff _ _).mpr (Option.some.inj hn)
  | unsigned value =>
      rw [numberToYaml_unsigned, JsonNumber.FitsSigned, ← toInt_toInt64_eq_iff]
      constructor
      · intro h
        cases h with
        | number _ _ h => exact (denotes_toString_iff _ _).mp (h value.toNat rfl)
      · intro h
        refine .number _ _ ?_
        intro n hn
        exact (denotes_toString_iff _ _).mpr (h.trans (Option.some.inj hn))
  | float value =>
      refine iff_of_true (.number _ _ ?_) trivial
      intro n hn
      cases hn

/-! ## Documents -/

variable {j j' : Json (JsonNumber φ)}

theorem allNumbers_number_iff {p : ν → Prop} {n : ν} :
    (Json.primitive (.number n)).AllNumbers p ↔ p n := by
  constructor
  · intro h
    cases h with
    | primitive _ h => exact h n rfl
  · intro h
    refine .primitive _ ?_
    intro m hm
    cases hm
    exact h

theorem forall₂_map_self_iff {α β : Type*} {R : α → β → Prop} {f : α → β} {l : List α} :
    List.Forall₂ R l (l.map f) ↔ ∀ a ∈ l, R a (f a) := by
  rw [List.forall₂_map_right_iff, List.forall₂_same]

theorem survives_array_iff {values : List (Json (JsonNumber φ))} {style : EmitterStyle} :
    Survives (.array values) (.sequence (values.map (jsonToYaml ds)) style) ↔
      ∀ v ∈ values, Survives v (jsonToYaml ds v) := by
  rw [← forall₂_map_self_iff (f := jsonToYaml ds)]
  constructor
  · intro h
    cases h with
    | array h => exact h
  · exact .array

theorem map_snd_nodes (members : List (String × Json (JsonNumber φ))) :
    (members.map fun m => (m.1, jsonToYaml ds m.2)).map Prod.snd =
      (members.map Prod.snd).map (jsonToYaml ds) := by
  simp

theorem survives_object_iff {members : List (String × Json (JsonNumber φ))} :
    Survives (.object members) (.map (members.map fun m => (m.1, jsonToYaml ds m.2))) ↔
      ∀ m ∈ members, Survives m.2 (jsonToYaml ds m.2) := by
  have hall := List.forall_mem_map (f := Prod.snd) (l := members)
    (P := fun v => Survives v (jsonToYaml ds v))
  rw [← hall, ← forall₂_map_self_iff (f := jsonToYaml ds), ← map_snd_nodes]
  constructor
  · intro h
    cases h with
    | object _ h => exact h
  · exact .object (by simp)

/-- A document survives if and only if its unsigned numbers fit the signed type. -/
theorem survives_iff (h : j.Ordered) :
    Survives j (jsonToYaml ds j) ↔ j.AllNumbers JsonNumber.FitsSigned := by
  induction h with
  | primitive value =>
      cases value with
      | null => exact iff_of_true .null (.primitive _ (by simp))
      | boolean value => exact iff_of_true (.boolean value) (.primitive _ (by simp))
      | string value => exact iff_of_true (.string value) (.primitive _ (by simp))
      | number value =>
          rw [allNumbers_number_iff]
          exact survives_number_iff ds value
  | @array values _ ih =>
      obtain ⟨style, hstyle⟩ := jsonToYaml_array ds values
      rw [hstyle, survives_array_iff, forall₂_congr ih]
      constructor
      · exact .array
      · intro h
        cases h with
        | array h => exact h
  | @object members hsorted _ ih =>
      rw [jsonToYaml_object ds hsorted, survives_object_iff, forall₂_congr ih]
      constructor
      · exact .object
      · intro h
        cases h with
        | object h => exact h

/-! ## Pairs of documents -/

/-- The documents differ only in the values of integers. -/
def SameButIntegers (j j' : Json (JsonNumber φ)) : Prop :=
  j.Rel (fun m n => m = n ∨ m.integer?.isSome ∧ n.integer?.isSome) j'

/-- The documents have the same integers. -/
def SameIntegers (j j' : Json (JsonNumber φ)) : Prop :=
  j.Rel (fun m n => m.integer? = n.integer?) j'

theorem forall₂_of_map_eq {α β : Type*} {R S : α → α → Prop} {f : α → β} {l l' : List α}
    (h : List.Forall₂ R l l') (hmap : l.map f = l'.map f)
    (hstep : ∀ a ∈ l, ∀ b ∈ l', R a b → f a = f b → S a b) : List.Forall₂ S l l' := by
  induction h with
  | nil => exact .nil
  | cons hab _ ih =>
      obtain ⟨hhead, htail⟩ := List.cons.inj hmap
      refine .cons (hstep _ List.mem_cons_self _ List.mem_cons_self hab hhead) (ih htail ?_)
      intro a ha b hb
      exact hstep a (List.mem_cons_of_mem _ ha) b (List.mem_cons_of_mem _ hb)

theorem integer?_eq_of_numberToYaml_eq {m n : JsonNumber φ} (hm : m.FitsSigned)
    (hn : n.FitsSigned) (h : m = n ∨ m.integer?.isSome ∧ n.integer?.isSome)
    (heq : numberToYaml ds m = numberToYaml ds n) : m.integer? = n.integer? := by
  rcases h with rfl | ⟨hsome, hsome'⟩
  · rfl
  · obtain ⟨a, ha⟩ := Option.isSome_iff_exists.mp hsome
    obtain ⟨b, hb⟩ := Option.isSome_iff_exists.mp hsome'
    have hsurvives := (survives_number_iff ds m).mpr hm
    have hsurvives' := (survives_number_iff ds n).mpr hn
    rw [← heq] at hsurvives'
    generalize numberToYaml ds m = node at hsurvives hsurvives'
    cases hsurvives with
    | number _ text h =>
        cases hsurvives' with
        | number _ _ h' =>
            rw [ha, hb, ← h a ha, ← h' b hb]

/-- Documents that differ only in integers and are converted to the same node have the same
integers, as long as these fit the signed type. -/
theorem sameIntegers_of_eq (h : j.Ordered) (h' : j'.Ordered)
    (hfits : j.AllNumbers JsonNumber.FitsSigned) (hfits' : j'.AllNumbers JsonNumber.FitsSigned)
    (hsame : SameButIntegers j j') (heq : jsonToYaml ds j = jsonToYaml ds j') :
    SameIntegers j j' := by
  induction h generalizing j' with
  | primitive value =>
      cases hsame with
      | primitive _ hvalue => exact .primitive _ hvalue
      | number hmn =>
          have hm := allNumbers_number_iff.mp hfits
          have hn := allNumbers_number_iff.mp hfits'
          exact .number (integer?_eq_of_numberToYaml_eq ds hm hn hmn heq)
  | @array values _ ih =>
      cases hsame with
      | @array _ values' hvalues =>
          cases h' with | array h' =>
          cases hfits with | array hfits =>
          cases hfits' with | array hfits' =>
          obtain ⟨style, hstyle⟩ := jsonToYaml_array ds values
          obtain ⟨style', hstyle'⟩ := jsonToYaml_array ds values'
          rw [hstyle, hstyle'] at heq
          refine .array (forall₂_of_map_eq hvalues (YamlNode.sequence.inj heq).1 ?_)
          intro v hv w hw
          exact ih v hv (h' w hw) (hfits v hv) (hfits' w hw)
  | @object members hsorted _ ih =>
      cases hsame with
      | @object _ members' hkeys hvalues =>
          cases h' with | object hsorted' h' =>
          cases hfits with | object hfits =>
          cases hfits' with | object hfits' =>
          rw [jsonToYaml_object ds hsorted, jsonToYaml_object ds hsorted'] at heq
          have hnodes := congrArg (List.map Prod.snd) (YamlNode.map.inj heq)
          rw [map_snd_nodes, map_snd_nodes] at hnodes
          refine .object hkeys (forall₂_of_map_eq hvalues hnodes ?_)
          intro v hv w hw
          obtain ⟨m, hm, rfl⟩ := List.mem_map.mp hv
          obtain ⟨n, hn, rfl⟩ := List.mem_map.mp hw
          exact ih m hm (h' n hn) (hfits m hm) (hfits' n hn)

variable (nt : NumberText (JsonNumber φ))

/-- Two instances with these documents keep their values in YAML, and are shown as different
ones if they differ only in an integer. -/
structure KeyValuesSurvive (text text' : String) (j j' : Json (JsonNumber φ)) : Prop where
  left : Survives j (jsonToYaml ds j)
  right : Survives j' (jsonToYaml ds j')
  apart : SameButIntegers j j' → ¬ SameIntegers j j' →
    instanceToYaml ds nt text ≠ instanceToYaml ds nt text'

theorem instanceToYaml_of_parse {text : String} (h : parse nt text.toList = some j) :
    instanceToYaml ds nt text = jsonToYaml ds j := by
  rw [instanceToYaml, h]

/-- Key values survive exactly in the documents without an unsigned number of 2^63 or more. -/
theorem keyValuesSurvive_iff {text text' : String} (h : parse nt text.toList = some j)
    (h' : parse nt text'.toList = some j') :
    KeyValuesSurvive ds nt text text' j j' ↔
      j.AllNumbers JsonNumber.FitsSigned ∧ j'.AllNumbers JsonNumber.FitsSigned := by
  have hord := parse_ordered h
  have hord' := parse_ordered h'
  constructor
  · intro hsurvive
    exact ⟨(survives_iff ds hord).mp hsurvive.left, (survives_iff ds hord').mp hsurvive.right⟩
  · intro hfits
    obtain ⟨hfits, hfits'⟩ := hfits
    refine ⟨(survives_iff ds hord).mpr hfits, (survives_iff ds hord').mpr hfits', ?_⟩
    intro hsame hdiffer heq
    rw [instanceToYaml_of_parse ds nt h, instanceToYaml_of_parse ds nt h'] at heq
    exact hdiffer (sameIntegers_of_eq ds hord hord' hfits hfits' hsame heq)

/-! ## The instances of a topic -/

/-- The node under a key. -/
def YamlNode.member? (key : String) : YamlNode → Option YamlNode
  | .map members => members.lookup key
  | _ => none

theorem instances_topicKeysToYaml (value : TopicKeysData) :
    (topicKeysToYaml ds nt value false).member? "instances" =
      some (.sequence (value.instances.map (instanceToYaml ds nt)) .default) := rfl

/-- Every instance of the topic is shown in its place, with its key values. -/
theorem topicKeysToYaml_survives {value : TopicKeysData}
    (h : ∀ text ∈ value.instances, ∃ j, parse nt text.toList = some j ∧
      j.AllNumbers JsonNumber.FitsSigned) :
    ∃ items, (topicKeysToYaml ds nt value false).member? "instances" =
        some (.sequence items .default) ∧
      List.Forall₂ (fun text node => ∃ j, parse nt text.toList = some j ∧ Survives j node)
        value.instances items := by
  refine ⟨_, instances_topicKeysToYaml ds nt value, forall₂_map_self_iff.mpr ?_⟩
  intro text htext
  obtain ⟨j, hparse, hfits⟩ := h text htext
  refine ⟨j, hparse, ?_⟩
  rw [instanceToYaml_of_parse ds nt hparse]
  exact (survives_iff ds (parse_ordered hparse)).mpr hfits

/-! ## Instances with an integer key -/

/-- The number types of the library, for texts without a fraction or an exponent. -/
def classify (negative : Bool) (n : ℤ) : JsonNumber Unit :=
  if negative then if -2 ^ 63 ≤ n then .integer (Int64.ofInt n) else .float ()
  else if n < 2 ^ 64 then .unsigned (UInt64.ofNat n.toNat) else .float ()

def integerNumbers : NumberText (JsonNumber Unit) where
  dumpNumber
    | .integer value => (toString value.toInt).toList
    | .unsigned value => (toString value.toNat).toList
    | .float _ => ['0', '.', '0']
  scanNumber text :=
    (Decimals.scanInteger? text).map fun r => (classify (text.head? == some '-') r.1, r.2)
  scanNumber_shorter h := by
    obtain ⟨r, hr, heq⟩ := Option.map_eq_some_iff.mp h
    cases heq
    exact Decimals.length_of_scanInteger? hr

/-- The text of an instance with one key. -/
def idDocument (number : String) : String := "\x7b\"id\":" ++ number ++ "\x7d"

def idValue (value : JsonNumber φ) : Json (JsonNumber φ) :=
  .object [("id", .primitive (.number value))]

theorem parse_idDocument {number : String} {value : JsonNumber φ}
    (hstart : number.toList.head?.any startsNumber = true)
    (h : nt.scanNumber (number.toList ++ ['\x7d']) = some (value, ['\x7d'])) :
    parse nt (idDocument number).toList = some (idValue value) := by
  have htext : (idDocument number).toList =
      '\x7b' :: ([] ++ (dumpString "id" ++ ':' :: (number.toList ++ ['\x7d']))) := by
    simp only [idDocument, String.toList_append]
    rfl
  have hvalue (stack : List (Frame (JsonNumber φ))) :
      getToken nt.scanner (number.toList ++ ['\x7d']) stack =
        ⟨.token (.value (.number value)), ['\x7d'], stack⟩ := by
    cases hnumber : number.toList with
    | nil => simp [hnumber] at hstart
    | cons c rest =>
        have hc : startsNumber c = true := by simpa [hnumber] using hstart
        rw [hnumber] at h
        rw [getToken, List.cons_append, scan_of_not_whitespace (isWhitespace_of_startsNumber hc),
          scanToken_number hc, ← List.cons_append, h]
        rfl
  have hexec : exec nt.scanner (getToken nt.scanner (idDocument number).toList []) =
      some (idValue value, []) := by
    rw [htext, exec_open_object (by simp [Blank]), hvalue, exec_def]
    exact exec_value (idValue value) []
  have hbom : skipBom (idDocument number).toList = (idDocument number).toList := by
    rw [htext]
    rfl
  rw [parse, hbom, parseFrom, hexec]
  rfl

theorem allNumbers_idValue_iff {p : JsonNumber φ → Prop} {value : JsonNumber φ} :
    (idValue value).AllNumbers p ↔ p value := by
  rw [← allNumbers_number_iff (p := p)]
  constructor
  · intro h
    cases h with
    | object h => exact h _ List.mem_cons_self
  · intro h
    exact .object (by simpa using h)

def noDoubles : DoubleSupport Unit where
  ofInt64 _ := ()
  ofUInt64 _ := ()
  toInt64 _ := 0
  toUInt64 _ := 0
  encode _ := ".nan"

theorem keyValuesSurvive_iff_small :
    KeyValuesSurvive noDoubles integerNumbers (idDocument "-7") (idDocument "4294967295")
      (idValue (.integer (-7))) (idValue (.unsigned 4294967295)) :=
  (keyValuesSurvive_iff noDoubles integerNumbers (parse_idDocument _ (by decide) (by decide))
    (parse_idDocument _ (by decide) (by decide))).mpr
    ⟨allNumbers_idValue_iff.mpr trivial,
      allNumbers_idValue_iff.mpr (show 4294967295 < 2 ^ 63 by decide)⟩

/-- The largest unsigned key is shown as -1, and so is the signed key -1. -/
theorem not_keyValuesSurvive_max :
    parse integerNumbers (idDocument "18446744073709551615").toList =
        some (idValue (.unsigned 18446744073709551615)) ∧
      parse integerNumbers (idDocument "-1").toList = some (idValue (.integer (-1))) ∧
      ¬ KeyValuesSurvive noDoubles integerNumbers (idDocument "18446744073709551615")
        (idDocument "-1") (idValue (.unsigned 18446744073709551615)) (idValue (.integer (-1))) ∧
      instanceToYaml noDoubles integerNumbers (idDocument "18446744073709551615") =
        instanceToYaml noDoubles integerNumbers (idDocument "-1") := by
  have hmax : parse integerNumbers (idDocument "18446744073709551615").toList =
      some (idValue (.unsigned 18446744073709551615)) :=
    parse_idDocument _ (by decide) (by decide)
  have hminus : parse integerNumbers (idDocument "-1").toList = some (idValue (.integer (-1))) :=
    parse_idDocument _ (by decide) (by decide)
  refine ⟨hmax, hminus, ?_, ?_⟩
  · intro hsurvive
    have hfits := (survives_iff noDoubles (parse_ordered hmax)).mp hsurvive.left
    exact absurd (allNumbers_idValue_iff.mp hfits)
      (show ¬ 18446744073709551615 < 2 ^ 63 by decide)
  · rw [instanceToYaml_of_parse _ _ hmax, instanceToYaml_of_parse _ _ hminus]
    rfl

end FastDdsSpy
