import FastDdsSpy.Verification.Controller.Endpoints
import FastDdsSpy.Verification.Instances
import FastDdsSpy.Verification.ModelParser.Lookups

/-! # What the partition filters select

`update_endpoints` overwrites every active flag with a function of the other fields, so
what it leaves depends on the filters and the partitions alone. -/

namespace FastDdsSpy.Controller

open Std

variable {τ : Type*} (env : External)

/-! ## The flags are a function of the rest -/

/-- The two databases have the same entries up to the active flags. -/
def SameButFlags (database database' : ExtTreeMap Guid EndpointInfoData) : Prop :=
  ∀ guid : Guid, database[guid]?.map (fun entry : EndpointInfoData => entry.setActive false) =
    database'[guid]?.map (fun entry : EndpointInfoData => entry.setActive false)

@[simp] theorem endpointActive_setActive (filters : ExtTreeSet String) (data : EndpointInfoData)
    (active : Bool) : endpointActive env filters (data.setActive active).info =
      endpointActive env filters data.info := rfl

/-- Databases that differ in their flags only are the same after the update. -/
theorem updateEndpoints_congr {c c' : Controller τ}
    (hfilters : c'.partitionFilterSet = c.partitionFilterSet)
    (hdatabase : SameButFlags c.model.endpointDatabase c'.model.endpointDatabase) :
    (updateEndpoints env c').model.endpointDatabase =
      (updateEndpoints env c).model.endpointDatabase := by
  apply ExtTreeMap.ext_getElem?
  intro guid
  rw [getElem?_updateEndpoints, getElem?_updateEndpoints, hfilters]
  have hentry := hdatabase guid
  cases hold : c.model.endpointDatabase[guid]? with
  | none =>
      rw [hold, Option.map_none, eq_comm, Option.map_eq_none_iff] at hentry
      rw [hentry]
  | some entry =>
      rw [hold, Option.map_some, eq_comm, Option.map_eq_some_iff] at hentry
      obtain ⟨entry', hnew, heq⟩ := hentry
      have hflag : endpointActive env c.partitionFilterSet entry'.info =
          endpointActive env c.partitionFilterSet entry.info := by
        rw [← endpointActive_setActive env _ entry' false, heq, endpointActive_setActive]
      rw [hnew, Option.map_some, Option.map_some, hflag,
        ← EndpointInfoData.setActive_setActive entry' false, heq,
        EndpointInfoData.setActive_setActive]

theorem sameButFlags_updateEndpoints (c : Controller τ) :
    SameButFlags c.model.endpointDatabase (updateEndpoints env c).model.endpointDatabase := by
  intro guid
  rw [getElem?_updateEndpoints]
  cases c.model.endpointDatabase[guid]? <;> simp

/-- The update sees the partitions of an endpoint only, so a second one changes nothing. -/
theorem updateEndpoints_idem (c : Controller τ) :
    updateEndpoints env (updateEndpoints env c) = updateEndpoints env c := by
  have hdatabase : (updateEndpoints env (updateEndpoints env c)).model.endpointDatabase =
      (updateEndpoints env c).model.endpointDatabase :=
    updateEndpoints_congr env rfl (sameButFlags_updateEndpoints env c)
  conv_lhs => rw [updateEndpoints_eq env (updateEndpoints env c)]
  exact congrArg (fun database => { updateEndpoints env c with
    model := { (updateEndpoints env c).model with endpointDatabase := database } }) hdatabase

/-! ## The update as a whole -/

/-- `c'` is `c` with the active flag of every endpoint set to whether it passes the
partition filters. -/
structure ExactlyFiltered (env : External) (c c' : Controller τ) : Prop where
  rest_eq : c' = { c with
    model := { c.model with endpointDatabase := c'.model.endpointDatabase } }
  guids_eq : ∀ guid, guid ∈ c'.model.endpointDatabase ↔ guid ∈ c.model.endpointDatabase
  entry_eq : ∀ (guid : Guid) (entry entry' : EndpointInfoData),
    c.model.endpointDatabase[guid]? = some entry → c'.model.endpointDatabase[guid]? = some entry' →
      entry' = entry.setActive entry'.info.active
  active_iff : ∀ (guid : Guid) (entry' : EndpointInfoData),
    c'.model.endpointDatabase[guid]? = some entry' →
      (entry'.info.active = true ↔ Passes env c.partitionFilterSet entry'.info)

theorem exactlyFiltered_updateEndpoints (c : Controller τ) :
    ExactlyFiltered env c (updateEndpoints env c) := by
  refine ⟨rfl, fun guid => ?_, fun guid entry entry' hentry hentry' => ?_,
    fun guid entry' hentry' => ?_⟩
  · rw [ExtTreeMap.mem_iff_isSome_getElem?, ExtTreeMap.mem_iff_isSome_getElem?,
      getElem?_updateEndpoints, Option.isSome_map]
  · rw [getElem?_updateEndpoints, hentry] at hentry'
    obtain rfl := Option.some.inj hentry'
    rfl
  · rw [getElem?_updateEndpoints] at hentry'
    obtain ⟨entry, -, rfl⟩ := Option.map_eq_some_iff.mp hentry'
    exact endpointActive_iff env c.partitionFilterSet entry.info

/-- `update_endpoints` applies exactly the partition filters: it sets each flag to whether
the endpoint passes them and keeps everything else, the flags before it do not matter, and
a second update changes nothing. -/
theorem updateEndpoints_exact (c : Controller τ) :
    ExactlyFiltered env c (updateEndpoints env c) ∧
      (∀ c' : Controller τ, c'.partitionFilterSet = c.partitionFilterSet →
        SameButFlags c.model.endpointDatabase c'.model.endpointDatabase →
          (updateEndpoints env c').model.endpointDatabase =
            (updateEndpoints env c).model.endpointDatabase) ∧
      updateEndpoints env (updateEndpoints env c) = updateEndpoints env c :=
  ⟨exactlyFiltered_updateEndpoints env c, fun _ => updateEndpoints_congr env,
    updateEndpoints_idem env c⟩

/-! ## The partition that is shown

The listings show an endpoint without a stored partition with the empty one. The loop of
`update_endpoints` has no partition to match for it. -/

open ModelParser

/-- The endpoint stores no partition but its own. -/
def OwnPartitionOnly (guid : Guid) (info : EndpointInfo) : Prop :=
  ∀ key ∈ info.specificPartitions, key = env.guidToString guid

/-- The endpoint is active just when a component of the partition that is shown for it
matches a filter. -/
def FilteredAsShown (filters : ExtTreeSet String) (guid : Guid) (info : EndpointInfo) : Prop :=
  info.active = true ↔
    ∃ partition ∈ components (partitionOf env guid info), PartitionMatches env filters partition

theorem components_empty : components "" = [""] := by
  simp [components, List.splitOn_nil]

/-- With its own partition stored, an endpoint matches by the partition that is shown. -/
theorem matchesSome_of_own {filters : ExtTreeSet String} {guid : Guid} {info : EndpointInfo}
    (hown : OwnPartitionOnly env guid info)
    (hstored : env.guidToString guid ∈ info.specificPartitions) :
    MatchesSome env filters info ↔ ∃ partition ∈ components (partitionOf env guid info),
      PartitionMatches env filters partition := by
  obtain ⟨own, hpartition⟩ :=
    Option.isSome_iff_exists.mp (ExtTreeMap.mem_iff_isSome_getElem?.mp hstored)
  have hshown : partitionOf env guid info = own := by
    rw [partitionOf, hpartition, Option.getD_some]
  rw [hshown]
  constructor
  · intro h
    obtain ⟨key, partitions, hget, hmatch⟩ := h
    have hkey : key = env.guidToString guid :=
      hown key (ExtTreeMap.getElem?_eq_some_iff.mp hget).fst
    rw [hkey, hpartition] at hget
    rwa [Option.some.inj hget]
  · exact fun hmatch => ⟨_, own, hpartition, hmatch⟩

/-- Without a stored partition an endpoint matches nothing. -/
theorem not_matchesSome_of_none {filters : ExtTreeSet String} {guid : Guid} {info : EndpointInfo}
    (hown : OwnPartitionOnly env guid info)
    (hnone : env.guidToString guid ∉ info.specificPartitions) :
    ¬ MatchesSome env filters info := by
  intro h
  obtain ⟨key, partitions, hget, -⟩ := h
  have hkey : key ∈ info.specificPartitions := (ExtTreeMap.getElem?_eq_some_iff.mp hget).fst
  exact hnone (hown key hkey ▸ hkey)

theorem partitionOf_of_none {guid : Guid} {info : EndpointInfo}
    (hnone : env.guidToString guid ∉ info.specificPartitions) :
    partitionOf env guid info = "" := by
  rw [partitionOf, ExtTreeMap.getElem?_eq_none hnone, Option.getD_none]

/-- An endpoint passes the filters by the partition that is shown for it, unless it stores
none and the empty partition matches a filter. -/
theorem matchesSome_iff_shown {filters : ExtTreeSet String} {guid : Guid} {info : EndpointInfo}
    (hown : OwnPartitionOnly env guid info) :
    (MatchesSome env filters info ↔ ∃ partition ∈ components (partitionOf env guid info),
        PartitionMatches env filters partition) ↔
      (env.guidToString guid ∈ info.specificPartitions ∨ ¬ PartitionMatches env filters "") := by
  by_cases hstored : env.guidToString guid ∈ info.specificPartitions
  · exact iff_of_true (matchesSome_of_own env hown hstored) (.inl hstored)
  · have hnot : ¬ MatchesSome env filters info := not_matchesSome_of_none env hown hstored
    rw [partitionOf_of_none env hstored, components_empty]
    simp [hnot, hstored]

/-- After an update with a filter, an endpoint is active by the partition that is shown for
it if and only if its partition is stored or the empty partition matches no filter. -/
theorem filteredAsShown_iff_stored (c : Controller τ) (hfilters : c.partitionFilterSet ≠ ∅)
    {guid : Guid} {entry : EndpointInfoData}
    (hentry : c.model.endpointDatabase[guid]? = some entry)
    (hown : OwnPartitionOnly env guid entry.info) :
    (∃ entry', (updateEndpoints env c).model.endpointDatabase[guid]? = some entry' ∧
        FilteredAsShown env c.partitionFilterSet guid entry'.info) ↔
      (env.guidToString guid ∈ entry.info.specificPartitions ∨
        ¬ PartitionMatches env c.partitionFilterSet "") := by
  rw [← matchesSome_iff_shown env hown, getElem?_updateEndpoints, hentry]
  have hactive : endpointActive env c.partitionFilterSet entry.info = true ↔
      MatchesSome env c.partitionFilterSet entry.info := by
    rw [endpointActive_iff]
    exact or_iff_right hfilters
  rw [← hactive]
  simp [FilteredAsShown, partitionOf]

/-- A controller that has received one endpoint and has one partition filter. -/
def withEndpoint (filter : String) (endpointInfo : EndpointInfoData) : Controller Unit :=
  let c := start (withPartitions ((∅ : ExtTreeSet String).insert filter))
  { c with model := c.model.newEndpointInfo endpointInfo }

theorem getElem?_withEndpoint (filter : String) (endpointInfo : EndpointInfoData) :
    (withEndpoint filter endpointInfo).model.endpointDatabase[endpointInfo.info.guid]? =
      some endpointInfo := by
  simp [withEndpoint, endpointDatabase_newEndpointInfo]

theorem withEndpoint_filters_ne (filter : String) (endpointInfo : EndpointInfoData) :
    (withEndpoint filter endpointInfo).partitionFilterSet ≠ ∅ := by
  simp [withEndpoint, start, setPartitionFilter, setContentTopicFilter, withPartitions]

theorem filteredAsShown_record :
    (∃ entry', (updateEndpoints literal (withEndpoint "A"
        (writerRecord ⟨1, 2⟩ "A|B" true))).model.endpointDatabase[(⟨1, 2⟩ : Guid)]? = some entry' ∧
      FilteredAsShown literal ((∅ : ExtTreeSet String).insert "A") ⟨1, 2⟩ entry'.info) ↔
    (literal.guidToString ⟨1, 2⟩ ∈ (writerRecord ⟨1, 2⟩ "A|B" true).info.specificPartitions ∨
      ¬ PartitionMatches literal ((∅ : ExtTreeSet String).insert "A") "") :=
  filteredAsShown_iff_stored literal (withEndpoint "A" (writerRecord ⟨1, 2⟩ "A|B" true))
    (withEndpoint_filters_ne _ _) (getElem?_withEndpoint "A" (writerRecord ⟨1, 2⟩ "A|B" true))
    (by simp [OwnPartitionOnly, writerRecord])

/-- A writer without a stored partition is shown in the empty one, which the filter `*`
matches, and is inactive under that filter; with the empty partition stored it is active. -/
theorem not_filteredAsShown_none :
    partitionOf wildcard ⟨1, 2⟩ (writerOn ⟨1, 2⟩ keyedTopic).info = "" ∧
      partitionOf wildcard ⟨1, 2⟩ (writerRecord ⟨1, 2⟩ "" true).info = "" ∧
      OwnPartitionOnly wildcard ⟨1, 2⟩ (writerOn ⟨1, 2⟩ keyedTopic).info ∧
      (updateEndpoints wildcard (withEndpoint "*"
        (writerOn ⟨1, 2⟩ keyedTopic))).model.endpointDatabase[(⟨1, 2⟩ : Guid)]? =
          some ((writerOn ⟨1, 2⟩ keyedTopic).setActive false) ∧
      (updateEndpoints wildcard (withEndpoint "*"
        (writerRecord ⟨1, 2⟩ "" true))).model.endpointDatabase[(⟨1, 2⟩ : Guid)]? =
          some (writerRecord ⟨1, 2⟩ "" true) ∧
      ¬ FilteredAsShown wildcard ((∅ : ExtTreeSet String).insert "*") ⟨1, 2⟩
        ((writerOn ⟨1, 2⟩ keyedTopic).setActive false).info := by
  have hentry : ∀ endpointInfo : EndpointInfoData, endpointInfo.info.guid = ⟨1, 2⟩ →
      (updateEndpoints wildcard
        (withEndpoint "*" endpointInfo)).model.endpointDatabase[(⟨1, 2⟩ : Guid)]? =
          some (endpointInfo.setActive (endpointActive wildcard
            ((∅ : ExtTreeSet String).insert "*") endpointInfo.info)) := by
    intro endpointInfo hguid
    rw [getElem?_updateEndpoints, ← hguid, getElem?_withEndpoint, Option.map_some]
    rfl
  have hmatch : PartitionMatches wildcard ((∅ : ExtTreeSet String).insert "*") "" :=
    ⟨"*", by simp, .inl (by decide)⟩
  have hnone : endpointActive wildcard ((∅ : ExtTreeSet String).insert "*")
      (writerOn ⟨1, 2⟩ keyedTopic).info = false := by decide
  have hempty : endpointActive wildcard ((∅ : ExtTreeSet String).insert "*")
      (writerRecord ⟨1, 2⟩ "" true).info = true := by decide
  refine ⟨rfl, rfl, by simp [OwnPartitionOnly, writerOn], ?_, ?_, ?_⟩
  · rw [hentry _ rfl, hnone]
  · rw [hentry _ rfl, hempty]
    rfl
  · intro h
    exact Bool.false_ne_true (h.mpr ⟨"", by decide, hmatch⟩)

end FastDdsSpy.Controller
