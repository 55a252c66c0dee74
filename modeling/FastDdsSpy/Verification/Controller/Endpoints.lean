import FastDdsSpy.Model.EndpointThreads

/-! # `update_endpoints`

The loops of `update_endpoints` compute, for every endpoint, whether one of its partitions
passes the filters, and overwrite the active flags with the answer. -/

namespace FastDdsSpy.Controller

open Std

variable {τ : Type*} (env : External)

/-! ## The partition filter -/

/-- The components of a partition string, the empty ones included. -/
def components (partitions : String) : List String :=
  (partitions.toList.splitOn '|').map String.ofList

/-- A partition and a filter match in one of the two directions. -/
def PartitionMatches (filters : ExtTreeSet String) (partition : String) : Prop :=
  ∃ filter ∈ filters, env.matchPattern filter partition = true ∨
    env.matchPattern partition filter = true

/-- Some partition of the endpoint matches some filter. -/
def MatchesSome (filters : ExtTreeSet String) (info : EndpointInfo) : Prop :=
  ∃ guid partitions : String, info.specificPartitions[guid]? = some partitions ∧
    ∃ partition ∈ components partitions, PartitionMatches env filters partition

/-- An empty set of filters lets everything pass. -/
def Passes (filters : ExtTreeSet String) (info : EndpointInfo) : Prop :=
  filters = ∅ ∨ MatchesSome env filters info

theorem matchesFilter_iff (filters : ExtTreeSet String) (partition : String) :
    matchesFilter env filters partition = true ↔ PartitionMatches env filters partition := by
  simp [matchesFilter, PartitionMatches]

theorem modifyHead_empty_append (parts : List (List Char)) :
    parts.modifyHead ("".toList ++ ·) = parts := by
  cases parts with
  | nil => rfl
  | cons part parts => simp

/-- The character loop matches each component, the first one behind what it has read. -/
theorem scanPartitions_eq (filters : ExtTreeSet String) (chars : List Char)
    (currPartition : String) (active : Bool) :
    scanPartitions env filters chars currPartition active =
      (((chars.splitOn '|').modifyHead (currPartition.toList ++ ·)).any
        (fun partition => matchesFilter env filters (String.ofList partition)) || active) := by
  induction chars generalizing currPartition active with
  | nil => simp [scanPartitions, List.splitOn_nil]
  | cons ch rest ih =>
      rw [scanPartitions, List.splitOn_cons_eq_if_modifyHead]
      by_cases hch : ch = '|'
      · rw [if_pos hch, ih, modifyHead_empty_append]
        simp [hch, Bool.or_left_comm, Bool.or_assoc]
      · rw [if_neg hch, ih]
        have hne : (ch == '|') = false := by simp [hch]
        rw [hne, if_neg (by simp), List.modifyHead_modifyHead]
        congr 3
        funext partition
        simp

theorem scanPartitions_iff (filters : ExtTreeSet String) (partitions : String) (active : Bool) :
    scanPartitions env filters partitions.toList "" active = true ↔
      (∃ partition ∈ components partitions, PartitionMatches env filters partition) ∨
        active = true := by
  rw [scanPartitions_eq, modifyHead_empty_append]
  simp [components, matchesFilter_iff]

theorem foldl_scanPartitions_iff (filters : ExtTreeSet String) (pairs : List (String × String))
    (active : Bool) :
    pairs.foldl (fun active pair => scanPartitions env filters pair.2.toList "" active) active =
        true ↔
      (∃ pair ∈ pairs, ∃ partition ∈ components pair.2,
        PartitionMatches env filters partition) ∨ active = true := by
  induction pairs generalizing active with
  | nil => simp
  | cons pair pairs ih =>
      rw [List.foldl_cons, ih, scanPartitions_iff]
      simp only [List.mem_cons, exists_eq_or_imp]
      rw [or_left_comm, or_assoc]

/-- The flag that is computed for an endpoint is whether it passes the filters. -/
theorem endpointActive_iff (filters : ExtTreeSet String) (info : EndpointInfo) :
    endpointActive env filters info = true ↔ Passes env filters info := by
  unfold endpointActive Passes
  by_cases hf : filters = ∅
  · simp [hf]
  · have hne : filters.isEmpty = false := ExtTreeSet.isEmpty_eq_false_iff.mpr hf
    rw [hne, if_neg (by simp), foldl_scanPartitions_iff]
    simp [hf, MatchesSome, ExtTreeMap.mem_toList_iff_getElem?_eq_some]

/-! ## The write-back -/

theorem getElem?_writeBack (flag : Guid → Bool) (guids : List Guid)
    (database : ExtTreeMap Guid EndpointInfoData) (guid : Guid) :
    (writeBack database (guids.map (fun guid => (guid, flag guid))))[guid]? =
      if guid ∈ guids then
        database[guid]?.map (fun entry : EndpointInfoData => entry.setActive (flag guid))
      else database[guid]? := by
  induction guids generalizing database with
  | nil => simp [writeBack]
  | cons written guids ih =>
      have hfirst : ∀ entry, database[written]? = some entry →
          writeBack database ((written :: guids).map (fun guid => (guid, flag guid))) =
            writeBack (database.insert written (entry.setActive (flag written)))
              (guids.map (fun guid => (guid, flag guid))) := by
        intro entry hentry
        simp [writeBack, hentry]
      cases hentry : database[written]? with
      | none =>
          have hskip : writeBack database ((written :: guids).map (fun guid => (guid, flag guid))) =
              writeBack database (guids.map (fun guid => (guid, flag guid))) := by
            simp [writeBack, hentry]
          rw [hskip, ih]
          by_cases hg : written = guid
          · subst hg
            simp [hentry]
          · simp [Ne.symm hg]
      | some entry =>
          rw [hfirst entry hentry, ih, ExtTreeMap.getElem?_insert]
          by_cases hg : written = guid
          · subst hg
            simp [hentry]
          · simp [hg, Ne.symm hg]

/-- `update_endpoints` sets every active flag to whether the endpoint passes the filters
and changes nothing else in the database. -/
theorem getElem?_updateEndpoints (c : Controller τ) (guid : Guid) :
    (updateEndpoints env c).model.endpointDatabase[guid]? =
      c.model.endpointDatabase[guid]?.map (fun entry : EndpointInfoData =>
        entry.setActive (endpointActive env c.partitionFilterSet entry.info)) := by
  have hflags : c.model.endpointDatabase.toList.map (fun entry =>
        (entry.1, endpointActive env c.partitionFilterSet entry.2.info)) =
      (c.model.endpointDatabase.toList.map Prod.fst).map (fun guid =>
        (guid, (c.model.endpointDatabase[guid]?.map (fun entry =>
          endpointActive env c.partitionFilterSet entry.info)).getD false)) := by
    rw [List.map_map]
    refine List.map_congr_left fun entry hentry => ?_
    have hget := ExtTreeMap.mem_toList_iff_getElem?_eq_some.mp hentry
    simp [hget]
  unfold updateEndpoints
  rw [hflags, getElem?_writeBack]
  cases hentry : c.model.endpointDatabase[guid]? with
  | none => simp
  | some entry =>
      have hmem : guid ∈ c.model.endpointDatabase :=
        (ExtTreeMap.getElem?_eq_some_iff.mp hentry).fst
      simp [hmem]

theorem updateEndpoints_eq (c : Controller τ) : updateEndpoints env c =
    { c with
      model := { c.model with
        endpointDatabase := writeBack c.model.endpointDatabase
          (endpointFlags env c.partitionFilterSet c.model.endpointDatabase) } } := rfl

theorem mem_writeBack {guid : Guid} {flags : List (Guid × Bool)}
    {database : ExtTreeMap Guid EndpointInfoData} :
    guid ∈ writeBack database flags ↔ guid ∈ database := by
  induction flags generalizing database with
  | nil => rfl
  | cons flag flags ih =>
      have hcons : writeBack database (flag :: flags) = writeBack (writeBack database [flag])
          flags := rfl
      rw [hcons, ih]
      cases hentry : database[flag.1]? with
      | none => simp [writeBack, hentry]
      | some entry =>
          have hmem : flag.1 ∈ database := (ExtTreeMap.getElem?_eq_some_iff.mp hentry).fst
          simp only [writeBack, List.foldl_cons, List.foldl_nil, hentry, ExtTreeMap.mem_insert,
            Std.compare_eq_iff_eq]
          constructor
          · intro h
            rcases h with rfl | h
            · exact hmem
            · exact h
          · exact Or.inr

/-- Flags are computed for the endpoints of the database. -/
theorem mem_of_mem_endpointFlags {filters : ExtTreeSet String}
    {database : ExtTreeMap Guid EndpointInfoData} {flag : Guid × Bool}
    (h : flag ∈ endpointFlags env filters database) : flag.1 ∈ database := by
  obtain ⟨endpoint, hendpoint, rfl⟩ := List.mem_map.mp h
  have hentry := ExtTreeMap.mem_toList_iff_getElem?_eq_some.mp hendpoint
  exact (ExtTreeMap.getElem?_eq_some_iff.mp hentry).fst

/-- Every `find` of the write-back finds an entry, whatever has been written before it. -/
theorem writeBack_finds {filters : ExtTreeSet String}
    {database : ExtTreeMap Guid EndpointInfoData} {written rest : List (Guid × Bool)}
    {flag : Guid × Bool} (h : endpointFlags env filters database = written ++ flag :: rest) :
    flag.1 ∈ writeBack database written := by
  rw [mem_writeBack]
  apply mem_of_mem_endpointFlags env
  rw [h]
  exact List.mem_append_right _ List.mem_cons_self

end FastDdsSpy.Controller
