import FastDdsSpy.Verification.Controller.Endpoints
import FastDdsSpy.Verification.Instances

/-! # Updates of the flags while records arrive

An update writes back a copy of each entry. A record that arrives between the copy and its
write is overwritten, and nothing but a newer record brings its contents back. -/

namespace FastDdsSpy.EndpointThreads

open Std PastTime

variable {env : External}

/-- The discovery record of this endpoint that a step stores. -/
def Step.recordOf (guid : Guid) : Step → Option EndpointInfoData
  | .newEndpointInfo endpointInfo =>
      if endpointInfo.info.guid = guid then some endpointInfo else none
  | _ => none

/-- The most recent discovery record of an endpoint. -/
def lastRecord (guid : Guid) (es : List Step) : Option EndpointInfoData :=
  latest (Step.recordOf guid) es

theorem lastRecord_concat (guid : Guid) (es : List Step) (e : Step) :
    lastRecord guid (es ++ [e]) = (e.recordOf guid).or (lastRecord guid es) :=
  latest_concat _ es e

@[simp] theorem exec_concat (es : List Step) (e : Step) :
    exec env (es ++ [e]) = step env (exec env es) e := by
  simp [exec]

/-- Two entries with the same fields other than the active flag. -/
def SameButActive (entry entry' : EndpointInfoData) : Prop :=
  entry.setActive false = entry'.setActive false

/-! ## Steps -/

section Steps

variable {s : State} {flag : Guid × Bool} {rest : List (Guid × Bool)}

theorem step_copy (hflags : s.flags = flag :: rest) (htmp : s.endpointTmp = none) :
    step env s .copy = { s with endpointTmp := s.endpointDatabase[flag.1]? } := by
  simp [step, hflags, htmp]

theorem step_copy_of_held {entry : EndpointInfoData} (htmp : s.endpointTmp = some entry) :
    step env s .copy = s := by
  cases hflags : s.flags <;> simp [step, hflags, htmp]

theorem step_write {entry : EndpointInfoData} (hflags : s.flags = flag :: rest)
    (htmp : s.endpointTmp = some entry) : step env s .write =
      ⟨s.endpointDatabase.insert flag.1 (entry.setActive flag.2), rest, none⟩ := by
  simp [step, hflags, htmp]

theorem step_write_of_idle (htmp : s.endpointTmp = none) : step env s .write = s := by
  cases hflags : s.flags <;> simp [step, hflags, htmp]

theorem step_of_no_flags (hflags : s.flags = []) :
    step env s .copy = s ∧ step env s .write = s := by
  simp [step, hflags]

end Steps

/-- A copy and a write for each flag, with no record in between, are the write-back. -/
theorem run_copy_write (env : External) {flags : List (Guid × Bool)}
    {database : ExtTreeMap Guid EndpointInfoData} (hmem : ∀ flag ∈ flags, flag.1 ∈ database) :
    run (step env) ⟨database, flags, none⟩ (flags.flatMap (fun _ => [.copy, .write])) =
      ⟨Controller.writeBack database flags, [], none⟩ := by
  induction flags generalizing database with
  | nil => rfl
  | cons flag flags ih =>
      obtain ⟨hflag, hflags⟩ := List.forall_mem_cons.mp hmem
      obtain ⟨entry, hentry⟩ := Option.isSome_iff_exists.mp
        (ExtTreeMap.mem_iff_isSome_getElem?.mp hflag)
      have hfirst : step env (step env ⟨database, flag :: flags, none⟩ .copy) .write =
          ⟨database.insert flag.1 (entry.setActive flag.2), flags, none⟩ := by
        simp [step, hentry]
      have hrest : ∀ flag' ∈ flags,
          flag'.1 ∈ database.insert flag.1 (entry.setActive flag.2) :=
        fun flag' hflag' => ExtTreeMap.mem_insert.mpr (.inr (hflags flag' hflag'))
      rw [List.flatMap_cons, List.cons_append, List.cons_append, List.nil_append, run_cons,
        run_cons, hfirst, ih hrest]
      simp [Controller.writeBack, hentry]

/-- An update that no record interrupts is `update_endpoints`. -/
theorem run_update {τ : Type*} (env : External) (c : Controller τ) :
    run (step env) ⟨c.model.endpointDatabase, [], none⟩ (.readFlags c.partitionFilterSet ::
        (Controller.endpointFlags env c.partitionFilterSet c.model.endpointDatabase).flatMap
          (fun _ => [.copy, .write])) =
      ⟨(Controller.updateEndpoints env c).model.endpointDatabase, [], none⟩ := by
  rw [run_cons, Controller.updateEndpoints_eq]
  exact run_copy_write env fun flag => Controller.mem_of_mem_endpointFlags env

/-! ## Lost updates -/

/-- The update holds a copy of the entry of this endpoint. -/
def HoldsCopy (s : State) (guid : Guid) (entry : EndpointInfoData) : Prop :=
  ∃ active rest, s.flags = (guid, active) :: rest ∧ s.endpointTmp = some entry

/-- The update holds a copy of an entry for which a record has arrived since. -/
def RecordInGap (env : External) (es : List Step) : Prop :=
  Since (fun pre e => ∃ guid entry, HoldsCopy (exec env pre) guid entry ∧
      (e.recordOf guid).isSome = true)
    (fun _ e => e = .write) es

/-- The step writes a copy back over a record that arrived in the gap and differs from it. -/
def WritesStale (env : External) (guid : Guid) (pre : List Step) (e : Step) : Prop :=
  e = .write ∧ RecordInGap env pre ∧ ∃ entry record, HoldsCopy (exec env pre) guid entry ∧
    lastRecord guid pre = some record ∧ ¬ SameButActive entry record

/-- A record of the endpoint was overwritten, and there has been none since. -/
def LostUpdate (env : External) (guid : Guid) (es : List Step) : Prop :=
  Since (WritesStale env guid) (fun _ e => (e.recordOf guid).isSome = true) es

theorem not_holdsCopy_of_idle {s : State} (htmp : s.endpointTmp = none) (guid : Guid)
    (entry : EndpointInfoData) : ¬ HoldsCopy s guid entry := by
  intro hholds
  obtain ⟨active, rest, -, hsome⟩ := hholds
  simp [htmp] at hsome

/-- The copy in hand is of the first of the remaining endpoints. -/
theorem holdsCopy_iff {s : State} {flag : Guid × Bool} {rest : List (Guid × Bool)}
    {copy : EndpointInfoData} (hflags : s.flags = flag :: rest) (htmp : s.endpointTmp = some copy)
    {guid : Guid} {entry : EndpointInfoData} :
    HoldsCopy s guid entry ↔ guid = flag.1 ∧ entry = copy := by
  constructor
  · intro hholds
    obtain ⟨active, rest', hcons, hsome⟩ := hholds
    rw [hflags] at hcons
    exact ⟨congrArg Prod.fst (List.cons.inj hcons).1.symm,
      Option.some.inj (hsome.symm.trans htmp)⟩
  · intro heq
    obtain ⟨rfl, rfl⟩ := heq
    exact ⟨flag.2, rest, hflags, htmp⟩

theorem writesStale_iff {es : List Step} {flag : Guid × Bool} {rest : List (Guid × Bool)}
    {copy record : EndpointInfoData} {guid : Guid} (hflags : (exec env es).flags = flag :: rest)
    (htmp : (exec env es).endpointTmp = some copy) (hrecord : lastRecord guid es = some record) :
    WritesStale env guid es .write ↔
      guid = flag.1 ∧ RecordInGap env es ∧ ¬ SameButActive copy record := by
  simp only [WritesStale, holdsCopy_iff hflags htmp, hrecord, true_and]
  constructor
  · intro hstale
    obtain ⟨hgap, entry, record', ⟨rfl, rfl⟩, hsome, hne⟩ := hstale
    cases hsome
    exact ⟨rfl, hgap, hne⟩
  · intro hall
    obtain ⟨rfl, hgap, hne⟩ := hall
    exact ⟨hgap, copy, record, ⟨rfl, rfl⟩, rfl, hne⟩

section Concat

variable {es : List Step} {e : Step}

theorem recordInGap_concat : RecordInGap env (es ++ [e]) ↔
    (∃ guid entry, HoldsCopy (exec env es) guid entry ∧ (e.recordOf guid).isSome = true) ∨
      (RecordInGap env es ∧ ¬ e = .write) :=
  since_concat

theorem lostUpdate_concat {guid : Guid} : LostUpdate env guid (es ++ [e]) ↔
    WritesStale env guid es e ∨
      (LostUpdate env guid es ∧ ¬ (e.recordOf guid).isSome = true) :=
  since_concat

theorem lostUpdate_concat_of_ne_write {guid : Guid} (he : e ≠ .write) :
    LostUpdate env guid (es ++ [e]) ↔
      LostUpdate env guid es ∧ ¬ (e.recordOf guid).isSome = true := by
  rw [lostUpdate_concat]
  exact or_iff_right fun h => he h.1

end Concat

/-! ## What the database holds during an update -/

/-- The entry of an endpoint has the contents of its last record unless they were lost; a
copy in hand is the current entry unless a record came in between. -/
structure DatabaseInv (env : External) (es : List Step) (s : State) : Prop where
  isSome_eq : ∀ guid : Guid, s.endpointDatabase[guid]?.isSome = (lastRecord guid es).isSome
  same_iff : ∀ (guid : Guid) entry record, s.endpointDatabase[guid]? = some entry →
    lastRecord guid es = some record → (SameButActive entry record ↔ ¬ LostUpdate env guid es)
  flags_mem : ∀ flag ∈ s.flags, flag.1 ∈ s.endpointDatabase
  holds : ∀ entry, s.endpointTmp = some entry → ∃ flag rest, s.flags = flag :: rest ∧
    (RecordInGap env es → s.endpointDatabase[flag.1]? = lastRecord flag.1 es) ∧
    (¬ RecordInGap env es → s.endpointDatabase[flag.1]? = some entry)
  no_gap : s.endpointTmp = none → ¬ RecordInGap env es

theorem DatabaseInv.tmp_of_no_flags {es : List Step} {s : State} (h : DatabaseInv env es s)
    (hflags : s.flags = []) : s.endpointTmp = none := by
  cases htmp : s.endpointTmp with
  | none => rfl
  | some entry =>
      obtain ⟨flag, rest, hcons, -, -⟩ := h.holds entry htmp
      simp [hflags] at hcons

section Preserved

variable {es : List Step}

/-- A step that stores no record, writes nothing and leaves the database alone. -/
theorem DatabaseInv.frame {e : Step} {s' : State} (h : DatabaseInv env es (exec env es))
    (hrecord : ∀ guid, e.recordOf guid = none) (hwrite : e ≠ .write)
    (hdatabase : s'.endpointDatabase = (exec env es).endpointDatabase)
    (hflags : ∀ flag ∈ s'.flags, flag.1 ∈ s'.endpointDatabase)
    (htmp : ∀ entry, s'.endpointTmp = some entry → ∃ flag rest, s'.flags = flag :: rest ∧
      (RecordInGap env es → s'.endpointDatabase[flag.1]? = lastRecord flag.1 es) ∧
      (¬ RecordInGap env es → s'.endpointDatabase[flag.1]? = some entry))
    (hgap : s'.endpointTmp = none → ¬ RecordInGap env es) : DatabaseInv env (es ++ [e]) s' := by
  have hlast : ∀ guid, lastRecord guid (es ++ [e]) = lastRecord guid es := by
    intro guid
    rw [lastRecord_concat, hrecord, Option.none_or]
  have hlost : ∀ guid, LostUpdate env guid (es ++ [e]) ↔ LostUpdate env guid es := by
    intro guid
    simp [lostUpdate_concat_of_ne_write hwrite, hrecord]
  have hin : RecordInGap env (es ++ [e]) ↔ RecordInGap env es := by
    simp [recordInGap_concat, hrecord, hwrite]
  refine ⟨?_, ?_, hflags, ?_, ?_⟩
  · simpa only [hdatabase, hlast] using h.isSome_eq
  · simpa only [hdatabase, hlast, hlost] using h.same_iff
  · simpa only [hlast, hin] using htmp
  · simpa only [hin] using hgap

theorem DatabaseInv.readFlags (h : DatabaseInv env es (exec env es))
    (filters : ExtTreeSet String) :
    DatabaseInv env (es ++ [.readFlags filters]) (step env (exec env es) (.readFlags filters)) := by
  by_cases hflags : (exec env es).flags = []
  · have hstep : step env (exec env es) (.readFlags filters) = { exec env es with
        flags := Controller.endpointFlags env filters (exec env es).endpointDatabase } := by
      simp [step, hflags]
    have htmp := h.tmp_of_no_flags hflags
    rw [hstep]
    refine h.frame (fun _ => rfl) (by simp) rfl ?_ (by simp [htmp]) h.no_gap
    exact fun flag => Controller.mem_of_mem_endpointFlags env
  · have hstep : step env (exec env es) (.readFlags filters) = exec env es := by
      simp [step, hflags]
    rw [hstep]
    exact h.frame (fun _ => rfl) (by simp) rfl h.flags_mem h.holds h.no_gap

theorem DatabaseInv.copy (h : DatabaseInv env es (exec env es)) :
    DatabaseInv env (es ++ [.copy]) (step env (exec env es) .copy) := by
  cases htmp : (exec env es).endpointTmp with
  | some entry =>
      rw [step_copy_of_held htmp]
      exact h.frame (fun _ => rfl) (by simp) rfl h.flags_mem h.holds h.no_gap
  | none =>
      cases hflags : (exec env es).flags with
      | nil =>
          rw [(step_of_no_flags hflags).1]
          exact h.frame (fun _ => rfl) (by simp) rfl h.flags_mem h.holds h.no_gap
      | cons flag rest =>
          have hgap := h.no_gap htmp
          rw [step_copy hflags htmp]
          refine h.frame (fun _ => rfl) (by simp) rfl h.flags_mem ?_ (fun _ => hgap)
          intro entry hentry
          exact ⟨flag, rest, hflags, fun hin => absurd hin hgap, fun _ => hentry⟩

theorem DatabaseInv.newEndpointInfo (h : DatabaseInv env es (exec env es))
    (endpointInfo : EndpointInfoData) :
    DatabaseInv env (es ++ [.newEndpointInfo endpointInfo])
      (step env (exec env es) (.newEndpointInfo endpointInfo)) := by
  have hget : ∀ guid : Guid, (step env (exec env es)
      (.newEndpointInfo endpointInfo)).endpointDatabase[guid]? =
        ((Step.newEndpointInfo endpointInfo).recordOf guid).or
          (exec env es).endpointDatabase[guid]? := by
    intro guid
    by_cases hg : endpointInfo.info.guid = guid
    · simp [step, Step.recordOf, hg]
    · simp [step, Step.recordOf, ExtTreeMap.getElem?_insert, hg]
  refine ⟨?_, ?_, ?_, ?_, ?_⟩
  · intro guid
    rw [hget, lastRecord_concat, Option.isSome_or, Option.isSome_or, h.isSome_eq]
  · intro guid entry record hentry hrecord
    rw [lostUpdate_concat_of_ne_write (by simp)]
    rw [hget] at hentry
    rw [lastRecord_concat] at hrecord
    cases hstored : (Step.newEndpointInfo endpointInfo).recordOf guid with
    | none =>
        rw [hstored, Option.none_or] at hentry hrecord
        simpa using h.same_iff guid entry record hentry hrecord
    | some stored =>
        have heq : entry = record := by
          simp only [hstored, Option.some_or, Option.some.injEq] at hentry hrecord
          exact hentry.symm.trans hrecord
        simp [heq, SameButActive]
  · intro flag hflag
    have hmem := h.flags_mem flag hflag
    rw [ExtTreeMap.mem_iff_isSome_getElem?] at hmem ⊢
    rw [hget, Option.isSome_or, hmem, Bool.or_true]
  · intro entry hentry
    obtain ⟨flag, rest, hflags, hin, hout⟩ := h.holds entry hentry
    have hgap : RecordInGap env (es ++ [.newEndpointInfo endpointInfo]) ↔
        ((Step.newEndpointInfo endpointInfo).recordOf flag.1).isSome = true ∨
          RecordInGap env es := by
      simp [recordInGap_concat, holdsCopy_iff hflags hentry]
    refine ⟨flag, rest, hflags, ?_⟩
    rw [hget, lastRecord_concat, hgap]
    cases hstored : (Step.newEndpointInfo endpointInfo).recordOf flag.1 with
    | none => simpa using ⟨hin, hout⟩
    | some stored => simp
  · intro hnone
    have htmp : (exec env es).endpointTmp = none := hnone
    simpa [recordInGap_concat, not_holdsCopy_of_idle htmp] using h.no_gap htmp

/-- The copy in hand is written back with the flag that was computed for it. -/
theorem DatabaseInv.write (h : DatabaseInv env es (exec env es)) :
    DatabaseInv env (es ++ [.write]) (step env (exec env es) .write) := by
  have hlast : ∀ guid, lastRecord guid (es ++ [.write]) = lastRecord guid es := by
    intro guid
    rw [lastRecord_concat]
    rfl
  have hgap : ¬ RecordInGap env (es ++ [.write]) := by
    simp [recordInGap_concat, Step.recordOf]
  have hlost : ∀ guid, LostUpdate env guid (es ++ [.write]) ↔
      WritesStale env guid es .write ∨ LostUpdate env guid es := by
    intro guid
    simp [lostUpdate_concat, Step.recordOf]
  cases htmp : (exec env es).endpointTmp with
  | none =>
      have hstale (guid : Guid) : ¬ WritesStale env guid es .write := by
        simp [WritesStale, not_holdsCopy_of_idle htmp]
      rw [step_write_of_idle htmp]
      refine ⟨?_, ?_, h.flags_mem, by simp [htmp], fun _ => hgap⟩
      · simpa only [hlast] using h.isSome_eq
      · simpa only [hlast, hlost, hstale, false_or] using h.same_iff
  | some entry =>
      obtain ⟨flag, rest, hflags, hin, hout⟩ := h.holds entry htmp
      have hmem : flag.1 ∈ (exec env es).endpointDatabase := by
        apply h.flags_mem
        rw [hflags]
        exact List.mem_cons_self
      rw [step_write hflags htmp]
      refine ⟨?_, ?_, ?_, by simp, fun _ => hgap⟩
      · intro guid
        rw [hlast, ← h.isSome_eq, ExtTreeMap.getElem?_insert]
        split
        · rename_i hcmp
          obtain rfl := Std.compare_eq_iff_eq.mp hcmp
          exact (ExtTreeMap.mem_iff_isSome_getElem?.mp hmem).symm
        · rfl
      · intro guid entry' record hentry' hrecord
        rw [hlast] at hrecord
        rw [hlost, writesStale_iff hflags htmp hrecord]
        rw [ExtTreeMap.getElem?_insert] at hentry'
        split at hentry'
        · rename_i hcmp
          obtain rfl := Std.compare_eq_iff_eq.mp hcmp
          obtain rfl := Option.some.inj hentry'
          have hsame : SameButActive (entry.setActive flag.2) record ↔
              SameButActive entry record := Iff.rfl
          rw [hsame]
          by_cases hingap : RecordInGap env es
          · have hcurrent := (hin hingap).trans hrecord
            have hkept := (h.same_iff flag.1 record record hcurrent hrecord).mp rfl
            simp [hingap, hkept]
          · simpa [hingap] using h.same_iff flag.1 entry record (hout hingap) hrecord
        · rename_i hcmp
          have hne : guid ≠ flag.1 := fun heq => hcmp (Std.compare_eq_iff_eq.mpr heq.symm)
          simpa [hne] using h.same_iff guid entry' record hentry' hrecord
      · intro flag' hflag'
        have hrest : flag' ∈ (exec env es).flags := by
          rw [hflags]
          exact List.mem_cons_of_mem flag hflag'
        exact ExtTreeMap.mem_insert.mpr (.inr (h.flags_mem flag' hrest))

end Preserved

theorem databaseInv_exec (env : External) (es : List Step) : DatabaseInv env es (exec env es) := by
  induction es using List.reverseRecOn with
  | nil => exact ⟨by simp [exec, init, lastRecord], by simp [exec, init], by simp [exec, init],
      by simp [exec, init], fun _ => not_since_nil⟩
  | append_singleton es e ih =>
      rw [exec_concat]
      cases e with
      | newEndpointInfo endpointInfo => exact ih.newEndpointInfo endpointInfo
      | readFlags filters => exact ih.readFlags filters
      | copy => exact ih.copy
      | write => exact ih.write

/-! ## Finished updates -/

/-- If the event copies an entry, it finds one. -/
def CopyFinds (env : External) (pre : List Step) (e : Step) : Prop :=
  e = .copy → ∀ flag rest, (exec env pre).flags = flag :: rest →
    (exec env pre).endpointTmp = none → flag.1 ∈ (exec env pre).endpointDatabase

/-- When no update is under way, every entry has the contents of its last record. -/
def RecordsKept (env : External) (pre : List Step) : Prop :=
  (exec env pre).flags = [] → ∀ guid : Guid,
    (exec env pre).endpointDatabase[guid]?.map (fun entry => entry.setActive false) =
      (lastRecord guid pre).map (fun record => record.setActive false)

/-- When no update is under way, every record that a stale copy overwrote has a successor. -/
def NoLostUpdate (env : External) (pre : List Step) : Prop :=
  (exec env pre).flags = [] → ∀ guid, ¬ LostUpdate env guid pre

theorem copyFinds (env : External) (es : List Step) : EachStep (CopyFinds env) es := by
  intro pre e _ _ flag rest hflags _
  apply (databaseInv_exec env pre).flags_mem
  rw [hflags]
  exact List.mem_cons_self

theorem not_lostUpdate_of_no_record {guid : Guid} {es : List Step}
    (h : lastRecord guid es = none) : ¬ LostUpdate env guid es := by
  induction es using List.reverseRecOn with
  | nil => exact not_since_nil
  | append_singleton es e ih =>
      rw [lastRecord_concat, Option.or_eq_none_iff] at h
      rw [lostUpdate_concat]
      intro hlost
      rcases hlost with ⟨-, -, entry, record, -, hrecord, -⟩ | ⟨hlost, -⟩
      · simp [h.2] at hrecord
      · exact ih h.2 hlost

theorem recordsKept_iff (env : External) (pre : List Step) :
    RecordsKept env pre ↔ NoLostUpdate env pre := by
  have hinv := databaseInv_exec env pre
  refine imp_congr_right fun _ => forall_congr' fun guid => ?_
  have hsome := hinv.isSome_eq guid
  cases hrecord : lastRecord guid pre with
  | none =>
      rw [hrecord, Option.isSome_none, Option.isSome_eq_false_iff,
        Option.isNone_iff_eq_none] at hsome
      simp [hsome, not_lostUpdate_of_no_record hrecord]
  | some record =>
      rw [hrecord, Option.isSome_some, Option.isSome_iff_exists] at hsome
      obtain ⟨entry, hentry⟩ := hsome
      rw [hentry, ← hinv.same_iff guid entry record hentry hrecord]
      simp [SameButActive]

/-- In every interleaving the copies find their entries, and finished updates have lost no
record if and only if no stale copy is left that was written over one. -/
theorem updatesKeepRecords_iff (env : External) (es : List Step) :
    (EachStep (CopyFinds env) es ∧ Always (RecordsKept env) es) ↔ Always (NoLostUpdate env) es := by
  rw [and_iff_right (copyFinds env es)]
  exact forall₂_congr fun pre _ => recordsKept_iff env pre

/-- A writer moves to another partition between the copy of its entry and the write. -/
def movedWriter : List Step :=
  [.newEndpointInfo (writerRecord ⟨1, 2⟩ "A" true), .readFlags ∅, .copy,
    .newEndpointInfo (writerRecord ⟨1, 2⟩ "B" true), .write]

theorem not_updatesKeepRecords_moved :
    ¬ (EachStep (CopyFinds literal) movedWriter ∧ Always (RecordsKept literal) movedWriter) := by
  intro h
  have hkept := congrArg (Option.map (fun entry =>
    entry.info.specificPartitions[literal.guidToString ⟨1, 2⟩]?)) (h.2.last rfl ⟨1, 2⟩)
  exact absurd hkept (by decide)

end FastDdsSpy.EndpointThreads
