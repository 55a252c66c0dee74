import FastDdsSpy.Verification.Discovery.Steps
import FastDdsSpy.Verification.System.GuidQueries

/-! # Runs of discovery

In every interleaving the tool behaves as if the records that the pipe has carried so far were
stored one after the other, so the listings show a past state of the network, and the present
one when no record is under way. -/

namespace FastDdsSpy.Discovery

open Std PastTime

variable {ι θ ο σ τ π δ : Type*} (ds : DiscoverySupport ι θ ο σ) (own : Guid) (env : External)
  (ts : TypeSupport τ π δ) (cfg : Configuration)

/-- The events of the tool that a run causes. -/
def trace (es : List (Step ι θ ο τ π)) : List (Event τ π) :=
  emitted (step ds own env ts) (emits ds) (start ds cfg) es

/-- The records carried so far and the records under way are those that the listener made, in
the same order; samples, types and input reach the tool as they come. -/
structure Carried (es : List (Step ι θ ο τ π)) : Prop where
  refines : (exec ds own env ts cfg es).spy = Spy.exec env ts cfg (trace ds own env ts cfg es)
  participants : (trace ds own env ts cfg es).filterMap Event.participantInfo? ++
    pendingParticipants ds (exec ds own env ts cfg es) = es.filterMap (sentParticipant ds own)
  endpoints : (trace ds own env ts cfg es).filterMap Event.record ++
    pendingEndpoints ds (exec ds own env ts cfg es) = es.filterMap (sentEndpoint ds own)
  others : (trace ds own env ts cfg es).filterMap Event.other? = es.filterMap toolEvent
  wellTyped : WellTyped ds (exec ds own env ts cfg es)

variable {ds own env ts cfg}

theorem Routes.other_eq {s s' : DiscoveryState σ τ} {out : Option (Event τ π)}
    (h : Routes ds env ts s out s') : out.bind Event.other? = none := by
  cases h <;> rfl

theorem emits_other (env : External) (ts : TypeSupport τ π δ) (s : DiscoveryState σ τ)
    (e : Step ι θ ο τ π) : (emits ds s e).bind Event.other? = toolEvent e := by
  cases e with
  | route discriminator => exact (route_routes ds env ts s discriminator).other_eq
  | _ => rfl

@[simp] theorem pendingParticipants_start :
    pendingParticipants ds (start ds cfg : DiscoveryState σ τ) = [] := by
  simp [pendingParticipants, start, ds.internalReader.content_empty]

@[simp] theorem pendingEndpoints_start :
    pendingEndpoints ds (start ds cfg : DiscoveryState σ τ) = [] := by
  simp [pendingEndpoints, start, ds.internalReader.content_empty]

theorem wellTyped_start : WellTyped ds (start ds cfg : DiscoveryState σ τ) := by
  constructor
  · simp [start, ds.internalReader.content_empty]
  · simp [start, ds.internalReader.content_empty]
  · rfl

theorem spy_exec (es : List (Step ι θ ο τ π)) :
    (exec ds own env ts cfg es).spy = Spy.exec env ts cfg (trace ds own env ts cfg es) :=
  run_refines DiscoveryState.spy spy_step (start ds cfg) es

theorem carried_participants (ds : DiscoverySupport ι θ ο σ) (own : Guid) (env : External)
    (ts : TypeSupport τ π δ) (cfg : Configuration) (es : List (Step ι θ ο τ π)) :
    (trace ds own env ts cfg es).filterMap Event.participantInfo? ++
      pendingParticipants ds (exec ds own env ts cfg es) =
        es.filterMap (sentParticipant ds own) := by
  have hcarried := received_append_content (pendingParticipants ds)
    (pendingParticipants_step ds own env ts) (start ds cfg) es
  rwa [pendingParticipants_start, List.nil_append, emitted_const, ← filterMap_emitted] at hcarried

theorem carried_endpoints (ds : DiscoverySupport ι θ ο σ) (own : Guid) (env : External)
    (ts : TypeSupport τ π δ) (cfg : Configuration) (es : List (Step ι θ ο τ π)) :
    (trace ds own env ts cfg es).filterMap Event.record ++
      pendingEndpoints ds (exec ds own env ts cfg es) = es.filterMap (sentEndpoint ds own) := by
  have hcarried := received_append_content (pendingEndpoints ds)
    (pendingEndpoints_step ds own env ts) (start ds cfg) es
  rwa [pendingEndpoints_start, List.nil_append, emitted_const, ← filterMap_emitted] at hcarried

theorem trace_others (es : List (Step ι θ ο τ π)) :
    (trace ds own env ts cfg es).filterMap Event.other? = es.filterMap toolEvent := by
  rw [trace, filterMap_emitted, ← emitted_const (step ds own env ts) toolEvent]
  congr
  funext s e
  exact emits_other env ts s e

theorem wellTyped_exec (es : List (Step ι θ ο τ π)) :
    WellTyped ds (exec ds own env ts cfg es) :=
  run_induction (WellTyped ds) (fun _ e h => h.step e) wellTyped_start es

/-- No interleaving loses, repeats, reorders or misdirects a discovery record. -/
theorem discovery_carried (ds : DiscoverySupport ι θ ο σ) (own : Guid) (env : External)
    (ts : TypeSupport τ π δ) (cfg : Configuration) (es : List (Step ι θ ο τ π)) :
    Carried ds own env ts cfg es :=
  ⟨spy_exec es, carried_participants ds own env ts cfg es, carried_endpoints ds own env ts cfg es,
    trace_others es, wellTyped_exec es⟩

end FastDdsSpy.Discovery
