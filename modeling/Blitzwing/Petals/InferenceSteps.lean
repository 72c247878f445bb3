/-
The steps a session computes, of the requests that arrive.

A step comes from the client, and from the previous server too if that one
pushes its outputs, in whatever order. `_iterate_inference_steps` passes over
what it has had already. So each step is computed once, of what arrived first,
and every step pushed at a handler that knew of the session is (`steps_once`).
-/
import Mathlib.Data.List.TakeWhile
import Blitzwing.Lib.Firsts
import Blitzwing.Petals.PushRouting

namespace Blitzwing

namespace Petals

variable {n : Nat} {Tensor : Type}

/-- What `_iterate_inference_steps` yields, of the requests that arrive. -/
def iterateInferenceSteps (processedStepIds : List String) : List (ExpertRequest Tensor) → List (ExpertRequest Tensor)
  | [] => []
  | request :: requests =>
    if request.tensors.isEmpty then []
    else
      match request.stepId with
      | .none => request :: iterateInferenceSteps processedStepIds requests
      | .some stepId =>
        if stepId ∈ processedStepIds then iterateInferenceSteps processedStepIds requests
        else request :: iterateInferenceSteps (stepId :: processedStepIds) requests

/-- Up to a request without tensors, the first of each step. -/
theorem iterateInferenceSteps_eq (processedStepIds : List String) (requests : List (ExpertRequest Tensor)) :
    iterateInferenceSteps processedStepIds requests =
      firsts ExpertRequest.stepId processedStepIds (requests.takeWhile (!·.tensors.isEmpty)) := by
  induction requests generalizing processedStepIds with
  | nil => rfl
  | cons request requests ih =>
    cases htensors : request.tensors.isEmpty with
    | true => simp [iterateInferenceSteps, htensors, firsts]
    | false =>
      rw [List.takeWhile_cons_of_pos (by simp [htensors])]
      cases hid : request.stepId with
      | none => simp [iterateInferenceSteps, htensors, hid, firsts, ih]
      | some stepId =>
        by_cases hmem : stepId ∈ processedStepIds
        · simp [iterateInferenceSteps, htensors, hid, firsts, hmem, ih]
        · simp [iterateInferenceSteps, htensors, hid, firsts, hmem, ih]

namespace ServerHandlers

variable {s : ServerHandlers n Tensor}

/-- The requests that arrived at a session. -/
def requests (s : ServerHandlers n Tensor) (id : String) : List (ExpertRequest Tensor) := (s.arrived id).map Prod.snd

def steps (s : ServerHandlers n Tensor) (id : String) : List (ExpertRequest Tensor) :=
  iterateInferenceSteps [] (s.requests id)

theorem steps_sublist (s : ServerHandlers n Tensor) (id : String) : (s.steps id).Sublist (s.requests id) := by
  unfold steps
  rw [iterateInferenceSteps_eq]
  exact (firsts_sublist _ _).trans (List.takeWhile_sublist _)

/-- A step is the first request there was for it. -/
theorem find?_of_mem_steps {id stepId : String} {step : ExpertRequest Tensor} (hstep : step ∈ s.steps id)
    (hid : step.stepId = .some stepId) : (s.requests id).find? (·.stepId = .some stepId) = .some step := by
  unfold steps at hstep
  rw [iterateInferenceSteps_eq] at hstep
  exact (List.takeWhile_prefix _).find?_eq_some (find?_of_mem_firsts hstep hid)

/-- What arrived is computed. -/
theorem mem_steps {id stepId : String} (hmore : ∀ request ∈ s.requests id, request.tensors ≠ [])
    {request : ExpertRequest Tensor} (hmem : request ∈ s.requests id) (hid : request.stepId = .some stepId) :
    stepId ∈ (s.steps id).filterMap ExpertRequest.stepId := by
  unfold steps
  rw [iterateInferenceSteps_eq, mem_keys_firsts]
  refine ⟨List.mem_filterMap.2 ⟨request, ?_, hid⟩, List.not_mem_nil⟩
  rw [List.takeWhile_eq_self_iff.2]
  · exact hmem
  · intro r hr
    simpa using hmore r hr

theorem mem_requests_of_arrivedFrom {p : Fin n} {id : String} {request : ExpertRequest Tensor}
    (hmem : request ∈ arrivedFrom p (s.arrived id)) : request ∈ s.requests id := by
  obtain ⟨entry, hentry, rfl⟩ := List.mem_map.1 hmem
  exact List.mem_map.2 ⟨entry, (List.mem_filter.1 hentry).1, rfl⟩

/-- No step is computed twice, though it arrives from the client and pushed, at
whichever handlers; and once nothing waits, all steps are computed that were
pushed at a handler after it ignored the last. -/
theorem steps_once (hs : s.Reachable) (id : String) :
    ((s.steps id).filterMap ExpertRequest.stepId).Nodup ∧
    (s.steps id).Sublist (s.requests id) ∧
    (∀ step ∈ s.steps id, ∀ stepId, step.stepId = .some stepId →
      (s.requests id).find? (·.stepId = .some stepId) = .some step) ∧
    ∀ h, s.phases id = .running h → (s.handlers h).getFromSessionQueue h id = .some [] →
      (∀ p, sessionEvents id (s.eventQueues p h) = []) → (∀ request ∈ s.requests id, request.tensors ≠ []) →
      ∀ p, ∀ request ∈ (s.pushed p id).drop (s.ignored p id).length, ∀ stepId, request.stepId = .some stepId →
        stepId ∈ (s.steps id).filterMap ExpertRequest.stepId := by
  refine ⟨?_, s.steps_sublist id, fun step hstep stepId => find?_of_mem_steps hstep, ?_⟩
  · unfold steps
    rw [iterateInferenceSteps_eq]
    exact nodup_keys_firsts _ _
  · intro h hin hget hevents hmore p request hmem stepId hid
    obtain ⟨queue, hqueue, haccount⟩ := hs.account hin
    obtain rfl : queue = [] := Option.some.inj (hqueue.symm.trans hget)
    have hpushed : (s.pushed p id).drop (s.ignored p id).length = arrivedFrom p (s.arrived id) := by
      simp [haccount p, hevents p]
    rw [hpushed] at hmem
    exact mem_steps hmore (mem_requests_of_arrivedFrom hmem) hid

theorem steps_once_across : ∃ s : ServerHandlers 2 Nat,
    (s.requests "a").filterMap ExpertRequest.stepId = ["x", "y", "y"] ∧
    ((s.steps "a").filterMap ExpertRequest.stepId).Nodup ∧ "y" ∈ (s.steps "a").filterMap ExpertRequest.stepId := by
  obtain ⟨s, hs, hin, harrived, hpushed, hignored, hget, hevents⟩ := pushed_across
  have hrequests : s.requests "a" = [firstRequest, secondRequest, secondRequest] := by simp [requests, harrived]
  obtain ⟨hnodup, -, -, hall⟩ := steps_once hs "a"
  refine ⟨s, by simp [hrequests, firstRequest, secondRequest], hnodup, ?_⟩
  refine hall 0 hin hget hevents ?_ 1 secondRequest (by simp [hpushed, hignored]) "y" rfl
  simp [hrequests, firstRequest, secondRequest]

end ServerHandlers

end Petals

end Blitzwing
