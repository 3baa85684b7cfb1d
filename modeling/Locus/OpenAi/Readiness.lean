import Locus.Runtime.Routability

/-!
# Whether the server is ready

`/readyz` answers by what `readiness` says of the models, the calibrator and the traffic.
-/

namespace Locus.OpenAi

open Locus.Engine Locus.ModelIo Locus.Runtime

/-- The answers of `/readyz`. -/
inductive ReadinessResponse
  | ready (report : ReadinessReport)
  | draining (trafficDraining : Bool)
  | notReady (error : InferenceError)

/-- The status of an answer. -/
def ReadinessResponse.status : ReadinessResponse → ℕ
  | .ready _ => 200
  | .draining _ | .notReady _ => 503

/-- `readiness`, which answers for the service. -/
def readinessResponse : Except InferenceError ReadinessReport → ReadinessResponse
  | .ok report => if report.trafficDraining then .draining report.trafficDraining else .ready report
  | .error error => .notReady error

variable {world : (question : AdapterCall) → question.Answer} {entries : Registry.Entries}
  {Io : Type} {profileOf : Io → ModelProfile} {catalog : ModelRegistry Io} {registered : List Io}
  {status : ServiceStatus} {required : List String} {report : ReadinessReport}

/-- The answer is a report exactly if the service gives it and does not drain. -/
theorem readinessResponse_eq_ready {result : Except InferenceError ReadinessReport} :
    readinessResponse result = .ready report ↔
      result = .ok report ∧ report.trafficDraining = false := by
  cases result with
  | error error => simp [readinessResponse]
  | ok given =>
    cases hdraining : given.trafficDraining with
    | false =>
      simp only [readinessResponse, hdraining, Bool.false_eq_true, if_false,
        ReadinessResponse.ready.injEq, Except.ok.injEq]
      constructor
      · rintro rfl
        exact ⟨rfl, hdraining⟩
      · exact And.left
    | true =>
      simp only [readinessResponse, hdraining, if_true, reduceCtorEq, Except.ok.injEq, false_iff]
      rintro ⟨rfl, hnot⟩
      rw [hdraining] at hnot
      cases hnot

/-- The status is 200 exactly if the answer is a report. -/
theorem status_eq_ok {response : ReadinessResponse} :
    response.status = 200 ↔ ∃ report, response = .ready report := by
  cases response <;> simp [ReadinessResponse.status]

/-- The server says that it is ready exactly if some model is listed, all required models are, the
calibrator can be asked and the traffic does not drain. The report counts the models that are
listed. -/
theorem readyz_iff (hholds : Holds profileOf catalog registered) (required : List String)
    (status : ServiceStatus) :
    ((readinessResponse
        ((readiness profileOf catalog entries required status).evaluate world)).status = 200 ↔
      (models catalog entries).evaluate world ≠ [] ∧
        (∀ name ∈ required, ∃ modelIo, catalog.resolve name = .ok modelIo ∧
          profileOf modelIo ∈ (models catalog entries).evaluate world) ∧
        status.calibrator ≠ none ∧ status.trafficDraining = false) ∧
    ∀ report, readinessResponse
        ((readiness profileOf catalog entries required status).evaluate world) = .ready report →
      report.routableModels = ((models catalog entries).evaluate world).length ∧
        0 < report.routableModels ∧ report.routableModels ≤ report.modelProfiles ∧
        report.readyTargets ≤ report.observedTargets := by
  constructor
  · simp only [status_eq_ok, readinessResponse_eq_ready]
    constructor
    · rintro ⟨report, hreport, hdraining⟩
      obtain ⟨hsome, hall, hcalibrator⟩ := (exists_readiness_iff hholds).mp ⟨report, hreport⟩
      exact ⟨hsome, hall, hcalibrator, (counts_of_readiness hreport).1.symm.trans hdraining⟩
    · rintro ⟨hsome, hall, hcalibrator, hdraining⟩
      obtain ⟨report, hreport⟩ := (exists_readiness_iff hholds).mpr ⟨hsome, hall, hcalibrator⟩
      exact ⟨report, hreport, (counts_of_readiness hreport).1.trans hdraining⟩
  · intro report hreport
    exact (counts_of_readiness (readinessResponse_eq_ready.mp hreport).1).2

/-- The sample service while its traffic drains. -/
def sampleDraining : ServiceStatus :=
  { sampleStatus with trafficDraining := true }

/-- The sample server is ready if it has to serve the sample model, and not when it drains. -/
theorem readyz_iff_sample :
    (readinessResponse ((readiness id sampleCatalog sampleEntries ["a"]
      sampleStatus).evaluate sampleWorld)).status = 200 ∧
    (readinessResponse ((readiness id sampleCatalog sampleEntries ["a"]
      sampleDraining).evaluate sampleWorld)).status ≠ 200 := by
  constructor
  · refine (readyz_iff holds_sampleCatalog ["a"] sampleStatus).1.mpr
      ⟨List.ne_nil_of_mem mem_models_sample, fun name hname => ?_, by simp [sampleStatus], rfl⟩
    obtain rfl := List.mem_singleton.mp hname
    exact ⟨sampleProfile, holds_sampleCatalog.resolve_eq_ok.mpr ⟨by simp, List.mem_cons_self⟩,
      mem_models_sample⟩
  · rw [ne_eq, (readyz_iff holds_sampleCatalog ["a"] sampleDraining).1]
    rintro ⟨-, -, -, hdraining⟩
    cases hdraining

end Locus.OpenAi
