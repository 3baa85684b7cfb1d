import Locus.Calibration.Apply
import Locus.Lib.WordSums
import Locus.Runtime.PlanningInput
import Mathlib.Logic.Relation

/-!
# What coverage saves

A state that covers units of the prompt is charged for the rest only. The units of all its
components are added up before they are subtracted, so the cost falls with the coverage as long
as that sum fits a word, and starts anew where it does not.
-/

namespace Locus.Runtime

open Locus.Core Locus.Lib Locus.Planner Locus.Calibration

section Coverage

/-- The units that the components of a state cover. -/
def componentUnits (state : StateDescriptor) : List UInt64 :=
  state.boundary.coveredComponents.map (·.coveredUnits)

/-- The lengths of the token sequences of a request. -/
def tokenCounts (request : CanonicalRequest) : List UInt64 :=
  (request.items.filterMap InputItem.tokenIds).map fun tokens => UInt64.ofNat tokens.length

/-- One component more, or one that covers more units. -/
inductive Grows : List ComponentCoverage → List ComponentCoverage → Prop
  | added (front back : List ComponentCoverage) (component : ComponentCoverage) :
      Grows (front ++ back) (front ++ component :: back)
  | raised (front back : List ComponentCoverage) (component : ComponentCoverage) {units : UInt64}
      (more : component.coveredUnits ≤ units) :
      Grows (front ++ component :: back) (front ++ ⟨component.itemId, units⟩ :: back)

/-- The components of a state have grown. -/
def CoversMore (state grown : StateDescriptor) : Prop :=
  Relation.ReflTransGen Grows state.boundary.coveredComponents grown.boundary.coveredComponents

/-- Both places compute the prefill that a grown state leaves without overflow, and it costs no
more than before and no more than that of the cold path. -/
structure CoverageSaves (request : CanonicalRequest) (state grown : StateDescriptor) : Prop where
  tokensFit : SumFits (tokenCounts request)
  unitsFit : SumFits (componentUnits state) ∧ SumFits (componentUnits grown)
  le_cold : (reuseEstimate grown request).unmatchedPrefillMicros ≤
    (coldEstimate request).unmatchedPrefillMicros
  le_before : (reuseEstimate grown request).unmatchedPrefillMicros ≤
    (reuseEstimate state request).unmatchedPrefillMicros
  calibrated_le_cold : ∀ (calibrator : PersistentCalibrator) (input : PlanningInput)
    (nowUnixMillis : UInt64) (candidate : PlanningCandidate) (statePath : StatePathCandidate),
    input.request = request →
      let context := calibrator.contextFor input nowUnixMillis
      (calibrateStatePath context candidate
          { statePath with state := grown }).estimate.unmatchedPrefillMicros ≤
        (calibrateCandidate context candidate).coldEstimate.unmatchedPrefillMicros
  calibrated_le_before : ∀ (calibrator : PersistentCalibrator) (input : PlanningInput)
    (nowUnixMillis : UInt64) (candidate : PlanningCandidate) (statePath : StatePathCandidate),
    input.request = request →
      let context := calibrator.contextFor input nowUnixMillis
      (calibrateStatePath context candidate
          { statePath with state := grown }).estimate.unmatchedPrefillMicros ≤
        (calibrateStatePath context candidate
          { statePath with state := state }).estimate.unmatchedPrefillMicros

end Coverage

variable {request : CanonicalRequest} {state grown : StateDescriptor}
  {components components' : List ComponentCoverage}

section Costs

theorem saturatingMul_mono {a b : UInt64} (h : a ≤ b) (factor : UInt64) :
    saturatingMul a factor ≤ saturatingMul b factor := by
  rw [UInt64.le_iff_toNat_le] at h ⊢
  have hproduct := Nat.mul_le_mul_right factor.toNat h
  rw [toNat_saturatingMul, toNat_saturatingMul]
  omega

theorem saturatingSub_le (tokens covered : UInt64) : saturatingSub tokens covered ≤ tokens := by
  rw [UInt64.le_iff_toNat_le, toNat_saturatingSub]
  omega

theorem saturatingSub_anti {covered covered' : UInt64} (h : covered ≤ covered')
    (tokens : UInt64) : saturatingSub tokens covered' ≤ saturatingSub tokens covered := by
  rw [UInt64.le_iff_toNat_le] at h ⊢
  rw [toNat_saturatingSub, toNat_saturatingSub]
  omega

/-- The units grow with the components. -/
theorem exactSum_le_of_grows (h : Grows components components') :
    exactSum (components.map (·.coveredUnits)) ≤ exactSum (components'.map (·.coveredUnits)) := by
  cases h with
  | added front back component =>
    simp only [List.map_append, List.map_cons, exactSum_append, exactSum_cons]
    omega
  | raised front back component more =>
    rw [UInt64.le_iff_toNat_le] at more
    simp only [List.map_append, List.map_cons, exactSum_append, exactSum_cons]
    omega

theorem exactSum_le_of_reflTransGen (h : Relation.ReflTransGen Grows components components') :
    exactSum (components.map (·.coveredUnits)) ≤ exactSum (components'.map (·.coveredUnits)) := by
  induction h with
  | refl => exact le_rfl
  | tail _ hgrows ih => exact ih.trans (exactSum_le_of_grows hgrows)

/-- The units of a state grow with it. -/
theorem exactSum_le_of_coversMore (h : CoversMore state grown) :
    exactSum (componentUnits state) ≤ exactSum (componentUnits grown) :=
  exactSum_le_of_reflTransGen h

/-- A state covers more than the one it has grown from, if what it covers fits a word. -/
theorem sum_componentUnits_le (hmore : CoversMore state grown)
    (hfits : SumFits (componentUnits grown)) :
    (componentUnits state).sum ≤ (componentUnits grown).sum := by
  have hle := exactSum_le_of_coversMore hmore
  have hlt := sumFits_iff.mp hfits
  rw [UInt64.le_iff_toNat_le, toNat_sum_of_fits hfits,
    toNat_sum_of_fits (sumFits_iff.mpr (by omega))]
  exact hle

/-- Coverage saves exactly if the units of the grown state and the tokens of the request fit a
word each. -/
theorem coverageSaves_iff (hmore : CoversMore state grown) :
    CoverageSaves request state grown ↔
      exactSum (componentUnits grown) < 2 ^ 64 ∧ exactSum (tokenCounts request) < 2 ^ 64 := by
  rw [← sumFits_iff, ← sumFits_iff]
  constructor
  · intro h
    exact ⟨h.unitsFit.2, h.tokensFit⟩
  · rintro ⟨hunits, htokens⟩
    have hle := exactSum_le_of_coversMore hmore
    have hbefore : SumFits (componentUnits state) := by
      rw [sumFits_iff] at hunits ⊢
      omega
    have hsum := sum_componentUnits_le hmore hunits
    refine ⟨htokens, ⟨hbefore, hunits⟩, ?_, ?_, ?_, ?_⟩
    · exact saturatingMul_mono (saturatingSub_le _ _) _
    · exact saturatingMul_mono (saturatingSub_anti hsum _) _
    · intro calibrator input nowUnixMillis candidate statePath _
      exact saturatingMul_mono (saturatingSub_le _ _) _
    · intro calibrator input nowUnixMillis candidate statePath _
      exact saturatingMul_mono (saturatingSub_anti hsum _) _

end Costs

section Samples

/-- A prompt of three tokens. -/
def threeTokenRequest : CanonicalRequest :=
  { sampleRequest with items := [⟨"prompt", .tokenSequence [1, 2, 3]⟩] }

/-- The sample state with other components. -/
def coveringState (units : List UInt64) : StateDescriptor :=
  { sampleState with boundary := { sampleState.boundary with
      coveredComponents := units.map fun units => ⟨"prompt", units⟩ } }

/-- A second component that covers the rest of the prompt. -/
theorem coverageSaves_iff_prompt :
    CoverageSaves threeTokenRequest (coveringState [2]) (coveringState [2, 1]) := by
  have hgrows : Grows (coveringState [2]).boundary.coveredComponents
      (coveringState [2, 1]).boundary.coveredComponents := .added [⟨"prompt", 2⟩] [] ⟨"prompt", 1⟩
  exact (coverageSaves_iff (.single hgrows)).mpr ⟨by decide, by decide⟩

/-- A second component of one unit beside the largest one: the sum starts anew at zero, and the
path that cost nothing costs as much as the cold one. -/
theorem not_coverageSaves_wrapped :
    CoversMore (coveringState [u64Max]) (coveringState [u64Max, 1]) ∧
      (reuseEstimate (coveringState [u64Max]) threeTokenRequest).unmatchedPrefillMicros = 0 ∧
      (reuseEstimate (coveringState [u64Max, 1]) threeTokenRequest).unmatchedPrefillMicros = 30 ∧
      ¬ CoverageSaves threeTokenRequest (coveringState [u64Max]) (coveringState [u64Max, 1]) := by
  have hgrows : Grows (coveringState [u64Max]).boundary.coveredComponents
      (coveringState [u64Max, 1]).boundary.coveredComponents :=
    .added [⟨"prompt", u64Max⟩] [] ⟨"prompt", 1⟩
  exact ⟨.single hgrows, by decide, by decide, fun h => absurd h.le_before (by decide)⟩

end Samples

end Locus.Runtime
