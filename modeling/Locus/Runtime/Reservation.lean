import Locus.Engine.Completion
import Locus.Runtime.PlanningInput
import Locus.Traffic.Policy

/-!
# What a request is charged and what it may use

Admission charges the prompt and the output tokens that the client asked for, or the default of
the traffic policy. The remote adapter asks the engine for the same number of output tokens, but
without a wish of the client for sixteen. So the charge covers the work exactly if the client
named a limit or the policy's default is at least sixteen.
-/

namespace Locus.Runtime

open Locus.Core Locus.Engine Locus.Parser Locus.Traffic

/-- The `token_cost` of `infer`. -/
def tokenCost (traffic : Option TrafficPolicy) (request : CanonicalRequest) : UInt64 :=
  saturatingAdd (inputTokenCount request) <|
    match request.maxOutputTokens with
    | some limit => limit.toUInt64
    | none => (traffic.map TrafficPolicy.defaultOutputTokens).getD 16

/-- What the engine is asked to work on: the tokens of the prompt and of the longest output. -/
def requestedTokens {serde : Serde} (body : CompletionBody serde) : UInt64 :=
  saturatingAdd (UInt64.ofNat body.prompt.length) body.maxTokens.toUInt64

variable {serde : Serde} {flavor : RuntimeFlavor} {request : CanonicalRequest}
  {servedModel : String} {body : CompletionBody serde}

/-- Both count the tokens of the only token sequence. -/
theorem inputTokenCount_of_completionBody
    (hbody : completionBody serde flavor request servedModel = .ok body) :
    inputTokenCount request = UInt64.ofNat body.prompt.length := by
  have hsequences : request.items.filterMap InputItem.tokenIds = [body.prompt] :=
    (of_completionBody hbody).1
  simp [inputTokenCount, hsequences]

/-- The charge covers the work exactly if the client named a limit, the default of the policy is
at least sixteen, or the charge is the largest number there is. -/
theorem covers_iff (policy : TrafficPolicy)
    (hbody : completionBody serde flavor request servedModel = .ok body) :
    requestedTokens body ≤ tokenCost (some policy) request ↔
      request.maxOutputTokens ≠ none ∨ 16 ≤ policy.defaultOutputTokens ∨
        2 ^ 64 ≤ body.prompt.length % 2 ^ 64 + policy.defaultOutputTokens.toNat + 1 := by
  have hcount := inputTokenCount_of_completionBody hbody
  have hlimit := (of_completionBody hbody).2
  rw [requestedTokens, tokenCost, hcount, hlimit, UInt64.le_iff_toNat_le, toNat_saturatingAdd,
    toNat_saturatingAdd]
  cases hclient : request.maxOutputTokens with
  | some limit => simp
  | none =>
    have hsixteen : (16 : UInt32).toUInt64.toNat = 16 := rfl
    have hdefault : 16 ≤ policy.defaultOutputTokens ↔
        16 ≤ policy.defaultOutputTokens.toNat := UInt64.le_iff_toNat_le
    have hprompt : (UInt64.ofNat body.prompt.length).toNat = body.prompt.length % 2 ^ 64 :=
      UInt64.toNat_ofNat
    rw [hdefault]
    simp only [Option.getD_none, Option.map_some, Option.getD_some, hsixteen, hprompt]
    have hlt := policy.defaultOutputTokens.toNat_lt
    have hnone : ¬ ((none : Option UInt32) ≠ none) := by simp
    rw [le_min_iff, min_le_iff, and_iff_left (min_le_right _ _), or_iff_right hnone]
    omega

section Prompt

/-- A request with three tokens and no output limit. -/
def promptRequest : CanonicalRequest where
  id := "request"
  model := ⟨"model", none, "profile"⟩
  inputSemantics := ⟨⟨"tokenizer", "1", "a"⟩, ⟨"template", "1", "b"⟩, none⟩
  requirements := ⟨∅, false, false, false, false⟩
  items := [⟨"prompt", .tokenSequence [1, 2, 3]⟩]

/-- A policy that reserves this many output tokens for a request that names no limit. -/
def reservingPolicy (defaultOutputTokens : UInt64) : TrafficPolicy :=
  { TrafficPolicy.default with defaultOutputTokens }

/-- The default policy reserves 256 tokens and covers the sixteen. -/
theorem covers_default : ∃ body,
    completionBody sampleSerde .vllm promptRequest "served" = .ok body ∧
      requestedTokens body ≤ tokenCost (some TrafficPolicy.default) promptRequest :=
  ⟨_, rfl, (covers_iff TrafficPolicy.default rfl).mpr (.inr (.inl (by decide)))⟩

/-- A policy that reserves ten tokens is accepted. It charges 13 tokens where the engine is asked
for 19. -/
theorem not_covers_ten : (reservingPolicy 10).validate = .ok () ∧
    tokenCost (some (reservingPolicy 10)) promptRequest = 13 ∧
    ∃ body, completionBody sampleSerde .vllm promptRequest "served" = .ok body ∧
      requestedTokens body = 19 ∧
      ¬ requestedTokens body ≤ tokenCost (some (reservingPolicy 10)) promptRequest := by
  refine ⟨by decide, by decide, _, rfl, by decide, ?_⟩
  decide

end Prompt

end Locus.Runtime
