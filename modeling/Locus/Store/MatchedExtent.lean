import Locus.Store.NexusKv

/-!
# How far a match reaches

A lookup checks the match of a response before it builds a state from it: that the bridge has
validated the required identities, that the match may be reused, that it covers something and is
of an accepted kind. How much it covers is the bridge's word, also where the prompt is shorter.
-/

namespace Locus.Store

open Locus.Core Locus.Engine Locus.Lib

section Extent

/-- Between one and all tokens of the prompt. -/
def InPrompt (requirement : StateRequirement) (units : UInt64) : Prop :=
  ∃ tokens, requirement.queryTokenIds = some tokens ∧
    1 ≤ units.toNat ∧ units.toNat ≤ tokens.length

/-- A state has the identities that were required and that the response validates, is of an
accepted kind, and covers and resumes inside the prompt. -/
structure InsidePrompt (requirement : StateRequirement) (response : LookupResponse)
    (state : StateDescriptor) : Prop where
  model : state.model = requirement.model
  inputSemantics : state.relevantInputSemantics = some requirement.inputSemantics
  validated : ∃ hit ∈ response.matchResult, state.model = hit.validation.modelIdentity ∧
    state.relevantInputSemantics = some hit.validation.inputSemanticIdentity
  kind : state.kind ∈ requirement.acceptedStateKinds
  covered : ∀ component ∈ state.boundary.coveredComponents,
    InPrompt requirement component.coveredUnits
  resume : ∃ item offset, state.boundary.resumeCoordinate = .tokenOffset item offset ∧
    InPrompt requirement offset

/-- Whatever a lookup returns that gets this response is inside the prompt. -/
def ReturnsInsidePrompt (config : NexusKvStoreConfig) (requirement : StateRequirement)
    (response : LookupResponse) : Prop :=
  ∀ (context : OperationContext) (exchanges : List (Exchange StoreCall.Answer))
    (states : List StateDescriptor) (request : LookupRequest),
    (lookup config requirement context).Runs exchanges (.ok states) →
      ⟨.postLookup request, .response response⟩ ∈ exchanges →
        ∀ state ∈ states, InsidePrompt requirement response state

end Extent

section Checks

variable {config : NexusKvStoreConfig} {requirement : StateRequirement}
  {response : LookupResponse} {hit : NexusMatchResult}

/-- The units of a match that the prompt can hold are in the prompt. -/
theorem Offers.inPrompt_iff (h : Offers requirement response hit) :
    InPrompt requirement hit.matchedUnits.toUInt64 ↔
      ∃ tokens, requirement.queryTokenIds = some tokens ∧
        hit.matchedUnits.toNat ≤ tokens.length := by
  have hpos : 1 ≤ hit.matchedUnits.toNat := by
    have hne : hit.matchedUnits.toNat ≠ 0 := fun hzero => h.covers (UInt32.toNat_inj.mp hzero)
    omega
  simp only [InPrompt, UInt32.toNat_toUInt64, hpos, true_and]

/-- A state that is built from an offer is inside the prompt if the match is. -/
theorem Offers.insidePrompt_iff (h : Offers requirement response hit) :
    InsidePrompt requirement response (matchDescriptor config requirement hit) ↔
      InPrompt requirement hit.matchedUnits.toUInt64 := by
  constructor
  · intro hinside
    exact hinside.covered _ (List.mem_singleton.mpr rfl)
  · intro hunits
    have hvalidated := h.validated
    rw [LocusValidation.matches, Bool.and_eq_true, beq_iff_eq, beq_iff_eq] at hvalidated
    exact {
      model := rfl
      inputSemantics := rfl
      validated := ⟨hit, h.found, hvalidated.1.symm, congrArg some hvalidated.2.symm⟩
      kind := h.accepted
      covered := by
        intro component hcomponent
        rw [List.mem_singleton.mp hcomponent]
        exact hunits
      resume := ⟨_, _, rfl, hunits⟩ }

end Checks

section Runs

variable {config : NexusKvStoreConfig} {requirement : StateRequirement}
  {context : OperationContext} {response : LookupResponse} {request : LookupRequest}
  {exchanges : List (Exchange StoreCall.Answer)} {states : List StateDescriptor}

/-- Every state that is returned after the checks of the context is built from an offer of the
response. -/
theorem offers_of_runs_lookupTokens {tokens : List UInt32}
    (hrun : (lookupTokens config requirement tokens).Runs exchanges (.ok states))
    (hresponse : ⟨.postLookup request, .response response⟩ ∈ exchanges) :
    ∀ state ∈ states, ∃ hit, Offers requirement response hit ∧
      state = matchDescriptor config requirement hit := by
  obtain ⟨answer, rest, rfl, hrest⟩ := Dialogue.runs_call_bind.mp hrun
  cases hresult : BridgeAnswer.result answer with
  | error error =>
    simp only [hresult] at hrest
    obtain ⟨-, hvalue⟩ := Dialogue.runs_pure.mp hrest
    cases hvalue
  | ok received =>
    have hanswer : answer = .response received := BridgeAnswer.result_eq_ok hresult
    simp only [hresult] at hrest
    cases hmatch : lookupMatch config requirement received with
    | error error =>
      simp only [hmatch] at hrest
      obtain ⟨-, hvalue⟩ := Dialogue.runs_pure.mp hrest
      cases hvalue
    | ok found =>
      cases found with
      | none =>
        simp only [hmatch] at hrest
        obtain ⟨-, hvalue⟩ := Dialogue.runs_pure.mp hrest
        cases hvalue
        intro state hstate
        cases hstate
      | some hit =>
        simp only [hmatch] at hrest
        obtain ⟨registered, rest, rfl, hdone⟩ := Dialogue.runs_call_bind.mp hrest
        rcases registered with ⟨⟩ | ⟨⟩
        · obtain ⟨-, hvalue⟩ := Dialogue.runs_pure.mp hdone
          cases hvalue
        · obtain ⟨rfl, hvalue⟩ := Dialogue.runs_pure.mp hdone
          cases hvalue
          obtain rfl : received = response := by
            subst hanswer
            rcases List.mem_cons.mp hresponse with heq | hmem
            · cases heq
              rfl
            · cases List.mem_singleton.mp hmem
          intro state hstate
          exact ⟨hit, lookupMatch_eq_some_iff.mp hmatch, List.mem_singleton.mp hstate⟩

/-- Every state that a lookup returns is built from an offer of the response. -/
theorem offers_of_runs_lookup
    (hrun : (lookup config requirement context).Runs exchanges (.ok states))
    (hresponse : ⟨.postLookup request, .response response⟩ ∈ exchanges) :
    ∀ state ∈ states, (∃ tokens, requirement.queryTokenIds = some tokens) ∧
      ∃ hit, Offers requirement response hit ∧
      state = matchDescriptor config requirement hit := by
  obtain ⟨active, rest, rfl, hactive⟩ := Dialogue.runs_call_bind.mp hrun
  have hrest : ⟨.postLookup request, .response response⟩ ∈ rest := by
    rcases List.mem_cons.mp hresponse with heq | hmem
    · cases heq
    · exact hmem
  rcases active with error | ⟨⟩
  · obtain ⟨-, hvalue⟩ := Dialogue.runs_pure.mp hactive
    cases hvalue
  · cases htokens : requirement.queryTokenIds with
    | none =>
      simp only [htokens] at hactive
      obtain ⟨-, hvalue⟩ := Dialogue.runs_pure.mp hactive
      cases hvalue
    | some tokens =>
      simp only [htokens] at hactive
      exact fun state hstate =>
        ⟨⟨tokens, rfl⟩, offers_of_runs_lookupTokens hactive hrest state hstate⟩

/-- A lookup can return the state of an offer. -/
theorem runs_lookup_of_offers {tokens : List UInt32} {hit : NexusMatchResult}
    (htokens : requirement.queryTokenIds = some tokens)
    (hoffers : Offers requirement response hit) :
    (lookup config requirement context).Runs
      [⟨.ensureActive context, (.ok () : Except ContextError Unit)⟩,
        ⟨.postLookup (lookupRequest config requirement tokens), .response response⟩,
        ⟨.register (matchDescriptor config requirement hit).id hit.record,
          (.ok () : Except Unit Unit)⟩]
      (.ok [matchDescriptor config requirement hit]) := by
  refine Dialogue.runs_call_bind.mpr ⟨_, _, rfl, ?_⟩
  simp only [htokens]
  refine Dialogue.runs_call_bind.mpr ⟨_, _, rfl, ?_⟩
  simp only [BridgeAnswer.result, lookupMatch_eq_some_iff.mpr hoffers]
  exact Dialogue.runs_call_bind.mpr ⟨_, _, rfl, Dialogue.runs_pure.mpr ⟨rfl, rfl⟩⟩

/-- What a lookup returns is inside the prompt exactly if the match that it is offered is no
longer than the prompt. -/
theorem returnsInsidePrompt_iff :
    ReturnsInsidePrompt config requirement response ↔
      ∀ tokens hit, requirement.queryTokenIds = some tokens →
        Offers requirement response hit → hit.matchedUnits.toNat ≤ tokens.length := by
  constructor
  · intro hreturns tokens hit htokens hoffers
    have hinside := hreturns { requestId := "request" } _ _ _
      (runs_lookup_of_offers htokens hoffers) (List.mem_cons_of_mem _ List.mem_cons_self) _
      (List.mem_singleton.mpr rfl)
    obtain ⟨tokens', htokens', hunits⟩ :=
      hoffers.inPrompt_iff.mp (hoffers.insidePrompt_iff.mp hinside)
    obtain rfl := Option.some.inj (htokens.symm.trans htokens')
    exact hunits
  · intro hshort context exchanges states request hrun hresponse state hstate
    obtain ⟨⟨tokens, htokens⟩, hit, hoffers, rfl⟩ :=
      offers_of_runs_lookup hrun hresponse state hstate
    exact hoffers.insidePrompt_iff.mpr
      (hoffers.inPrompt_iff.mpr ⟨tokens, htokens, hshort tokens hit htokens hoffers⟩)

/-- A requirement with one token in its prompt. -/
def oneTokenRequirement : StateRequirement where
  model := ⟨"model", none, "profile"⟩
  inputSemantics := ⟨⟨"tokenizer", "1", "a"⟩, ⟨"template", "1", "b"⟩, none⟩
  acceptedStateKinds := {"nexuskv.kv"}
  inputFingerprint := "fingerprint"
  queryTokenIds := some [1]
  tenantScope := none

/-- A match of five tokens. -/
def fiveTokenMatch : NexusMatchResult where
  matchedUnits := 5
  entry := ⟨⟨"model", "entry", 7, "lineage"⟩, ⟨nexusKvSchema, "layout", "kv", "token"⟩,
    ⟨"gpu", "gpu-0"⟩⟩
  compatibility := ⟨true, false⟩
  validation := ⟨oneTokenRequirement.model, oneTokenRequirement.inputSemantics, "handle"⟩

theorem not_returnsInsidePrompt_fiveTokens :
    ¬∀ (config : NexusKvStoreConfig) (requirement : StateRequirement) (response : LookupResponse),
      ReturnsInsidePrompt config requirement response := by
  intro h
  have hoffers : Offers oneTokenRequirement ⟨bridgeSchema, nexusKvSchema, some fiveTokenMatch⟩
      fiveTokenMatch := by
    refine ⟨rfl, rfl, rfl, by decide, rfl, rfl, rfl, rfl, by decide, ?_⟩
    exact Finset.mem_singleton.mpr rfl
  have hrun : (lookup ⟨"http://bridge", none, "tenant", "prefixes", "vllm", "kv"⟩
      oneTokenRequirement { requestId := "request" }).Runs _ _ :=
    runs_lookup_of_offers rfl hoffers
  have hinside := h _ _ _ _ _ _ _ hrun
    (List.mem_cons_of_mem _ List.mem_cons_self) _ (List.mem_singleton.mpr rfl)
  obtain ⟨tokens, htokens, -, hunits⟩ := hinside.covered _ (List.mem_singleton.mpr rfl)
  obtain rfl := Option.some.inj htokens
  exact absurd hunits (by decide)

end Runs

end Locus.Store
