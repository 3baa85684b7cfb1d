import Locus.Lib.Concurrent
import Locus.Store.StateIds

/-!
# Where an estimate's source comes from

All requests share the table of records, and a lookup writes to it under an identifier that
names the tenant, the namespace and the entry, but no version of the entry. Any number of
lookups, estimates and materializations run side by side here, with every answer that the
bridge may give. An estimate carries the source of the lookup that its state came from exactly
if the latest lookup that registered the entry of that tenant was answered with the same
handle, locator and tier.
-/

namespace Locus.Store

open Locus.Core Locus.Engine Locus.Lib

section System

/-- A call of the store. An estimate may be for a state that a lookup, known by its number,
has returned. -/
inductive Operation
  | lookup (requirement : StateRequirement) (context : OperationContext)
  | estimate (source : Option ℕ) (state : StateDescriptor) (target : ExecutionTarget)
      (context : OperationContext)
  | materialize (option : MaterializationOption) (target : StateImportTarget)
      (context : OperationContext)

/-- What a call returns. -/
inductive Outcome
  | found (result : Except StoreError (List StateDescriptor))
  | options (result : Except StoreError (List MaterializationOption))
  | receipt (result : Except StoreError TransferReceipt)

/-- The records, and which lookups have registered, the latest first. -/
structure Table where
  records : Std.ExtTreeMap StateId NexusStoreRecord
  registered : List ℕ

/-- A call under way. -/
abbrev Call := Thread Operation StoreCall.Answer Outcome

/-- The table and all calls so far. -/
abbrev Calls := Threads Table Operation StoreCall.Answer Outcome

/-- What a call does. -/
def Operation.program (config : NexusKvStoreConfig) : Operation → StoreM Outcome
  | lookup requirement context =>
    Store.lookup config requirement context >>= fun result => pure (.found result)
  | estimate _ state target context =>
    Store.estimate state target context >>= fun result => pure (.options result)
  | materialize option target context =>
    Store.materialize option target context >>= fun result => pure (.receipt result)

/-- A state is estimated after the lookup that it came from has returned it. -/
def mayStart (s : Calls) : Operation → Prop
  | .estimate (some source) state _ _ => ∃ call states, s.threads[source]? = some call ∧
      call.remaining = .done (.found (.ok states)) ∧ state ∈ states
  | _ => True

/-- The table answers for itself. The bridge and the clock may answer anything, and the lock of
the table may be poisoned. -/
def Table.respond (table : Table) (index : ℕ) : Exchange StoreCall.Answer → Option Table
  | ⟨.register state record, answer⟩ =>
    match (answer : Except Unit Unit) with
    | .ok () => some ⟨table.records.insert state record, index :: table.registered⟩
    | .error () => some table
  | ⟨.readRecord state, answer⟩ =>
    match (answer : Except Unit (Option NexusStoreRecord)) with
    | .ok found => if found = table.records[state]? then some table else none
    | .error () => some table
  | _ => some table

/-- All calls of a store side by side. -/
def storeSystem (config : NexusKvStoreConfig) :
    ThreadSystem Table Operation StoreCall.Answer Outcome where
  program := Operation.program config
  mayStart := mayStart
  respond := Table.respond

/-- A store before its first call. -/
def freshStore : Calls := ⟨⟨∅, []⟩, []⟩

end System

section Property

/-- The match in a lookup response. -/
def received : Exchange StoreCall.Answer → Option NexusMatchResult
  | ⟨.postLookup _, answer⟩ =>
    match (answer : BridgeAnswer LookupResponse) with
    | .response response => response.matchResult
    | _ => none
  | _ => none

/-- The estimate request in an exchange. -/
def sentEstimate : Exchange StoreCall.Answer → Option EstimateRequest
  | ⟨.postEstimate request, _⟩ => some request
  | _ => none

/-- The tenant that a lookup asked for, and the match that it was answered with. -/
def Call.found (config : NexusKvStoreConfig) (call : Call) : Option (String × NexusMatchResult) :=
  match call.operation with
  | .lookup requirement _ =>
    (call.exchanges.findSome? received).map fun hit => (lookupTenant config requirement, hit)
  | _ => none

/-- What the call with this number found. -/
def foundBy (config : NexusKvStoreConfig) (s : Calls) (index : ℕ) :
    Option (String × NexusMatchResult) :=
  s.threads[index]?.bind (Call.found config)

/-- The call sends this estimate request. -/
def Call.Sends (call : Call) (request : EstimateRequest) : Prop :=
  request ∈ call.exchanges.filterMap sentEstimate ∨
    call.remaining.pending = some (.postEstimate request)

/-- The request names the source of the match. -/
def Carries (request : EstimateRequest) (hit : NexusMatchResult) : Prop :=
  request.sourceState = hit.entry.identity.entryId ∧
  request.sourceHandle = hit.validation.sourceHandle ∧
  request.sourceLocator = hit.entry.location.locator ∧
  request.sourceTier = hit.entry.location.tier

/-- Every estimate of a state carries the source of the lookup response that the state was
built from. -/
def NoSubstitution (config : NexusKvStoreConfig) (s : Calls) : Prop :=
  ∀ (index : ℕ) (call : Call) (source : ℕ) (state : StateDescriptor) (target : ExecutionTarget)
    (context : OperationContext),
    s.threads[index]? = some call → call.operation = .estimate (some source) state target context →
      ∀ request, call.Sends request →
        ∀ tenant hit, foundBy config s source = some (tenant, hit) → Carries request hit

/-- Two matches of one entry, under one tenant. -/
def SameEntry (own other : String × NexusMatchResult) : Prop :=
  own.1 = other.1 ∧ own.2.entry.identity.entryId = other.2.entry.identity.entryId

instance (own other : String × NexusMatchResult) : Decidable (SameEntry own other) :=
  inferInstanceAs (Decidable (_ ∧ _))

/-- Two matches with the same handle, locator and tier. -/
def SameSource (hit other : NexusMatchResult) : Prop :=
  hit.validation.sourceHandle = other.validation.sourceHandle ∧
  hit.entry.location.locator = other.entry.location.locator ∧
  hit.entry.location.tier = other.entry.location.tier

/-- The latest registered match of an entry. -/
def latest (config : NexusKvStoreConfig) (s : Calls) (own : String × NexusMatchResult) :
    Option NexusMatchResult :=
  s.shared.registered.findSome? fun index =>
    (foundBy config s index).bind fun other =>
      if SameEntry own other then some other.2 else none

/-- When an estimate reads the record of its state, the latest lookup that registered the entry
was answered with the source that the state was built from. -/
def Current (config : NexusKvStoreConfig) (s : Calls) :
    ThreadLabel Operation StoreCall.Answer → Prop
  | .answer index ⟨.readRecord _, answer⟩ =>
    ∀ record, (answer : Except Unit (Option NexusStoreRecord)) = .ok (some record) →
      ∀ call source state target context, s.threads[index]? = some call →
        call.operation = .estimate (some source) state target context →
          ∀ own newest, foundBy config s source = some own → latest config s own = some newest →
            SameSource newest own.2
  | _ => True

end Property

section Phases

/-- The identifier of an entry that was found. -/
def foundState (config : NexusKvStoreConfig) (own : String × NexusMatchResult) : StateId :=
  storeStateId own.1 config.nameSpace own.2.entry.identity.entryId

variable {config : NexusKvStoreConfig} {requirement : StateRequirement}
  {exchanges : List (Exchange StoreCall.Answer)}

/-- The record that an exchange reads. -/
def readRecord : Exchange StoreCall.Answer → Option NexusStoreRecord
  | ⟨.readRecord _, answer⟩ =>
    match (answer : Except Unit (Option NexusStoreRecord)) with
    | .ok found => found
    | .error () => none
  | _ => none

/-- Whether an exchange changes the table. -/
def registers : Exchange StoreCall.Answer → Bool
  | ⟨.register _ _, answer⟩ => (answer : Except Unit Unit).isOk
  | _ => false

/-- A lookup registers the match that it has heard of, and returns it after that. -/
structure LookupPhase (config : NexusKvStoreConfig) (requirement : StateRequirement)
    (exchanges : List (Exchange StoreCall.Answer))
    (left : StoreM (Except StoreError (List StateDescriptor))) : Prop where
  registers : ∀ state record, left.pending = some (.register state record) →
    ∃ hit, exchanges.findSome? received = some hit ∧
      state = (matchDescriptor config requirement hit).id ∧ record = hit.record
  returns : ∀ states, left = .done (.ok states) → ∀ state ∈ states,
    ∃ hit, exchanges.findSome? received = some hit ∧
      state = matchDescriptor config requirement hit ∧
      exchanges.any Store.registers = true

/-- A lookup that neither registers nor returns a state. -/
theorem LookupPhase.of_quiet {left : StoreM (Except StoreError (List StateDescriptor))}
    (hpending : ∀ state record, left.pending ≠ some (.register state record))
    (hdone : ∀ states, left = .done (.ok states) → states = []) :
    LookupPhase config requirement exchanges left := by
  refine ⟨?_, ?_⟩
  · intro state record h
    exact absurd h (hpending state record)
  · intro states h state hstate
    rw [hdone states h] at hstate
    cases hstate

/-- How far a lookup has come after its checks. -/
theorem lookupTokens_phase {tokens : List UInt32}
    {left : StoreM (Except StoreError (List StateDescriptor))}
    (h : (lookupTokens config requirement tokens).Reaches exchanges left) :
    LookupPhase config requirement exchanges left := by
  rcases Dialogue.Reaches.call_cases h with ⟨rfl, _, rfl⟩ | ⟨answer, rest, rfl, hsent⟩
  · exact .of_quiet (by simp) (by simp)
  clear h
  cases hresult : BridgeAnswer.result answer with
  | error error =>
    simp only [hresult] at hsent
    obtain ⟨rfl, rfl⟩ := Dialogue.reaches_done.mp hsent
    exact .of_quiet (by simp) (by simp)
  | ok response =>
    obtain rfl := BridgeAnswer.result_eq_ok hresult
    simp only [hresult] at hsent
    match hmatch : lookupMatch config requirement response with
    | .error error =>
      simp only [hmatch] at hsent
      obtain ⟨rfl, rfl⟩ := Dialogue.reaches_done.mp hsent
      exact .of_quiet (by simp) (by simp)
    | .ok none =>
      simp only [hmatch] at hsent
      obtain ⟨rfl, rfl⟩ := Dialogue.reaches_done.mp hsent
      exact .of_quiet (by simp) (by simp)
    | .ok (some hit) =>
      simp only [hmatch] at hsent
      have hhit := (lookupMatch_eq_some_iff.mp hmatch).found
      rcases Dialogue.Reaches.call_cases hsent with ⟨rfl, _, rfl⟩ | ⟨registered, rest, rfl, hdone⟩
      · refine ⟨?_, by simp⟩
        intro state record hpending
        rw [Dialogue.pending_ask, Option.some.injEq, StoreCall.register.injEq] at hpending
        obtain ⟨rfl, rfl⟩ := hpending
        exact ⟨hit, by simp [received, hhit], rfl, rfl⟩
      · rcases registered with ⟨⟩ | ⟨⟩
        · obtain ⟨rfl, rfl⟩ := Dialogue.reaches_done.mp hdone
          exact .of_quiet (by simp) (by simp)
        · obtain ⟨rfl, rfl⟩ := Dialogue.reaches_done.mp hdone
          refine ⟨by simp, ?_⟩
          intro states hstates state hstate
          cases hstates
          obtain rfl := List.mem_singleton.mp hstate
          exact ⟨hit, by simp [received, hhit], rfl,
            by simp [registers, Except.isOk, Except.toBool]⟩

/-- How far a lookup has come. -/
theorem lookup_phase {context : OperationContext}
    {left : StoreM (Except StoreError (List StateDescriptor))}
    (h : (lookup config requirement context).Reaches exchanges left) :
    LookupPhase config requirement exchanges left := by
  rcases Dialogue.Reaches.call_cases h with ⟨rfl, _, rfl⟩ | ⟨active, rest, rfl, hactive⟩
  · exact .of_quiet (by simp) (by simp)
  clear h
  cases active with
  | error error =>
    obtain ⟨rfl, rfl⟩ := Dialogue.reaches_done.mp hactive
    exact .of_quiet (by simp) (by simp)
  | ok =>
    cases htokens : requirement.queryTokenIds with
    | none =>
      simp only [htokens] at hactive
      obtain ⟨rfl, rfl⟩ := Dialogue.reaches_done.mp hactive
      exact .of_quiet (by simp) (by simp)
    | some tokens =>
      simp only [htokens] at hactive
      obtain ⟨hregisters, hreturns⟩ := lookupTokens_phase hactive
      refine ⟨?_, ?_⟩
      · intro state record hpending
        exact hregisters state record hpending
      · intro states hstates state hstate
        obtain ⟨hit, hhit, hstate, hmem⟩ := hreturns states hstates state hstate
        exact ⟨hit, hhit, hstate, by simp [hmem]⟩

/-- An estimate sends the record that it has read, for its target. It reads the record of its
state only and registers nothing. -/
structure EstimatePhase (state : StateDescriptor) (target : ExecutionTarget)
    (exchanges : List (Exchange StoreCall.Answer))
    (left : StoreM (Except StoreError (List MaterializationOption))) : Prop where
  sends_iff : ∀ request, (request ∈ exchanges.filterMap sentEstimate ∨
    left.pending = some (.postEstimate request)) ↔
      ∃ record ∈ exchanges.filterMap readRecord, request = estimateRequest record target
  reads_own : ∀ id, left.pending = some (.readRecord id) → id = state.id
  not_registers : ∀ id record, left.pending ≠ some (.register id record)

section Estimate

variable {state : StateDescriptor} {target : ExecutionTarget} {context : OperationContext}
  {left : StoreM (Except StoreError (List MaterializationOption))}

/-- An estimate that has read no record yet. -/
theorem EstimatePhase.of_unread (hsent : exchanges.filterMap sentEstimate = [])
    (hread : exchanges.filterMap readRecord = [])
    (hpending : ∀ question, left.pending = some question →
      (∃ context, question = .ensureActive context) ∨ question = .readRecord state.id) :
    EstimatePhase state target exchanges left := by
  refine ⟨?_, ?_, ?_⟩
  · intro request
    rw [hsent, hread]
    constructor
    · rintro (h | h)
      · cases h
      · rcases hpending _ h with ⟨_, h⟩ | h <;> cases h
    · rintro ⟨record, h, _⟩
      cases h
  · intro id h
    rcases hpending _ h with ⟨_, h⟩ | h
    · cases h
    · exact StoreCall.readRecord.inj h
  · intro id record h
    rcases hpending _ h with ⟨_, h⟩ | h <;> cases h

/-- An estimate that has read a record and sends its request next. -/
theorem EstimatePhase.of_read {record : NexusStoreRecord}
    (hsent : exchanges.filterMap sentEstimate = [])
    (hread : exchanges.filterMap readRecord = [record])
    (hpending : left.pending = some (.postEstimate (estimateRequest record target))) :
    EstimatePhase state target exchanges left := by
  refine ⟨?_, ?_, ?_⟩
  · intro request
    rw [hsent, hread, hpending]
    constructor
    · rintro (h | h)
      · cases h
      · cases h
        exact ⟨record, List.mem_singleton.mpr rfl, rfl⟩
    · rintro ⟨found, hfound, rfl⟩
      rw [List.mem_singleton.mp hfound]
      exact .inr rfl
  · intro id h
    rw [hpending] at h
    cases h
  · intro id found h
    rw [hpending] at h
    cases h

/-- An estimate that has returned after it sent its request. -/
theorem EstimatePhase.of_sent {record : NexusStoreRecord}
    (hsent : exchanges.filterMap sentEstimate = [estimateRequest record target])
    (hread : exchanges.filterMap readRecord = [record]) (hpending : left.pending = none) :
    EstimatePhase state target exchanges left := by
  refine ⟨?_, ?_, ?_⟩
  · intro request
    rw [hsent, hread, hpending]
    constructor
    · rintro (h | h)
      · exact ⟨record, List.mem_singleton.mpr rfl, List.mem_singleton.mp h⟩
      · cases h
    · rintro ⟨found, hfound, rfl⟩
      rw [List.mem_singleton.mp hfound]
      exact .inl (List.mem_singleton.mpr rfl)
  · intro id h
    rw [hpending] at h
    cases h
  · intro id found h
    rw [hpending] at h
    cases h

/-- How far an estimate has come. -/
theorem estimate_phase (h : (estimate state target context).Reaches exchanges left) :
    EstimatePhase state target exchanges left := by
  rcases Dialogue.Reaches.call_cases h with ⟨rfl, _, rfl⟩ | ⟨active, rest, rfl, hactive⟩
  · exact .of_unread rfl rfl
      fun question hquestion => .inl ⟨context, (Option.some.inj hquestion).symm⟩
  clear h
  cases active with
  | error error =>
    obtain ⟨rfl, rfl⟩ := Dialogue.reaches_done.mp hactive
    exact .of_unread rfl rfl (by simp)
  | ok =>
    by_cases hstore : state.store = storeIdentity
    · simp only [hstore, ne_eq, not_true_eq_false, if_false] at hactive
      rcases Dialogue.Reaches.call_cases hactive with ⟨rfl, _, rfl⟩ | ⟨found, rest, rfl, hfound⟩
      · exact .of_unread rfl rfl
          fun question hquestion => .inr (Option.some.inj hquestion).symm
      clear hactive
      match found with
      | .error () =>
        obtain ⟨rfl, rfl⟩ := Dialogue.reaches_done.mp hfound
        exact .of_unread rfl rfl (by simp)
      | .ok none =>
        obtain ⟨rfl, rfl⟩ := Dialogue.reaches_done.mp hfound
        exact .of_unread rfl rfl (by simp)
      | .ok (some record) =>
        rcases Dialogue.Reaches.call_cases hfound with ⟨rfl, _, rfl⟩ | ⟨answer, rest, rfl, hdone⟩
        · exact .of_read rfl rfl rfl
        · obtain ⟨rfl, rfl⟩ := Dialogue.reaches_done.mp hdone
          exact .of_sent rfl rfl rfl
    · simp only [hstore, ne_eq, not_false_eq_true, if_true] at hactive
      obtain ⟨rfl, rfl⟩ := Dialogue.reaches_done.mp hactive
      exact .of_unread rfl rfl (by simp)

end Estimate

/-- A materialization registers nothing. -/
theorem materialize_phase {option : MaterializationOption} {target : StateImportTarget}
    {context : OperationContext} {left : StoreM (Except StoreError TransferReceipt)}
    (h : (materialize option target context).Reaches exchanges left) (id : StateId)
    (record : NexusStoreRecord) : left.pending ≠ some (.register id record) := by
  rcases Dialogue.Reaches.call_cases h with ⟨rfl, _, rfl⟩ | ⟨active, rest, rfl, hactive⟩
  · simp
  clear h
  cases active with
  | error error =>
    obtain ⟨rfl, rfl⟩ := Dialogue.reaches_done.mp hactive
    simp
  | ok =>
    simp only at hactive
    split_ifs at hactive
    · obtain ⟨rfl, rfl⟩ := Dialogue.reaches_done.mp hactive
      simp
    · rcases Dialogue.Reaches.call_cases hactive with ⟨rfl, _, rfl⟩ | ⟨found, rest, rfl, hfound⟩
      · simp
      clear hactive
      match found with
      | .error () =>
        obtain ⟨rfl, rfl⟩ := Dialogue.reaches_done.mp hfound
        simp
      | .ok none =>
        obtain ⟨rfl, rfl⟩ := Dialogue.reaches_done.mp hfound
        simp
      | .ok (some record) =>
        rcases Dialogue.Reaches.call_cases hfound with ⟨rfl, _, rfl⟩ | ⟨answer, rest, rfl, hdone⟩
        · simp
        clear hfound
        cases hresult : BridgeAnswer.result answer with
        | error error =>
          simp only [hresult] at hdone
          obtain ⟨rfl, rfl⟩ := Dialogue.reaches_done.mp hdone
          simp
        | ok response =>
          simp only [hresult] at hdone
          split_ifs at hdone
          all_goals
            obtain ⟨rfl, rfl⟩ := Dialogue.reaches_done.mp hdone
            simp

/-- Only a lookup registers, and what it registers is the match that it has heard of. -/
theorem registers_found {call : Call}
    (h : (call.operation.program config).Reaches call.exchanges call.remaining)
    {state : StateId} {record : NexusStoreRecord}
    (hpending : call.remaining.pending = some (.register state record)) :
    ∃ own, call.found config = some own ∧ state = foundState config own ∧
      record = own.2.record := by
  obtain ⟨operation, exchanges, remaining⟩ := call
  cases operation with
  | lookup requirement context =>
    obtain ⟨left, hleft, rfl⟩ := Dialogue.reaches_map.mp h
    rw [Dialogue.pending_map] at hpending
    obtain ⟨hit, hhit, hstate, hrecord⟩ := (lookup_phase hleft).registers _ _ hpending
    exact ⟨(lookupTenant config requirement, hit), by simp [Call.found, hhit], hstate, hrecord⟩
  | estimate source state target context =>
    obtain ⟨left, hleft, rfl⟩ := Dialogue.reaches_map.mp h
    rw [Dialogue.pending_map] at hpending
    exact absurd hpending ((estimate_phase hleft).not_registers _ _)
  | materialize option target context =>
    obtain ⟨left, hleft, rfl⟩ := Dialogue.reaches_map.mp h
    rw [Dialogue.pending_map] at hpending
    exact absurd hpending (materialize_phase hleft _ _)

/-- A call that has returned a state has registered it. -/
theorem returned_found {call : Call}
    (h : (call.operation.program config).Reaches call.exchanges call.remaining)
    {states : List StateDescriptor} {state : StateDescriptor}
    (hdone : call.remaining = .done (.found (.ok states))) (hstate : state ∈ states) :
    ∃ own, call.found config = some own ∧ state.id = foundState config own ∧
      call.exchanges.any registers = true := by
  obtain ⟨operation, exchanges, remaining⟩ := call
  cases operation with
  | lookup requirement context =>
    obtain ⟨left, hleft, rfl⟩ := Dialogue.reaches_map.mp h
    obtain ⟨result, rfl, hresult⟩ := Dialogue.map_eq_done.mp hdone
    obtain ⟨hit, hhit, rfl, hany⟩ :=
      (lookup_phase hleft).returns states (by rw [Outcome.found.inj hresult]) state hstate
    exact ⟨(lookupTenant config requirement, hit), by simp [Call.found, hhit], rfl, hany⟩
  | estimate source state target context =>
    obtain ⟨left, hleft, rfl⟩ := Dialogue.reaches_map.mp h
    obtain ⟨result, -, hresult⟩ := Dialogue.map_eq_done.mp hdone
    cases hresult
  | materialize option target context =>
    obtain ⟨left, hleft, rfl⟩ := Dialogue.reaches_map.mp h
    obtain ⟨result, -, hresult⟩ := Dialogue.map_eq_done.mp hdone
    cases hresult

/-- An estimate sends the records that it has read. -/
theorem sends_iff {call : Call} {source : Option ℕ} {state : StateDescriptor}
    {target : ExecutionTarget} {context : OperationContext}
    (h : (call.operation.program config).Reaches call.exchanges call.remaining)
    (hcall : call.operation = .estimate source state target context) {request : EstimateRequest} :
    call.Sends request ↔ ∃ record ∈ call.exchanges.filterMap readRecord,
      request = estimateRequest record target := by
  rw [hcall] at h
  obtain ⟨left, hleft, hremaining⟩ := Dialogue.reaches_map.mp h
  rw [Call.Sends, hremaining, Dialogue.pending_map]
  exact (estimate_phase hleft).sends_iff request

/-- An estimate reads the record of its state. -/
theorem reads_own {call : Call} {source : Option ℕ} {state : StateDescriptor}
    {target : ExecutionTarget} {context : OperationContext} {id : StateId}
    (h : (call.operation.program config).Reaches call.exchanges call.remaining)
    (hcall : call.operation = .estimate source state target context)
    (hpending : call.remaining.pending = some (.readRecord id)) : id = state.id := by
  rw [hcall] at h
  obtain ⟨left, hleft, hremaining⟩ := Dialogue.reaches_map.mp h
  rw [hremaining, Dialogue.pending_map] at hpending
  exact (estimate_phase hleft).reads_own id hpending

end Phases

section Invariant

variable {config : NexusKvStoreConfig} {s t : Calls}
  {label : ThreadLabel Operation StoreCall.Answer}

/-- What the table holds under an identifier, by the lookups that have registered. -/
def registeredUnder (config : NexusKvStoreConfig) (s : Calls) (id : StateId) :
    Option NexusStoreRecord :=
  s.shared.registered.findSome? fun index =>
    (foundBy config s index).bind fun own =>
      if foundState config own = id then some own.2.record else none

/-- Every call has followed its program, and the table holds what lookups have found, the latest
one first. The state of an estimate comes from a lookup that has returned it. -/
structure Sound (config : NexusKvStoreConfig) (s : Calls) : Prop where
  consistent : (storeSystem config).Consistent s
  registered_of_any : ∀ (k : ℕ) (call : Call), s.threads[k]? = some call →
    call.exchanges.any registers = true → k ∈ s.shared.registered
  found_of_mem : ∀ k ∈ s.shared.registered, ∃ own, foundBy config s k = some own
  records_eq : ∀ id, s.shared.records[id]? = registeredUnder config s id
  source_returned : ∀ (k : ℕ) (call : Call) (source : ℕ) (state : StateDescriptor)
    (target : ExecutionTarget) (context : OperationContext), s.threads[k]? = some call →
      call.operation = .estimate (some source) state target context →
        mayStart s call.operation

/-- What a call has found, it has found for good. -/
theorem foundBy_step (hstep : (storeSystem config).Step s label t) {k : ℕ}
    {own : String × NexusMatchResult} (h : foundBy config s k = some own) :
    foundBy config t k = some own := by
  obtain ⟨call, hcall, hfound⟩ := Option.bind_eq_some_iff.mp h
  obtain ⟨later, hlater, hoperation, heq⟩ := hstep.thread_stays hcall
  rw [foundBy, hlater, Option.bind_some]
  rcases heq with rfl | ⟨question, next, answer, -, -, hexchanges, -⟩
  · exact hfound
  · unfold Call.found at hfound ⊢
    rw [hoperation]
    cases hcase : call.operation with
    | lookup requirement context =>
      rw [hcase] at hfound
      obtain ⟨hit, hhit, rfl⟩ := Option.map_eq_some_iff.mp hfound
      simp only [hexchanges, List.findSome?_append, hhit, Option.some_or, Option.map_some]
    | estimate source state target context =>
      rw [hcase] at hfound
      cases hfound
    | materialize option target context =>
      rw [hcase] at hfound
      cases hfound

/-- A call that has returned stays as it is. -/
theorem mayStart_step (hstep : (storeSystem config).Step s label t) {operation : Operation}
    (h : mayStart s operation) : mayStart t operation := by
  unfold mayStart at h ⊢
  split at h
  · obtain ⟨call, states, hcall, hdone, hstate⟩ := h
    obtain ⟨later, hlater, -, heq⟩ := hstep.thread_stays hcall
    rcases heq with rfl | ⟨question, next, answer, -, hask, -⟩
    · exact ⟨later, states, hlater, hdone, hstate⟩
    · rw [hdone] at hask
      cases hask
  · trivial

/-- The table changes only when a registration succeeds. -/
theorem respond_cases {table table' : Table} {index : ℕ} {exchange : Exchange StoreCall.Answer}
    (h : table.respond index exchange = some table') :
    (registers exchange = false ∧ table' = table) ∨
    ∃ state record, exchange.1 = .register state record ∧ registers exchange = true ∧
      table' = ⟨table.records.insert state record, index :: table.registered⟩ := by
  obtain ⟨question, answer⟩ := exchange
  cases question with
  | register state record =>
    match answer with
    | .ok () =>
      right
      exact ⟨state, record, rfl, rfl, (Option.some.inj h).symm⟩
    | .error () =>
      left
      exact ⟨rfl, (Option.some.inj h).symm⟩
  | readRecord state =>
    left
    match answer with
    | .ok found =>
      simp only [Table.respond] at h
      split_ifs at h
      exact ⟨rfl, (Option.some.inj h).symm⟩
    | .error () => exact ⟨rfl, (Option.some.inj h).symm⟩
  | ensureActive context => exact .inl ⟨rfl, (Option.some.inj h).symm⟩
  | postLookup request => exact .inl ⟨rfl, (Option.some.inj h).symm⟩
  | postEstimate request => exact .inl ⟨rfl, (Option.some.inj h).symm⟩
  | postMaterialize request => exact .inl ⟨rfl, (Option.some.inj h).symm⟩

/-- A step leaves the table as it is, or a call that waits to register does so. A call that has
registered did so before, or does so now. -/
theorem shared_cases (hstep : (storeSystem config).Step s label t) :
    (t.shared = s.shared ∨ ∃ index call state record, s.threads[index]? = some call ∧
      call.remaining.pending = some (.register state record) ∧
      t.shared = ⟨s.shared.records.insert state record, index :: s.shared.registered⟩) ∧
    ∀ (k : ℕ) (call : Call), t.threads[k]? = some call → call.exchanges.any registers = true →
      (∃ earlier, s.threads[k]? = some earlier ∧ earlier.exchanges.any registers = true) ∨
        k ∈ t.shared.registered := by
  cases hstep with
  | start hstart =>
    refine ⟨.inl rfl, ?_⟩
    intro k call hcall hany
    rcases getElem?_concat_eq_some.mp hcall with hcall | ⟨-, rfl⟩
    · exact .inl ⟨call, hcall, hany⟩
    · cases hany
  | @answer index operation exchanges question next answer shared hthread hshared =>
    rcases respond_cases hshared with ⟨hquiet, rfl⟩ | ⟨state, record, hregister, -, rfl⟩
    · refine ⟨.inl rfl, ?_⟩
      intro k call hcall hany
      left
      by_cases hk : index = k
      · subst hk
        rw [List.getElem?_set_self (List.getElem?_eq_some_iff.mp hthread).1] at hcall
        cases hcall
        rw [List.any_append, List.any_cons, List.any_nil, hquiet, Bool.or_false, Bool.or_false]
          at hany
        exact ⟨_, hthread, hany⟩
      · rw [List.getElem?_set_ne hk] at hcall
        exact ⟨call, hcall, hany⟩
    · obtain rfl : question = .register state record := hregister
      refine ⟨.inr ⟨index, _, state, record, hthread, rfl, rfl⟩, ?_⟩
      intro k call hcall hany
      by_cases hk : index = k
      · subst hk
        exact .inr List.mem_cons_self
      · rw [List.getElem?_set_ne hk] at hcall
        exact .inl ⟨call, hcall, hany⟩

/-- A search only looks at what is in the list. -/
theorem findSome?_congr {α β : Type} {items : List α} {f g : α → Option β}
    (h : ∀ item ∈ items, f item = g item) : items.findSome? f = items.findSome? g := by
  induction items with
  | nil => rfl
  | cons item items ih =>
    rw [List.findSome?_cons, List.findSome?_cons, h item List.mem_cons_self,
      ih fun other hother => h other (List.mem_cons_of_mem _ hother)]

/-- Lookups that stay give the same table. -/
theorem registeredUnder_congr (hregistered : t.shared.registered = s.shared.registered)
    (hfound : ∀ k ∈ s.shared.registered, foundBy config t k = foundBy config s k) (id : StateId) :
    registeredUnder config t id = registeredUnder config s id := by
  unfold registeredUnder
  rw [hregistered]
  exact findSome?_congr fun k hk => by rw [hfound k hk]

/-- Of what is registered, each call has found the same as before. -/
theorem Sound.foundBy_eq (h : Sound config s) (hstep : (storeSystem config).Step s label t) :
    ∀ k ∈ s.shared.registered, foundBy config t k = foundBy config s k := by
  intro k hk
  obtain ⟨own, hown⟩ := h.found_of_mem k hk
  rw [hown, foundBy_step hstep hown]

/-- What a step adds to the table is what the call that registers has found. -/
theorem Sound.table_cases (h : Sound config s) (hstep : (storeSystem config).Step s label t) :
    t.shared = s.shared ∨ ∃ index own, foundBy config t index = some own ∧
      t.shared = ⟨s.shared.records.insert (foundState config own) own.2.record,
        index :: s.shared.registered⟩ := by
  rcases (shared_cases hstep).1 with hsame | ⟨index, call, state, record, hcall, hpending, hnew⟩
  · exact .inl hsame
  · obtain ⟨own, hown, rfl, rfl⟩ := registers_found (h.consistent _ call hcall) hpending
    exact .inr ⟨index, own, foundBy_step hstep (by rw [foundBy, hcall, Option.bind_some, hown]),
      hnew⟩

theorem Sound.registered_mono (h : Sound config s)
    (hstep : (storeSystem config).Step s label t) :
    ∀ k ∈ s.shared.registered, k ∈ t.shared.registered := by
  intro k hk
  rcases h.table_cases hstep with hsame | ⟨index, own, -, hnew⟩
  · rwa [hsame]
  · rw [hnew]
    exact List.mem_cons_of_mem _ hk

/-- The table still has the latest of what was found. -/
theorem Sound.records_step (h : Sound config s) (hstep : (storeSystem config).Step s label t)
    (id : StateId) : t.shared.records[id]? = registeredUnder config t id := by
  rcases h.table_cases hstep with hsame | ⟨index, own, hown, hnew⟩
  · rw [hsame, registeredUnder_congr (by rw [hsame]) (h.foundBy_eq hstep)]
    exact h.records_eq id
  · have hregistered : t.shared.registered = index :: s.shared.registered := by rw [hnew]
    rw [registeredUnder, hregistered, List.findSome?_cons, hown, Option.bind_some, hnew,
      Std.ExtTreeMap.getElem?_insert]
    by_cases hid : foundState config own = id
    · subst hid
      simp
    · rw [if_neg hid, if_neg (by simpa using hid), h.records_eq id]
      exact (findSome?_congr fun k hk => by rw [h.foundBy_eq hstep k hk]).symm

/-- An estimate that has started still has the lookup that it takes its state from. -/
theorem Sound.source_step (h : Sound config s) (hstep : (storeSystem config).Step s label t)
    {k : ℕ} {call : Call} (hcall : t.threads[k]? = some call) {source : ℕ}
    {state : StateDescriptor} {target : ExecutionTarget} {context : OperationContext}
    (hoperation : call.operation = .estimate (some source) state target context) :
    mayStart t call.operation := by
  rcases hstep.thread_cases hcall with hold | ⟨hlabel, -, -⟩ |
    ⟨exchanges, question, next, answer, -, hold, -⟩
  · exact mayStart_step hstep
      (h.source_returned k call source state target context hold hoperation)
  · subst hlabel
    cases hstep with
    | start hstart => exact mayStart_step (.start hstart) hstart
  · have hbefore := h.source_returned k _ source state target context hold hoperation
    exact mayStart_step hstep hbefore

/-- Every step keeps the table sound. -/
theorem sound_step (h : Sound config s) (hstep : (storeSystem config).Step s label t) :
    Sound config t := by
  refine ⟨ThreadSystem.consistent_step h.consistent hstep, ?_, ?_, h.records_step hstep, ?_⟩
  · intro k call hcall hregisters
    rcases (shared_cases hstep).2 k call hcall hregisters with
      ⟨earlier, hearlier, hbefore⟩ | hmem
    · exact h.registered_mono hstep k (h.registered_of_any k earlier hearlier hbefore)
    · exact hmem
  · intro k hk
    rcases h.table_cases hstep with hsame | ⟨index, own, hown, hnew⟩
    · rw [hsame] at hk
      rw [h.foundBy_eq hstep k hk]
      exact h.found_of_mem k hk
    · rw [hnew] at hk
      rcases List.mem_cons.mp hk with rfl | hk
      · exact ⟨own, hown⟩
      · rw [h.foundBy_eq hstep k hk]
        exact h.found_of_mem k hk
  · intro k call source state target context hcall hoperation
    exact h.source_step hstep hcall hoperation

/-- The store starts sound. -/
theorem sound_fresh (config : NexusKvStoreConfig) : Sound config freshStore where
  consistent := by
    intro k thread h
    cases h
  registered_of_any := by
    intro k call h
    cases h
  found_of_mem := by
    intro k h
    cases h
  records_eq := by
    intro id
    exact Std.ExtTreeMap.getElem?_empty
  source_returned := by
    intro k call source state target context h
    cases h

end Invariant

section Substitution

variable {config : NexusKvStoreConfig} {s t : Calls}
  {label : ThreadLabel Operation StoreCall.Answer}

/-- Every estimate of a state that a lookup returned has read the record of that lookup. -/
def ReadsOwn (config : NexusKvStoreConfig) (s : Calls) : Prop :=
  ∀ (k : ℕ) (call : Call) (source : ℕ) (state : StateDescriptor) (target : ExecutionTarget)
    (context : OperationContext), s.threads[k]? = some call →
      call.operation = .estimate (some source) state target context →
        ∀ record ∈ call.exchanges.filterMap readRecord, ∀ own,
          foundBy config s source = some own → record = own.2.record

/-- A request carries the source of a match if it was made from its record. -/
theorem carries_iff {record : NexusStoreRecord} {target : ExecutionTarget}
    {hit : NexusMatchResult} :
    Carries (estimateRequest record target) hit ↔ record = hit.record := by
  obtain ⟨sourceState, sourceHandle, sourceLocator, sourceTier⟩ := record
  simp [Carries, estimateRequest, NexusMatchResult.record]

/-- What is sent is what was read. -/
theorem noSubstitution_iff_readsOwn (h : Sound config s) :
    NoSubstitution config s ↔ ReadsOwn config s := by
  constructor
  · intro hnone k call source state target context hcall hoperation record hrecord own hown
    have hsends := (sends_iff (h.consistent k call hcall) hoperation).mpr ⟨record, hrecord, rfl⟩
    exact carries_iff.mp
      (hnone k call source state target context hcall hoperation _ hsends own.1 own.2 hown)
  · intro hreads k call source state target context hcall hoperation request hsends tenant hit
      hown
    obtain ⟨record, hrecord, rfl⟩ := (sends_iff (h.consistent k call hcall) hoperation).mp hsends
    exact carries_iff.mpr
      (hreads k call source state target context hcall hoperation record hrecord _ hown)

/-- The table holds the latest match of an entry. -/
theorem records_latest (h : Sound config s) (own : String × NexusMatchResult) :
    s.shared.records[foundState config own]? =
      (latest config s own).map NexusMatchResult.record := by
  rw [h.records_eq, latest, List.map_findSome?, registeredUnder]
  refine findSome?_congr ?_
  intro k _
  rw [Function.comp_apply]
  cases foundBy config s k with
  | none => rfl
  | some other =>
    have hiff : foundState config other = foundState config own ↔ SameEntry own other := by
      unfold foundState SameEntry
      rw [storeStateId_inj]
      constructor
      · rintro ⟨htenant, -, hentry⟩
        exact ⟨htenant.symm, hentry.symm⟩
      · rintro ⟨htenant, hentry⟩
        exact ⟨htenant.symm, rfl, hentry.symm⟩
    by_cases hsame : SameEntry own other
    · simp [hsame, hiff.mpr hsame]
    · simp [hsame, mt hiff.mp hsame]

/-- The latest match of an entry is a match of the entry. -/
theorem entryId_of_latest {own : String × NexusMatchResult} {newest : NexusMatchResult}
    (h : latest config s own = some newest) :
    newest.entry.identity.entryId = own.2.entry.identity.entryId := by
  obtain ⟨k, -, hk⟩ := List.exists_of_findSome?_eq_some h
  obtain ⟨other, -, hother⟩ := Option.bind_eq_some_iff.mp hk
  split_ifs at hother with hsame
  cases hother
  exact hsame.2.symm

/-- Two matches of one entry with the same source have the same record. -/
theorem record_eq_iff {hit other : NexusMatchResult}
    (h : hit.entry.identity.entryId = other.entry.identity.entryId) :
    hit.record = other.record ↔ SameSource hit other := by
  simp [NexusMatchResult.record, SameSource, h]

/-- What the lookup found that an estimate's state came from. -/
theorem source_found (h : Sound config s) {k source : ℕ} {call : Call} {state : StateDescriptor}
    {target : ExecutionTarget} {context : OperationContext} (hcall : s.threads[k]? = some call)
    (hoperation : call.operation = .estimate (some source) state target context) :
    ∃ own, foundBy config s source = some own ∧ state.id = foundState config own := by
  have hstart := h.source_returned k call source state target context hcall hoperation
  rw [hoperation] at hstart
  obtain ⟨lookup, states, hlookup, hdone, hstate⟩ := hstart
  obtain ⟨own, hown, hid, -⟩ := returned_found (h.consistent source lookup hlookup) hdone hstate
  exact ⟨own, by rw [foundBy, hlookup, Option.bind_some, hown], hid⟩

/-- The record that an estimate reads is its own exactly if the latest match has its source. -/
theorem read_own_iff (h : Sound config s) {k source : ℕ} {call : Call} {state : StateDescriptor}
    {target : ExecutionTarget} {context : OperationContext} {record : NexusStoreRecord}
    {own : String × NexusMatchResult} (hcall : s.threads[k]? = some call)
    (hoperation : call.operation = .estimate (some source) state target context)
    (hown : foundBy config s source = some own)
    (hread : s.shared.records[state.id]? = some record) :
    record = own.2.record ↔
      ∀ newest, latest config s own = some newest → SameSource newest own.2 := by
  obtain ⟨own', hown', hid⟩ := source_found h hcall hoperation
  rw [hown] at hown'
  cases hown'
  rw [hid, records_latest h own] at hread
  obtain ⟨newest, hnewest, rfl⟩ := Option.map_eq_some_iff.mp hread
  rw [record_eq_iff (entryId_of_latest hnewest)]
  constructor
  · intro hsame other hother
    rw [hnewest] at hother
    cases hother
    exact hsame
  · intro hall
    exact hall newest hnewest

/-- An answer to a read is what the table holds. -/
theorem read_of_respond {table table' : Table} {index : ℕ} {exchange : Exchange StoreCall.Answer}
    {record : NexusStoreRecord} (h : table.respond index exchange = some table')
    (hread : readRecord exchange = some record) :
    ∃ state, exchange = ⟨.readRecord state, (.ok (some record) : Except Unit _)⟩ ∧
      table.records[state]? = some record := by
  obtain ⟨question, answer⟩ := exchange
  cases question with
  | readRecord state =>
    match answer with
    | .ok found =>
      obtain rfl : found = some record := hread
      simp only [Table.respond] at h
      split_ifs at h with hfound
      exact ⟨state, rfl, hfound.symm⟩
    | .error () => cases hread
  | _ => cases hread

/-- A read that is answered with a record. -/
theorem step_read {index : ℕ} {exchange : Exchange StoreCall.Answer} {record : NexusStoreRecord}
    (hstep : (storeSystem config).Step s (.answer index exchange) t)
    (hread : readRecord exchange = some record) :
    ∃ call state, s.threads[index]? = some call ∧
      call.remaining.pending = some (.readRecord state) ∧ s.shared.records[state]? = some record ∧
      ∃ later, t.threads[index]? = some later ∧ later.operation = call.operation ∧
        later.exchanges = call.exchanges ++ [exchange] := by
  cases hstep with
  | @answer index operation exchanges question next answer shared hthread hshared =>
    obtain ⟨state, heq, hrecord⟩ := read_of_respond hshared hread
    obtain rfl : question = .readRecord state := congrArg Sigma.fst heq
    have hlt := (List.getElem?_eq_some_iff.mp hthread).1
    exact ⟨_, state, hthread, rfl, hrecord, _, List.getElem?_set_self hlt, rfl, rfl⟩

/-- The condition on a step, in terms of the record that the step reads. -/
theorem current_iff (h : Sound config s) (hstep : (storeSystem config).Step s label t) :
    Current config s label ↔ ∀ (index : ℕ) (exchange : Exchange StoreCall.Answer)
      (record : NexusStoreRecord), label = .answer index exchange →
        readRecord exchange = some record →
          ∀ (call : Call) (source : ℕ) (state : StateDescriptor) (target : ExecutionTarget)
            (context : OperationContext), s.threads[index]? = some call →
              call.operation = .estimate (some source) state target context →
                ∀ own, foundBy config s source = some own → record = own.2.record := by
  constructor
  · rintro hcurrent index exchange record rfl hread call source state target context hcall
      hoperation own hown
    obtain ⟨call', id, hcall', hpending, hrecord, -⟩ := step_read hstep hread
    rw [hcall] at hcall'
    cases hcall'
    obtain rfl := reads_own (h.consistent index call hcall) hoperation hpending
    refine (read_own_iff h hcall hoperation hown hrecord).mpr ?_
    intro newest hnewest
    obtain ⟨question, answer⟩ := exchange
    cases question with
    | readRecord id =>
      match answer with
      | .ok found =>
        obtain rfl : found = some record := hread
        exact hcurrent record rfl call source state target context hcall hoperation own newest
          hown hnewest
      | .error () => cases hread
    | _ => cases hread
  · intro hreads
    unfold Current
    split
    · rename_i index id answer
      rintro record rfl call source state target context hcall hoperation own newest hown hnewest
      obtain ⟨call', id', hcall', hpending, hrecord, -⟩ := step_read hstep rfl
      rw [hcall] at hcall'
      cases hcall'
      obtain rfl := reads_own (h.consistent index call hcall) hoperation hpending
      exact (read_own_iff h hcall hoperation hown hrecord).mp
        (hreads index _ record rfl rfl call source state target context hcall hoperation own hown)
        newest hnewest
    · trivial

/-- What an estimate has read before a step, it has read after it. -/
theorem ReadsOwn.before (hstep : (storeSystem config).Step s label t)
    (hreads : ReadsOwn config t) : ReadsOwn config s := by
  intro k call source state target context hcall hoperation record hrecord own hown
  obtain ⟨later, hlater, hsame, heq⟩ := hstep.thread_stays hcall
  refine hreads k later source state target context hlater (hsame.trans hoperation) record ?_
    own (foundBy_step hstep hown)
  rcases heq with rfl | ⟨question, next, answer, -, -, hexchanges, -⟩
  · exact hrecord
  · rw [hexchanges, List.filterMap_append]
    exact List.mem_append_left _ hrecord

/-- What the lookup of an estimate has found, it had found before the step. -/
theorem Sound.foundBy_before (h : Sound config s) (hstep : (storeSystem config).Step s label t)
    {k source : ℕ} {call : Call} {state : StateDescriptor} {target : ExecutionTarget}
    {context : OperationContext} (hcall : s.threads[k]? = some call)
    (hoperation : call.operation = .estimate (some source) state target context)
    {own : String × NexusMatchResult} (hown : foundBy config t source = some own) :
    foundBy config s source = some own := by
  obtain ⟨own', hown', -⟩ := source_found h hcall hoperation
  rw [foundBy_step hstep hown'] at hown
  cases hown
  exact hown'

/-- One step keeps that estimates have read their own records exactly if it is current. -/
theorem readsOwn_step (h : Sound config s) (hstep : (storeSystem config).Step s label t) :
    ReadsOwn config t ↔ ReadsOwn config s ∧ Current config s label := by
  rw [current_iff h hstep]
  constructor
  · intro hreads
    refine ⟨hreads.before hstep, ?_⟩
    rintro index exchange record rfl hread call source state target context hcall hoperation
      own hown
    obtain ⟨call', id, hcall', -, -, later, hlater, hsame, hexchanges⟩ := step_read hstep hread
    rw [hcall] at hcall'
    cases hcall'
    refine hreads index later source state target context hlater (hsame.trans hoperation) record
      ?_ own (foundBy_step hstep hown)
    rw [hexchanges, List.filterMap_append]
    exact List.mem_append_right _ (by simp [hread])
  · rintro ⟨hreads, hcurrent⟩ k call source state target context hcall hoperation record hrecord
      own hown
    rcases hstep.thread_cases hcall with hold | ⟨-, -, heq⟩ |
      ⟨exchanges, question, next, answer, rfl, hold, heq⟩
    · exact hreads k call source state target context hold hoperation record hrecord own
        (h.foundBy_before hstep hold hoperation hown)
    · rw [heq] at hrecord
      cases hrecord
    · have hown' := h.foundBy_before hstep hold hoperation hown
      rw [heq] at hrecord
      simp only [List.filterMap_append, List.mem_append] at hrecord
      rcases hrecord with hrecord | hrecord
      · exact hreads k _ source state target context hold hoperation record hrecord own hown'
      · have hread : readRecord ⟨question, answer⟩ = some record := by simpa using hrecord
        exact hcurrent k _ record rfl hread _ source state target context hold hoperation own hown'

/-- Every run keeps the table sound. -/
theorem sound_of_run {labels : List (ThreadLabel Operation StoreCall.Answer)}
    (hrun : Run (storeSystem config).Step freshStore labels s) : Sound config s :=
  Run.invariant (Sound config) (fun _ _ _ h hstep => sound_step h hstep) hrun (sound_fresh config)

/-- In a run of current steps estimates have read their own records. -/
theorem readsOwn_of_current {labels : List (ThreadLabel Operation StoreCall.Answer)}
    (hrun : Run (permitted (Current config) (storeSystem config).Step) freshStore labels s) :
    Sound config s ∧ ReadsOwn config s := by
  refine Run.invariant (fun s => Sound config s ∧ ReadsOwn config s) ?_ hrun
    ⟨sound_fresh config, ?_⟩
  · rintro s label t ⟨hsound, hreads⟩ ⟨hcurrent, hstep⟩
    exact ⟨sound_step hsound hstep, (readsOwn_step hsound hstep).mpr ⟨hreads, hcurrent⟩⟩
  · intro k call source state target context hcall
    cases hcall

/-- A run in which estimates have read their own records has current steps only. -/
theorem current_of_readsOwn {labels : List (ThreadLabel Operation StoreCall.Answer)}
    (hrun : Run (storeSystem config).Step freshStore labels s) (hreads : ReadsOwn config s) :
    Run (permitted (Current config) (storeSystem config).Step) freshStore labels s := by
  induction hrun with
  | nil => exact .nil _
  | snoc hbefore hstep ih =>
    obtain ⟨hreads, hcurrent⟩ := (readsOwn_step (sound_of_run hbefore) hstep).mp hreads
    exact .snoc (ih hreads) ⟨hcurrent, hstep⟩

/-- In every run each estimate carries the source of the lookup response that its state was
built from, exactly if every estimate that reads the record of its state finds there the latest
answer for the entry unchanged. -/
theorem noSubstitution_iff {labels : List (ThreadLabel Operation StoreCall.Answer)}
    (hrun : Run (storeSystem config).Step freshStore labels s) :
    NoSubstitution config s ↔
      Run (permitted (Current config) (storeSystem config).Step) freshStore labels s := by
  rw [noSubstitution_iff_readsOwn (sound_of_run hrun)]
  constructor
  · exact current_of_readsOwn hrun
  · intro hpermitted
    exact (readsOwn_of_current hpermitted).2

end Substitution

section Versions

/-- A store that is configured for one tenant. -/
def acmeConfig : NexusKvStoreConfig where
  baseUrl := "http://bridge:7700"
  apiKey := none
  tenant := "acme"
  nameSpace := "prefixes"
  engineFamily := "vllm"
  semanticType := "kv"

/-- What a request of two tokens looks up. -/
def acmeRequirement : StateRequirement where
  model := ⟨"model", none, "profile"⟩
  inputSemantics := ⟨⟨"tokenizer", "1", "a"⟩, ⟨"template", "1", "b"⟩, none⟩
  acceptedStateKinds := {"nexuskv.kv"}
  inputFingerprint := "fingerprint"
  queryTokenIds := some [1, 2]
  tenantScope := none

/-- The bridge has a version of an entry for both tokens. -/
def versionMatch (generation : UInt32) (handle : String) : NexusMatchResult where
  matchedUnits := 2
  entry := ⟨⟨"model", "entry", generation, "lineage"⟩, ⟨nexusKvSchema, "layout", "kv", "block"⟩,
    ⟨"gpu", "gpu-0"⟩⟩
  compatibility := ⟨true, false⟩
  validation := ⟨acmeRequirement.model, acmeRequirement.inputSemantics, handle⟩

/-- The state that is built from a version. -/
def versionState (generation : UInt32) (handle : String) : StateDescriptor :=
  matchDescriptor acmeConfig acmeRequirement (versionMatch generation handle)

/-- Where the state is wanted. -/
def acmeTarget : ExecutionTarget where
  id := "target"
  engine := ⟨"engine", 1⟩
  model := acmeRequirement.model
  role := .combined
  parallelLayout := ⟨1, 1, 1, "layout"⟩
  residency := "resident"
  capabilityRevision := "revision"

/-- A lookup that finds a version and registers it, as the call with this number. -/
def lookupLabels (index : ℕ) (generation : UInt32) (handle : String) :
    List (ThreadLabel Operation StoreCall.Answer) :=
  [.start (.lookup acmeRequirement { requestId := "request" }),
    .answer index ⟨.ensureActive { requestId := "request" }, .ok ()⟩,
    .answer index ⟨.postLookup (lookupRequest acmeConfig acmeRequirement [1, 2]),
      .response ⟨bridgeSchema, nexusKvSchema, some (versionMatch generation handle)⟩⟩,
    .answer index ⟨.register (versionState generation handle).id
      (versionMatch generation handle).record, .ok ()⟩]

/-- An estimate of the first version, which reads this record. -/
def estimateLabels (index : ℕ) (record : NexusStoreRecord) :
    List (ThreadLabel Operation StoreCall.Answer) :=
  [.start (.estimate (some 0) (versionState 1 "first") acmeTarget { requestId := "request" }),
    .answer index ⟨.ensureActive { requestId := "request" }, .ok ()⟩,
    .answer index ⟨.readRecord (versionState 1 "first").id, .ok (some record)⟩]

/-- The first version may be estimated once it has been returned. -/
theorem mayStart_version {s : Calls} {call : Call} {states : List StateDescriptor}
    (hcall : s.threads[0]? = some call) (hdone : call.remaining = .done (.found (.ok states)))
    (hstate : versionState 1 "first" ∈ states) :
    mayStart s (.estimate (some 0) (versionState 1 "first") acmeTarget
      { requestId := "request" }) :=
  ⟨call, states, hcall, hdone, hstate⟩

/-- A version that is looked up once is estimated with its own source. -/
theorem noSubstitution_estimated : ∃ s, Run (storeSystem acmeConfig).Step freshStore
    (lookupLabels 0 1 "first" ++ estimateLabels 1 (versionMatch 1 "first").record) s ∧
    NoSubstitution acmeConfig s ∧ ∃ call : Call, s.threads[1]? = some call ∧
      Call.Sends call (estimateRequest (versionMatch 1 "first").record acmeTarget) := by
  have hrun : ∃ s, Run (permitted (Current acmeConfig) (storeSystem acmeConfig).Step) freshStore
      (lookupLabels 0 1 "first" ++ estimateLabels 1 (versionMatch 1 "first").record) s ∧
      ∃ call : Call, s.threads[1]? = some call ∧
        Call.Sends call (estimateRequest (versionMatch 1 "first").record acmeTarget) := by
    refine ⟨_, .snoc (.snoc (.snoc (.snoc (.snoc (.snoc (.snoc (.nil _) ⟨trivial, .start trivial⟩)
      ⟨trivial, .answer rfl rfl⟩) ⟨trivial, .answer rfl rfl⟩) ⟨trivial, .answer rfl rfl⟩)
      ⟨trivial, .start (mayStart_version rfl rfl (List.mem_singleton_self _))⟩)
      ⟨trivial, .answer rfl rfl⟩) ⟨?_, .answer rfl rfl⟩, _, rfl, .inr rfl⟩
    intro record hrecord call source state target context hcall hoperation own newest hown hnewest
    cases hcall
    cases hoperation
    cases hown
    cases hnewest
    exact ⟨rfl, rfl, rfl⟩
  obtain ⟨s, hpermitted, hsends⟩ := hrun
  have hrun := hpermitted.mono fun _ _ _ h => h.2
  exact ⟨s, hrun, (noSubstitution_iff hrun).mpr hpermitted, hsends⟩

/-- A second lookup finds a new version of the entry before the first one is estimated. Then the
estimate of the first version carries the handle of the second. -/
theorem not_noSubstitution_reversioned : ∃ s, Run (storeSystem acmeConfig).Step freshStore
    (lookupLabels 0 1 "first" ++ lookupLabels 1 2 "second" ++
      estimateLabels 2 (versionMatch 2 "second").record) s ∧
    ¬ NoSubstitution acmeConfig s := by
  refine ⟨_, .snoc (.snoc (.snoc (.snoc (.snoc (.snoc (.snoc (.snoc (.snoc (.snoc (.snoc (.nil _)
    (.start trivial)) (.answer rfl rfl)) (.answer rfl rfl)) (.answer rfl rfl)) (.start trivial))
    (.answer rfl rfl)) (.answer rfl rfl)) (.answer rfl rfl))
    (.start (mayStart_version rfl rfl (List.mem_singleton_self _)))) (.answer rfl rfl))
    (.answer rfl rfl), ?_⟩
  intro hnone
  have hcarries := hnone 2 _ 0 _ _ _ rfl rfl _ (.inr rfl) "acme" (versionMatch 1 "first") rfl
  exact absurd hcarries.2.1 (by decide)

end Versions

end Locus.Store
