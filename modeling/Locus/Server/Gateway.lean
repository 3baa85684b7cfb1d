import Locus.Anthropic.Authenticate
import Locus.OpenAi.Authenticate

/-!
# Requests through the gates of both APIs

One server answers both APIs. Their gates share nothing but the traffic controller, and
each counts its own requests. A run lists the requests in the order in which they take
their numbers, whatever else happens in between.
-/

namespace Locus.Server

open Locus.Core Locus.Engine Locus.Http Locus.Lib Locus.Runtime Locus.Traffic

inductive Api
  | openAi
  | anthropic
  deriving DecidableEq

/-- A request, with the time at which it is given its deadline. -/
structure Arrival where
  api : Api
  request : Request
  now : ℕ

/-- The credential that an API reads from a request. -/
def Arrival.credential (arrival : Arrival) : Option String :=
  match arrival.api with
  | .openAi => arrival.request.bearerToken
  | .anthropic => Anthropic.apiKey arrival.request

/-- `next_request` of both gates. -/
structure RequestCounters where
  openAi : UInt64 := 1
  anthropic : UInt64 := 1

def RequestCounters.number (counters : RequestCounters) : Api → UInt64
  | .openAi => counters.openAi
  | .anthropic => counters.anthropic

/-- What stands before the number of a request in its id. -/
def Arrival.idPrefix (arrival : Arrival) : String :=
  match arrival.api with
  | .openAi => OpenAi.requestIdPrefix arrival.request.path ++ "_"
  | .anthropic => "msg_"

section Gates

variable {Digest : Type} [DecidableEq Digest] [Hashable Digest]
  (tokenDigest : ByteArray → Digest) (ctEq : ByteArray → ByteArray → Bool)

/-- What the gate of an API makes of a request. -/
def arrive (gate : Api → AuthState Digest) (counters : RequestCounters) (arrival : Arrival) :
    RequestCounters × Option TrustedRequest :=
  match arrival.api with
  | .openAi =>
    let answer := OpenAi.authenticate tokenDigest ctEq (gate .openAi) counters.openAi
      arrival.request arrival.now
    ({ counters with openAi := answer.1 }, answer.2.toOption)
  | .anthropic =>
    let answer := Anthropic.authenticate tokenDigest ctEq (gate .anthropic) counters.anthropic
      arrival.request arrival.now
    ({ counters with anthropic := answer.1 }, answer.2.toOption)

/-- The requests of a run that reach a handler. -/
def admitted (gate : Api → AuthState Digest) :
    RequestCounters → List Arrival → List (Arrival × TrustedRequest)
  | _, [] => []
  | counters, arrival :: rest =>
    let answer := arrive tokenDigest ctEq gate counters arrival
    match answer.2 with
    | some trusted => (arrival, trusted) :: admitted gate answer.1 rest
    | none => admitted gate answer.1 rest

end Gates

/-- Whether a credential, or none, was configured for a tenant. -/
def Entitled (config : ApiConfig) (candidate : Option String) (tenant : String) : Prop :=
  match candidate with
  | some token => ⟨tenant, token⟩ ∈ config.credentials
  | none => config.tenantOfAnonymous = some tenant

/-- What a handler may rely on. -/
structure Vouched (config : ApiConfig) (arrival : Arrival) (trusted : TrustedRequest) : Prop where
  tenant : ∃ tenant policy, trusted.context.tenantId = some tenant ∧
    config.traffic.tenants[tenant]? = some policy ∧
    Entitled config arrival.credential tenant ∧
    ∃ deadline, trusted.context.deadline = some deadline ∧ arrival.now < deadline ∧
      deadline ≤ arrival.now + policy.maxRequestTimeout
  requestId : trusted.context.requestId = trusted.responseId
  body : trusted.body.length ≤ config.maxRequestBytes.toNat

/-- What the bounded read accepts are whole bodies that fit. -/
theorem readBoundedBody_eq_ok {maxBytes : UInt64} {frames : List (Except String (List UInt8))}
    {before bytes : List UInt8} (hbefore : before.length ≤ maxBytes.toNat)
    (h : readBoundedBody maxBytes frames before = .ok bytes) :
    bytes.length ≤ maxBytes.toNat ∧
      ∃ chunks : List (List UInt8), frames = chunks.map .ok ∧ bytes = before ++ chunks.flatten := by
  induction frames generalizing before with
  | nil =>
    cases h
    exact ⟨hbefore, [], rfl, by simp⟩
  | cons frame rest ih =>
    cases frame with
    | error message => cases h
    | ok chunk =>
      rw [readBoundedBody] at h
      split at h
      · cases h
      · rename_i hfits
        obtain ⟨hlength, chunks, rfl, rfl⟩ := ih (by rw [List.length_append]; omega) h
        exact ⟨hlength, chunk :: chunks, rfl, by simp⟩

/-- A context is made for a known tenant only, with a deadline within its limit. -/
theorem operationContext_eq_ok {ctl : TrafficController} {requestId tenant : String}
    {timeout : Option ℕ} {now : ℕ} {context : OperationContext}
    (h : ctl.operationContext requestId tenant timeout now = .ok context) :
    ∃ policy, ctl.tenants[tenant]? = some policy ∧ context.requestId = requestId ∧
      context.tenantId = some tenant ∧
      ∃ deadline, context.deadline = some deadline ∧ now < deadline ∧
        deadline ≤ now + policy.maxRequestTimeout := by
  unfold TrafficController.operationContext at h
  split at h
  · cases h
  · rename_i policy hpolicy
    dsimp only at h
    split at h
    · cases h
    · split at h <;> cases h
      rename_i hpositive _
      exact ⟨policy, hpolicy, rfl, rfl, _, rfl, by omega, by omega⟩

section Entitled

variable {Digest : Type} [DecidableEq Digest] [Hashable Digest]
  {tokenDigest : ByteArray → Digest} {ctEq : ByteArray → ByteArray → Bool}
  {config : ApiConfig} {auth : AuthState Digest}

/-- The router keeps its configuration. -/
theorem routerWithConfig_eq_ok (hct : DecidesEq ctEq)
    (h : routerWithConfig tokenDigest ctEq config = .ok auth) :
    auth.traffic = config.traffic ∧ auth.maxRequestBytes = config.maxRequestBytes ∧
      ∀ candidate tenant, auth.tenant tokenDigest ctEq candidate = some tenant ↔
        Entitled config candidate tenant := by
  unfold routerWithConfig at h
  obtain ⟨-, h⟩ := guard_eq_ok h
  obtain ⟨-, h⟩ := guard_eq_ok h
  obtain ⟨-, h⟩ := guard_eq_ok h
  obtain ⟨-, -, h⟩ := bind_eq_ok h
  obtain ⟨index, hnew, rfl⟩ : ∃ index,
      CredentialIndex.new tokenDigest ctEq config.credentials = .ok index ∧
        auth = ⟨index, config.tenantOfAnonymous, config.traffic, config.maxRequestBytes⟩ := by
    cases hnew : CredentialIndex.new tokenDigest ctEq config.credentials with
    | error error =>
      cases error <;> cases hanonymous : config.tenantOfAnonymous <;>
        simp only [hnew, hanonymous] at h
      all_goals first | cases h | cases (guard_eq_ok h).2
    | ok index =>
      refine ⟨index, rfl, ?_⟩
      cases hanonymous : config.tenantOfAnonymous <;> simp only [hnew, hanonymous] at h
      · cases h
        rfl
      · cases (guard_eq_ok h).2
        rfl
  refine ⟨rfl, rfl, fun candidate tenant => ?_⟩
  cases candidate with
  | none => exact Iff.rfl
  | some token =>
    have hspec := foldlM_insertCredential_spec tokenDigest hct config.credentials
    cases hfold : config.credentials.foldlM (insertCredential tokenDigest ctEq) ∅ with
    | error error =>
      rw [CredentialIndex.new, hfold] at hnew
      cases hnew
    | ok buckets =>
      rw [hfold] at hspec
      rw [CredentialIndex.new, hfold] at hnew
      cases hnew
      exact hspec.2.authenticate_eq_some_iff hct hspec.1 token tenant

/-- The gate of the OpenAI API vouches for what it lets through. -/
theorem openAi_authenticate_eq_ok (hct : DecidesEq ctEq)
    (hauth : routerWithConfig tokenDigest ctEq config = .ok auth) {number next : UInt64}
    {request : Request} {now : ℕ} {trusted : TrustedRequest}
    (h : OpenAi.authenticate tokenDigest ctEq auth number request now = (next, .ok trusted)) :
    Vouched config ⟨.openAi, request, now⟩ trusted ∧ next = number + 1 ∧
      trusted.responseId = OpenAi.requestIdPrefix request.path ++ "_" ++ hexDigits number := by
  obtain ⟨htraffic, hbytes, htenant⟩ := routerWithConfig_eq_ok hct hauth
  unfold OpenAi.authenticate at h
  split at h
  · cases h
  rename_i tenant hknown
  split at h
  · cases h
  rename_i timeout _
  obtain ⟨rfl, h⟩ := Prod.mk.inj h
  unfold OpenAi.trust at h
  dsimp only at h
  split at h
  · cases h
  rename_i context hcontext
  rw [htraffic] at hcontext
  obtain ⟨policy, hpolicy, hid, htenantId, hdeadline⟩ := operationContext_eq_ok hcontext
  have hentitled := (htenant _ _).mp hknown
  split at h
  · cases h
    exact ⟨⟨⟨tenant, policy, htenantId, hpolicy, hentitled, hdeadline⟩, hid, by simp⟩, rfl, rfl⟩
  · split at h
    · cases h
    split at h <;> cases h
    rename_i body hbody
    rw [hbytes] at hbody
    have hlength := (readBoundedBody_eq_ok (Nat.zero_le _) hbody).1
    exact ⟨⟨⟨tenant, policy, htenantId, hpolicy, hentitled, hdeadline⟩, hid, hlength⟩, rfl, rfl⟩

/-- The gate of the Messages API vouches for what it lets through. -/
theorem anthropic_authenticate_eq_ok (hct : DecidesEq ctEq)
    (hauth : routerWithConfig tokenDigest ctEq config = .ok auth) {number next : UInt64}
    {request : Request} {now : ℕ} {trusted : TrustedRequest}
    (h : Anthropic.authenticate tokenDigest ctEq auth number request now = (next, .ok trusted)) :
    Vouched config ⟨.anthropic, request, now⟩ trusted ∧ next = number + 1 ∧
      trusted.responseId = "msg_" ++ hexDigits number := by
  obtain ⟨htraffic, hbytes, htenant⟩ := routerWithConfig_eq_ok hct hauth
  unfold Anthropic.authenticate at h
  replace h := Prod.mk.inj h
  obtain ⟨rfl, h⟩ := h
  by_cases hversion : request.anthropicVersion.bind HeaderValue.toStr ≠
      some Anthropic.anthropicVersion
  · rw [if_pos hversion] at h
    cases h
  rw [if_neg hversion] at h
  clear hversion
  split at h
  · cases h
  rename_i tenant hknown
  unfold Anthropic.trust at h
  split at h
  · cases h
  split at h
  · cases h
  rename_i context hcontext
  rw [htraffic] at hcontext
  obtain ⟨policy, hpolicy, hid, htenantId, hdeadline⟩ := operationContext_eq_ok hcontext
  have hentitled := (htenant _ _).mp hknown
  split at h
  · cases h
    exact ⟨⟨⟨tenant, policy, htenantId, hpolicy, hentitled, hdeadline⟩, hid, by simp⟩, rfl, rfl⟩
  · split at h
    · cases h
    split at h <;> cases h
    rename_i body hbody
    rw [hbytes] at hbody
    have hlength := (readBoundedBody_eq_ok (Nat.zero_le _) hbody).1
    exact ⟨⟨⟨tenant, policy, htenantId, hpolicy, hentitled, hdeadline⟩, hid, hlength⟩, rfl, rfl⟩

end Entitled

/-- The counter of the OpenAI API goes on by at most one. -/
theorem openAi_authenticate_next {Digest : Type} [DecidableEq Digest] [Hashable Digest]
    {tokenDigest : ByteArray → Digest} {ctEq : ByteArray → ByteArray → Bool}
    {auth : AuthState Digest} {number next : UInt64} {request : Request} {now : ℕ}
    {outcome : Except OpenAi.StatusError TrustedRequest}
    (h : OpenAi.authenticate tokenDigest ctEq auth number request now = (next, outcome)) :
    next = number ∨ next = number + 1 := by
  unfold OpenAi.authenticate at h
  split at h
  · exact .inl (Prod.mk.inj h).1.symm
  · split at h
    · exact .inl (Prod.mk.inj h).1.symm
    · exact .inr (Prod.mk.inj h).1.symm

/-- The numbers of a prefix are told apart by their digits. -/
theorem hexDigits_append_inj {start start' : String} {number number' : UInt64}
    (h : start ++ hexDigits number = start' ++ hexDigits number') :
    start = start' ∧ number = number' := by
  have hlength : ∀ number : UInt64, (hexDigits number).toList.length = 16 := by
    intro number
    have hdigits : (Nat.toDigits 16 number.toNat).length ≤ 16 :=
      (Nat.length_toDigits_le_iff (by decide) (by decide)).mpr (by simpa using number.toNat_lt)
    simp only [hexDigits, String.toList_ofList, List.length_append, List.length_replicate]
    omega
  have hchars := congrArg String.toList h
  rw [String.toList_append, String.toList_append] at hchars
  obtain ⟨hstart, hdigits⟩ := List.append_inj' hchars (by rw [hlength, hlength])
  refine ⟨String.toList_inj.mp hstart, UInt64.toNat_inj.mp ?_⟩
  simp only [hexDigits, String.toList_ofList] at hdigits
  exact padded_toDigits_inj hdigits

/-- The prefixes of the two APIs are not the same. -/
theorem requestIdPrefix_ne (path : String) : OpenAi.requestIdPrefix path ++ "_" ≠ "msg_" := by
  unfold OpenAi.requestIdPrefix
  split <;> decide

section Runs

variable {Digest : Type} [DecidableEq Digest] [Hashable Digest]
  {tokenDigest : ByteArray → Digest} {ctEq : ByteArray → ByteArray → Bool}
  {config : Api → ApiConfig} {gate : Api → AuthState Digest}

/-- A gate vouches for what it lets through, under the number that it counts past. -/
theorem arrive_spec (hct : DecidesEq ctEq)
    (hgate : ∀ api, routerWithConfig tokenDigest ctEq (config api) = .ok (gate api))
    (counters : RequestCounters) (arrival : Arrival) :
    (∀ api, (arrive tokenDigest ctEq gate counters arrival).1.number api = counters.number api ∨
      api = arrival.api ∧
        (arrive tokenDigest ctEq gate counters arrival).1.number api = counters.number api + 1) ∧
    ∀ trusted, (arrive tokenDigest ctEq gate counters arrival).2 = some trusted →
      Vouched (config arrival.api) arrival trusted ∧
      trusted.responseId = arrival.idPrefix ++ hexDigits (counters.number arrival.api) ∧
      (arrive tokenDigest ctEq gate counters arrival).1.number arrival.api =
        counters.number arrival.api + 1 := by
  obtain ⟨api, request, now⟩ := arrival
  cases api with
  | openAi =>
    simp only [arrive, Arrival.idPrefix]
    generalize hanswer : OpenAi.authenticate tokenDigest ctEq (gate .openAi) counters.openAi
      request now = answer
    obtain ⟨next, outcome⟩ := answer
    have hnext := openAi_authenticate_next hanswer
    refine ⟨fun api => ?_, fun trusted htrusted => ?_⟩
    · cases api with
      | openAi =>
        rcases hnext with rfl | rfl
        · exact .inl rfl
        · exact .inr ⟨rfl, rfl⟩
      | anthropic => exact .inl rfl
    · cases outcome with
      | error error => cases htrusted
      | ok value =>
        cases htrusted
        obtain ⟨hvouched, rfl, hid⟩ := openAi_authenticate_eq_ok hct (hgate .openAi) hanswer
        exact ⟨hvouched, hid, rfl⟩
  | anthropic =>
    simp only [arrive, Arrival.idPrefix]
    generalize hanswer : Anthropic.authenticate tokenDigest ctEq (gate .anthropic)
      counters.anthropic request now = answer
    obtain ⟨next, outcome⟩ := answer
    have hnext : next = counters.anthropic + 1 := (congrArg Prod.fst hanswer).symm
    refine ⟨fun api => ?_, fun trusted htrusted => ?_⟩
    · cases api with
      | openAi => exact .inl rfl
      | anthropic => exact .inr ⟨rfl, hnext⟩
    · cases outcome with
      | error error => cases htrusted
      | ok value =>
        cases htrusted
        obtain ⟨hvouched, -, hid⟩ := anthropic_authenticate_eq_ok hct (hgate .anthropic) hanswer
        exact ⟨hvouched, hid, hnext⟩

/-- The id of a request that is let through has a number that is still to come. -/
def NumberedFrom (counters : RequestCounters) (item : Arrival × TrustedRequest) : Prop :=
  ∃ number : UInt64, item.2.responseId = item.1.idPrefix ++ hexDigits number ∧
    (counters.number item.1.api).toNat ≤ number.toNat

/-- The prefix of an id names the API. -/
theorem api_of_idPrefix {arrival arrival' : Arrival} (h : arrival.idPrefix = arrival'.idPrefix) :
    arrival.api = arrival'.api := by
  obtain ⟨api, request, now⟩ := arrival
  obtain ⟨api', request', now'⟩ := arrival'
  cases api <;> cases api'
  · rfl
  · exact absurd h (requestIdPrefix_ne _)
  · exact absurd h.symm (requestIdPrefix_ne _)
  · rfl

/-- As long as no counter wraps, the gates vouch for all they let through, under ids that
are all different. -/
theorem admitted_spec (hct : DecidesEq ctEq)
    (hgate : ∀ api, routerWithConfig tokenDigest ctEq (config api) = .ok (gate api))
    {arrivals : List Arrival} {counters : RequestCounters}
    (hroom : ∀ api, (counters.number api).toNat + arrivals.length < 2 ^ 64) :
    (∀ item ∈ admitted tokenDigest ctEq gate counters arrivals,
      Vouched (config item.1.api) item.1 item.2 ∧ NumberedFrom counters item) ∧
    ((admitted tokenDigest ctEq gate counters arrivals).map fun item =>
      item.2.responseId).Nodup := by
  induction arrivals generalizing counters with
  | nil => exact ⟨by simp [admitted], List.nodup_nil⟩
  | cons arrival rest ih =>
    obtain ⟨hnext, htrusted⟩ := arrive_spec hct hgate counters arrival
    rw [List.length_cons] at hroom
    generalize hanswer : arrive tokenDigest ctEq gate counters arrival = answer at hnext htrusted
    obtain ⟨next, outcome⟩ := answer
    -- No counter wraps on the way, so the numbers to come are larger.
    have hmore : ∀ api, (counters.number api).toNat ≤ (next.number api).toNat ∧
        (next.number api).toNat ≤ (counters.number api).toNat + 1 := by
      intro api
      have hapi := hroom api
      rcases hnext api with hsame | ⟨-, hbump⟩
      · rw [hsame]
        omega
      · rw [hbump, UInt64.toNat_add, UInt64.toNat_one]
        omega
    have hroom' : ∀ api, (next.number api).toNat + rest.length < 2 ^ 64 := by
      intro api
      have hapi := hroom api
      have hle := (hmore api).2
      omega
    obtain ⟨hrest, hnodup⟩ := ih hroom'
    have hlater : ∀ item ∈ admitted tokenDigest ctEq gate next rest,
        Vouched (config item.1.api) item.1 item.2 ∧ NumberedFrom counters item := by
      intro item hitem
      obtain ⟨hvouched, number, hid, hle⟩ := hrest item hitem
      exact ⟨hvouched, number, hid, (hmore _).1.trans hle⟩
    cases outcome with
    | none =>
      simp only [admitted, hanswer]
      exact ⟨hlater, hnodup⟩
    | some trusted =>
      obtain ⟨hvouched, hid, hbump⟩ := htrusted trusted rfl
      simp only [admitted, hanswer]
      refine ⟨fun item hitem => ?_, ?_⟩
      · rcases List.mem_cons.mp hitem with rfl | hitem
        · exact ⟨hvouched, _, hid, le_rfl⟩
        · exact hlater item hitem
      · refine List.nodup_cons.mpr ⟨fun hmem => ?_, hnodup⟩
        obtain ⟨item, hitem, hsame⟩ := List.mem_map.mp hmem
        obtain ⟨-, number, hitemId, hle⟩ := hrest item hitem
        dsimp only at hsame
        rw [hitemId, hid] at hsame
        obtain ⟨hbase, rfl⟩ := hexDigits_append_inj hsame
        have hapi := hroom arrival.api
        dsimp only at hbump
        rw [api_of_idPrefix hbase, hbump, UInt64.toNat_add, UInt64.toNat_one] at hle
        omega

end Runs

/-- The traffic controller knows the tenant of a vouched request. -/
theorem admitRequest_known {ctl : TrafficController} {tenant : String} {policy : TenantPolicy}
    (h : ctl.tenants[tenant]? = some policy) (s : TrafficState) (tokenCost : UInt64)
    (now cancellation sender : ℕ) :
    (admitRequest ctl s (some tenant) tokenCost now cancellation sender).1 ≠
        .error .missingTrustedTenant ∧
      ∀ id, (admitRequest ctl s (some tenant) tokenCost now cancellation sender).1 ≠
        .error (.unknownTenant id) := by
  simp only [admitRequest, h]
  split
  · simp
  · unfold admitTenant
    repeat' split
    all_goals simp

section Runs

variable {Digest : Type} [DecidableEq Digest] [Hashable Digest]
  {tokenDigest : ByteArray → Digest} {ctEq : ByteArray → ByteArray → Bool}
  {config : Api → ApiConfig} {gate : Api → AuthState Digest}

/-- Over any sequence of requests to the two APIs, those that reach a handler have ids that
are all different. Each of them acts for the tenant that its credential was configured for,
or for the anonymous tenant if it has none, has a deadline within the limit of that tenant
and a body within the limit of its API. The traffic controller never fails to find its
tenant. -/
theorem gateway_vouches (hct : DecidesEq ctEq)
    (hgate : ∀ api, routerWithConfig tokenDigest ctEq (config api) = .ok (gate api))
    {arrivals : List Arrival} (hcount : arrivals.length + 1 < 2 ^ 64) :
    ((admitted tokenDigest ctEq gate {} arrivals).map fun item => item.2.responseId).Nodup ∧
      ∀ item ∈ admitted tokenDigest ctEq gate {} arrivals,
        Vouched (config item.1.api) item.1 item.2 ∧
        ∀ (s : TrafficState) (tokenCost : UInt64) (now cancellation sender : ℕ),
          let outcome := (admitRequest (config item.1.api).traffic s item.2.context.tenantId
            tokenCost now cancellation sender).1
          outcome ≠ .error .missingTrustedTenant ∧ ∀ id, outcome ≠ .error (.unknownTenant id) := by
  have hroom : ∀ api, ((({} : RequestCounters).number api).toNat + arrivals.length) < 2 ^ 64 := by
    intro api
    have hone : (({} : RequestCounters).number api).toNat = 1 := by cases api <;> rfl
    omega
  obtain ⟨hall, hnodup⟩ := admitted_spec hct hgate hroom
  refine ⟨hnodup, fun item hitem => ?_⟩
  have hvouched := (hall item hitem).1
  obtain ⟨tenant, policy, htenant, hpolicy, -⟩ := hvouched.tenant
  refine ⟨hvouched, fun s tokenCost now cancellation sender => ?_⟩
  rw [htenant]
  exact admitRequest_known hpolicy s tokenCost now cancellation sender

/-- A credential has no tenant exactly if it was configured for none. -/
theorem tenant_eq_none_iff (hct : DecidesEq ctEq) {config : ApiConfig} {auth : AuthState Digest}
    (hauth : routerWithConfig tokenDigest ctEq config = .ok auth) (candidate : Option String) :
    auth.tenant tokenDigest ctEq candidate = none ↔ ∀ tenant, ¬Entitled config candidate tenant := by
  rw [Option.eq_none_iff_forall_ne_some]
  exact forall_congr' fun tenant =>
    not_congr ((routerWithConfig_eq_ok hct hauth).2.2 candidate tenant)

/-- A timeout that cannot be read is the fault of the request. -/
theorem openAi_requestedTimeout_eq_error {header : Option HeaderValue}
    {error : OpenAi.StatusError} (h : OpenAi.requestedTimeout header = .error error) :
    error.status = 400 := by
  unfold OpenAi.requestedTimeout Http.requestedTimeout at h
  split at h
  · cases h
  · split at h
    · cases h
      rfl
    · split at h
      · cases h
        rfl
      · split at h <;> cases h
        rfl

/-- What the OpenAI API refuses once the tenant is known, it refuses as something else. -/
theorem openAi_trust_ne_unauthorized (auth : AuthState Digest) (request : Request)
    (tenant : String) (timeout : Option ℕ) (number : UInt64) (now : ℕ) :
    OpenAi.trust auth request tenant timeout number now ≠ .error OpenAi.unauthorized := by
  unfold OpenAi.trust
  dsimp only
  intro h
  split at h
  · rename_i error _
    cases error <;> simp [OpenAi.apiErrorFromAdmission, OpenAi.unauthorized] at h
  · split at h
    · cases h
    · split at h
      · rename_i error _
        cases error <;> simp [OpenAi.apiErrorFromContext, OpenAi.unauthorized] at h
      · split at h
        · rename_i error _
          cases error <;> simp [OpenAi.bodyError, OpenAi.unauthorized] at h
        · cases h

/-- A timeout that cannot be read is the fault of the request. -/
theorem anthropic_requestedTimeout_eq_error {header : Option HeaderValue}
    {error : Anthropic.ApiError} (h : Anthropic.requestedTimeout header = .error error) :
    error.status = 400 := by
  unfold Anthropic.requestedTimeout Http.requestedTimeout at h
  split at h
  · cases h
  · split at h
    · cases h
      rfl
    · split at h
      · cases h
        rfl
      · split at h <;> cases h
        rfl

/-- What the Messages API refuses once the tenant is known, it refuses as something else. -/
theorem anthropic_trust_ne_unauthorized (auth : AuthState Digest) (request : Request)
    (tenant responseId : String) (now : ℕ) :
    Anthropic.trust auth request tenant responseId now ≠
      .error (Anthropic.unauthorized.withRequestId responseId) := by
  unfold Anthropic.trust
  intro h
  split at h
  · rename_i error herror
    have hstatus := anthropic_requestedTimeout_eq_error herror
    have h401 := congrArg Anthropic.ApiError.status (Except.error.inj h)
    simp [Anthropic.ApiError.withRequestId, Anthropic.unauthorized, hstatus] at h401
  · split at h
    · rename_i error _
      cases error with
      | unknownTenant tenant =>
        -- An unknown tenant is unauthorized as well, under another text.
        have htext : "tenant policy was not found: " ++ tenant = "missing or invalid API key" :=
          congrArg Anthropic.ApiError.message (Except.error.inj h)
        have hfirst := congrArg (fun text => text.toList.head?) htext
        simp at hfirst
      | missingTrustedTenant =>
        have htext : "request has no trusted tenant identity" = "missing or invalid API key" :=
          congrArg Anthropic.ApiError.message (Except.error.inj h)
        exact absurd htext (by decide)
      | _ =>
        have hstatus := congrArg Anthropic.ApiError.status (Except.error.inj h)
        simp [Anthropic.apiErrorFromAdmission, Anthropic.unauthorized, Anthropic.ApiError.invalid,
          Anthropic.ApiError.withRequestId] at hstatus
    · split at h
      · cases h
      · split at h
        · rename_i error _
          cases error <;> simp [Anthropic.apiErrorFromContext, Anthropic.unauthorized,
            Anthropic.ApiError.withRequestId] at h
        · split at h
          · rename_i error _
            cases error <;> simp [Anthropic.bodyError, Anthropic.unauthorized,
              Anthropic.ApiError.invalid, Anthropic.ApiError.withRequestId] at h
          · cases h

/-- A request is turned away as unauthorized exactly if its credential was configured for no
tenant, or if it has none and there is no anonymous tenant. The Messages API looks at the
version first. -/
theorem unauthorized_iff (hct : DecidesEq ctEq)
    (hgate : ∀ api, routerWithConfig tokenDigest ctEq (config api) = .ok (gate api))
    (number : UInt64) (request : Request) (now : ℕ) :
    ((OpenAi.authenticate tokenDigest ctEq (gate .openAi) number request now).2 =
        .error OpenAi.unauthorized ↔
      ∀ tenant, ¬Entitled (config .openAi) request.bearerToken tenant) ∧
    ((Anthropic.authenticate tokenDigest ctEq (gate .anthropic) number request now).2 =
        .error (Anthropic.unauthorized.withRequestId ("msg_" ++ hexDigits number)) ↔
      request.anthropicVersion.bind HeaderValue.toStr = some Anthropic.anthropicVersion ∧
        ∀ tenant, ¬Entitled (config .anthropic) (Anthropic.apiKey request) tenant) := by
  constructor
  · rw [← tenant_eq_none_iff hct (hgate .openAi)]
    unfold OpenAi.authenticate
    cases htenant : (gate .openAi).tenant tokenDigest ctEq request.bearerToken with
    | none => simp
    | some tenant =>
      refine iff_of_false (fun h => ?_) (by simp)
      dsimp only at h
      split at h
      · rename_i error herror
        have hstatus := openAi_requestedTimeout_eq_error herror
        rw [Except.error.inj h] at hstatus
        exact absurd hstatus (by decide)
      · exact openAi_trust_ne_unauthorized _ _ _ _ _ _ h
  · rw [← tenant_eq_none_iff hct (hgate .anthropic)]
    unfold Anthropic.authenticate
    dsimp only
    by_cases hversion :
        request.anthropicVersion.bind HeaderValue.toStr = some Anthropic.anthropicVersion
    · rw [if_neg (not_not.mpr hversion)]
      cases htenant : (gate .anthropic).tenant tokenDigest ctEq (Anthropic.apiKey request) with
      | none => simp [hversion]
      | some tenant =>
        exact iff_of_false (anthropic_trust_ne_unauthorized _ _ _ _ _) (by simp)
    · rw [if_pos hversion]
      refine iff_of_false (fun h => ?_) fun h => hversion h.1
      have hstatus : 400 = 401 := congrArg Anthropic.ApiError.status (Except.error.inj h)
      cases hstatus

end Runs

section Keyed

/-- The comparison of all bytes. -/
def sameBytes (bytes bytes' : ByteArray) : Bool :=
  decide (bytes.data = bytes'.data)

theorem decidesEq_sameBytes : DecidesEq sameBytes :=
  fun _ _ => decide_eq_true_iff.trans ByteArray.ext_iff.symm

/-- One credential, and so no anonymous tenant. -/
def keyedConfig : ApiConfig where
  bearerToken := some "x"

/-- The gate of that configuration. All tokens have the same digest. -/
def keyedGate : AuthState ℕ where
  credentials := ⟨(∅ : Std.HashMap ℕ _).insert 0 [TenantCredential.indexed ⟨"default", "x"⟩]⟩
  anonymousTenant := none
  traffic := .default
  maxRequestBytes := 2097152

theorem routerWithConfig_keyed :
    routerWithConfig (fun _ => 0) sameBytes keyedConfig = .ok keyedGate := by
  have hcredentials : keyedConfig.credentials = [⟨"default", "x"⟩] := rfl
  have hindex : CredentialIndex.new (fun _ => 0) sameBytes keyedConfig.credentials =
      .ok keyedGate.credentials := by
    rw [hcredentials, CredentialIndex.new, List.foldlM_cons, insertCredential, if_neg (by decide)]
    simp only [Std.HashMap.getElem?_empty, Option.getD_none, List.any_nil, Bool.false_eq_true,
      if_false, List.nil_append]
    rfl
  rw [routerWithConfig, hindex]
  rfl

theorem tenant_keyedGate : keyedGate.tenant (fun _ => 0) sameBytes (some "x") = some "default" :=
  ((routerWithConfig_eq_ok decidesEq_sameBytes routerWithConfig_keyed).2.2 (some "x")
    "default").mpr (List.mem_singleton.mpr rfl)

/-- A request that both APIs can read, with a key of one character and an empty object. -/
def keyedRequest (path : String) (key : UInt8) : Request where
  path
  readOnly := false
  authorization := some ⟨[66, 101, 97, 114, 101, 114, 32, key]⟩
  anthropicVersion := some ⟨[50, 48, 50, 51, 45, 48, 54, 45, 48, 49]⟩
  body := .finished [.ok [123, 125]]

/-- Two requests with the configured key, one to each API. -/
def keyedArrivals : List Arrival :=
  [⟨.openAi, keyedRequest "/v1/responses" 120, 0⟩, ⟨.anthropic, keyedRequest "/v1/messages" 120, 5⟩]

/-- What reaches a handler of them. -/
def keyedAdmitted : List (Arrival × TrustedRequest) :=
  admitted (fun _ => 0) sameBytes (fun _ => keyedGate) {} keyedArrivals

/-- Both do. -/
theorem responseIds_keyedAdmitted : keyedAdmitted.map (fun item => item.2.responseId) =
    ["resp_0000000000000001", "msg_0000000000000001"] := by
  have hopenAi : OpenAi.authenticate (fun _ => 0) sameBytes keyedGate 1
      (keyedRequest "/v1/responses" 120) 0 =
        (2, OpenAi.trust keyedGate (keyedRequest "/v1/responses" 120) "default" none 1 0) := by
    have htoken : (keyedRequest "/v1/responses" 120).bearerToken = some "x" := by decide
    rw [OpenAi.authenticate, htoken, tenant_keyedGate]
    rfl
  have hanthropic : Anthropic.authenticate (fun _ => 0) sameBytes keyedGate 1
      (keyedRequest "/v1/messages" 120) 5 =
        (2, Anthropic.trust keyedGate (keyedRequest "/v1/messages" 120) "default"
          "msg_0000000000000001" 5) := by
    have hkey : Anthropic.apiKey (keyedRequest "/v1/messages" 120) = some "x" := by decide
    rw [Anthropic.authenticate, hkey, tenant_keyedGate]
    rfl
  simp only [keyedAdmitted, keyedArrivals, admitted, arrive, hopenAi, hanthropic]
  decide

/-- Two requests with the configured key reach the handlers of the two APIs under different ids,
act for its tenant and are known to the traffic controller. -/
theorem gateway_vouches_keyed :
    keyedAdmitted.map (fun item => item.2.responseId) =
        ["resp_0000000000000001", "msg_0000000000000001"] ∧
      (keyedAdmitted.map fun item => item.2.responseId).Nodup ∧
      ∀ item ∈ keyedAdmitted, Vouched keyedConfig item.1 item.2 ∧
        ∀ (s : TrafficState) (tokenCost : UInt64) (now cancellation sender : ℕ),
          let outcome := (admitRequest .default s item.2.context.tenantId tokenCost now
            cancellation sender).1
          outcome ≠ .error .missingTrustedTenant ∧ ∀ id, outcome ≠ .error (.unknownTenant id) :=
  ⟨responseIds_keyedAdmitted, @gateway_vouches ℕ _ _ _ _ (fun _ => keyedConfig) (fun _ => keyedGate)
    decidesEq_sameBytes (fun _ => routerWithConfig_keyed) keyedArrivals (by decide)⟩

/-- Another key than the configured one is turned away by both APIs. -/
theorem unauthorized_iff_keyed :
    (OpenAi.authenticate (fun _ => 0) sameBytes keyedGate 1
        (keyedRequest "/v1/responses" 121) 0).2 = .error OpenAi.unauthorized ∧
      (Anthropic.authenticate (fun _ => 0) sameBytes keyedGate 1
        (keyedRequest "/v1/messages" 121) 0).2 =
          .error (Anthropic.unauthorized.withRequestId ("msg_" ++ hexDigits 1)) := by
  have hunknown : ∀ tenant, ¬Entitled keyedConfig (some "y") tenant := by
    intro tenant h
    obtain ⟨-, hkey⟩ := TenantCredential.mk.inj (List.mem_singleton.mp h)
    exact absurd hkey (by decide)
  have hiff := fun path => @unauthorized_iff ℕ _ _ _ _ (fun _ => keyedConfig) (fun _ => keyedGate)
    decidesEq_sameBytes (fun _ => routerWithConfig_keyed) 1 (keyedRequest path 121) 0
  constructor
  · refine (hiff "/v1/responses").1.mpr ?_
    have htoken : (keyedRequest "/v1/responses" 121).bearerToken = some "y" := by decide
    rw [htoken]
    exact hunknown
  · refine (hiff "/v1/messages").2.mpr ⟨by decide, ?_⟩
    have hkey : Anthropic.apiKey (keyedRequest "/v1/messages" 121) = some "y" := by decide
    rw [hkey]
    exact hunknown

end Keyed

end Locus.Server
