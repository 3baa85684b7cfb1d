import Locus.Lib.Fallible
import Locus.Lib.MapEntries
import Mathlib.Data.UInt

/-!
# Traffic policies

The admission limits of a deployment: one global policy, its service classes and
its tenants. `TrafficPolicy.validate` accepts or rejects a configuration, and a
`TrafficController` exists only for an accepted one. Token and request limits are
64-bit words, as in `u64` and `usize`.
-/

namespace Locus.Traffic

open Std (TreeMap)
open Locus.Lib

/-- The limits and the weight of one service class. -/
structure ServiceClassPolicy where
  id : String
  weight : UInt32
  maxActiveRequests : UInt64
  maxActiveTokens : UInt64
  /-- Utilization in basis points from which the class is shed; `none` disables shedding. -/
  shedAtGlobalUtilizationBps : Option UInt16
  deriving DecidableEq

/-- The limits, the weight and the deadlines of one tenant. Timeouts are in nanoseconds. -/
structure TenantPolicy where
  id : String
  serviceClass : String
  weight : UInt32
  maxActiveRequests : UInt64
  maxActiveTokens : UInt64
  maxQueuedRequests : UInt64
  maxTokensPerRequest : UInt64
  defaultRequestTimeout : ℕ
  maxRequestTimeout : ℕ
  deriving DecidableEq

/-- A deployment's traffic configuration. -/
structure TrafficPolicy where
  maxActiveRequests : UInt64
  maxActiveTokens : UInt64
  maxQueuedRequests : UInt64
  defaultOutputTokens : UInt64
  classes : List ServiceClassPolicy
  tenants : List TenantPolicy
  deriving DecidableEq

/-- Why a configuration is rejected. -/
inductive TrafficConfigurationError
  | invalid (message : String)
  deriving DecidableEq

/-- `MAX_SERVICE_CLASSES` -/
def maxServiceClasses : ℕ := 64

/-- `MAX_TENANTS` -/
def maxTenants : ℕ := 1024

/-- A character that a class or tenant id may hold. A character outside ASCII
has only bytes that the source's byte test refuses. -/
def labelChar (c : Char) : Bool := c.isAlphanum || c == '_' || c == '-' || c == '.'

/-- Class and tenant ids are short and printable, since they become metric labels. -/
def validateLabel (kind value : String) : Except TrafficConfigurationError Unit :=
  if value ≠ "" ∧ value.utf8ByteSize ≤ 64 ∧ value.toList.all labelChar then
    .ok ()
  else
    .error (.invalid s!"{kind} must be 1-64 ASCII letters, digits, '.', '_' or '-'")

/-- The class loop of `validate`. `seen` holds the ids of the classes already read. -/
def validateClasses :
    List ServiceClassPolicy → TreeMap String Unit →
      Except TrafficConfigurationError (TreeMap String Unit)
  | [], seen => .ok seen
  | c :: rest, seen => do
    validateLabel "service class" c.id
    if c.weight = 0 ∨ c.maxActiveRequests = 0 ∨ c.maxActiveTokens = 0 ∨
        c.shedAtGlobalUtilizationBps.any (fun threshold => decide (10000 < threshold)) = true then
      let id := c.id
      throw (.invalid s!"service class {id} has invalid limits, weight, or shed threshold")
    if seen.contains c.id then
      let id := c.id
      throw (.invalid s!"duplicate service class: {id}")
    validateClasses rest (seen.insert c.id ())

/-- The tenant loop of `validate`. -/
def validateTenants (classes : TreeMap String Unit) :
    List TenantPolicy → TreeMap String Unit → Except TrafficConfigurationError Unit
  | [], _ => .ok ()
  | t :: rest, seen => do
    let id := t.id
    let serviceClass := t.serviceClass
    validateLabel "tenant" t.id
    if !classes.contains t.serviceClass then
      throw (.invalid s!"tenant {id} references unknown service class {serviceClass}")
    if t.weight = 0 ∨ t.maxActiveRequests = 0 ∨ t.maxActiveTokens = 0 ∨
        t.maxQueuedRequests = 0 ∨ t.maxTokensPerRequest = 0 ∨
        t.defaultRequestTimeout = 0 ∨ t.maxRequestTimeout < t.defaultRequestTimeout then
      throw (.invalid s!"tenant {id} has invalid limits, weight, or deadlines")
    if seen.contains t.id then
      throw (.invalid s!"duplicate tenant: {id}")
    validateTenants classes rest (seen.insert t.id ())

/-- Whether a configuration may be served. -/
def TrafficPolicy.validate (p : TrafficPolicy) : Except TrafficConfigurationError Unit := do
  if p.maxActiveRequests = 0 ∨ p.maxActiveTokens = 0 ∨ p.maxQueuedRequests = 0 ∨
      p.defaultOutputTokens = 0 then
    throw (.invalid "global traffic limits must be greater than zero")
  if p.classes.isEmpty ∨ p.tenants.isEmpty then
    throw (.invalid "at least one service class and tenant must be configured")
  if maxServiceClasses < p.classes.length ∨ maxTenants < p.tenants.length then
    throw (.invalid
      s!"traffic policy exceeds cardinality limits of {maxServiceClasses} classes and {maxTenants} tenants")
  let classes ← validateClasses p.classes ∅
  validateTenants classes p.tenants ∅

/-- The policy served when none is configured. -/
def TrafficPolicy.default : TrafficPolicy where
  maxActiveRequests := 128
  maxActiveTokens := 1048576
  maxQueuedRequests := 1024
  defaultOutputTokens := 256
  classes := [
    { id := "standard", weight := 1, maxActiveRequests := 128, maxActiveTokens := 1048576,
      shedAtGlobalUtilizationBps := none }]
  tenants := [
    { id := "default", serviceClass := "standard", weight := 1, maxActiveRequests := 128,
      maxActiveTokens := 1048576, maxQueuedRequests := 1024, maxTokensPerRequest := 65536,
      defaultRequestTimeout := 120000000000, maxRequestTimeout := 600000000000 }]

/-- A controller is built by `TrafficController::new`, which validates its policy
first. Its two lookup tables are functions of the policy. -/
structure TrafficController where
  policy : TrafficPolicy
  accepted : policy.validate = .ok ()

namespace TrafficController

/-- The default policy is accepted. -/
def default : TrafficController := ⟨.default, by decide⟩

/-- The configured classes by id. -/
def classes (ctl : TrafficController) : TreeMap String ServiceClassPolicy :=
  TreeMap.ofList (ctl.policy.classes.map fun c => (c.id, c))

/-- The configured tenants by id. -/
def tenants (ctl : TrafficController) : TreeMap String TenantPolicy :=
  TreeMap.ofList (ctl.policy.tenants.map fun t => (t.id, t))

end TrafficController

section Accepted

/-- What `validate` guarantees of a service class. -/
structure ServiceClassPolicy.Sound (c : ServiceClassPolicy) : Prop where
  weight_ne : c.weight ≠ 0
  maxActiveRequests_ne : c.maxActiveRequests ≠ 0
  maxActiveTokens_ne : c.maxActiveTokens ≠ 0

/-- What `validate` guarantees of a tenant. -/
structure TenantPolicy.Sound (t : TenantPolicy) : Prop where
  weight_ne : t.weight ≠ 0
  maxActiveRequests_ne : t.maxActiveRequests ≠ 0
  maxActiveTokens_ne : t.maxActiveTokens ≠ 0
  maxQueuedRequests_ne : t.maxQueuedRequests ≠ 0
  maxTokensPerRequest_ne : t.maxTokensPerRequest ≠ 0

private theorem validateClasses_ok {l : List ServiceClassPolicy} {seen ids : TreeMap String Unit}
    (h : validateClasses l seen = .ok ids) :
    (∀ c ∈ l, c.Sound) ∧ ∀ id : String, ids.contains id = true →
      seen.contains id = true ∨ ∃ c ∈ l, c.id = id := by
  induction l generalizing seen with
  | nil =>
    obtain rfl : seen = ids := Except.ok.inj h
    exact ⟨by simp, fun id hid => .inl hid⟩
  | cons c rest ih =>
    unfold validateClasses at h
    obtain ⟨_, _, h⟩ := bind_eq_ok h
    obtain ⟨hlimits, h⟩ := guard_eq_ok h
    obtain ⟨_, h⟩ := guard_eq_ok h
    obtain ⟨hsound, hids⟩ := ih h
    simp only [not_or] at hlimits
    refine ⟨fun c' hc' => ?_, fun id hid => ?_⟩
    · rcases List.mem_cons.mp hc' with rfl | hc'
      · exact ⟨hlimits.1, hlimits.2.1, hlimits.2.2.1⟩
      · exact hsound c' hc'
    · rcases hids id hid with hseen | ⟨c', hc', hid'⟩
      · rw [TreeMap.contains_insert, Bool.or_eq_true] at hseen
        rcases hseen with heq | hseen
        · exact .inr ⟨c, by simp, by simpa using heq⟩
        · exact .inl hseen
      · exact .inr ⟨c', by simp [hc'], hid'⟩

private theorem validateTenants_ok {classes : TreeMap String Unit} {l : List TenantPolicy}
    {seen : TreeMap String Unit} (h : validateTenants classes l seen = .ok ()) :
    ∀ t ∈ l, t.Sound ∧ classes.contains t.serviceClass = true := by
  induction l generalizing seen with
  | nil => simp
  | cons t rest ih =>
    unfold validateTenants at h
    obtain ⟨_, _, h⟩ := bind_eq_ok h
    obtain ⟨hclass, h⟩ := guard_eq_ok h
    obtain ⟨hlimits, h⟩ := guard_eq_ok h
    obtain ⟨_, h⟩ := guard_eq_ok h
    simp only [not_or] at hlimits
    intro t' ht'
    rcases List.mem_cons.mp ht' with rfl | ht'
    · exact ⟨⟨hlimits.1, hlimits.2.1, hlimits.2.2.1, hlimits.2.2.2.1, hlimits.2.2.2.2.1⟩,
        by simpa using hclass⟩
    · exact ih h t' ht'

/-- What `validate` guarantees of a policy it accepts. -/
structure TrafficPolicy.Sound (p : TrafficPolicy) : Prop where
  maxActiveRequests_ne : p.maxActiveRequests ≠ 0
  maxActiveTokens_ne : p.maxActiveTokens ≠ 0
  classes : ∀ c ∈ p.classes, c.Sound
  tenants : ∀ t ∈ p.tenants, t.Sound
  tenant_class : ∀ t ∈ p.tenants, ∃ c ∈ p.classes, c.id = t.serviceClass

/-- An accepted policy has positive limits and weights, and every tenant has its class. -/
theorem TrafficPolicy.sound_of_validate {p : TrafficPolicy} (h : p.validate = .ok ()) :
    p.Sound := by
  unfold TrafficPolicy.validate at h
  obtain ⟨hlimits, h⟩ := guard_eq_ok h
  obtain ⟨_, h⟩ := guard_eq_ok h
  obtain ⟨_, h⟩ := guard_eq_ok h
  obtain ⟨ids, hclasses, htenants⟩ := bind_eq_ok h
  simp only [not_or] at hlimits
  obtain ⟨hsound, hids⟩ := validateClasses_ok hclasses
  have htenants := validateTenants_ok htenants
  refine ⟨hlimits.1, hlimits.2.1, hsound, fun t ht => (htenants t ht).1, fun t ht => ?_⟩
  rcases hids _ (htenants t ht).2 with hseen | hfound
  · simp at hseen
  · exact hfound

end Accepted

namespace TrafficController

variable {ctl : TrafficController}

/-- A class is stored under its own id. -/
theorem classes_eq_some {id : String} {c : ServiceClassPolicy} (h : ctl.classes[id]? = some c) :
    c ∈ ctl.policy.classes ∧ c.id = id := by
  obtain ⟨c', hc', heq⟩ := List.mem_map.mp (mem_of_getElem?_ofList h)
  simp only [Prod.mk.injEq] at heq
  obtain ⟨rfl, rfl⟩ := heq
  exact ⟨hc', rfl⟩

/-- A tenant is stored under its own id. -/
theorem tenants_eq_some {id : String} {t : TenantPolicy} (h : ctl.tenants[id]? = some t) :
    t ∈ ctl.policy.tenants ∧ t.id = id := by
  obtain ⟨t', ht', heq⟩ := List.mem_map.mp (mem_of_getElem?_ofList h)
  simp only [Prod.mk.injEq] at heq
  obtain ⟨rfl, rfl⟩ := heq
  exact ⟨ht', rfl⟩

/-- The policy of a controller is sound. -/
theorem sound (ctl : TrafficController) : ctl.policy.Sound :=
  TrafficPolicy.sound_of_validate ctl.accepted

end TrafficController

end Locus.Traffic
