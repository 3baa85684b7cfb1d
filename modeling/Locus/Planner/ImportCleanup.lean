import Locus.Planner.ImportTrace
import Mathlib.Data.List.TakeWhile

/-!
# Cleanup of a prepared import

Once an engine has prepared an import, an execution that does not end in a successful
reuse should abort it. The abort helpers look the adapter up again, so the import is
left behind when the registry no longer resolves the target of the plan, which is what
happens when the engine has moved to another generation.
-/

namespace Locus.Planner

open Locus.Core Locus.Engine Locus.Lib

variable {EventStream : Type}

/-- The exchange began an abort. -/
def startsAbort : ExecutorExchange EventStream → Bool
  | ⟨.abortStateImport _ _, outcome⟩ => RunOutcome.started outcome
  | _ => false

/-- The executor obtained this import. -/
def Obtained (importTarget : StateImportTarget)
    (exchanges : List (ExecutorExchange EventStream)) : Prop :=
  ∃ exchange ∈ exchanges, obtainedImport exchange = some importTarget

/-- The import was aborted exactly once, nothing else was aborted, and no cold execution
came before. -/
def CleanedUp (importTarget : StateImportTarget)
    (exchanges : List (ExecutorExchange EventStream)) : Prop :=
  ∃ before context outcome after,
    exchanges = before ++ ⟨.abortStateImport importTarget context, outcome⟩ :: after ∧
    RunOutcome.started outcome = true ∧
    (∀ exchange ∈ before, startsAbort exchange = false ∧ startsCold exchange = false) ∧
    ∀ exchange ∈ after, startsAbort exchange = false

/-- An obtained import that is not put to use has been cleaned up. -/
def ImportsCleaned (exchanges : List (ExecutorExchange EventStream))
    (result : ExecutionResult EventStream) : Prop :=
  ∀ importTarget, Obtained importTarget exchanges → ¬ ReuseSucceeded result →
    CleanedUp importTarget exchanges

/-- The registry as it was first read after an import was obtained. -/
def cleanupRegistry (exchanges : List (ExecutorExchange EventStream)) : Option EngineRegistry :=
  (exchanges.dropWhile fun exchange => (obtainedImport exchange).isNone).findSome? readRegistry?

/-- After the import was obtained the registry still resolves the target, and no cleanup
context has ended before its abort is polled. -/
structure CleanupReached (plan : PlacementPlan)
    (exchanges : List (ExecutorExchange EventStream)) : Prop where
  resolves : ∀ registry, cleanupRegistry exchanges = some registry →
    registry.adapterFor plan.target = .ok ()
  active : ∀ exchange ∈ exchanges, asksAbort exchange = true → startsAbort exchange = true

variable {importTarget : StateImportTarget} {plan : PlacementPlan} {request : CanonicalRequest}
  {context : OperationContext} {exchanges : List (ExecutorExchange EventStream)}
  {result : ExecutionResult EventStream}

/-- An exchange that asks for no abort starts none. -/
theorem startsAbort_eq_false {exchange : ExecutorExchange EventStream}
    (h : asksAbort exchange = false) : startsAbort exchange = false := by
  obtain ⟨question, answer⟩ := exchange
  cases question with
  | abortStateImport => cases h
  | _ => rfl

/-- An exchange that obtains an import asks for no abort, reads no registry and starts
no cold execution. -/
theorem plain_of_obtainedImport {exchange : ExecutorExchange EventStream}
    (h : obtainedImport exchange = some importTarget) :
    asksAbort exchange = false ∧ readRegistry? exchange = none ∧ startsCold exchange = false := by
  obtain ⟨question, answer⟩ := exchange
  cases question with
  | prepareStateImport => exact ⟨rfl, rfl, rfl⟩
  | _ => cases h

/-- An abort helper obtains no import. -/
theorem AbortAttempt.obtainedImport_eq_none {attempt : List (ExecutorExchange EventStream)}
    (h : AbortAttempt importTarget plan attempt) :
    ∀ exchange ∈ attempt, obtainedImport exchange = none := by
  intro exchange hmem
  cases h with
  | lost =>
    obtain rfl := List.mem_singleton.mp hmem
    rfl
  | asked resolved quiet =>
    simp only [List.cons_append, List.nil_append, List.mem_cons] at hmem
    obtain rfl | rfl | rfl | hmem := hmem
    · rfl
    · rfl
    · rfl
    · exact (quiet exchange hmem).obtainedImport

/-- While an import is held no other is obtained. -/
theorem Held.obtainedImport_eq_none (h : Held importTarget plan exchanges result) :
    ∀ exchange ∈ exchanges, obtainedImport exchange = none := by
  intro exchange hmem
  cases h with
  | reused plain => exact (plain exchange hmem).obtainedImport
  | aborted plain failed attempted =>
    rcases List.mem_append.mp hmem with hmem | hmem
    · exact (plain exchange hmem).obtainedImport
    · exact attempted.obtainedImport_eq_none exchange hmem

/-- The registry of the cleanup is the first one read after the import. -/
theorem cleanupRegistry_append {opening : List (ExecutorExchange EventStream)}
    {obtaining : ExecutorExchange EventStream} (rest : List (ExecutorExchange EventStream))
    (quiet : ∀ exchange ∈ opening, obtainedImport exchange = none)
    (obtained : obtainedImport obtaining = some importTarget) :
    cleanupRegistry (opening ++ obtaining :: rest) = rest.findSome? readRegistry? := by
  unfold cleanupRegistry
  rw [List.dropWhile_append_of_pos (by simpa using quiet), List.dropWhile_cons_of_neg (by
    simp [obtained]), List.findSome?_cons, (plain_of_obtainedImport obtained).2.1]

/-- Plain exchanges read no registry. -/
theorem findSome?_readRegistry_append {before : List (ExecutorExchange EventStream)}
    (rest : List (ExecutorExchange EventStream)) (plain : ∀ exchange ∈ before, Plain exchange) :
    (before ++ rest).findSome? readRegistry? = rest.findSome? readRegistry? := by
  have hnone : before.findSome? readRegistry? = none :=
    List.findSome?_eq_none_iff.mpr fun exchange hmem => (plain exchange hmem).readRegistry
  simp [List.findSome?_append, hnone]

/-- Without an abort nothing is cleaned up. -/
theorem not_cleanedUp (h : ∀ exchange ∈ exchanges, asksAbort exchange = false) :
    ¬ CleanedUp importTarget exchanges := by
  rintro ⟨before, context, outcome, after, rfl, -⟩
  have := h ⟨.abortStateImport importTarget context, outcome⟩ (by simp)
  cases this

/-- With one abort asked for, the import is cleaned up exactly if that abort starts. -/
theorem cleanedUp_iff {front after : List (ExecutorExchange EventStream)}
    {outcome : RunOutcome (Except EngineError Unit)}
    (hfront : ∀ exchange ∈ front, asksAbort exchange = false ∧ startsCold exchange = false)
    (hafter : ∀ exchange ∈ after, asksAbort exchange = false) :
    CleanedUp importTarget
      (front ++ ⟨.abortStateImport importTarget context, outcome⟩ :: after) ↔
      outcome.started = true := by
  constructor
  · rintro ⟨before, context', outcome', after', heq, hstarted, -⟩
    have hmem : (⟨.abortStateImport importTarget context', outcome'⟩ :
        ExecutorExchange EventStream) ∈
        front ++ ⟨.abortStateImport importTarget context, outcome⟩ :: after := by
      rw [heq]
      simp
    rcases List.mem_append.mp hmem with hmem | hmem
    · cases (hfront _ hmem).1
    · rcases List.mem_cons.mp hmem with hsame | hmem
      · cases hsame
        exact hstarted
      · cases hafter _ hmem
  · intro hstarted
    exact ⟨front, context, outcome, after, rfl, hstarted,
      fun exchange hmem =>
        ⟨startsAbort_eq_false (hfront exchange hmem).1, (hfront exchange hmem).2⟩,
      fun exchange hmem => startsAbort_eq_false (hafter exchange hmem)⟩

/-- With one abort asked for, the cleanup is active exactly if that abort starts. -/
theorem forall_startsAbort_iff {front after : List (ExecutorExchange EventStream)}
    {outcome : RunOutcome (Except EngineError Unit)}
    (hfront : ∀ exchange ∈ front, asksAbort exchange = false ∧ startsCold exchange = false)
    (hafter : ∀ exchange ∈ after, asksAbort exchange = false) :
    (∀ exchange ∈ front ++ ⟨.abortStateImport importTarget context, outcome⟩ :: after,
      asksAbort exchange = true → startsAbort exchange = true) ↔ outcome.started = true := by
  constructor
  · intro h
    exact h ⟨.abortStateImport importTarget context, outcome⟩ (by simp) rfl
  · intro hstarted exchange hmem hasks
    rcases List.mem_append.mp hmem with hmem | hmem
    · simp [(hfront exchange hmem).1] at hasks
    · rcases List.mem_cons.mp hmem with rfl | hmem
      · exact hstarted
      · simp [hafter exchange hmem] at hasks

/-- An execution without an import has nothing to clean up. -/
theorem importsCleaned_iff_of_quiet (quiet : ∀ exchange ∈ exchanges, Quiet exchange) :
    ImportsCleaned exchanges result ↔ CleanupReached plan exchanges := by
  have hnone : cleanupRegistry exchanges = none := by
    unfold cleanupRegistry
    rw [List.dropWhile_eq_nil_iff.2 fun exchange hmem => by
      simp [(quiet exchange hmem).obtainedImport], List.findSome?_nil]
  constructor
  · intro _
    refine ⟨by simp [hnone], fun exchange hmem hasks => ?_⟩
    rw [(quiet exchange hmem).asksAbort] at hasks
    cases hasks
  · rintro - importTarget ⟨exchange, hmem, hobtained⟩
    rw [(quiet exchange hmem).obtainedImport] at hobtained
    cases hobtained

/-- While an import is held, it is the one to clean up. -/
theorem importsCleaned_iff_of_holding {opening rest : List (ExecutorExchange EventStream)}
    {obtaining : ExecutorExchange EventStream}
    (quiet : ∀ exchange ∈ opening, Quiet exchange ∧ startsCold exchange = false)
    (obtained : obtainedImport obtaining = some importTarget)
    (held : Held importTarget plan rest result) :
    ImportsCleaned (opening ++ obtaining :: rest) result ↔
      (¬ ReuseSucceeded result → CleanedUp importTarget (opening ++ obtaining :: rest)) := by
  constructor
  · intro h
    exact h importTarget ⟨obtaining, by simp, obtained⟩
  · rintro h importTarget' ⟨exchange, hmem, hobtained⟩
    rcases List.mem_append.mp hmem with hmem | hmem
    · rw [(quiet exchange hmem).1.obtainedImport] at hobtained
      cases hobtained
    · rcases List.mem_cons.mp hmem with rfl | hmem
      · obtain rfl := Option.some.inj (obtained.symm.trans hobtained)
        exact h
      · rw [held.obtainedImport_eq_none exchange hmem] at hobtained
        cases hobtained

/-- Up to the abort helper nothing is aborted and no cold execution starts. -/
theorem forall_mem_front {opening before : List (ExecutorExchange EventStream)}
    {obtaining : ExecutorExchange EventStream}
    (quiet : ∀ exchange ∈ opening, Quiet exchange ∧ startsCold exchange = false)
    (obtained : obtainedImport obtaining = some importTarget)
    (plain : ∀ exchange ∈ before, Plain exchange) :
    ∀ exchange ∈ opening ++ obtaining :: before,
      asksAbort exchange = false ∧ startsCold exchange = false := by
  intro exchange hmem
  rcases List.mem_append.mp hmem with hmem | hmem
  · exact ⟨(quiet exchange hmem).1.asksAbort, (quiet exchange hmem).2⟩
  · rcases List.mem_cons.mp hmem with rfl | hmem
    · exact ⟨(plain_of_obtainedImport obtained).1, (plain_of_obtainedImport obtained).2.2⟩
    · exact ⟨(plain exchange hmem).asksAbort, (plain exchange hmem).startsCold⟩

/-- After an abort helper ran, the import is cleaned up exactly if the helper resolved the
target and its abort started. -/
theorem AbortAttempt.cleanedUp_iff {front attempt : List (ExecutorExchange EventStream)}
    (h : AbortAttempt importTarget plan attempt)
    (hfront : ∀ exchange ∈ front, asksAbort exchange = false ∧ startsCold exchange = false)
    (hregistry : cleanupRegistry (front ++ attempt) = attempt.findSome? readRegistry?) :
    CleanedUp importTarget (front ++ attempt) ↔ CleanupReached plan (front ++ attempt) := by
  cases h with
  | @lost registry error unresolved =>
    have hno : ¬ CleanedUp importTarget (front ++ [⟨.readRegistry, registry⟩]) := by
      refine not_cleanedUp fun exchange hmem => ?_
      rcases List.mem_append.mp hmem with hmem | hmem
      · exact (hfront exchange hmem).1
      · rw [List.mem_singleton.mp hmem]
        rfl
    refine ⟨fun hclean => absurd hclean hno, fun hreached => ?_⟩
    have := hreached.resolves registry (hregistry.trans rfl)
    rw [unresolved] at this
    cases this
  | @asked registry now context outcome after resolved hquiet =>
    have hlookup : ∀ exchange ∈ front ++ [⟨.readRegistry, registry⟩, ⟨.now, now⟩],
        asksAbort exchange = false ∧ startsCold exchange = false := by
      intro exchange hmem
      rcases List.mem_append.mp hmem with hmem | hmem
      · exact hfront exchange hmem
      · simp only [List.mem_cons, List.not_mem_nil, or_false] at hmem
        obtain rfl | rfl := hmem
        · exact ⟨rfl, rfl⟩
        · exact ⟨rfl, rfl⟩
    have hafter : ∀ exchange ∈ after, asksAbort exchange = false :=
      fun exchange hmem => (hquiet exchange hmem).asksAbort
    rw [← List.append_assoc] at hregistry ⊢
    rw [Planner.cleanedUp_iff hlookup hafter]
    constructor
    · intro hstarted
      refine ⟨fun registry' h => ?_, (forall_startsAbort_iff hlookup hafter).mpr hstarted⟩
      obtain rfl := Option.some.inj ((hregistry.trans rfl).symm.trans h)
      exact resolved
    · intro hreached
      exact (forall_startsAbort_iff hlookup hafter).mp hreached.active

/-- Whatever the environment answers, an unused import is cleaned up exactly if the
registry still resolves the target at the cleanup and the cleanup context has not ended
before its abort is polled. -/
theorem importsCleaned_iff (h : (execute plan request context).Runs exchanges result) :
    ImportsCleaned exchanges result ↔ CleanupReached plan exchanges := by
  cases followed_execute h with
  | without quiet => exact importsCleaned_iff_of_quiet quiet
  | @holding opening rest obtaining importTarget result quiet obtained held =>
    rw [importsCleaned_iff_of_holding quiet obtained held]
    have hregistry := cleanupRegistry_append rest
      (fun exchange hmem => (quiet exchange hmem).1.obtainedImport) obtained
    cases held with
    | reused plain succeeded =>
      have hfront := forall_mem_front quiet obtained plain
      have hnone := findSome?_readRegistry_append [] plain
      rw [List.append_nil, ← hregistry] at hnone
      refine ⟨fun _ => ⟨by simp [hnone], fun exchange hmem hasks => ?_⟩,
        fun _ failed => absurd succeeded failed⟩
      simp [(hfront exchange hmem).1] at hasks
    | @aborted before attempt result plain failed attempted =>
      have hfront := forall_mem_front quiet obtained plain
      rw [findSome?_readRegistry_append attempt plain] at hregistry
      rw [← List.cons_append, ← List.append_assoc] at hregistry ⊢
      rw [← attempted.cleanedUp_iff hfront hregistry]
      exact ⟨fun hclean => hclean failed, fun hclean _ => hclean⟩

/-- A plan to reuse the state, and to run cold if that fails. -/
def samplePlan : PlacementPlan where
  target := sampleTarget
  path := .reuse ⟨sampleState, ⟨.compatible, [], [], none⟩, sampleOption⟩
  predictedCost := ⟨0, 0, 1, 0, 0, 0⟩
  fallback := .coldOnSameTarget
  rationale := []

/-- The import that the engine prepares for the plan. -/
def sampleImport : StateImportTarget where
  importId := "import"
  targetId := "target"
  engine := ⟨"engine", 1⟩
  stateKind := "kv"
  sink := ⟨"engine", "sink"⟩
  expiresAt := 1000

/-- The registry while the engine is on a generation. -/
def sampleRegistry (generation : UInt64) : EngineRegistry where
  entries := (∅ : Std.TreeMap EngineInstanceId EngineInstanceRef).insert "engine"
    ⟨"engine", generation⟩

/-- The exchanges up to a transfer that fails because the store is unavailable. -/
def sampleFailure : List (ExecutorExchange Unit) :=
  [⟨.ensureActive { requestId := "request" }, .ok ()⟩,
    ⟨.readRegistry, sampleRegistry 1⟩,
    ⟨.now, (0 : ℕ)⟩,
    ⟨.prepareStateImport sampleTarget
      (.fromPlan sampleState ⟨.compatible, [], [], none⟩) { requestId := "request" },
      .finished (.ok sampleImport)⟩,
    ⟨.now, (0 : ℕ)⟩,
    ⟨.materialize sampleOption sampleImport { requestId := "request" },
      .finished (.error (.unavailable "down"))⟩]

/-- The exchanges that follow while the engine still has its generation. -/
def sampleCleanup : List (ExecutorExchange Unit) :=
  [⟨.readRegistry, sampleRegistry 1⟩,
    ⟨.now, (0 : ℕ)⟩,
    ⟨.abortStateImport sampleImport { requestId := "request", deadline := some cleanupNanos },
      .finished (.ok ())⟩,
    ⟨.readRegistry, sampleRegistry 1⟩,
    ⟨.execute sampleTarget sampleRequest none { requestId := "request" }, .finished (.ok ())⟩]

/-- A failed transfer with the engine still on its generation. -/
theorem runs_sampleCleanup :
    (execute samplePlan sampleRequest { requestId := "request" }).Runs
      (sampleFailure ++ sampleCleanup) (.ok ⟨(), ⟨.cold, true, none, none⟩⟩) :=
  .ask _ (.ask _ (.ask _ (.ask _ (.ask _ (.ask _ (.ask _ (.ask _ (.ask _ (.ask _ (.ask _
    (.done _)))))))))))

/-- There the import is aborted before the cold execution. -/
theorem importsCleaned_sample :
    ImportsCleaned (sampleFailure ++ sampleCleanup) (.ok ⟨(), ⟨.cold, true, none, none⟩⟩) := by
  refine (importsCleaned_iff runs_sampleCleanup).mpr ⟨?_, by decide⟩
  intro registry h
  cases h
  rfl

/-- The exchange that follows when the engine has moved to its next generation. -/
def sampleStale : List (ExecutorExchange Unit) := [⟨.readRegistry, sampleRegistry 2⟩]

/-- A failed transfer with the engine on its next generation. -/
theorem runs_sampleStale :
    (execute samplePlan sampleRequest { requestId := "request" }).Runs
      (sampleFailure ++ sampleStale) (.error (.engine .staleGeneration)) :=
  .ask _ (.ask _ (.ask _ (.ask _ (.ask _ (.ask _ (.ask _ (.done _)))))))

/-- There the import is left behind. -/
theorem not_importsCleaned_stale :
    ∃ exchanges result,
      (execute samplePlan sampleRequest { requestId := "request" } :
        ExecutorM Unit (ExecutionResult Unit)).Runs exchanges result ∧
      ¬ ImportsCleaned exchanges result := by
  refine ⟨_, _, runs_sampleStale, fun h => ?_⟩
  have hobtained : Obtained sampleImport (sampleFailure ++ sampleStale) :=
    ⟨_, List.mem_append_left _ (List.mem_of_getElem? (i := 3) rfl), rfl⟩
  exact not_cleanedUp (by decide) (h sampleImport hobtained (not_reuseSucceeded_error _))

end Locus.Planner
