import Locus.Engine.RemoteTargets
import Locus.Runtime.Discovery

/-!
# Listed models can be routed

The engines answer each question in one way for some time. In that time the models that are
listed are those that discovery finds a ready target for, as long as the engines know what
their ready targets can do. `readiness` succeeds if all required models are listed.
-/

namespace Locus.Runtime

open Locus.Calibration Locus.Core Locus.Engine Locus.Lib Locus.ModelIo

variable (world : (question : AdapterCall) → question.Answer) (entries : Registry.Entries)
  (request : CanonicalRequest)

/-- The targets that an engine reports. -/
def targetsOf (engine : EngineInstanceId) : Except EngineError (List ExecutionTarget) :=
  world (.executionTargets engine)

/-- The capabilities that an engine reports for a target. -/
def capabilitiesOf (engine : EngineInstanceId) (target : ExecutionTarget) :
    Except EngineError EngineCapabilities :=
  world (.capabilities engine target)

/-- The snapshot that an engine takes for a target. -/
def snapshotOf (engine : EngineInstanceId) (target : ExecutionTarget) :
    Except EngineError EngineSnapshot :=
  world (.snapshot engine target)

/-- An engine that is ready reports a target. -/
def ReportsTarget (engine : EngineInstanceId) (target : ExecutionTarget) : Prop :=
  engine ∈ routableAdapters entries ∧ ∃ targets, targetsOf world engine = .ok targets ∧
    target ∈ targets

/-- A model has a ready target. -/
def Ready (model : ModelExecutionIdentity) : Prop :=
  ∃ engine target snapshot, ReportsTarget world entries engine target ∧ target.model = model ∧
    snapshotOf world engine target = .ok snapshot ∧ snapshot.ready = true

theorem mem_routableAdapters {entries : Registry.Entries} {engine : EngineInstanceId} :
    engine ∈ routableAdapters entries ↔
      ∃ entry, entries[engine]? = some entry ∧ entry.lifecycle = .ready := by
  simp [routableAdapters, Std.TreeMap.mem_toList_iff_getElem?_eq_some]

/-- What an engine says of a target. -/
def probe (engine : EngineInstanceId) (target : ExecutionTarget) :
    Except EngineError DiscoveredTarget := do
  let capabilities ← capabilitiesOf world engine target
  let snapshot ← snapshotOf world engine target
  return ⟨target, capabilities, snapshot⟩

/-- What becomes of the targets of one engine. -/
def outcomesOf (engine : EngineInstanceId) : List (Except EngineError DiscoveredTarget) :=
  match targetsOf world engine with
  | .error error => [.error error]
  | .ok targets =>
    (targets.filter fun target => target.model = request.model).map (probe world engine)

/-- What becomes of all targets. -/
def outcomes : List (Except EngineError DiscoveredTarget) :=
  (routableAdapters entries).flatMap (outcomesOf world request)

/-- An outcome is recorded. -/
def Found.record (found : Found) : Except EngineError DiscoveredTarget → Found
  | .error error => found.fail error
  | .ok target => found.add target

section Discover

variable {world entries request}

/-- A question gets the answer of the world. -/
theorem evaluate_askAdapter {α : Type} (question : AdapterCall) {answer : question.Answer}
    (next : question.Answer → AdapterM α) (h : world question = answer) :
    (askAdapter question >>= next).evaluate world = (next answer).evaluate world := by
  rw [Dialogue.evaluate_call_bind, h]

theorem evaluate_discoverTargets (engine : EngineInstanceId) (targets : List ExecutionTarget)
    (found : Found) :
    (discoverTargets request engine targets found).evaluate world =
      ((targets.filter fun target => target.model = request.model).map
        (probe world engine)).foldl Found.record found := by
  induction targets generalizing found with
  | nil => rfl
  | cons target targets ih =>
    rw [discoverTargets]
    by_cases hmodel : target.model = request.model
    · rw [if_neg (not_not.mpr hmodel), List.filter_cons_of_pos (by simpa using hmodel),
        List.map_cons, List.foldl_cons]
      cases hcapabilities : capabilitiesOf world engine target with
      | error error =>
        have hprobe : probe world engine target = .error error := by rw [probe, hcapabilities]; rfl
        rw [hprobe]
        exact (evaluate_askAdapter (.capabilities engine target) _ hcapabilities).trans (ih _)
      | ok capabilities =>
        refine (evaluate_askAdapter (.capabilities engine target) _ hcapabilities).trans ?_
        cases hsnapshot : snapshotOf world engine target with
        | error error =>
          have hprobe : probe world engine target = .error error := by
            rw [probe, hcapabilities, hsnapshot]
            rfl
          rw [hprobe]
          exact (evaluate_askAdapter (.snapshot engine target) _ hsnapshot).trans (ih _)
        | ok snapshot =>
          have hprobe : probe world engine target = .ok ⟨target, capabilities, snapshot⟩ := by
            rw [probe, hcapabilities, hsnapshot]
            rfl
          rw [hprobe]
          exact (evaluate_askAdapter (.snapshot engine target) _ hsnapshot).trans (ih _)
    · rw [if_pos hmodel, List.filter_cons_of_neg (by simpa using hmodel)]
      exact ih found

theorem evaluate_discoverEngines (engines : List EngineInstanceId) (found : Found) :
    (discoverEngines request engines found).evaluate world =
      (engines.flatMap (outcomesOf world request)).foldl Found.record found := by
  induction engines generalizing found with
  | nil => rfl
  | cons engine engines ih =>
    rw [discoverEngines, List.flatMap_cons, List.foldl_append]
    cases htargets : targetsOf world engine with
    | error error =>
      have houtcomes : outcomesOf world request engine = [.error error] := by
        rw [outcomesOf, htargets]
      rw [houtcomes]
      exact (evaluate_askAdapter (.executionTargets engine) _ htargets).trans (ih _)
    | ok targets =>
      have houtcomes : outcomesOf world request engine =
          (targets.filter fun target => target.model = request.model).map
            (probe world engine) := by
        rw [outcomesOf, htargets]
      rw [houtcomes, ← evaluate_discoverTargets]
      refine (evaluate_askAdapter (.executionTargets engine) _ htargets).trans ?_
      exact (Dialogue.evaluate_bind world _ _).trans (ih _)

theorem discovered_foldl_record (outcomes : List (Except EngineError DiscoveredTarget))
    (found : Found) :
    (outcomes.foldl Found.record found).discovered =
      found.discovered ++ outcomes.filterMap Except.toOption := by
  induction outcomes generalizing found with
  | nil => simp
  | cons outcome outcomes ih =>
    rw [List.foldl_cons, ih]
    cases outcome with
    | error error =>
      rw [List.filterMap_cons_none (by rfl)]
      rfl
    | ok other =>
      rw [List.filterMap_cons_some (by rfl)]
      exact List.append_assoc _ _ _

theorem failures_foldl_record (outcomes : List (Except EngineError DiscoveredTarget))
    (found : Found) :
    (outcomes.foldl Found.record found).failures = [] ↔
      found.failures = [] ∧ ∀ error, .error error ∉ outcomes := by
  induction outcomes generalizing found with
  | nil => simp
  | cons outcome outcomes ih =>
    rw [List.foldl_cons, ih]
    cases outcome with
    | error error =>
      refine iff_of_false (fun h => by simp [Found.record, Found.fail] at h) fun h => ?_
      exact h.2 error List.mem_cons_self
    | ok other => simp [Found.record, Found.add]

/-- A target is discovered if an engine that is ready reports it, it is one of the model that
was asked for, and the engine knows its capabilities and can take a snapshot of it. -/
theorem ok_mem_outcomes {found : DiscoveredTarget} :
    .ok found ∈ outcomes world entries request ↔
      ∃ engine, ReportsTarget world entries engine found.target ∧
        found.target.model = request.model ∧
        capabilitiesOf world engine found.target = .ok found.capabilities ∧
        snapshotOf world engine found.target = .ok found.snapshot := by
  obtain ⟨target, capabilities, snapshot⟩ := found
  have hprobe (engine : EngineInstanceId) (other : ExecutionTarget) :
      probe world engine other = .ok ⟨target, capabilities, snapshot⟩ ↔
        other = target ∧ capabilitiesOf world engine target = .ok capabilities ∧
          snapshotOf world engine target = .ok snapshot := by
    constructor
    · intro h
      obtain ⟨_, hcapabilities, h⟩ := bind_eq_ok h
      obtain ⟨_, hsnapshot, h⟩ := bind_eq_ok h
      cases h
      exact ⟨rfl, hcapabilities, hsnapshot⟩
    · rintro ⟨rfl, hcapabilities, hsnapshot⟩
      unfold probe
      rw [hcapabilities, hsnapshot]
      rfl
  unfold outcomes outcomesOf ReportsTarget
  rw [List.mem_flatMap]
  refine exists_congr fun engine => ?_
  cases targetsOf world engine with
  | error error => simp
  | ok targets =>
    simp only [List.mem_map, List.mem_filter, hprobe, Except.ok.injEq, exists_eq_left',
      decide_eq_true_eq]
    constructor
    · rintro ⟨hengine, other, ⟨hmem, hmodel⟩, rfl, hcapabilities, hsnapshot⟩
      exact ⟨⟨hengine, hmem⟩, hmodel, hcapabilities, hsnapshot⟩
    · rintro ⟨⟨hengine, hmem⟩, hmodel, hcapabilities, hsnapshot⟩
      exact ⟨hengine, target, ⟨hmem, hmodel⟩, rfl, hcapabilities, hsnapshot⟩

/-- Sorting by ids sorts by ids. -/
theorem pairwise_sortById (discovered : List DiscoveredTarget) :
    (sortById discovered).Pairwise fun left right => left.target.id ≤ right.target.id := by
  have hsorted : (sortById discovered).Pairwise fun left right =>
      decide (left.target.id ≤ right.target.id) = true := by
    refine List.pairwise_mergeSort (fun x y z hxy hyz => ?_) (fun x y => ?_) discovered
    · simp only [decide_eq_true_eq] at hxy hyz ⊢
      exact hxy.trans hyz
    · simpa using le_total x.target.id y.target.id
  simpa using hsorted

/-- What was found when all engines were asked. -/
def foundIn (world : (question : AdapterCall) → question.Answer) (entries : Registry.Entries)
    (request : CanonicalRequest) : Found :=
  (outcomes world entries request).foldl Found.record {}

theorem evaluate_discover_eq :
    (discover request entries).evaluate world =
      let found := foundIn world entries request
      if found.discovered.isEmpty ∧ ¬found.failures.isEmpty then
        .error (.discovery ("; ".intercalate found.failures))
      else .ok (sortById found.discovered) := by
  rw [discover, Dialogue.evaluate_bind, evaluate_discoverEngines]
  change Dialogue.evaluate world (if (foundIn world entries request).discovered.isEmpty ∧
    ¬(foundIn world entries request).failures.isEmpty then _ else _) = _
  dsimp only
  split_ifs <;> rfl

theorem mem_foundIn {found : DiscoveredTarget} :
    found ∈ (foundIn world entries request).discovered ↔
      .ok found ∈ outcomes world entries request := by
  rw [foundIn, discovered_foldl_record, List.nil_append, List.mem_filterMap]
  constructor
  · rintro ⟨outcome, hmem, houtcome⟩
    cases outcome with
    | error error => cases houtcome
    | ok other =>
      cases houtcome
      exact hmem
  · intro hmem
    exact ⟨_, hmem, rfl⟩

/-- Discovery returns what the engines offer, in the order of the ids. It fails if they offer
nothing and one of them has failed. -/
theorem evaluate_discover :
    (∀ discovered, (discover request entries).evaluate world = .ok discovered →
      discovered.Pairwise (fun left right => left.target.id ≤ right.target.id) ∧
      ∀ found, found ∈ discovered ↔ .ok found ∈ outcomes world entries request) ∧
    ((∃ error, (discover request entries).evaluate world = .error error) ↔
      (∀ found, .ok found ∉ outcomes world entries request) ∧
        ∃ error, .error error ∈ outcomes world entries request) := by
  have hmem (target : DiscoveredTarget) := @mem_foundIn world entries request target
  have hfailures : (foundIn world entries request).failures = [] ↔
      ∀ error, .error error ∉ outcomes world entries request := by
    rw [foundIn, failures_foldl_record]
    simp
  rw [evaluate_discover_eq]
  dsimp only
  set found := foundIn world entries request
  constructor
  · intro discovered h
    split_ifs at h
    cases h
    constructor
    · exact pairwise_sortById found.discovered
    · intro target
      rw [sortById, List.mem_mergeSort, hmem]
  · have hnone : found.discovered = [] ↔
        ∀ target, .ok target ∉ outcomes world entries request := by
      simp only [List.eq_nil_iff_forall_not_mem, hmem]
    have hsome : found.failures ≠ [] ↔
        ∃ error, .error error ∈ outcomes world entries request := by
      rw [ne_eq, hfailures]
      push Not
      rfl
    rw [← hnone, ← hsome]
    split_ifs with h
    · exact iff_of_true ⟨_, rfl⟩ (by simpa using h)
    · exact iff_of_false (by simp) (by simpa using h)

/-- No engine reports a target id twice, and no two engines report the same one. -/
structure Distinct (world : (question : AdapterCall) → question.Answer)
    (entries : Registry.Entries) : Prop where
  once : ∀ engine targets, targetsOf world engine = .ok targets →
    (targets.map ExecutionTarget.id).Nodup
  apart : ∀ engine engine' target target', ReportsTarget world entries engine target →
    ReportsTarget world entries engine' target' → target.id = target'.id → engine = engine'

theorem probe_eq_ok {engine : EngineInstanceId} {target : ExecutionTarget}
    {found : DiscoveredTarget} (h : probe world engine target = .ok found) :
    found.target = target := by
  obtain ⟨_, -, h⟩ := bind_eq_ok h
  obtain ⟨_, -, h⟩ := bind_eq_ok h
  cases h
  rfl

/-- An outcome of an engine is of a target that it reports. -/
theorem reports_of_mem_outcomesOf {engine : EngineInstanceId} {found : DiscoveredTarget}
    (hengine : engine ∈ routableAdapters entries)
    (hmem : .ok found ∈ outcomesOf world request engine) :
    ReportsTarget world entries engine found.target := by
  unfold outcomesOf at hmem
  cases htargets : targetsOf world engine with
  | error error =>
    rw [htargets] at hmem
    simp at hmem
  | ok targets =>
    rw [htargets] at hmem
    obtain ⟨target, htarget, hprobe⟩ := List.mem_map.mp hmem
    rw [probe_eq_ok hprobe]
    exact ⟨hengine, targets, htargets, (List.mem_filter.mp htarget).1⟩

/-- Where ids are distinct, no target is discovered twice. -/
theorem pairwise_discover (hdistinct : Distinct world entries)
    {discovered : List DiscoveredTarget}
    (h : (discover request entries).evaluate world = .ok discovered) :
    discovered.Pairwise fun left right => left.target.id < right.target.id := by
  have hdiffer : (outcomes world entries request).Pairwise fun outcome outcome' =>
      ∀ found, outcome.toOption = some found → ∀ found', outcome'.toOption = some found' →
        found.target.id ≠ found'.target.id := by
    have htoOption {outcome : Except EngineError DiscoveredTarget} {found : DiscoveredTarget}
        (h : outcome.toOption = some found) : outcome = .ok found := by
      cases outcome with
      | error error => cases h
      | ok other =>
        cases h
        rfl
    refine List.pairwise_flatMap.mpr ⟨fun engine _ => ?_, ?_⟩
    · unfold outcomesOf
      cases htargets : targetsOf world engine with
      | error error => exact List.pairwise_singleton _ _
      | ok targets =>
        have honce := List.pairwise_map.mp (hdistinct.once engine targets htargets)
        refine List.pairwise_map.mpr ((honce.filter _).imp ?_)
        intro target target' hne found hfound found' hfound'
        rw [probe_eq_ok (htoOption hfound), probe_eq_ok (htoOption hfound')]
        exact hne
    · have hnodup : (routableAdapters entries).Nodup := by
        have hkeys : entries.toList.Pairwise fun engine engine' =>
            ¬compare engine.1 engine'.1 = .eq := Std.TreeMap.distinct_keys_toList
        refine List.pairwise_map.mpr ((hkeys.filter _).imp ?_)
        intro engine engine' hne hsame
        exact hne (by rw [hsame]; exact Std.ReflCmp.compare_self)
      refine hnodup.imp_of_mem ?_
      intro engine engine' hengine hengine' hne outcome houtcome outcome' houtcome' found hfound
        found' hfound' hsame
      rw [htoOption hfound] at houtcome
      rw [htoOption hfound'] at houtcome'
      exact hne (hdistinct.apart engine engine' _ _ (reports_of_mem_outcomesOf hengine houtcome)
        (reports_of_mem_outcomesOf hengine' houtcome') hsame)
  rw [evaluate_discover_eq] at h
  dsimp only at h
  split_ifs at h
  cases h
  have hunsorted : (foundIn world entries request).discovered.Pairwise fun left right =>
      left.target.id ≠ right.target.id := by
    rw [foundIn, discovered_foldl_record, List.nil_append]
    exact List.pairwise_filterMap.mpr hdiffer
  have hsorted : (sortById (foundIn world entries request).discovered).Pairwise
      fun left right => left.target.id ≠ right.target.id :=
    ((List.mergeSort_perm _ _).pairwise_iff fun h => h.symm).mpr hunsorted
  exact (pairwise_sortById _).imp₂ (fun _ _ hle hne => lt_of_le_of_ne hle hne) hsorted

end Discover

/-- What one target adds to an inventory. -/
def TargetInventory.take (engine : EngineInstanceId) (inventory : TargetInventory)
    (target : ExecutionTarget) : TargetInventory :=
  if target.model ∉ inventory.catalogModels then
    inventory.observe.fail ("target " ++ target.id ++ " has no matching semantic profile")
  else
    match snapshotOf world engine target with
    | .error error => inventory.observe.fail error.text
    | .ok snapshot =>
      if snapshot.ready then inventory.observe.ready target.model
      else inventory.observe.fail ("target " ++ target.id ++ " is not ready")

/-- What one engine adds to an inventory. -/
def TargetInventory.takeEngine (inventory : TargetInventory) (engine : EngineInstanceId) :
    TargetInventory :=
  match targetsOf world engine with
  | .error error => inventory.fail error.text
  | .ok targets => targets.foldl (TargetInventory.take world engine) inventory

section Inventory

variable {world entries} {Io : Type} {profileOf : Io → ModelProfile} {catalog : ModelRegistry Io}
  {registered : List Io}

theorem evaluate_inventoryTargets (engine : EngineInstanceId) (targets : List ExecutionTarget)
    (inventory : TargetInventory) :
    (inventoryTargets engine targets inventory).evaluate world =
      targets.foldl (TargetInventory.take world engine) inventory := by
  induction targets generalizing inventory with
  | nil => rfl
  | cons target targets ih =>
    rw [inventoryTargets, List.foldl_cons]
    unfold TargetInventory.take
    by_cases hmodel : target.model ∉ inventory.catalogModels
    · rw [if_pos hmodel, if_pos hmodel]
      exact ih _
    · rw [if_neg hmodel, if_neg hmodel]
      cases hsnapshot : snapshotOf world engine target with
      | error error =>
        exact (evaluate_askAdapter (.snapshot engine target) _ hsnapshot).trans (ih _)
      | ok snapshot =>
        refine (evaluate_askAdapter (.snapshot engine target) _ hsnapshot).trans ?_
        dsimp only
        split_ifs
        · exact ih _
        · exact ih _

theorem evaluate_inventoryEngines (engines : List EngineInstanceId)
    (inventory : TargetInventory) :
    (inventoryEngines engines inventory).evaluate world =
      engines.foldl (TargetInventory.takeEngine world) inventory := by
  induction engines generalizing inventory with
  | nil => rfl
  | cons engine engines ih =>
    rw [inventoryEngines, List.foldl_cons]
    cases htargets : targetsOf world engine with
    | error error =>
      have htake : inventory.takeEngine world engine = inventory.fail error.text := by
        rw [TargetInventory.takeEngine, htargets]
      rw [htake]
      exact (evaluate_askAdapter (.executionTargets engine) _ htargets).trans (ih _)
    | ok targets =>
      have htake : inventory.takeEngine world engine =
          targets.foldl (TargetInventory.take world engine) inventory := by
        rw [TargetInventory.takeEngine, htargets]
      rw [htake, ← evaluate_inventoryTargets]
      refine (evaluate_askAdapter (.executionTargets engine) _ htargets).trans ?_
      exact (Dialogue.evaluate_bind world _ _).trans (ih _)

/-- The snapshot of a target says that it is ready. -/
def SaysReady (world : (question : AdapterCall) → question.Answer) (engine : EngineInstanceId)
    (target : ExecutionTarget) : Prop :=
  ∃ snapshot, snapshotOf world engine target = .ok snapshot ∧ snapshot.ready = true

/-- An inventory has grown by targets that were ready. -/
structure Grown (inventory next : TargetInventory) (added : ModelExecutionIdentity → Prop) :
    Prop where
  profiles : next.profiles = inventory.profiles
  readyModels : ∀ model, model ∈ next.readyModels ↔
    model ∈ inventory.readyModels ∨ model ∈ inventory.catalogModels ∧ added model
  counted : inventory.readyTargets ≤ inventory.observedTargets →
    next.readyTargets ≤ next.observedTargets

theorem Grown.trans {inventory middle next : TargetInventory}
    {added added' : ModelExecutionIdentity → Prop} (h : Grown inventory middle added)
    (h' : Grown middle next added') :
    Grown inventory next fun model => added model ∨ added' model := by
  refine ⟨h'.profiles.trans h.profiles, fun model => ?_, fun hle => h'.counted (h.counted hle)⟩
  have hcatalog : middle.catalogModels = inventory.catalogModels := by
    rw [TargetInventory.catalogModels, h.profiles]
    rfl
  rw [h'.readyModels, h.readyModels, hcatalog]
  tauto

theorem grown_take (engine : EngineInstanceId) (inventory : TargetInventory)
    (target : ExecutionTarget) :
    Grown inventory (inventory.take world engine target) fun model =>
      target.model = model ∧ SaysReady world engine target := by
  have hfailed (failure : String) (hnot : target.model ∈ inventory.catalogModels →
      ¬SaysReady world engine target) :
      Grown inventory (inventory.observe.fail failure) fun model =>
        target.model = model ∧ SaysReady world engine target := by
    refine ⟨rfl, fun model => ?_, fun hle => Nat.le_succ_of_le hle⟩
    change model ∈ inventory.readyModels ↔ _
    constructor
    · exact .inl
    · rintro (h | ⟨hcatalog, rfl, hready⟩)
      · exact h
      · exact absurd hready (hnot hcatalog)
  unfold TargetInventory.take
  by_cases hmodel : target.model ∉ inventory.catalogModels
  · rw [if_pos hmodel]
    exact hfailed _ fun hcatalog => absurd hcatalog hmodel
  · rw [if_neg hmodel]
    cases hsnapshot : snapshotOf world engine target with
    | error error =>
      refine hfailed _ fun _ ⟨snapshot, h, _⟩ => ?_
      rw [hsnapshot] at h
      cases h
    | ok snapshot =>
      dsimp only
      split_ifs with hready
      · refine ⟨rfl, fun model => ?_, fun hle => Nat.succ_le_succ hle⟩
        change model ∈ insert target.model inventory.readyModels ↔ _
        rw [Finset.mem_insert]
        constructor
        · rintro (rfl | h)
          · exact .inr ⟨not_not.mp hmodel, rfl, snapshot, hsnapshot, hready⟩
          · exact .inl h
        · rintro (h | ⟨-, rfl, -⟩)
          · exact .inr h
          · exact .inl rfl
      · refine hfailed _ fun _ ⟨other, h, hother⟩ => ?_
        rw [hsnapshot] at h
        cases h
        exact absurd hother hready

theorem grown_foldl {α : Type} {step : TargetInventory → α → TargetInventory}
    {added : α → ModelExecutionIdentity → Prop}
    (hstep : ∀ inventory item, Grown inventory (step inventory item) (added item))
    (items : List α) (inventory : TargetInventory) :
    Grown inventory (items.foldl step inventory) fun model => ∃ item ∈ items, added item model := by
  induction items generalizing inventory with
  | nil => exact ⟨rfl, by simp, id⟩
  | cons item items ih =>
    have h := (hstep inventory item).trans (ih (step inventory item))
    simpa only [List.foldl_cons, List.exists_mem_cons_iff] using h

theorem grown_takeEngine (inventory : TargetInventory) (engine : EngineInstanceId) :
    Grown inventory (inventory.takeEngine world engine) fun model =>
      ∃ targets, targetsOf world engine = .ok targets ∧
        ∃ target ∈ targets, target.model = model ∧ SaysReady world engine target := by
  unfold TargetInventory.takeEngine
  cases htargets : targetsOf world engine with
  | error error =>
    refine ⟨rfl, fun model => ?_, id⟩
    change model ∈ inventory.readyModels ↔ _
    simp
  | ok targets =>
    have h := grown_foldl (@grown_take world engine) targets inventory
    simpa only [Except.ok.injEq, exists_eq_left'] using h

/-- The inventory has the profiles of the catalog, and those models of the catalog are ready
that have a ready target. -/
theorem evaluate_targetInventory (catalog : ModelRegistry Io) :
    let inventory := (targetInventory catalog entries).evaluate world
    inventory.profiles = catalog.profileList ∧
      (∀ model, model ∈ inventory.readyModels ↔
        (∃ profile ∈ catalog.profileList, profile.model = model) ∧ Ready world entries model) ∧
      inventory.readyTargets ≤ inventory.observedTargets := by
  intro inventory
  have hgrown : Grown { profiles := catalog.profileList } inventory fun model =>
      ∃ engine ∈ routableAdapters entries, ∃ targets, targetsOf world engine = .ok targets ∧
        ∃ target ∈ targets, target.model = model ∧ SaysReady world engine target := by
    have hevaluate : inventory = (routableAdapters entries).foldl
        (TargetInventory.takeEngine world) { profiles := catalog.profileList } :=
      evaluate_inventoryEngines _ _
    rw [hevaluate]
    exact grown_foldl grown_takeEngine _ _
  refine ⟨hgrown.profiles, fun model => ?_, hgrown.counted le_rfl⟩
  rw [hgrown.readyModels]
  have hcatalog : model ∈ ({ profiles := catalog.profileList } : TargetInventory).catalogModels ↔
      ∃ profile ∈ catalog.profileList, profile.model = model := List.mem_map
  rw [hcatalog]
  constructor
  · rintro (h | ⟨hprofile, engine, hengine, targets, htargets, target, hmem, hmodel, snapshot,
      hsnapshot, hready⟩)
    · exact absurd h (Finset.notMem_empty _)
    · exact ⟨hprofile, engine, target, snapshot, ⟨hengine, targets, htargets, hmem⟩, hmodel,
        hsnapshot, hready⟩
  · rintro ⟨hprofile, engine, target, snapshot, ⟨hengine, targets, htargets, hmem⟩, hmodel,
      hsnapshot, hready⟩
    exact .inr ⟨hprofile, engine, hengine, targets, htargets, target, hmem, hmodel, snapshot,
      hsnapshot, hready⟩

end Inventory

section Routable

variable {world entries} {Io : Type} {profileOf : Io → ModelProfile} {catalog : ModelRegistry Io}
  {registered : List Io} {profile : ModelProfile}

/-- An engine knows the capabilities of the targets that it reports as ready. -/
def Capable (world : (question : AdapterCall) → question.Answer) (entries : Registry.Entries) :
    Prop :=
  ∀ engine target, ReportsTarget world entries engine target → SaysReady world engine target →
    ∃ capabilities, capabilitiesOf world engine target = .ok capabilities

/-- A model is listed if it is in the catalog and has a ready target. -/
theorem mem_models :
    profile ∈ (models catalog entries).evaluate world ↔
      profile ∈ catalog.profileList ∧ Ready world entries profile.model := by
  obtain ⟨hprofiles, hready, -⟩ := @evaluate_targetInventory world entries _ catalog
  rw [models, Dialogue.evaluate_bind, Dialogue.evaluate_pure, TargetInventory.routable,
    List.mem_filter, decide_eq_true_eq, hprofiles, hready]
  constructor
  · rintro ⟨hmem, -, h⟩
    exact ⟨hmem, h⟩
  · rintro ⟨hmem, h⟩
    exact ⟨hmem, ⟨profile, hmem, rfl⟩, h⟩

/-- Discovery finds a ready target exactly if an engine has one and knows its capabilities. -/
theorem discovered_ready_iff {request : CanonicalRequest} :
    (∃ discovered, (discover request entries).evaluate world = .ok discovered ∧
        ∃ found ∈ discovered, found.snapshot.ready = true) ↔
      ∃ engine target, ReportsTarget world entries engine target ∧ target.model = request.model ∧
        SaysReady world engine target ∧
        ∃ capabilities, capabilitiesOf world engine target = .ok capabilities := by
  obtain ⟨hdiscovered, hfailed⟩ := @evaluate_discover world entries request
  constructor
  · rintro ⟨discovered, hevaluate, found, hfound, hready⟩
    obtain ⟨engine, hreports, htarget, hcapabilities, hsnapshot⟩ :=
      ok_mem_outcomes.mp (((hdiscovered discovered hevaluate).2 found).mp hfound)
    exact ⟨engine, found.target, hreports, htarget, ⟨found.snapshot, hsnapshot, hready⟩,
      found.capabilities, hcapabilities⟩
  · rintro ⟨engine, target, hreports, htarget, ⟨snapshot, hsnapshot, hready⟩, capabilities,
      hcapabilities⟩
    have hmem : .ok ⟨target, capabilities, snapshot⟩ ∈ outcomes world entries request :=
      ok_mem_outcomes.mpr ⟨engine, hreports, htarget, hcapabilities, hsnapshot⟩
    cases hevaluate : (discover request entries).evaluate world with
    | error error => exact absurd hmem ((hfailed.mp ⟨error, hevaluate⟩).1 _)
    | ok discovered =>
      exact ⟨discovered, rfl, _, ((hdiscovered discovered hevaluate).2 _).mpr hmem, hready⟩

/-- Engines that know the capabilities of their ready targets have a ready target for a model
exactly if a request for it discovers one. -/
theorem ready_iff_discovered (hcapable : Capable world entries) {request : CanonicalRequest} :
    Ready world entries request.model ↔
      ∃ discovered, (discover request entries).evaluate world = .ok discovered ∧
        ∃ found ∈ discovered, found.snapshot.ready = true := by
  rw [discovered_ready_iff]
  constructor
  · rintro ⟨engine, target, snapshot, hreports, htarget, hsnapshot, hready⟩
    have hsays : SaysReady world engine target := ⟨snapshot, hsnapshot, hready⟩
    exact ⟨engine, target, hreports, htarget, hsays, hcapable engine target hreports hsays⟩
  · rintro ⟨engine, target, hreports, htarget, ⟨snapshot, hsnapshot, hready⟩, -⟩
    exact ⟨engine, target, snapshot, hreports, htarget, hsnapshot, hready⟩

/-- A model of the catalog is listed exactly if an engine has a ready target for it. A request
for it discovers a ready target exactly if an engine has one and knows its capabilities. So
discovery finds a ready target for what is listed, as long as the engines know the capabilities
of their ready targets. -/
theorem models_routable {request : CanonicalRequest} (hmodel : request.model = profile.model) :
    (profile ∈ (models catalog entries).evaluate world ↔
      profile ∈ catalog.profileList ∧
        ∃ engine target, ReportsTarget world entries engine target ∧
          target.model = request.model ∧ SaysReady world engine target) ∧
    ((∃ discovered, (discover request entries).evaluate world = .ok discovered ∧
        ∃ found ∈ discovered, found.snapshot.ready = true) ↔
      ∃ engine target, ReportsTarget world entries engine target ∧ target.model = request.model ∧
        SaysReady world engine target ∧
        ∃ capabilities, capabilitiesOf world engine target = .ok capabilities) ∧
    (Capable world entries →
      (profile ∈ (models catalog entries).evaluate world ↔
        profile ∈ catalog.profileList ∧
          ∃ discovered, (discover request entries).evaluate world = .ok discovered ∧
            ∃ found ∈ discovered, found.snapshot.ready = true)) := by
  refine ⟨?_, discovered_ready_iff, fun hcapable => ?_⟩
  · rw [mem_models, ← hmodel]
    refine and_congr_right fun _ => ⟨?_, ?_⟩
    · rintro ⟨engine, target, snapshot, hreports, htarget, hsnapshot, hready⟩
      exact ⟨engine, target, hreports, htarget, snapshot, hsnapshot, hready⟩
    · rintro ⟨engine, target, hreports, htarget, snapshot, hsnapshot, hready⟩
      exact ⟨engine, target, snapshot, hreports, htarget, hsnapshot, hready⟩
  · rw [mem_models, ← hmodel, ready_iff_discovered hcapable]

/-- A profile of the model of the sample target. -/
def sampleProfile : ModelProfile where
  publicAliases := ["a"]
  model := Planner.sampleTarget.model
  semanticIdentity := {
    input := Planner.sampleRequest.inputSemantics
    reasoningParser := none
    toolParser := none
    umbrellaFingerprint := none }

/-- A catalog with one model. -/
def sampleCatalog : ModelRegistry ModelProfile :=
  ({} : ModelRegistry ModelProfile).attempt id sampleProfile

/-- The engine of the sample target. -/
def sampleEntries : Registry.Entries :=
  (∅ : Registry.Entries).insert "engine" { generation := 1 }

/-- Engines that all have the sample target, which is ready. -/
def sampleWorld : (question : AdapterCall) → question.Answer
  | .executionTargets _ => .ok [Planner.sampleTarget]
  | .capabilities _ _ => .ok remoteCapabilities
  | .snapshot _ target => .ok { targetId := target.id, ready := true, estimatedQueueMicros := none }

theorem holds_sampleCatalog : Holds id sampleCatalog [sampleProfile] := by
  have hregister : ModelRegistry.register id {} sampleProfile = .ok sampleCatalog := rfl
  exact Holds.empty.register hregister

theorem mem_models_sample :
    sampleProfile ∈ (models sampleCatalog sampleEntries).evaluate sampleWorld := by
  have hlisted : sampleProfile ∈ sampleCatalog.profileList :=
    holds_sampleCatalog.mem_profileList.mpr ⟨_, List.mem_singleton_self _, rfl⟩
  refine mem_models.mpr ⟨hlisted, "engine", Planner.sampleTarget, _,
    ⟨?_, _, rfl, List.mem_singleton_self _⟩, rfl, rfl, rfl⟩
  rw [mem_routableAdapters]
  exact ⟨{ generation := 1 }, by simp [sampleEntries], rfl⟩

/-- Engines that have the sample target and do not know what it can do. -/
def sampleReticentWorld : (question : AdapterCall) → question.Answer
  | .capabilities engine _ => .error (.targetNotFound engine)
  | question => sampleWorld question

/-- The sample model is listed, so a request for it finds a target, unless its capabilities are
not known. -/
theorem models_routable_sample :
    (∃ discovered, (discover Planner.sampleRequest sampleEntries).evaluate sampleWorld =
        .ok discovered ∧
      ∃ found ∈ discovered, found.snapshot.ready = true) ∧
    ¬∃ discovered, (discover Planner.sampleRequest sampleEntries).evaluate sampleReticentWorld =
        .ok discovered ∧
      ∃ found ∈ discovered, found.snapshot.ready = true := by
  have hcapable : Capable sampleWorld sampleEntries := fun _ _ _ _ => ⟨_, rfl⟩
  have hmodel : Planner.sampleRequest.model = sampleProfile.model := rfl
  refine ⟨(((models_routable hmodel).2.2 hcapable).mp mem_models_sample).2, ?_⟩
  rw [(@models_routable sampleReticentWorld sampleEntries _ sampleCatalog _ _ hmodel).2.1]
  rintro ⟨engine, target, -, -, -, capabilities, hcapabilities⟩
  cases hcapabilities

/-- No required model is missing exactly if all of them resolve to ready models. -/
theorem missingModels_eq_nil {inventory : TargetInventory} {required : List String} :
    missingModels profileOf catalog inventory required = .ok [] ↔
      ∀ name ∈ required, ∃ modelIo, catalog.resolve name = .ok modelIo ∧
        (profileOf modelIo).model ∈ inventory.readyModels := by
  induction required with
  | nil => simp [missingModels]
  | cons name rest ih =>
    rw [List.forall_mem_cons, ← ih, missingModels]
    cases hresolve : catalog.resolve name with
    | error error => simp
    | ok modelIo =>
      cases hrest : missingModels profileOf catalog inventory rest with
      | error error => simp
      | ok missing =>
        by_cases hready : (profileOf modelIo).model ∈ inventory.readyModels
        · simp [hready]
        · simp [hready]

/-- When an inventory passes the checks, and with what report. -/
theorem readinessOf_eq_ok {required : List String} {status : ServiceStatus}
    {inventory : TargetInventory} {report : ReadinessReport} :
    readinessOf profileOf catalog required status inventory = .ok report ↔
      inventory.profiles ≠ [] ∧ inventory.readyModels ≠ ∅ ∧
        missingModels profileOf catalog inventory required = .ok [] ∧
        ∃ calibrator, status.calibrator = some calibrator ∧
          report = readinessReport required status inventory calibrator.status := by
  unfold readinessOf ServiceStatus.calibration
  split_ifs with hprofiles hready
  · simp [List.isEmpty_iff.mp hprofiles]
  · simp [hready]
  · cases hmissing : missingModels profileOf catalog inventory required with
    | error error => simp
    | ok missing =>
      cases missing with
      | nil =>
        rw [List.isEmpty_iff] at hprofiles
        cases status.calibrator <;> simp [hprofiles, hready, eq_comm (a := report), Except.map]
      | cons name rest => simp

/-- Models are listed by the inventory. -/
theorem evaluate_models : (models catalog entries).evaluate world =
    ((targetInventory catalog entries).evaluate world).routable := by
  rw [models, Dialogue.evaluate_bind, Dialogue.evaluate_pure]

/-- Readiness goes by the inventory. -/
theorem evaluate_readiness {required : List String} {status : ServiceStatus} :
    (readiness profileOf catalog entries required status).evaluate world =
      readinessOf profileOf catalog required status
        ((targetInventory catalog entries).evaluate world) := by
  rw [readiness, Dialogue.evaluate_bind, Dialogue.evaluate_pure]

/-- Some model is listed exactly if some model is ready. -/
theorem models_ne_nil_iff : (models catalog entries).evaluate world ≠ [] ↔
    ((targetInventory catalog entries).evaluate world).readyModels ≠ ∅ := by
  obtain ⟨hprofiles, hready, -⟩ := @evaluate_targetInventory world entries _ catalog
  rw [evaluate_models, ← Finset.nonempty_iff_ne_empty, TargetInventory.routable, ne_eq,
    List.filter_eq_nil_iff]
  push Not
  constructor
  · rintro ⟨profile, -, hmem⟩
    exact ⟨profile.model, by simpa using hmem⟩
  · rintro ⟨model, hmem⟩
    obtain ⟨⟨profile, hprofile, rfl⟩, -⟩ := (hready model).mp hmem
    exact ⟨profile, hprofiles ▸ hprofile, by simpa using hmem⟩

/-- A model that an alias resolves to is listed exactly if it is ready. -/
theorem mem_readyModels_iff_listed (hholds : Holds profileOf catalog registered) {name : String}
    {modelIo : Io} (hresolve : catalog.resolve name = .ok modelIo) :
    (profileOf modelIo).model ∈ ((targetInventory catalog entries).evaluate world).readyModels ↔
      profileOf modelIo ∈ (models catalog entries).evaluate world := by
  obtain ⟨hprofiles, -, -⟩ := @evaluate_targetInventory world entries _ catalog
  have hmem : profileOf modelIo ∈ ((targetInventory catalog entries).evaluate world).profiles := by
    rw [hprofiles, hholds.mem_profileList]
    exact ⟨modelIo, (hholds.resolve_eq_ok.mp hresolve).1, rfl⟩
  rw [evaluate_models, TargetInventory.routable, List.mem_filter, decide_eq_true_eq]
  exact ⟨fun h => ⟨hmem, h⟩, And.right⟩

/-- `readiness` succeeds exactly if some model is listed, all required models are, and the
calibrator can be asked. -/
theorem exists_readiness_iff (hholds : Holds profileOf catalog registered)
    {required : List String} {status : ServiceStatus} :
    (∃ report, (readiness profileOf catalog entries required status).evaluate world =
        .ok report) ↔
      (models catalog entries).evaluate world ≠ [] ∧
        (∀ name ∈ required, ∃ modelIo, catalog.resolve name = .ok modelIo ∧
          profileOf modelIo ∈ (models catalog entries).evaluate world) ∧
        status.calibrator ≠ none := by
  simp only [evaluate_readiness, readinessOf_eq_ok, missingModels_eq_nil]
  constructor
  · rintro ⟨report, -, hsome, hmissing, calibrator, hcalibrator, -⟩
    refine ⟨models_ne_nil_iff.mpr hsome, fun name hname => ?_, by simp [hcalibrator]⟩
    obtain ⟨modelIo, hresolve, hmodel⟩ := hmissing name hname
    exact ⟨modelIo, hresolve, (mem_readyModels_iff_listed hholds hresolve).mp hmodel⟩
  · rintro ⟨hsome, hall, hcalibrator⟩
    have hprofile : ((targetInventory catalog entries).evaluate world).profiles ≠ [] := by
      intro hnil
      rw [evaluate_models, TargetInventory.routable, hnil] at hsome
      exact hsome rfl
    obtain ⟨calibrator, hcalibrator⟩ := Option.ne_none_iff_exists'.mp hcalibrator
    refine ⟨_, hprofile, models_ne_nil_iff.mp hsome, fun name hname => ?_, calibrator,
      hcalibrator, rfl⟩
    obtain ⟨modelIo, hresolve, hmodel⟩ := hall name hname
    exact ⟨modelIo, hresolve, (mem_readyModels_iff_listed hholds hresolve).mpr hmodel⟩

/-- What a report counts. -/
theorem counts_of_readiness {required : List String} {status : ServiceStatus}
    {report : ReadinessReport}
    (h : (readiness profileOf catalog entries required status).evaluate world = .ok report) :
    report.trafficDraining = status.trafficDraining ∧
      report.routableModels = ((models catalog entries).evaluate world).length ∧
      0 < report.routableModels ∧ report.routableModels ≤ report.modelProfiles ∧
        report.readyTargets ≤ report.observedTargets := by
  obtain ⟨-, -, hcounted⟩ := @evaluate_targetInventory world entries _ catalog
  obtain ⟨-, hsome, -, calibrator, -, rfl⟩ :=
    readinessOf_eq_ok.mp (evaluate_readiness.symm.trans h)
  have hlisted := models_ne_nil_iff.mpr hsome
  rw [evaluate_models] at hlisted ⊢
  exact ⟨rfl, rfl, List.length_pos_of_ne_nil hlisted, List.length_filter_le _ _, hcounted⟩

end Routable

/-- A service whose calibrator has learned nothing. -/
def sampleStatus : ServiceStatus where
  placementMode := .shadow
  calibrator := some { policy := {}, state := {}, statePath := none }
  trafficDraining := false

end Locus.Runtime
