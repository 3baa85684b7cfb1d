import Locus.Server.Transport

/-!
# The connections of a run

Connections are numbered as they are accepted. The steps of a run tell which of them were
handed to a task, joined, lost to an error, or left when the grace period was over.
-/

namespace Locus.Server

open Locus.Http Locus.Lib

/-- The connections that the loop has accepted and not handed on. -/
def ServePhase.undecided : ServePhase → ℕ
  | .opening | .counting | .configuring => 1
  | _ => 0

/-- The connections that a task can still lose to an error. -/
def ConnectionTask.undecided : ConnectionTask → ℕ
  | .spawned | .serving _ => 1
  | _ => 0

/-- A step in which a connection is lost to an error. -/
def Act.isConnectionError : Act → Bool
  | .configure false | .task _ .fail => true
  | _ => false

/-- The connections of a run by their numbers. Those that were handed to a task and not joined
are in the order of the tasks. -/
structure Roster where
  accepted : ℕ := 0
  handedOn : List ℕ := []
  failed : List ℕ := []
  forced : List ℕ := []

/-- What a step tells about the connections. The loop has one connection at a time, the last
that was accepted. -/
def Roster.read (roster : Roster) : Act → Roster
  | .accept true => { roster with accepted := roster.accepted + 1 }
  | .configure true => { roster with handedOn := roster.handedOn ++ [roster.accepted] }
  | .configure false => { roster with failed := roster.failed ++ [roster.accepted] }
  | .task index .fail => { roster with failed := roster.failed ++ roster.handedOn[index]?.toList }
  | .join index => { roster with handedOn := roster.handedOn.eraseIdx index }
  | .timeout => { roster with forced := roster.forced ++ roster.handedOn }
  | _ => roster

/-- The connections after the given steps. -/
def rosterAfter (labels : List Act) : Roster :=
  labels.foldl Roster.read {}

@[simp] theorem rosterAfter_concat (labels : List Act) (label : Act) :
    rosterAfter (labels ++ [label]) = (rosterAfter labels).read label :=
  List.foldl_concat ..

/-- Connections are forced to close only when the grace period is over. -/
theorem Roster.read_forced {label : Act} (h : label ≠ .timeout) (roster : Roster) :
    (roster.read label).forced = roster.forced := by
  unfold Roster.read
  split <;> first | rfl | exact absurd rfl h

/-- The roster is that of the server. No connection is in a list twice, and one that can still
fail has not failed. -/
structure Roster.Matches (roster : Roster) (server : Transport) : Prop where
  length_eq : roster.handedOn.length = server.tasks.length
  handedOn : roster.handedOn.Nodup
  failed : roster.failed.Nodup
  forced : roster.forced.Nodup
  handedOn_le : ∀ number ∈ roster.handedOn, number ≤ roster.accepted
  failed_le : ∀ number ∈ roster.failed, number ≤ roster.accepted
  inLoop : server.phase.undecided = 1 →
    roster.accepted ∉ roster.handedOn ∧ roster.accepted ∉ roster.failed
  inTask : ∀ (index : ℕ) (task : ConnectionTask) (number : ℕ),
    server.tasks[index]? = some task → task.undecided = 1 →
      roster.handedOn[index]? = some number → number ∉ roster.failed
  notForced : server.phase ≠ .aborting → server.phase ≠ .returned → roster.forced = []

variable {roster : Roster} {server next s : Transport} {label : Act} {labels : List Act}
  {settings : HttpSettings}

/-- A step that tells nothing about the connections keeps the roster, if it makes none of them
able to fail. -/
theorem Roster.Matches.quiet (h : roster.Matches server)
    (hlength : next.tasks.length = server.tasks.length)
    (hphase : next.phase.undecided ≤ server.phase.undecided)
    (htasks : ∀ (index : ℕ) (task : ConnectionTask), next.tasks[index]? = some task →
      task.undecided = 1 → ∃ old, server.tasks[index]? = some old ∧ old.undecided = 1)
    (hended : next.phase ≠ .aborting → next.phase ≠ .returned →
      server.phase ≠ .aborting ∧ server.phase ≠ .returned) :
    roster.Matches next where
  length_eq := h.length_eq.trans hlength.symm
  handedOn := h.handedOn
  failed := h.failed
  forced := h.forced
  handedOn_le := h.handedOn_le
  failed_le := h.failed_le
  inLoop hone := by
    apply h.inLoop
    have hmost : server.phase.undecided ≤ 1 := by cases server.phase <;> decide
    omega
  inTask index task number htask hone hnumber := by
    obtain ⟨old, hold, holdOne⟩ := htasks index task htask hone
    exact h.inTask index old number hold holdOne hnumber
  notForced haborting hreturned := by
    obtain ⟨haborting, hreturned⟩ := hended haborting hreturned
    exact h.notForced haborting hreturned

/-- A number that is new to a list is added to it. -/
theorem nodup_concat {numbers : List ℕ} {number : ℕ} (h : numbers.Nodup)
    (hnew : number ∉ numbers) : (numbers ++ [number]).Nodup :=
  List.concat_eq_append ▸ h.concat hnew

/-- What `advance` does to the connection in the loop. -/
theorem ServePhase.advance_undecided {phase next : ServePhase} {effect : Effect}
    (h : phase.advance = some (effect, next)) :
    next.undecided = phase.undecided ∧ phase ≠ .aborting ∧ phase ≠ .returned := by
  revert h
  fun_cases ServePhase.advance <;> intro h <;> cases h <;> decide

/-- A task that can fail could fail before its last step. -/
theorem ConnectionTask.step_undecided {sent aborted : Bool} {task next : ConnectionTask}
    {event : TaskEvent} {effect : Effect} (h : task.step sent aborted event = some (effect, next)) :
    next.undecided ≤ task.undecided ∧
      (event = .fail → task.undecided = 1 ∧ next.undecided = 0) := by
  revert h
  fun_cases ConnectionTask.step <;> intro h <;> cases h <;> decide +revert

@[simp] theorem Transport.perform_phase (server : Transport) (effect : Effect) :
    (server.perform effect).phase = server.phase := by
  cases effect <;> rfl

@[simp] theorem Transport.perform_tasks (server : Transport) (effect : Effect) :
    (server.perform effect).tasks = server.tasks := by
  cases effect <;> rfl

/-- A step of a task. -/
theorem step_task {index : ℕ} {event : TaskEvent}
    (h : server.step (.task index event) = some next) :
    ∃ task effect new, server.tasks[index]? = some task ∧
      task.step server.sent (server.phase = .aborting) event = some (effect, new) ∧
      next.phase = server.phase ∧ next.tasks = server.tasks.set index new := by
  obtain ⟨task, htask, h⟩ := Option.bind_eq_some_iff.mp h
  obtain ⟨⟨effect, new⟩, hnew, rfl⟩ := Option.map_eq_some_iff.mp h
  exact ⟨task, effect, new, htask, hnew, by simp, rfl⟩

/-- A task that fails is that of a connection which has not failed before. -/
theorem Roster.Matches.task (h : roster.Matches server) {index : ℕ} {event : TaskEvent}
    (hstep : server.step (.task index event) = some next) :
    (roster.read (.task index event)).Matches next := by
  obtain ⟨task, effect, new, htask, hnew, hphase, htasks⟩ := step_task hstep
  obtain ⟨hless, hfail⟩ := ConnectionTask.step_undecided hnew
  have hkept : roster.Matches next := by
    refine h.quiet (by simp [htasks]) (by rw [hphase]) ?_ (by rw [hphase]; exact And.intro)
    intro position other hother hone
    rw [htasks, List.getElem?_set] at hother
    split at hother
    next heq =>
      split at hother
      · cases hother
        subst heq
        refine ⟨task, htask, ?_⟩
        have hmost : task.undecided ≤ 1 := by cases task <;> simp [ConnectionTask.undecided]
        omega
      · cases hother
    next => exact ⟨other, hother, hone⟩
  cases event with
  | fail =>
    obtain ⟨hopen, hclosed⟩ := hfail rfl
    have hlt : index < roster.handedOn.length := by
      rw [h.length_eq]
      exact (List.getElem?_eq_some_iff.mp htask).1
    obtain ⟨number, hnumber⟩ : ∃ number, roster.handedOn[index]? = some number :=
      ⟨_, List.getElem?_eq_getElem hlt⟩
    have hnew : number ∉ roster.failed := h.inTask index task number htask hopen hnumber
    have hread : roster.read (.task index .fail) =
        { roster with failed := roster.failed ++ [number] } := by
      simp [Roster.read, hnumber]
    rw [hread]
    refine { hkept with
      failed := nodup_concat h.failed hnew
      failed_le := ?_, inLoop := ?_, inTask := ?_ }
    · intro other hmem
      rcases List.mem_append.mp hmem with hmem | hmem
      · exact h.failed_le other hmem
      · rw [List.mem_singleton.mp hmem]
        exact h.handedOn_le number (List.mem_of_getElem? hnumber)
    · intro hone
      obtain ⟨hhanded, hfailed⟩ := hkept.inLoop hone
      refine ⟨hhanded, ?_⟩
      rw [List.mem_append, List.mem_singleton]
      rintro (hmem | heq)
      · exact hfailed hmem
      · exact hhanded (heq ▸ List.mem_of_getElem? hnumber)
    · intro position other otherNumber hother hone hotherNumber
      rw [List.mem_append, List.mem_singleton]
      rintro (hmem | heq)
      · exact hkept.inTask position other otherNumber hother hone hotherNumber hmem
      · -- The task that failed cannot fail again.
        have hposition : position = index :=
          (List.getElem?_inj (List.getElem?_eq_some_iff.mp hotherNumber).1 h.handedOn).mp
            (hotherNumber.trans (heq ▸ hnumber.symm))
        subst hposition
        rw [htasks, List.getElem?_set_self (List.getElem?_eq_some_iff.mp htask).1] at hother
        cases hother
        omega
  | _ => exact hkept

/-- A connection that is configured is handed on, and one that cannot be has not failed before. -/
theorem Roster.Matches.configure (h : roster.Matches server) {ok : Bool}
    (hstep : server.step (.configure ok) = some next) :
    (roster.read (.configure ok)).Matches next := by
  simp only [Transport.step, Option.ite_none_right_eq_some] at hstep
  obtain ⟨hphase, hstep⟩ := hstep
  obtain ⟨hhanded, hfailed⟩ := h.inLoop (by simp [hphase, ServePhase.undecided])
  have hforced : roster.forced = [] := h.notForced (by simp [hphase]) (by simp [hphase])
  cases ok with
  | false =>
    cases hstep
    refine { h with
      failed := nodup_concat h.failed hfailed
      failed_le := ?_, inLoop := nofun, inTask := ?_, notForced := fun _ _ => hforced }
    · intro number hmem
      rcases List.mem_append.mp hmem with hmem | hmem
      · exact h.failed_le number hmem
      · exact (List.mem_singleton.mp hmem).le
    · intro index task number htask hone hnumber
      rw [Roster.read, List.mem_append, List.mem_singleton]
      rintro (hmem | rfl)
      · exact h.inTask index task number htask hone hnumber hmem
      · exact hhanded (List.mem_of_getElem? hnumber)
  | true =>
    cases hstep
    refine { h with
      length_eq := by simp [Roster.read, h.length_eq]
      handedOn := nodup_concat h.handedOn hhanded
      handedOn_le := ?_, inLoop := nofun, inTask := ?_, notForced := fun _ _ => hforced }
    · intro number hmem
      rcases List.mem_append.mp hmem with hmem | hmem
      · exact h.handedOn_le number hmem
      · exact (List.mem_singleton.mp hmem).le
    · intro index task number htask hone hnumber
      by_cases hlt : index < server.tasks.length
      · rw [List.getElem?_append_left hlt] at htask
        refine h.inTask index task number htask hone ?_
        rwa [Roster.read, List.getElem?_append_left (h.length_eq ▸ hlt)] at hnumber
      · rw [Roster.read, List.getElem?_append_right (by have := h.length_eq; omega)] at hnumber
        rwa [List.mem_singleton.mp (List.mem_of_getElem? hnumber)]

/-- A task that is joined takes its connection with it. -/
theorem Roster.Matches.join (h : roster.Matches server) {index : ℕ}
    (hstep : server.step (.join index) = some next) :
    (roster.read (.join index)).Matches next := by
  simp only [Transport.step, Option.ite_none_right_eq_some] at hstep
  obtain ⟨⟨-, htask⟩, ⟨⟩⟩ := hstep
  have hsub : (roster.handedOn.eraseIdx index).Sublist roster.handedOn :=
    List.eraseIdx_sublist ..
  refine { h with
    length_eq := by simp [Roster.read, List.length_eraseIdx, h.length_eq]
    handedOn := h.handedOn.sublist hsub
    handedOn_le := fun number hmem => h.handedOn_le number (hsub.subset hmem)
    inLoop := fun hone => ?_, inTask := ?_ }
  · obtain ⟨hhanded, hfailed⟩ := h.inLoop hone
    exact ⟨fun hmem => hhanded (hsub.subset hmem), hfailed⟩
  · intro position task number htask hone hnumber
    rw [List.getElem?_eraseIdx] at htask
    rw [Roster.read, List.getElem?_eraseIdx] at hnumber
    split at htask
    all_goals
      rename_i hside
      simp only [hside, if_true, if_false] at hnumber
      exact h.inTask _ task number htask hone hnumber

/-- Every step of the transport keeps the roster. -/
theorem Roster.Matches.step (h : roster.Matches server) (hstep : server.step label = some next) :
    (roster.read label).Matches next := by
  cases label with
  | signal =>
    simp only [Transport.step, Option.ite_none_left_eq_some] at hstep
    obtain ⟨-, ⟨⟩⟩ := hstep
    exact h.quiet rfl le_rfl (fun _ task htask hone => ⟨task, htask, hone⟩) And.intro
  | leave =>
    simp only [Transport.step, Option.ite_none_right_eq_some] at hstep
    obtain ⟨-, hstep⟩ := hstep
    split at hstep <;> cases hstep
    all_goals
      rename_i hphase
      refine h.quiet rfl (Nat.zero_le _) (fun _ task htask hone => ⟨task, htask, hone⟩) ?_
      simp [hphase]
  | acquire =>
    simp only [Transport.step, Option.ite_none_right_eq_some] at hstep
    obtain ⟨⟨hphase, -⟩, ⟨⟩⟩ := hstep
    refine h.quiet rfl (Nat.zero_le _) (fun _ task htask hone => ⟨task, htask, hone⟩) ?_
    simp [hphase]
  | accept ok =>
    simp only [Transport.step, Option.ite_none_right_eq_some] at hstep
    obtain ⟨hphase, ⟨⟩⟩ := hstep
    cases ok with
    | false =>
      refine h.quiet rfl (Nat.zero_le _) (fun _ task htask hone => ⟨task, htask, hone⟩) ?_
      simp [hphase]
    | true =>
      refine { h with handedOn_le := ?_, failed_le := ?_, inLoop := ?_, notForced := ?_ }
      · exact fun number hmem => Nat.le_succ_of_le (h.handedOn_le number hmem)
      · exact fun number hmem => Nat.le_succ_of_le (h.failed_le number hmem)
      · intro _
        exact ⟨fun hmem => Nat.not_succ_le_self _ (h.handedOn_le _ hmem),
          fun hmem => Nat.not_succ_le_self _ (h.failed_le _ hmem)⟩
      · intro _ _
        exact h.notForced (by simp [hphase]) (by simp [hphase])
  | configure ok => exact h.configure hstep
  | advance =>
    obtain ⟨⟨effect, phase⟩, hadvance, rfl⟩ := Option.map_eq_some_iff.mp hstep
    obtain ⟨hphase, haborting, hreturned⟩ := ServePhase.advance_undecided hadvance
    refine h.quiet (by simp) hphase.le (fun index task htask hone => ⟨task, ?_, hone⟩)
      (fun _ _ => ⟨haborting, hreturned⟩)
    simpa using htask
  | join index => exact h.join hstep
  | joined =>
    simp only [Transport.step, Option.ite_none_right_eq_some] at hstep
    obtain ⟨⟨-, -⟩, ⟨⟩⟩ := hstep
    refine h.quiet rfl (Nat.zero_le _) (fun _ task htask hone => ⟨task, htask, hone⟩) ?_
    exact fun _ hreturned => absurd rfl hreturned
  | timeout =>
    simp only [Transport.step, Option.ite_none_right_eq_some] at hstep
    obtain ⟨⟨hphase, -⟩, ⟨⟩⟩ := hstep
    have hforced : roster.forced = [] := h.notForced (by simp [hphase]) (by simp [hphase])
    refine { h with forced := ?_, inLoop := nofun, notForced := fun haborting => absurd rfl haborting }
    simpa [Roster.read, hforced] using h.handedOn
  | task index event => exact h.task hstep

/-- The loop starts with nothing but its permits, no more than it can count. -/
theorem serve_eq_ok (h : serve settings = .ok server) :
    server = { available := settings.maxConnections.toNat } ∧
      settings.maxConnections.toNat < 2 ^ 64 := by
  unfold serve at h
  split at h
  · cases h
  · split at h <;> cases h
    exact ⟨rfl, settings.maxConnections.toNat_lt⟩

/-- The roster of a run is that of its last state. -/
theorem matches_of_run (hserve : serve settings = .ok server)
    (hrun : Run (stepRel Transport.step) server labels s) : (rosterAfter labels).Matches s := by
  have hstart := (serve_eq_ok hserve).1
  induction hrun with
  | nil =>
    subst hstart
    constructor <;> simp [rosterAfter, ServePhase.undecided]
  | snoc _ hlast ih =>
    rw [rosterAfter_concat]
    exact ih.step hlast

/-- Every step in which a connection is lost to an error is that of a connection. -/
theorem Roster.Matches.length_failed (h : roster.Matches server)
    (hstep : server.step label = some next) : (roster.read label).failed.length =
      roster.failed.length + [label].countP Act.isConnectionError := by
  cases label with
  | accept ok => cases ok <;> rfl
  | configure ok => cases ok <;> simp [Roster.read, Act.isConnectionError]
  | task index event =>
    cases event with
    | fail =>
      obtain ⟨task, _, _, htask, -⟩ := step_task hstep
      have hlt : index < roster.handedOn.length := by
        rw [h.length_eq]
        exact (List.getElem?_eq_some_iff.mp htask).1
      simp [Roster.read, Act.isConnectionError, List.getElem?_eq_getElem hlt]
    | _ => rfl
  | _ => rfl

/-- The connections that were lost to an error, one for each such step. -/
theorem length_failed (hserve : serve settings = .ok server)
    (hrun : Run (stepRel Transport.step) server labels s) :
    (rosterAfter labels).failed.length = labels.countP Act.isConnectionError := by
  induction hrun with
  | nil => rfl
  | snoc hbefore hlast ih =>
    rw [rosterAfter_concat, (matches_of_run hserve hbefore).length_failed hlast, ih,
      List.countP_append]

end Locus.Server
