import Locus.Traffic.DrainIdleness
import Locus.Traffic.TicketCollision

/-!
# A section that empties the controller unannounced

After `2 ^ 64 - 2` requests the next three share the last ticket. The first of them is
active and a drain waits for it; the other two wait, and the receiver of the last is gone.
When the one before it is cancelled, the loop grants the last, takes its permit back and with
it the entry of the request that is still active. No `release` is involved, and the drain
sleeps on.
-/

namespace Locus.Traffic

open Std (TreeMap)
open Locus.Lib

section Quiet

variable {ctl : TrafficController} {sys sys' : System} {labels : List Label}

/-- Only `release` enters the sections that announce an idle controller. -/
theorem lock_ne_of_step {label : Label} (hqueues : QueuesSound ctl sys.state)
    (hstep : step ctl sys label = some sys') (hlock : sys.lock ≠ .scheduling true)
    (hlabel : ∀ id, label ≠ .release id) : sys'.lock ≠ .scheduling true := by
  cases move_of_step hqueues.known hstep with
  | released => exact absurd rfl (hlabel _)
  | drained => rwa [foldl_sendDraining_lock]
  | enqueued | cancelled | unlocked => simp
  | _ => exact hlock

/-- Without a release nothing is announced. -/
theorem idleNotifications_of_run (h : Run (stepRel (step ctl)) sys labels sys')
    (hqueues : QueuesSound ctl sys.state) (hlock : sys.lock ≠ .scheduling true)
    (hlabels : ∀ id, .release id ∉ labels) :
    sys'.idleNotifications = sys.idleNotifications := by
  have hall : QueuesSound ctl sys'.state ∧ sys'.lock ≠ .scheduling true ∧
      sys'.idleNotifications = sys.idleNotifications := by
    induction h with
    | nil => exact ⟨hqueues, hlock, rfl⟩
    | @snoc t u ls label hrun hstep ih =>
      obtain ⟨hqueues, hlock, heq⟩ := ih fun id hmem => hlabels id (List.mem_append_left _ hmem)
      have hlabel : ∀ id, label ≠ .release id := by
        rintro id rfl
        exact hlabels id (List.mem_append_right _ (List.mem_singleton_self _))
      refine ⟨hqueues.step hstep, lock_ne_of_step hqueues hstep hlock hlabel, ?_⟩
      rw [← heq]
      by_cases hunlock : label = .unlock
      · subst hunlock
        obtain ⟨fromRelease, hscheduling, rfl⟩ := unlock_spec hstep
        cases fromRelease with
        | true => exact absurd hscheduling hlock
        | false => simp
      · exact idleNotifications_eq hqueues hstep hunlock
  exact hall.2.2

end Quiet

section Views

variable {s : TrafficState} {sys : System} {channels : List Channel}
  {next requests tokens : UInt64} {queue : List QueuedRequest}
  {M : Multiset (UInt64 × ActiveRequest)}

/-- `begin_drain` and `resume` leave a controller without waiters as it was. -/
theorem At.drainAndResume (h : At sys .free channels next [] M requests tokens) :
    ∃ sys₁ sys₂, step narrow sys .beginDrain = some sys₁ ∧
    sys₁.lock = .free ∧ sys₁.state.active = sys.state.active ∧
    step narrow sys₁ .resume = some sys₂ ∧ At sys₂ .free channels next [] M requests tokens := by
  have hempty : waitingList sys.state.waiting = [] := by
    have hentries := waitingEntries_of_single h.view.queue_eq
    rw [← coe_waitingList] at hentries
    simpa using hentries
  obtain ⟨hturned, hdrains⟩ := beginDrain_spec h.view.sound.known h.view.not_draining
  obtain ⟨rej, heq⟩ := hdrains.state_eq
  have hsound := h.view.sound.drain.resume
  rw [hempty] at hturned heq hsound
  refine ⟨{ sys with state := (beginDrain narrow sys.state).2 },
    { sys with state := resume (beginDrain narrow sys.state).2 }, ?_, h.lock_eq, by rw [heq], ?_,
    h.lock_eq, h.channels_eq, ?_⟩
  · simp [step, h.lock_eq, hturned]
  · simp [step, h.lock_eq]
  · rw [heq]
    exact ⟨h.view.next_eq, rfl, hsound, by simp [resume], h.view.active_eq, h.view.classRequests,
      h.view.classTokens, h.view.tenantRequests, h.view.tenantTokens⟩

/-- The head leaves its queue. -/
theorem View.cancelWaiter {q : QueuedRequest} {rest : List QueuedRequest}
    (h : View s next (q :: rest) M requests tokens) (reason : String) : ∃ s₁,
    cancelWaiter s q.ticket batchTenant reason = some (q, s₁) ∧
    View s₁ next rest M requests tokens := by
  have hqueue : queueOf s.waiting "batch" "a" = q :: rest := by simp [h.queue_eq]
  rw [cancelWaiter_eq]
  simp only [batchTenant, hqueue, List.find?_cons, List.eraseP_cons, beq_self_eq_true, cond_true,
    Option.map_some]
  exact ⟨_, rfl, h.next_eq, h.not_draining, h.sound.remove [] hqueue, h.queue_setQueue rest,
    h.active_eq, h.classRequests, h.classTokens, h.tenantRequests, h.tenantTokens⟩

/-- A waiting request loses its receiver. -/
theorem At.abandon {lock : Lock} (h : At sys lock channels next queue M requests tokens) (id : ℕ)
    {channel : Channel} (hchannel : channels[id]? = some channel)
    (hphase : channel.phase = .waiting) : ∃ sys₁,
    step narrow sys (.dropReceiver id) = some sys₁ ∧
    At sys₁ lock (setPhase channels id .abandoned) next queue M requests tokens := by
  refine ⟨{ sys with channels := setPhase channels id .abandoned }, ?_, h.lock_eq, rfl, h.view⟩
  simp [step, h.channels_eq, hchannel, hphase]

/-- The first of the queue is cancelled. -/
theorem At.cancelHead {q : QueuedRequest} {rest : List QueuedRequest}
    (h : At sys .free channels next (q :: rest) M requests tokens) (id : ℕ) (reason : String)
    (hchannel : channels[id]? = some { ticket := q.ticket, tenant := "a" }) : ∃ sys₁,
    step narrow sys (.cancel id reason) = some sys₁ ∧
    At sys₁ (.scheduling false)
      (channels.modify id fun channel => { channel with cancelling := true }) next rest M
      requests tokens := by
  obtain ⟨s₁, hcancel, hview⟩ := h.view.cancelWaiter reason
  refine ⟨{ sys with
    state := s₁
    lock := .scheduling false
    channels := channels.modify id fun channel => { channel with cancelling := true }
    log := sys.log ++ [.left q.ticket] }, ?_, rfl, rfl, hview⟩
  simp [step, h.lock_eq, h.channels_eq, hchannel, narrow_tenant, hcancel]

/-- The loop grants a request whose receiver is gone, and takes the permit back. -/
theorem At.undelivered {q : QueuedRequest}
    (h : At sys (.scheduling false) channels next [q] M requests tokens)
    (hfits : View.Fits M requests tokens q.tokenCost)
    (hgone : phaseOf channels q.sender ≠ .waiting) (hrequests : requests + 1 ≠ 0)
    (htokens : tokens + q.tokenCost ≠ 0) : ∃ sys₁ channels₁,
    step narrow sys (.schedule 0) = some sys₁ ∧
    At sys₁ (.scheduling false) channels₁ next []
      ((activeEntry q ::ₘ M.filter fun e => e.1 ≠ q.ticket).filter fun e => e.1 ≠ q.ticket)
      (requests + 1 - 1) (tokens + q.tokenCost - q.tokenCost) := by
  obtain ⟨s₁, hgrant, hgranted⟩ := h.view.grant
  obtain ⟨s₂, hrelease, hview⟩ := hgranted.release (Multiset.mem_cons_self _ _) hrequests htokens
  refine ⟨{ sys with
    state := s₂
    channels := setPhase channels q.sender .closed
    log := sys.log ++ [.granted q.ticket "a"] ++ [.released q.ticket] }, _, ?_, h.lock_eq, rfl,
    hview⟩
  simp [step, h.lock_eq, h.view.nextCandidate_eq_some hfits, hgrant, sendPermit, h.channels_eq,
    hgone, hrelease]

end Views

/-- The last ticket is given out. -/
def lastAdmission : List Label :=
  [.admitRequest (some "a") 99 0 0, .schedule 0, .unlock]

/-- Two more requests get it, of which the second loses its receiver and the first is
cancelled. -/
def silentSection (id : ℕ) : List Label :=
  [.resume, .admitRequest (some "a") 50 0 0, .unlock, .admitRequest (some "a") 1 0 0, .unlock,
    .dropReceiver (id + 2), .cancel (id + 1) "cancelled", .schedule 0, .unlock]

/-- The sections of `silentSection` empty the controller. -/
theorem At.silent {sys₁ sys₂ : System} {channels : List Channel} {id : ℕ}
    (hresume : step narrow sys₁ .resume = some sys₂)
    (h : At sys₂ .free channels u64Max [] {(u64Max, ⟨"a", "batch", 99, 0⟩)} 1 99)
    (hlength : channels.length = id + 1) : ∃ sys₃ channels₃,
    Run (stepRel (step narrow)) sys₁ (silentSection id) sys₃ ∧
    At sys₃ .free channels₃ u64Max [] 0 1 99 := by
  have hagain : saturatingAdd u64Max 1 = u64Max := by decide
  obtain ⟨sysA, hA, hatA⟩ := h.enqueue 50 (by decide) (by decide) (by decide)
  rw [hagain] at hatA
  obtain ⟨sysB, hB, hatB⟩ := hatA.unlock (by rintro q ⟨⟩; simp only; decide)
  obtain ⟨sysC, hC, hatC⟩ := hatB.enqueue 1 (by simp) (by decide) (by decide)
  rw [hagain] at hatC
  obtain ⟨sysD, hD, hatD⟩ := hatC.unlock (by rintro q ⟨⟩; simp only; decide)
  have hlost : (channels ++ [{ ticket := u64Max, tenant := "a" }] ++
      [{ ticket := u64Max, tenant := "a" }])[id + 2]? =
      some { ticket := u64Max, tenant := "a" } := by
    rw [List.getElem?_append_right (by simp [hlength])]
    simp [hlength]
  obtain ⟨sysE, hE, hatE⟩ := hatD.abandon (id + 2) hlost rfl
  obtain ⟨sysF, hF, hatF⟩ := hatE.cancelHead (id + 1) "cancelled" (by simp [setPhase, hlength])
  have hfits : View.Fits {(u64Max, ⟨"a", "batch", 99, 0⟩)} 1 99 1 :=
    ⟨by decide, by decide, by decide, by decide⟩
  obtain ⟨sysG, channelsG, hG, hatG⟩ := hatF.undelivered hfits
    (by simp [phaseOf, setPhase, hlength]) (by decide) (show (99 : UInt64) + 1 ≠ 0 by decide)
  obtain ⟨sysH, hH, hatH⟩ := hatG.unlock (by simp)
  refine ⟨sysH, channelsG, Run.of_foldlM ?_, by
    simpa [activeEntry, Multiset.filter_singleton] using hatH⟩
  simp [silentSection, hresume, hA, hB, hC, hD, hE, hF, hG, hH]

/-- A drain that waits for the one active request. -/
def patientDrain (seen : ℕ) : DrainCall where
  deadline := some 0
  phase := .waiting seen

/-- The drain begins and finds the request active. -/
theorem patientDrain_of_busy {sys sys₁ : System} (hbegin : step narrow sys .beginDrain = some sys₁)
    (hfree : sys₁.lock = .free) (hbusy : sys₁.state.active.size ≠ 0) :
    Run (stepRel (drainStep narrow)) { traffic := sys } [.drain (some 0), .subscribe 0, .check 0]
      { traffic := sys₁, drains := [patientDrain sys₁.idleNotifications] } := by
  refine Run.of_foldlM ?_
  simp [drainStep, startDrain, hbegin, DrainSystem.setPhase, checkDrain, activeRequests, hfree,
    hbusy, patientDrain]

/-- After `2 ^ 64 - 2` requests that came and went, the next three share a ticket. A drain
that waits for the first is not woken when the controller becomes idle. -/
theorem not_neverMissesIdleness_silentSection : ∃ sys seen,
    DrainReaches narrow
      (((List.range (2 ^ 64 - 2)).flatMap cycle ++ lastAdmission).map .traffic ++
        ([.drain (some 0), .subscribe 0, .check 0] ++
          (silentSection (2 ^ 64 - 2)).map .traffic)) sys ∧
    sys.traffic.lock = .free ∧ sys.traffic.state.active.isEmpty = true ∧
    sys.drains = [patientDrain seen] ∧ drainStep narrow sys (.wake 0) = none ∧
    ¬NeverMissesIdleness narrow
      (((List.range (2 ^ 64 - 2)).flatMap cycle ++ lastAdmission).map .traffic ++
        ([.drain (some 0), .subscribe 0, .check 0] ++
          (silentSection (2 ^ 64 - 2)).map .traffic)) sys := by
  obtain ⟨n, hn⟩ : ∃ n, n = 2 ^ 64 - 2 := ⟨_, rfl⟩
  rw [← hn]
  obtain ⟨sys₀, channels, hlength, hrun₀, h₀⟩ := at_of_cycles n (by omega)
  have hlast : saturatingAdd (.ofNat n) 1 = u64Max := by
    rw [hn]
    decide
  obtain ⟨sys₁, hrun₁, h₁⟩ := h₀.admitted 99 (by decide) (by decide)
    ⟨by decide, by decide, by decide, by decide⟩
  have hM₁ : (activeEntry ⟨u64Max, 99, 0, 0, channels.length⟩ ::ₘ
      (0 : Multiset (UInt64 × ActiveRequest)).filter fun e => e.1 ≠ u64Max) =
      {(u64Max, ⟨"a", "batch", 99, 0⟩)} := by simp [activeEntry]
  rw [hlast, hM₁] at h₁
  obtain ⟨sys₂, sys₃, hbegin, hfree, hactive, hresume, h₃⟩ := h₁.drainAndResume
  have hbusy : sys₂.state.active.size ≠ 0 := by
    rw [hactive, h₁.view.size_eq]
    simp
  have hopened : (channels ++ [Channel.mk u64Max "a" .sentPermit false]).length = n + 1 := by
    simp [hlength]
  obtain ⟨sys₄, channels₄, hrun₄, h₄⟩ := At.silent hresume h₃ hopened
  have hquiet : sys₄.idleNotifications = sys₂.idleNotifications :=
    idleNotifications_of_run hrun₄ (QueuesSound.step h₁.view.sound hbegin) (by simp [hfree])
      (by simp [silentSection])
  have hidle : sys₄.state.active.isEmpty = true := by
    rw [TreeMap.isEmpty_eq_size_eq_zero, h₄.view.size_eq]
    rfl
  let sys : DrainSystem :=
    { traffic := sys₄, drains := [patientDrain sys₂.idleNotifications] }
  have hrun : DrainReaches narrow (((List.range n).flatMap cycle ++ lastAdmission).map .traffic ++
      ([.drain (some 0), .subscribe 0, .check 0] ++ (silentSection n).map .traffic)) sys :=
    Run.append (drains_aside_of_run (Run.append hrun₀ hrun₁) {})
      (Run.append (patientDrain_of_busy hbegin hfree hbusy)
        (drains_aside_of_run hrun₄ { drains := [patientDrain sys₂.idleNotifications] }))
  have hasleep : drainStep narrow sys (.wake 0) = none := by
    simp [sys, drainStep, patientDrain, hquiet]
  refine ⟨sys, sys₂.idleNotifications, hrun, h₄.lock_eq, hidle, rfl, hasleep, fun h => ?_⟩
  have hwoken := h.woken sys [] 0 _ _ sys₂.idleNotifications ⟨_, (List.append_nil _).symm, hrun,
    .nil _⟩ rfl rfl h₄.lock_eq hidle rfl rfl
  simp [hasleep] at hwoken

end Locus.Traffic
