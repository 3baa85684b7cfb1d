import Locus.Traffic.WorkConservation

/-!
# What happens when tickets run out

The ticket counter saturates, so after `2 ^ 64 - 1` requests every new one gets the
same ticket. Two requests that are active at the same time then share one entry of
the active map, and the tokens of the first are never given back. The run below
brings a controller to that point and leaves a request waiting that nothing will
ever release. `View` describes the states on the way, up to what the scheduler reads.
-/

namespace Locus.Traffic

open Std (TreeMap)
open Locus.Lib

theorem narrow_tenant : narrow.tenants["a"]? = some batchTenant := by decide

theorem narrow_class : narrow.classes["batch"]? = some batchClass := by decide

/-- A state of the run: the one queue, the active entries, and the counters of the class
and the tenant, which agree. -/
structure View (s : TrafficState) (next : UInt64) (queue : List QueuedRequest)
    (M : Multiset (UInt64 × ActiveRequest)) (requests tokens : UInt64) : Prop where
  next_eq : s.nextTicket = next
  not_draining : s.draining = false
  sound : QueueSound narrow s.waiting s.draining s.tenantQueuedRequests s.tenantQueuedTokens
  queue_eq : ∀ c t, queueOf s.waiting c t = if c = "batch" ∧ t = "a" then queue else []
  active_eq : entries s.active = M
  classRequests : count s.classActiveRequests.map "batch" = requests
  classTokens : count s.classActiveTokens.map "batch" = tokens
  tenantRequests : count s.tenantActiveRequests.map "a" = requests
  tenantTokens : count s.tenantActiveTokens.map "a" = tokens

variable {s : TrafficState} {next requests tokens : UInt64} {queue : List QueuedRequest}
  {M : Multiset (UInt64 × ActiveRequest)}

section Counters

private theorem count_increment (c : Counters String) (k : String) (v : UInt64) :
    count (increment c k v).map k = count c.map k + v := by
  rw [increment, count_insert, if_pos rfl]

private theorem count_decrement {c : Counters String} {k : String} (h : count c.map k ≠ 0)
    (v : UInt64) : count (decrement c k v).map k = count c.map k - v := by
  cases hk : c.map[k]? with
  | none => simp [count, hk] at h
  | some current => simp [decrement, count, hk]

end Counters

section Schedule

/-- The head may be scheduled. -/
def View.Fits (M : Multiset (UInt64 × ActiveRequest)) (requests tokens cost : UInt64) : Prop :=
  M.card < 2 ∧ requests < 2 ∧ saturatingAdd (M.map fun e => e.2.tokenCost).sum cost ≤ 100 ∧
    saturatingAdd tokens cost ≤ 100

theorem View.candidate_iff (h : View s next queue M requests tokens) {c t : String} :
    Candidate narrow s c t ↔ c = "batch" ∧ t = "a" ∧ ∃ q, queue.head? = some q ∧
      requests < 2 ∧ saturatingAdd (M.map fun e => e.2.tokenCost).sum q.tokenCost ≤ 100 ∧
      saturatingAdd tokens q.tokenCost ≤ 100 := by
  have hactive : s.activeTokens = (M.map fun e => e.2.tokenCost).sum := by
    rw [← h.active_eq]
    rfl
  constructor
  · rintro ⟨serviceClass, tenant, head, hcandidate⟩
    have hhead := hcandidate.head_eq
    rw [h.queue_eq] at hhead
    split_ifs at hhead with hct
    · obtain ⟨rfl, rfl⟩ := hct
      obtain rfl : batchClass = serviceClass := by
        simpa [narrow_class] using hcandidate.class_eq
      have hroom := hcandidate.class_room
      obtain ⟨hglobal, hclass, -, -⟩ := headFits_iff.mp hcandidate.fits
      rw [h.classRequests] at hroom
      rw [hactive] at hglobal
      rw [h.classTokens] at hclass
      exact ⟨rfl, rfl, head, hhead, hroom, hglobal, hclass⟩
    · cases hhead
  · rintro ⟨rfl, rfl, q, hq, hroom, hglobal, hclass⟩
    refine ⟨batchClass, batchTenant, q, narrow_class, narrow_tenant, by simpa [h.queue_eq] using hq,
      h.classRequests ▸ hroom, headFits_iff.mpr ⟨hactive ▸ hglobal, h.classTokens ▸ hclass,
        h.tenantRequests ▸ hroom, h.tenantTokens ▸ hclass⟩⟩

theorem View.size_eq (h : View s next queue M requests tokens) :
    s.active.size = M.card := by
  rw [← card_entries, h.active_eq]

theorem View.nextCandidate_eq_some {q : QueuedRequest}
    (h : View s next [q] M requests tokens) (hfits : View.Fits M requests tokens q.tokenCost) :
    nextCandidate narrow s = some ("batch", "a") := by
  obtain ⟨hcard, hfits⟩ := hfits
  have hroom : s.active.size < narrow.policy.maxActiveRequests.toNat := h.size_eq ▸ hcard
  rw [nextCandidate, if_pos hroom]
  have hcandidate : Candidate narrow s "batch" "a" :=
    h.candidate_iff.mpr ⟨rfl, rfl, q, rfl, hfits⟩
  cases hchoice : chooseCandidate narrow s with
  | none =>
    exact absurd hcandidate (not_candidate_of_chooseCandidate_eq_none h.sound.known hchoice _ _)
  | some candidate =>
    obtain ⟨c, t⟩ := candidate
    obtain ⟨rfl, rfl, -⟩ := h.candidate_iff.mp (chooseCandidate_spec h.sound.known hchoice).1
    rfl

theorem View.nextCandidate_eq_none (h : View s next queue M requests tokens)
    (hno : ∀ q, queue.head? = some q → ¬saturatingAdd tokens q.tokenCost ≤ 100) :
    nextCandidate narrow s = none := by
  unfold nextCandidate
  split_ifs with hroom
  · cases hchoice : chooseCandidate narrow s with
    | none => rfl
    | some candidate =>
      obtain ⟨c, t⟩ := candidate
      obtain ⟨-, -, q, hq, -, -, hfits⟩ :=
        h.candidate_iff.mp (chooseCandidate_spec h.sound.known hchoice).1
      exact absurd hfits (hno q hq)
  · rfl

end Schedule

section Sections

theorem View.queue_setQueue (h : View s next queue M requests tokens)
    (queue' : List QueuedRequest) (c t : String) :
    queueOf (setQueue s.waiting "batch" "a" queue') c t =
      if c = "batch" ∧ t = "a" then queue' else [] := by
  rw [queueOf_setQueue]
  by_cases hct : c = "batch" ∧ t = "a"
  · obtain ⟨rfl, rfl⟩ := hct
    simp
  · have hne : ¬("batch" = c ∧ "a" = t) := fun heq => hct ⟨heq.1.symm, heq.2.symm⟩
    rw [if_neg hne, h.queue_eq, if_neg hct, if_neg hct]

private theorem admitRequest_eq {cost : UInt64} (sender : ℕ) (hcost : cost ≠ 0)
    (hle : cost ≤ 100) (hdraining : s.draining = false) (htotal : queuedRequests s < 8)
    (htenant : count s.tenantQueuedRequests.map "a" < 8) :
    admitRequest narrow s (some "a") cost 0 0 sender =
      (.ok (enqueueLocked narrow s batchTenant cost 0 0 sender).1,
        (enqueueLocked narrow s batchTenant cost 0 0 sender).2) := by
  have hclass : narrow.classes[batchTenant.serviceClass]? = some batchClass := narrow_class
  have hlimit : ¬(100 : UInt64) < cost := UInt64.not_lt.mpr hle
  simp only [admitRequest, narrow_tenant, hclass, admitTenant]
  rw [if_neg (by simp [hcost, batchTenant, hlimit]),
    if_neg (by simp [narrow, batchClass, batchTenant, hlimit]),
    if_neg (by simp [hdraining]), if_neg (by simp [batchClass]), if_neg]
  rintro (hfull | hfull)
  · exact UInt64.not_le.mpr htotal hfull
  · exact UInt64.not_le.mpr htenant hfull

/-- The queue counters stay below the limits while the queue is short. -/
theorem View.queued_lt (h : View s next queue M requests tokens) (hlength : queue.length < 8) :
    queuedRequests s < 8 ∧ count s.tenantQueuedRequests.map "a" < 8 := by
  have hcard : (waitingEntries s.waiting).card = queue.length := by
    rw [waitingEntries_of_single h.queue_eq, Multiset.card_map, Multiset.coe_card]
  have htracks := h.sound.requests_tracks
  have htotal : queuedRequests s = ((waitingEntries s.waiting).map fun _ => (1 : UInt64)).sum :=
    htracks.total_eq
  constructor
  · rw [htotal, UInt64.lt_iff_toNat_lt, toNat_sum_one, hcard]
    exact (Nat.mod_le _ _).trans_lt hlength
  · rw [htracks.count_eq, UInt64.lt_iff_toNat_lt, toNat_tally]
    have hle := natTally_one_le_card WaitingEntry.tenant (waitingEntries s.waiting) "a"
    have hmod := Nat.mod_le
      (natTally WaitingEntry.tenant (fun _ => 1) (waitingEntries s.waiting) "a")
      (2 ^ 64)
    rw [hcard] at hle
    exact (hmod.trans hle).trans_lt hlength

/-- A request is enqueued behind those that wait. -/
theorem View.admitRequest (h : View s next queue M requests tokens) {cost : UInt64} (sender : ℕ)
    (hlength : queue.length < 8) (hcost : cost ≠ 0) (hle : cost ≤ 100) : ∃ s₁,
    admitRequest narrow s (some "a") cost 0 0 sender = (.ok (saturatingAdd next 1), s₁) ∧
    View s₁ (saturatingAdd next 1) (queue ++ [⟨saturatingAdd next 1, cost, 0, 0, sender⟩]) M
      requests tokens := by
  obtain ⟨htotal, htenant⟩ := h.queued_lt hlength
  have hadmit := admitRequest_eq sender hcost hle h.not_draining htotal htenant
  obtain ⟨cv, tv, adm, hspec, -, -⟩ := enqueueLocked_spec narrow s batchTenant cost 0 0 sender
  rw [hspec, h.next_eq] at hadmit
  refine ⟨_, hadmit, rfl, h.not_draining, ?_, ?_, h.active_eq, h.classRequests, h.classTokens,
    h.tenantRequests, h.tenantTokens⟩
  · exact h.sound.push (q := ⟨saturatingAdd next 1, cost, 0, 0, sender⟩)
      (show narrow.tenants[batchTenant.id]? = some batchTenant from narrow_tenant) narrow_class
      ⟨batchTenant, batchClass, narrow_tenant, rfl, narrow_class, hle, hle, hle⟩ h.not_draining
      htotal htenant
  · intro c t
    have hqueue := h.queue_eq "batch" "a"
    rw [if_pos ⟨rfl, rfl⟩] at hqueue
    simp only [batchTenant, hqueue]
    exact h.queue_setQueue _ c t

/-- The entry of the tenant's active request. -/
def activeEntry (q : QueuedRequest) : UInt64 × ActiveRequest :=
  (q.ticket, ⟨"a", "batch", q.tokenCost, q.cancellation⟩)

/-- A head that is granted becomes active, in place of an entry with the same ticket. -/
theorem View.grant {q : QueuedRequest} (h : View s next [q] M requests tokens) : ∃ s₁,
    grantHead narrow s "batch" "a" 0 = some (q, s₁) ∧
    View s₁ next [] (activeEntry q ::ₘ M.filter fun e => e.1 ≠ q.ticket)
      (requests + 1) (tokens + q.tokenCost) := by
  have hqueue : queueOf s.waiting "batch" "a" = [q] := by simp [h.queue_eq]
  obtain ⟨⟨q', s₁⟩, hgrant⟩ := Option.isSome_iff_exists.mp
    (grantHead_isSome 0 hqueue (show (narrow.classes["batch"]?).isSome by simp [narrow_class])
      (by simp [narrow_tenant]))
  obtain ⟨rest, serviceClass, tenant, hqueue', hclass, htenant, rfl⟩ := grantHead_spec hgrant
  obtain ⟨rfl, rfl⟩ : q = q' ∧ [] = rest := by simpa [hqueue] using hqueue'
  refine ⟨_, hgrant, h.next_eq, h.not_draining, h.sound.remove [] hqueue,
    h.queue_setQueue [], ?_, ?_, ?_, ?_, ?_⟩
  · simp only [activate, entries_insert, entries_erase, h.active_eq, activeEntry]
  · simp only [activate, count_increment, h.classRequests]
  · simp only [activate, count_increment, h.classTokens]
  · simp only [activate, count_increment, h.tenantRequests]
  · simp only [activate, count_increment, h.tenantTokens]

/-- The entry under a ticket is released. -/
theorem View.release (h : View s next queue M requests tokens) {q : QueuedRequest}
    (hmem : activeEntry q ∈ M) (hrequests : requests ≠ 0) (htokens : tokens ≠ 0) : ∃ s₁,
    releaseActiveLocked s q.ticket = some (⟨"a", "batch", q.tokenCost, q.cancellation⟩, s₁) ∧
    View s₁ next queue (M.filter fun e => e.1 ≠ q.ticket) (requests - 1)
      (tokens - q.tokenCost) := by
  have hactive : s.active[q.ticket]? = some ⟨"a", "batch", q.tokenCost, q.cancellation⟩ := by
    rw [← mem_entries, h.active_eq]
    exact hmem
  cases hrelease : releaseActiveLocked s q.ticket with
  | none => simp [releaseActiveLocked_eq_none.mp hrelease] at hactive
  | some result =>
    obtain ⟨a, s₁⟩ := result
    obtain ⟨ha, rfl⟩ := releaseActiveLocked_spec hrelease
    obtain rfl := Option.some.inj (hactive.symm.trans ha)
    refine ⟨_, rfl, h.next_eq, h.not_draining, h.sound, h.queue_eq, ?_, ?_, ?_, ?_, ?_⟩
    · rw [entries_erase, h.active_eq]
    · rw [count_decrement (by rwa [h.classRequests]), h.classRequests]
    · rw [count_decrement (by rwa [h.classTokens]), h.classTokens]
    · rw [count_decrement (by rwa [h.tenantRequests]), h.tenantRequests]
    · rw [count_decrement (by rwa [h.tenantTokens]), h.tenantTokens]

end Sections

/-- A system of the run. -/
structure At (sys : System) (lock : Lock) (channels : List Channel) (next : UInt64)
    (queue : List QueuedRequest) (M : Multiset (UInt64 × ActiveRequest))
    (requests tokens : UInt64) : Prop where
  lock_eq : sys.lock = lock
  channels_eq : sys.channels = channels
  view : View sys.state next queue M requests tokens

variable {sys : System} {channels : List Channel}

section Steps

/-- A request joins the queue. -/
theorem At.enqueue (h : At sys .free channels next queue M requests tokens) (cost : UInt64)
    (hlength : queue.length < 8) (hcost : cost ≠ 0) (hle : cost ≤ 100) : ∃ sys₁,
    step narrow sys (.admitRequest (some "a") cost 0 0) = some sys₁ ∧
    At sys₁ (.scheduling false) (channels ++ [{ ticket := saturatingAdd next 1, tenant := "a" }])
      (saturatingAdd next 1) (queue ++ [⟨saturatingAdd next 1, cost, 0, 0, channels.length⟩]) M
      requests tokens := by
  obtain ⟨s₁, hadmit, hview⟩ := h.view.admitRequest channels.length hlength hcost hle
  refine ⟨{ sys with
    state := s₁
    lock := .scheduling false
    channels := channels ++ [{ ticket := saturatingAdd next 1, tenant := "a" }]
    log := sys.log ++ [.enqueued (saturatingAdd next 1) "a"] }, ?_, rfl, rfl, hview⟩
  simp [step, h.lock_eq, h.channels_eq, hadmit]

/-- The section ends when the head does not fit. -/
theorem At.unlock {fromRelease : Bool}
    (h : At sys (.scheduling fromRelease) channels next queue M requests tokens)
    (hno : ∀ q, queue.head? = some q → ¬saturatingAdd tokens q.tokenCost ≤ 100) : ∃ sys₁,
    step narrow sys .unlock = some sys₁ ∧ At sys₁ .free channels next queue M requests tokens := by
  refine ⟨{ sys with
    lock := .free
    idleNotifications := sys.idleNotifications +
      if fromRelease ∧ sys.state.active.isEmpty then 1 else 0 }, ?_, rfl, h.channels_eq, h.view⟩
  simp only [step, h.lock_eq, h.view.nextCandidate_eq_none hno, if_true]

theorem setPhase_append_self (channel : Channel) (phase : Phase) :
    setPhase (channels ++ [channel]) channels.length phase =
      channels ++ [{ channel with phase }] := by
  induction channels with
  | nil => rfl
  | cons first rest ih => exact congrArg (first :: ·) ih

/-- A request that fits is admitted at once. -/
theorem At.admitted (h : At sys .free channels next [] M requests tokens) (cost : UInt64)
    (hcost : cost ≠ 0) (hle : cost ≤ 100) (hfits : View.Fits M requests tokens cost) : ∃ sys₁,
    Run (stepRel (step narrow)) sys [.admitRequest (some "a") cost 0 0, .schedule 0, .unlock] sys₁ ∧
    At sys₁ .free
      (channels ++ [{ ticket := saturatingAdd next 1, tenant := "a", phase := .sentPermit }])
      (saturatingAdd next 1) []
      (activeEntry ⟨saturatingAdd next 1, cost, 0, 0, channels.length⟩ ::ₘ
        M.filter fun e => e.1 ≠ saturatingAdd next 1) (requests + 1) (tokens + cost) := by
  obtain ⟨sys₁, henqueue, h₁⟩ := h.enqueue cost (by decide) hcost hle
  obtain ⟨s₂, hgrant, hview⟩ := h₁.view.grant
  have hschedule : step narrow sys₁ (.schedule 0) = some { sys₁ with
      state := s₂
      channels :=
        channels ++ [{ ticket := saturatingAdd next 1, tenant := "a", phase := .sentPermit }]
      log := sys₁.log ++ [.granted (saturatingAdd next 1) "a", .sent channels.length] } := by
    simp [step, h₁.lock_eq, h₁.view.nextCandidate_eq_some hfits, hgrant, sendPermit, phaseOf,
      h₁.channels_eq, setPhase_append_self]
  obtain ⟨sys₃, hunlock, h₃⟩ := At.unlock (show At { sys₁ with
      state := s₂
      channels :=
        channels ++ [{ ticket := saturatingAdd next 1, tenant := "a", phase := .sentPermit }]
      log := sys₁.log ++ [.granted (saturatingAdd next 1) "a", .sent channels.length] }
      _ _ _ _ _ _ _ from ⟨h₁.lock_eq, rfl, hview⟩) (by simp)
  exact ⟨sys₃, Run.of_foldlM (by simp [henqueue, hschedule, hunlock]), h₃⟩

/-- A permit that was never received is dropped and released. -/
theorem At.dropped (h : At sys .free channels next [] M requests tokens) (id : ℕ)
    (channel : Channel) (q : QueuedRequest) (hchannel : channels[id]? = some channel)
    (hphase : channel.phase = .sentPermit) (hticket : channel.ticket = q.ticket)
    (hmem : activeEntry q ∈ M) (hrequests : requests ≠ 0) (htokens : tokens ≠ 0) :
    ∃ sys₁ channels₁, channels₁.length = channels.length ∧
    Run (stepRel (step narrow)) sys [.dropReceiver id, .release id, .unlock] sys₁ ∧
    At sys₁ .free channels₁ next [] (M.filter fun e => e.1 ≠ q.ticket) (requests - 1)
      (tokens - q.tokenCost) := by
  obtain ⟨s₁, hrelease, hview⟩ := h.view.release hmem hrequests htokens
  have hdrop : step narrow sys (.dropReceiver id) =
      some { sys with channels := setPhase channels id .dropping } := by
    simp [step, h.channels_eq, hchannel, hphase]
  have hdropping : (setPhase channels id .dropping)[id]? =
      some { channel with phase := .dropping } := by
    simp [setPhase, hchannel]
  have hreleased : step narrow { sys with channels := setPhase channels id .dropping }
      (.release id) = some { sys with
        state := s₁
        lock := .scheduling true
        channels := setPhase (setPhase channels id .dropping) id .closed
        log := sys.log ++ [.released q.ticket] } := by
    simp [step, h.lock_eq, hdropping, hticket, hrelease]
  obtain ⟨sys₃, hunlock, h₃⟩ := At.unlock (show At { sys with
        state := s₁
        lock := .scheduling true
        channels := setPhase (setPhase channels id .dropping) id .closed
        log := sys.log ++ [.released q.ticket] } _ _ _ _ _ _ _ from ⟨rfl, rfl, hview⟩) (by simp)
  exact ⟨sys₃, _, by simp [setPhase], Run.of_foldlM (by simp [hdrop, hreleased, hunlock]), h₃⟩

/-- One request is admitted and released again. -/
def cycle (id : ℕ) : List Label :=
  [.admitRequest (some "a") 1 0 0, .schedule 0, .unlock, .dropReceiver id, .release id, .unlock]

private theorem saturatingAdd_ofNat {n : ℕ} (hn : n + 1 < 2 ^ 64) :
    saturatingAdd (.ofNat n) 1 = .ofNat (n + 1) := by
  rw [← UInt64.toNat_inj, toNat_saturatingAdd] <;>
    rw [UInt64.toNat_ofNat_of_lt' (by simpa [UInt64.size] using by omega)]
  · rw [UInt64.toNat_ofNat_of_lt' (by simpa [UInt64.size] using by omega)]
    rfl
  · exact hn

theorem At.cycle {n : ℕ} (h : At sys .free channels (.ofNat n) [] 0 0 0)
    (hlength : channels.length = n) (hn : n + 1 < 2 ^ 64) : ∃ sys₁ channels₁,
    channels₁.length = n + 1 ∧ Run (stepRel (step narrow)) sys (cycle n) sys₁ ∧
    At sys₁ .free channels₁ (.ofNat (n + 1)) [] 0 0 0 := by
  obtain ⟨sys₁, hrun₁, h₁⟩ := h.admitted 1 (by decide) (by decide)
    ⟨by decide, by decide, by decide, by decide⟩
  rw [saturatingAdd_ofNat hn] at h₁
  obtain ⟨sys₂, channels₂, hlength₂, hrun₂, h₂⟩ := h₁.dropped n
    { ticket := .ofNat (n + 1), tenant := "a", phase := .sentPermit }
    ⟨.ofNat (n + 1), 1, 0, 0, channels.length⟩
    (by simp [← hlength]) rfl rfl (by simp) (by decide) (by decide)
  refine ⟨sys₂, channels₂, by simp [hlength₂, hlength], Run.append hrun₁ hrun₂, ?_⟩
  have hnone : (activeEntry ⟨.ofNat (n + 1), 1, 0, 0, channels.length⟩ ::ₘ
      (0 : Multiset (UInt64 × ActiveRequest)).filter fun e => e.1 ≠ .ofNat (n + 1)).filter
      (fun e => e.1 ≠ .ofNat (n + 1)) = 0 := by
    simp [activeEntry]
  rw [hnone] at h₂
  simpa using h₂

/-- The first `n` requests come and go one after the other. -/
theorem at_of_cycles (n : ℕ) (hn : n < 2 ^ 64) : ∃ sys channels,
    channels.length = n ∧ Reaches narrow ((List.range n).flatMap cycle) sys ∧
    At sys .free channels (.ofNat n) [] 0 0 0 := by
  induction n with
  | zero =>
    exact ⟨{}, [], rfl, .nil _, rfl, rfl, rfl, rfl, .empty, by simp, rfl, rfl, rfl, rfl, rfl⟩
  | succ n ih =>
    obtain ⟨sys, channels, hlength, hrun, h⟩ := ih (by omega)
    obtain ⟨sys₁, channels₁, hlength₁, hrun₁, h₁⟩ := h.cycle hlength hn
    refine ⟨sys₁, channels₁, hlength₁, ?_, h₁⟩
    rw [List.range_succ, List.flatMap_append, List.flatMap_singleton]
    exact Run.append hrun hrun₁

end Steps

/-- Two requests that share the last ticket, of which the first is released, and a third
that finds its tokens gone. -/
def collision (id : ℕ) : List Label :=
  [.admitRequest (some "a") 99 0 0, .schedule 0, .unlock,
    .admitRequest (some "a") 1 0 0, .schedule 0, .unlock,
    .dropReceiver id, .release id, .unlock, .admitRequest (some "a") 50 0 0, .unlock]

/-- After `2 ^ 64 - 2` requests that came and went, the next two share a ticket. One of them
being released, a third waits with no active request, though it fits every limit. -/
theorem not_work_conserved_collision : ∃ sys,
    Reaches narrow ((List.range (2 ^ 64 - 2)).flatMap cycle ++ collision (2 ^ 64 - 2)) sys ∧
    sys.lock = .free ∧ waitingList sys.state.waiting ≠ [] ∧ sys.state.active.size = 0 ∧
    sys.state.active.size ≠ narrow.policy.maxActiveRequests.toNat ∧
    ∃ head, FitsNow narrow sys.state "batch" "a" batchClass batchTenant head := by
  obtain ⟨sys₀, channels, hlength, hrun₀, h₀⟩ := at_of_cycles (2 ^ 64 - 2) (by decide)
  -- The last ticket is handed out twice.
  have hlast : saturatingAdd (.ofNat (2 ^ 64 - 2)) 1 = u64Max := by decide
  have hagain : saturatingAdd u64Max 1 = u64Max := by decide
  obtain ⟨sys₁, hrun₁, h₁⟩ := h₀.admitted 99 (by decide) (by decide)
    ⟨by decide, by decide, by decide, by decide⟩
  have hM₁ : (activeEntry ⟨u64Max, 99, 0, 0, channels.length⟩ ::ₘ
      (0 : Multiset (UInt64 × ActiveRequest)).filter fun e => e.1 ≠ u64Max) =
      {(u64Max, ⟨"a", "batch", 99, 0⟩)} := by simp [activeEntry]
  rw [hlast, hM₁] at h₁
  obtain ⟨sys₂, hrun₂, h₂⟩ := h₁.admitted 1 (by decide) (by decide)
    ⟨by decide, by decide, by decide, by decide⟩
  -- The second request takes the place of the first in the active map.
  rw [hagain] at h₂
  obtain ⟨sys₃, channels₃, -, hrun₃, h₃⟩ := h₂.dropped (2 ^ 64 - 2)
    { ticket := u64Max, tenant := "a", phase := .sentPermit } ⟨u64Max, 1, 0, 0, 0⟩
    (by rw [List.append_assoc, List.getElem?_append_right hlength.le, hlength]; rfl) rfl rfl
    (by simp [activeEntry]) (by decide) (by decide)
  obtain ⟨sys₄, henqueue, h₄⟩ := h₃.enqueue 50 (by decide) (by decide) (by decide)
  obtain ⟨sys₅, hunlock, h₅⟩ := h₄.unlock (by rintro q ⟨⟩; simp only; decide)
  have hrun₄ : Run (stepRel (step narrow)) sys₃ [.admitRequest (some "a") 50 0 0, .unlock] sys₅ :=
    Run.of_foldlM (by simp [henqueue, hunlock])
  have hidle : sys₅.state.active.size = 0 := by
    rw [h₅.view.size_eq]
    simp [activeEntry]
  have hempty : sys₅.state.active.toList = [] := by
    rw [← List.length_eq_zero_iff, TreeMap.length_toList]
    exact hidle
  have hqueue := h₅.view.queue_eq "batch" "a"
  rw [if_pos ⟨rfl, rfl⟩] at hqueue
  refine ⟨sys₅, Run.append hrun₀ (Run.append hrun₁ (Run.append hrun₂ (Run.append hrun₃ hrun₄))),
    h₅.lock_eq, ?_, hidle, by rw [hidle]; decide, _, narrow_class, narrow_tenant,
    by rw [queue_eq_queueOf, hqueue]; rfl, ?_, ?_, ?_, ?_, ?_⟩
  · intro hnil
    have hwaiting : waitingEntries sys₅.state.waiting = 0 := by
      rw [← coe_waitingList, hnil]
      rfl
    have hmem : ∀ q ∈ queueOf sys₅.state.waiting "batch" "a", False := by
      intro q hq
      have := mem_waitingEntries.mpr (show (⟨"batch", "a", q⟩ : WaitingEntry).request ∈ _ from hq)
      simp [hwaiting] at this
    simp [hqueue] at hmem
  · have htokens : sys₅.state.exactActiveTokens = 0 := by
      simp [TrafficState.exactActiveTokens, hempty]
    rw [htokens]
    change 0 + 50 ≤ 100
    decide
  all_goals
    simp only [TrafficState.activeInClass, TrafficState.activeOfTenant, activeCost, hempty]
    decide

end Locus.Traffic
