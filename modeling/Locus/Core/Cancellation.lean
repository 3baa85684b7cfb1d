import Locus.Lib.Progress

/-!
# The cancellation token

A token is a flag with a `Notify` that the calls of `cancelled` sleep on. `cancel` raises the
flag and then wakes the sleepers, in two steps. `cancelled` prepares to sleep before it reads
the flag, so no call sleeps through a cancellation. Any number of calls, made through any
clones of the token, run side by side, and a call of `cancelled` may be dropped at any time.
-/

namespace Locus.Core

open Locus.Lib

/-- `wakes` is how often `notify_waiters` was called. A `Notified` future is woken by the
calls made after it was created, polled or not. -/
structure CancellationState where
  cancelled : Bool := false
  wakes : ℕ := 0

/-- Where a call stands. -/
inductive TokenCall
  /-- `cancel` -/
  | swapping
  | notifying
  | cancelReturned
  /-- `cancelled`, with what the `Notify` had counted when `notified` was called. -/
  | registering
  | checking (seen : ℕ)
  | awaiting (seen : ℕ)
  | observed
  | dropped
  deriving DecidableEq

/-- The next step of a call. -/
def TokenCall.step (state : CancellationState) : TokenCall → Option (CancellationState × TokenCall)
  | .swapping =>
    if state.cancelled then some (state, .cancelReturned)
    else some ({ state with cancelled := true }, .notifying)
  | .notifying => some ({ state with wakes := state.wakes + 1 }, .cancelReturned)
  | .registering => some (state, .checking state.wakes)
  | .checking seen => if state.cancelled then some (state, .observed) else some (state, .awaiting seen)
  | .awaiting seen => if seen < state.wakes then some (state, .registering) else none
  | .cancelReturned | .observed | .dropped => none

/-- Whether a call is one of `cancelled` that has not returned. -/
def TokenCall.waits : TokenCall → Bool
  | .registering | .checking _ | .awaiting _ => true
  | _ => false

/-- Whether there is nothing left to do for a call. -/
def TokenCall.returned : TokenCall → Bool
  | .cancelReturned | .observed | .dropped => true
  | _ => false

/-- A token with the calls made on its clones. -/
structure CancellationToken where
  state : CancellationState := {}
  calls : List TokenCall := []

inductive TokenAct
  | cancel
  | cancelled
  | advance (call : ℕ)
  | drop (call : ℕ)
  deriving DecidableEq

def CancellationToken.step (token : CancellationToken) : TokenAct → Option CancellationToken
  | .cancel => some { token with calls := token.calls ++ [.swapping] }
  | .cancelled => some { token with calls := token.calls ++ [.registering] }
  | .advance index =>
    token.calls[index]?.bind fun call =>
      (call.step token.state).map fun next =>
        { state := next.1, calls := token.calls.set index next.2 }
  | .drop index =>
    token.calls[index]?.bind fun call =>
      if call.waits then some { token with calls := token.calls.set index .dropped } else none

/-- Whether an act makes a new call. -/
def TokenAct.isCall : TokenAct → Bool
  | .cancel | .cancelled => true
  | _ => false

/-- The calls of `cancel` that raised the flag and are still to wake the sleepers. -/
def TokenCall.wakesPending : TokenCall → ℕ
  | .notifying => 1
  | _ => 0

/-- What a call may have come to while the flag is in this state. -/
def TokenCall.Agrees (state : CancellationState) : TokenCall → Prop
  | .checking seen => seen ≤ state.wakes
  | .awaiting seen => seen = 0
  | .notifying | .observed | .cancelReturned => state.cancelled
  | _ => True

/-- The sleepers are woken once if the flag is raised, and not before. A call that sleeps
prepared to do so before they were. -/
structure CancellationToken.Sound (token : CancellationToken) : Prop where
  wakes : token.state.wakes + totalWeight TokenCall.wakesPending token.calls =
    if token.state.cancelled then 1 else 0
  calls : ∀ call ∈ token.calls, call.Agrees token.state

/-- What a call has come to stays possible as the token goes on. -/
theorem TokenCall.Agrees.mono {state next : CancellationState} {call : TokenCall}
    (h : call.Agrees state) (hcancelled : state.cancelled → next.cancelled)
    (hwakes : state.wakes ≤ next.wakes) : call.Agrees next := by
  cases call with
  | checking seen => exact Nat.le_trans h hwakes
  | notifying | observed | cancelReturned => exact hcancelled h
  | awaiting seen => exact h
  | swapping | registering | dropped => trivial

/-- What one step of a call changes. -/
theorem TokenCall.step_spec {state next : CancellationState} {call after : TokenCall}
    (hstep : call.step state = some (next, after))
    (hwakes : state.cancelled = false → state.wakes = 0) (hcall : call.Agrees state) :
    after.Agrees next ∧ (state.cancelled → next.cancelled) ∧ state.wakes ≤ next.wakes ∧
      next.wakes + after.wakesPending + (if state.cancelled then 1 else 0) =
        state.wakes + call.wakesPending + (if next.cancelled then 1 else 0) := by
  cases call with
  | swapping =>
    simp only [step] at hstep
    split at hstep <;> cases hstep <;> simp_all [Agrees, wakesPending]
  | notifying =>
    cases hstep
    simp_all [Agrees, wakesPending]
  | registering =>
    cases hstep
    simp [Agrees, wakesPending]
  | checking seen =>
    simp only [step] at hstep
    split at hstep <;> cases hstep <;> simp_all [Agrees, wakesPending]
  | awaiting seen =>
    simp only [step] at hstep
    split at hstep <;> cases hstep
    simp [Agrees, wakesPending]
  | cancelReturned | observed | dropped => cases hstep

/-- The sleepers are not woken while the flag is down. -/
theorem CancellationToken.Sound.wakes_eq_zero {token : CancellationToken} (h : token.Sound)
    (hcancelled : token.state.cancelled = false) : token.state.wakes = 0 := by
  have hwakes := h.wakes
  simp only [hcancelled, Bool.false_eq_true, if_false] at hwakes
  omega

/-- Every step keeps the token sound. -/
theorem CancellationToken.Sound.step {token next : CancellationToken} {act : TokenAct}
    (h : token.Sound) (hstep : token.step act = some next) : next.Sound := by
  have hwakes := h.wakes
  cases act with
  | cancel | cancelled =>
    cases hstep
    refine ⟨by simpa [TokenCall.wakesPending] using hwakes, fun call hcall => ?_⟩
    rcases List.mem_append.mp hcall with hold | hnew
    · exact h.calls call hold
    · rw [List.mem_singleton.mp hnew]
      trivial
  | advance index =>
    obtain ⟨call, hcall, hstep⟩ := Option.bind_eq_some_iff.mp hstep
    obtain ⟨⟨state, after⟩, hafter, rfl⟩ := Option.map_eq_some_iff.mp hstep
    have hagrees := h.calls call (List.mem_of_getElem? hcall)
    obtain ⟨hnew, hcancelled, hmore, hbalance⟩ :=
      TokenCall.step_spec hafter h.wakes_eq_zero hagrees
    have htotal := totalWeight_set TokenCall.wakesPending hcall after
    refine ⟨by dsimp only; omega, fun other hother => ?_⟩
    rcases List.mem_or_eq_of_mem_set hother with hold | rfl
    · exact (h.calls other hold).mono hcancelled hmore
    · exact hnew
  | drop index =>
    obtain ⟨call, hcall, hstep⟩ := Option.bind_eq_some_iff.mp hstep
    obtain ⟨hwaits, hstep⟩ := Option.ite_none_right_eq_some.mp hstep
    cases hstep
    have hpending : call.wakesPending = 0 := by
      cases call <;> first | rfl | cases hwaits
    have htotal := totalWeight_set TokenCall.wakesPending hcall .dropped
    have hdropped : TokenCall.dropped.wakesPending = 0 := rfl
    refine ⟨by dsimp only; omega, fun other hother => ?_⟩
    rcases List.mem_or_eq_of_mem_set hother with hold | rfl
    · exact h.calls other hold
    · trivial

/-- The steps that a call can still take once the flag is raised. -/
def TokenCall.work : TokenCall → ℕ
  | .awaiting _ => 3
  | .registering => 2
  | .swapping | .notifying | .checking _ => 1
  | .cancelReturned | .observed | .dropped => 0

/-- The steps that all calls can still take once the flag is raised. -/
def CancellationToken.work (token : CancellationToken) : ℕ :=
  totalWeight TokenCall.work token.calls

/-- A step of a call under a raised flag brings the call on. -/
theorem TokenCall.step_work {state next : CancellationState} {call after : TokenCall}
    (hcancelled : state.cancelled) (hstep : call.step state = some (next, after)) :
    next.cancelled ∧ after.work < call.work := by
  cases call with
  | swapping | checking seen =>
    simp only [step, hcancelled, if_true] at hstep
    cases hstep
    exact ⟨hcancelled, by simp [work]⟩
  | notifying | registering =>
    cases hstep
    exact ⟨hcancelled, by simp [work]⟩
  | awaiting seen =>
    simp only [step] at hstep
    split at hstep <;> cases hstep
    exact ⟨hcancelled, by simp [work]⟩
  | cancelReturned | observed | dropped => cases hstep

/-- A step under a raised flag that makes no new call brings a call on. -/
theorem CancellationToken.step_work {token next : CancellationToken} {act : TokenAct}
    (hcancelled : token.state.cancelled) (hact : act.isCall = false)
    (hstep : token.step act = some next) : next.state.cancelled ∧ next.work < token.work := by
  cases act with
  | cancel | cancelled => cases hact
  | advance index =>
    obtain ⟨call, hcall, hstep⟩ := Option.bind_eq_some_iff.mp hstep
    obtain ⟨⟨state, after⟩, hafter, rfl⟩ := Option.map_eq_some_iff.mp hstep
    obtain ⟨hkept, hless⟩ := TokenCall.step_work hcancelled hafter
    have htotal := totalWeight_set TokenCall.work hcall after
    refine ⟨hkept, ?_⟩
    simp only [work]
    omega
  | drop index =>
    obtain ⟨call, hcall, hstep⟩ := Option.bind_eq_some_iff.mp hstep
    obtain ⟨hwaits, hstep⟩ := Option.ite_none_right_eq_some.mp hstep
    cases hstep
    have hwork : 0 < call.work := by
      cases call <;> simp_all [TokenCall.waits, TokenCall.work]
    have htotal := totalWeight_set TokenCall.work hcall .dropped
    have hdropped : TokenCall.dropped.work = 0 := rfl
    refine ⟨hcancelled, ?_⟩
    simp only [work]
    omega

/-- Under a raised flag some call can go on as long as one has not returned. If it is asleep,
it or the call that is to wake it can. -/
theorem CancellationToken.Sound.exists_step {token : CancellationToken} (h : token.Sound)
    (hcancelled : token.state.cancelled) {call : TokenCall} (hcall : call ∈ token.calls)
    (hopen : call.returned = false) : ∃ index next, token.step (.advance index) = some next := by
  have hgoes : ∀ (call : TokenCall) next, call ∈ token.calls → call.step token.state = some next →
      ∃ index next, token.step (.advance index) = some next := by
    intro call next hcall hnext
    obtain ⟨index, hindex⟩ := List.mem_iff_getElem?.mp hcall
    refine ⟨index, { state := next.1, calls := token.calls.set index next.2 }, ?_⟩
    simp only [CancellationToken.step, hindex, Option.bind_some, hnext, Option.map_some]
  cases call with
  | swapping => exact hgoes _ _ hcall (if_pos hcancelled)
  | notifying | registering => exact hgoes _ _ hcall rfl
  | checking seen => exact hgoes _ _ hcall (if_pos hcancelled)
  | awaiting seen =>
    have hseen : seen = 0 := h.calls _ hcall
    have hwakes := h.wakes
    simp only [hcancelled, if_true] at hwakes
    by_cases hwoken : 0 < token.state.wakes
    · exact hgoes _ _ hcall (if_pos (hseen ▸ hwoken))
    · obtain ⟨waker, hwaker, hpending⟩ : ∃ waker ∈ token.calls, 0 < waker.wakesPending := by
        by_contra hnone
        have hzero : totalWeight TokenCall.wakesPending token.calls ≤
            totalWeight (fun _ => 0) token.calls :=
          totalWeight_le _ fun waker hwaker =>
            Nat.le_of_not_lt fun hpending => hnone ⟨waker, hwaker, hpending⟩
        simp [totalWeight] at hzero hwakes
        omega
      cases waker with
      | notifying => exact hgoes _ _ hwaker rfl
      | swapping | cancelReturned | registering | checking _ | awaiting _ | observed | dropped =>
        cases hpending
  | cancelReturned | observed | dropped => cases hopen

/-- In every interleaving, no call of `cancelled` returns before the flag is raised and every
call of `cancel` returns after. Once it is raised, the calls that were made take no more steps
than there is work left, whichever of them go on or are dropped, and no call is stuck: as long
as one has not returned, some call can go on. -/
theorem cancellation_observed {token : CancellationToken} {acts : List TokenAct}
    (hrun : Run (stepRel CancellationToken.step) {} acts token) :
    (token.state.cancelled = false →
      .observed ∉ token.calls ∧ .cancelReturned ∉ token.calls) ∧
    (token.state.cancelled → ∀ more t,
      Run (permitted (fun _ act => act.isCall = false) (stepRel CancellationToken.step))
        token more t →
      more.length ≤ token.work ∧
        ((∃ call ∈ t.calls, call.returned = false) →
          ∃ index next, t.step (.advance index) = some next)) := by
  have hsound : token.Sound :=
    hrun.invariant CancellationToken.Sound (fun _ _ _ h hstep => h.step hstep)
      ⟨rfl, by simp⟩
  constructor
  · intro hcancelled
    constructor
    all_goals
      intro hmem
      have hraised : token.state.cancelled := hsound.calls _ hmem
      rw [hcancelled] at hraised
      cases hraised
  · intro hcancelled more t hmore
    have hkept : t.Sound ∧ t.state.cancelled :=
      hmore.invariant (fun token => token.Sound ∧ token.state.cancelled)
        (fun _ _ _ h hstep => ⟨h.1.step hstep.2,
          (CancellationToken.step_work h.2 hstep.1 hstep.2).1⟩) ⟨hsound, hcancelled⟩
    have hlength := hmore.length_add_le (fun token => token.state.cancelled)
      CancellationToken.work
      (fun _ _ _ h hstep => (CancellationToken.step_work h hstep.1 hstep.2).1)
      (fun _ _ _ h hstep => (CancellationToken.step_work h hstep.1 hstep.2).2) hcancelled
    refine ⟨by omega, fun ⟨call, hcall, hopen⟩ => ?_⟩
    exact hkept.1.exists_step hkept.2 hcall hopen

/-- A call falls asleep before the flag is raised and is woken after. -/
theorem cancellation_observed_one :
    ∃ token, Run (stepRel CancellationToken.step) {}
        [.cancelled, .advance 0, .advance 0, .cancel, .advance 1] token ∧
      token.calls = [.awaiting 0, .notifying] ∧
      ∃ index next, token.step (.advance index) = some next := by
  refine ⟨_, Run.of_foldlM rfl, rfl, ?_⟩
  exact ((@cancellation_observed _ [.cancelled, .advance 0, .advance 0, .cancel, .advance 1]
    (Run.of_foldlM rfl)).2 rfl [] _ (.nil _)).2 ⟨.awaiting 0, by simp, rfl⟩

end Locus.Core
