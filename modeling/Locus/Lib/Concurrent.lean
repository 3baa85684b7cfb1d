import Locus.Lib.Dialogue
import Locus.Lib.Histories
import Locus.Lib.Runs

/-!
# Dialogues side by side

Any number of dialogues talk to one environment, which has a state that they share. A step
starts a dialogue or answers the question that one of them waits with, so that a run is an
arbitrary interleaving. Every thread keeps what it has heard so far.
-/

namespace Locus.Lib

variable {Question : Type} {Answer : Question → Type} {α β Operation Shared : Type}

namespace Dialogue

/-- After these exchanges this much of a dialogue is left. -/
inductive Reaches : Dialogue Answer α → List (Exchange Answer) → Dialogue Answer α → Prop
  | nil (dialogue : Dialogue Answer α) : Reaches dialogue [] dialogue
  | ask {question : Question} {next : Answer question → Dialogue Answer α}
      {exchanges : List (Exchange Answer)} {left : Dialogue Answer α} (answer : Answer question)
      (rest : Reaches (next answer) exchanges left) :
      Reaches (ask question next) (⟨question, answer⟩ :: exchanges) left

/-- Nothing is left of a finished dialogue. -/
theorem reaches_done {value : α} {exchanges : List (Exchange Answer)}
    {left : Dialogue Answer α} :
    (Dialogue.done value).Reaches exchanges left ↔ exchanges = [] ∧ left = .done value := by
  constructor
  · intro h
    cases h
    exact ⟨rfl, rfl⟩
  · rintro ⟨rfl, rfl⟩
    exact .nil _

/-- A dialogue that asks waits with its question or has gone on with an answer. -/
theorem reaches_ask {question : Question} {next : Answer question → Dialogue Answer α}
    {exchanges : List (Exchange Answer)} {left : Dialogue Answer α} :
    (Dialogue.ask question next).Reaches exchanges left ↔
      (exchanges = [] ∧ left = .ask question next) ∨
      ∃ answer rest, exchanges = ⟨question, answer⟩ :: rest ∧ (next answer).Reaches rest left := by
  constructor
  · intro h
    cases h with
    | nil => exact .inl ⟨rfl, rfl⟩
    | ask answer rest => exact .inr ⟨answer, _, rfl, rest⟩
  · rintro (⟨rfl, rfl⟩ | ⟨answer, rest, rfl, h⟩)
    · exact .nil _
    · exact .ask answer h

/-- A call followed by a continuation waits with its question or has gone on. -/
theorem Reaches.call_cases {question : Question} {next : Answer question → Dialogue Answer α}
    {exchanges : List (Exchange Answer)} {left : Dialogue Answer α}
    (h : (call question >>= next).Reaches exchanges left) :
    (exchanges = [] ∧ ∃ rest, left = .ask question rest) ∨
      ∃ answer rest, exchanges = ⟨question, answer⟩ :: rest ∧ (next answer).Reaches rest left := by
  rcases reaches_ask.mp h with ⟨rfl, rfl⟩ | hrest
  · exact .inl ⟨rfl, next, rfl⟩
  · exact .inr hrest

/-- A returned value is renamed at the end. -/
theorem reaches_map {dialogue : Dialogue Answer α} {f : α → β}
    {exchanges : List (Exchange Answer)} {left : Dialogue Answer β} :
    (dialogue >>= fun value => pure (f value)).Reaches exchanges left ↔
      ∃ own, dialogue.Reaches exchanges own ∧ left = own >>= fun value => pure (f value) := by
  induction dialogue generalizing exchanges with
  | done value =>
    refine reaches_done.trans ?_
    constructor
    · rintro ⟨rfl, rfl⟩
      exact ⟨_, .nil _, rfl⟩
    · rintro ⟨own, hown, rfl⟩
      obtain ⟨rfl, rfl⟩ := reaches_done.mp hown
      exact ⟨rfl, rfl⟩
  | ask question next ih =>
    refine reaches_ask.trans ?_
    constructor
    · rintro (⟨rfl, rfl⟩ | ⟨answer, rest, rfl, h⟩)
      · exact ⟨_, .nil _, rfl⟩
      · obtain ⟨own, hown, rfl⟩ := (ih answer).mp h
        exact ⟨own, .ask answer hown, rfl⟩
    · rintro ⟨own, hown, rfl⟩
      rcases reaches_ask.mp hown with ⟨rfl, rfl⟩ | ⟨answer, rest, rfl, h⟩
      · exact .inl ⟨rfl, rfl⟩
      · exact .inr ⟨answer, rest, rfl, (ih answer).mpr ⟨own, h, rfl⟩⟩

/-- The question that a dialogue waits with. -/
def pending : Dialogue Answer α → Option Question
  | .done _ => none
  | .ask question _ => some question

@[simp] theorem pending_pure (value : α) : (pure value : Dialogue Answer α).pending = none := rfl

@[simp] theorem pending_done (value : α) : (done value : Dialogue Answer α).pending = none := rfl

@[simp] theorem pending_ask (question : Question) (next : Answer question → Dialogue Answer α) :
    (ask question next).pending = some question := rfl

@[simp] theorem pending_map (dialogue : Dialogue Answer α) (f : α → β) :
    (dialogue >>= fun value => pure (f value)).pending = dialogue.pending := by
  cases dialogue <;> rfl

/-- A dialogue with a continuation has ended if both have. -/
theorem bind_eq_done {first : Dialogue Answer α} {next : α → Dialogue Answer β} {result : β} :
    (first >>= next) = .done result ↔ ∃ value, first = .done value ∧ next value = .done result := by
  cases first with
  | done value =>
    constructor
    · intro h
      exact ⟨value, rfl, h⟩
    · rintro ⟨value', heq, h⟩
      cases heq
      exact h
  | ask question rest =>
    constructor
    · intro h
      cases h
    · rintro ⟨value, heq, -⟩
      cases heq

/-- A renamed dialogue that has ended. -/
theorem map_eq_done {dialogue : Dialogue Answer α} {f : α → β} {result : β} :
    (dialogue >>= fun value => pure (f value)) = .done result ↔
      ∃ value, dialogue = .done value ∧ f value = result := by
  cases dialogue with
  | done value =>
    constructor
    · intro h
      exact ⟨value, rfl, Dialogue.done.inj h⟩
    · rintro ⟨value', heq, rfl⟩
      cases heq
      rfl
  | ask question next =>
    constructor
    · intro h
      cases h
    · rintro ⟨value, heq, -⟩
      cases heq

section Waits

variable {P : (question : Question) → (Answer question → Dialogue Answer α) → Prop}
  {Q : (question : Question) → (Answer question → Dialogue Answer β) → Prop}

/-- Whatever a dialogue comes to ask, the question and what follows it meet the condition. -/
def Waits (P : (question : Question) → (Answer question → Dialogue Answer α) → Prop) :
    Dialogue Answer α → Prop
  | .done _ => True
  | .ask question next => P question next ∧ ∀ answer, (next answer).Waits P

theorem waits_pure (value : α) : (pure value : Dialogue Answer α).Waits P :=
  trivial

theorem waits_call_bind {question : Question} {next : Answer question → Dialogue Answer α}
    (hquestion : P question next) (hnext : ∀ answer, (next answer).Waits P) :
    (call question >>= next).Waits P :=
  ⟨hquestion, hnext⟩

/-- A continuation follows every question of the first part. -/
theorem Waits.bind {first : Dialogue Answer α} {next : α → Dialogue Answer β}
    (hfirst : first.Waits P)
    (hquestion : ∀ question rest, P question rest → Q question fun answer => rest answer >>= next)
    (hnext : ∀ value, (next value).Waits Q) : (first >>= next).Waits Q := by
  induction first with
  | done value => exact hnext value
  | ask question rest ih =>
    exact ⟨hquestion question rest hfirst.1, fun answer => ih answer (hfirst.2 answer)⟩

theorem Waits.of_reaches {dialogue left : Dialogue Answer α} {exchanges : List (Exchange Answer)}
    (hwaits : dialogue.Waits P) (h : dialogue.Reaches exchanges left) : left.Waits P := by
  induction h with
  | nil => exact hwaits
  | ask answer _ ih => exact ih (hwaits.2 answer)

end Waits

/-- One more answer. -/
theorem Reaches.concat {dialogue : Dialogue Answer α} {exchanges : List (Exchange Answer)}
    {question : Question} {next : Answer question → Dialogue Answer α}
    (h : dialogue.Reaches exchanges (.ask question next)) (answer : Answer question) :
    dialogue.Reaches (exchanges ++ [⟨question, answer⟩]) (next answer) := by
  generalize hleft : Dialogue.ask question next = left at h
  induction h with
  | nil dialogue =>
    subst hleft
    exact .ask answer (.nil _)
  | ask first _ ih => exact .ask first (ih hleft)

end Dialogue

/-- An operation that is under way: what it has heard, and what is left of it. -/
structure Thread (Operation : Type) (Answer : Question → Type) (α : Type) where
  operation : Operation
  exchanges : List (Exchange Answer)
  remaining : Dialogue Answer α

/-- The shared state and the threads in the order of their start. -/
structure Threads (Shared Operation : Type) (Answer : Question → Type) (α : Type) where
  shared : Shared
  threads : List (Thread Operation Answer α)

/-- What a step does: it starts an operation, or it answers a thread. -/
inductive ThreadLabel (Operation : Type) (Answer : Question → Type)
  | start (operation : Operation)
  | answer (index : ℕ) (exchange : Exchange Answer)

/-- What the operations do, which of them may start, and how the shared state answers. An
answer that it cannot give has no next state. -/
structure ThreadSystem (Shared Operation : Type) (Answer : Question → Type) (α : Type) where
  program : Operation → Dialogue Answer α
  mayStart : Threads Shared Operation Answer α → Operation → Prop
  respond : Shared → ℕ → Exchange Answer → Option Shared

namespace ThreadSystem

variable (system : ThreadSystem Shared Operation Answer α)

/-- The steps of all threads. -/
inductive Step : Threads Shared Operation Answer α → ThreadLabel Operation Answer →
    Threads Shared Operation Answer α → Prop
  | start {s : Threads Shared Operation Answer α} {operation : Operation}
      (hstart : system.mayStart s operation) :
      Step s (.start operation)
        ⟨s.shared, s.threads ++ [⟨operation, [], system.program operation⟩]⟩
  | answer {s : Threads Shared Operation Answer α} {index : ℕ} {operation : Operation}
      {exchanges : List (Exchange Answer)} {question : Question}
      {next : Answer question → Dialogue Answer α} {answer : Answer question} {shared : Shared}
      (hthread : s.threads[index]? = some ⟨operation, exchanges, .ask question next⟩)
      (hshared : system.respond s.shared index ⟨question, answer⟩ = some shared) :
      Step s (.answer index ⟨question, answer⟩)
        ⟨shared, s.threads.set index
          ⟨operation, exchanges ++ [⟨question, answer⟩], next answer⟩⟩

variable {system} {s t : Threads Shared Operation Answer α}
  {label : ThreadLabel Operation Answer} {k : ℕ} {thread : Thread Operation Answer α}

/-- A thread after a step was there before, or it has just started, or it has just been
answered. -/
theorem Step.thread_cases (hstep : system.Step s label t) (hthread : t.threads[k]? = some thread) :
    s.threads[k]? = some thread ∨
    (label = .start thread.operation ∧ s.threads.length = k ∧
      thread = ⟨thread.operation, [], system.program thread.operation⟩) ∨
    ∃ exchanges question next answer, label = .answer k ⟨question, answer⟩ ∧
      s.threads[k]? = some ⟨thread.operation, exchanges, .ask question next⟩ ∧
      thread = ⟨thread.operation, exchanges ++ [⟨question, answer⟩], next answer⟩ := by
  cases hstep with
  | start hstart =>
    rcases getElem?_concat_eq_some.mp hthread with hthread | ⟨hk, rfl⟩
    · exact .inl hthread
    · exact .inr (.inl ⟨rfl, hk, rfl⟩)
  | @answer index operation exchanges question next answer shared hold hshared =>
    by_cases hk : index = k
    · subst hk
      have hlt := (List.getElem?_eq_some_iff.mp hold).1
      rw [List.getElem?_set_self hlt] at hthread
      cases hthread
      exact .inr (.inr ⟨exchanges, question, next, answer, rfl, hold, rfl⟩)
    · rw [List.getElem?_set_ne hk] at hthread
      exact .inl hthread

/-- A thread stays, and has heard at least as much. -/
theorem Step.thread_stays (hstep : system.Step s label t) (hthread : s.threads[k]? = some thread) :
    ∃ later, t.threads[k]? = some later ∧ later.operation = thread.operation ∧
      (later = thread ∨ ∃ question next answer, label = .answer k ⟨question, answer⟩ ∧
        thread.remaining = .ask question next ∧
        later.exchanges = thread.exchanges ++ [⟨question, answer⟩] ∧
        later.remaining = next answer) := by
  cases hstep with
  | start hstart =>
    have hlt := (List.getElem?_eq_some_iff.mp hthread).1
    exact ⟨thread, by rw [List.getElem?_append_left hlt, hthread], rfl, .inl rfl⟩
  | @answer index operation exchanges question next answer shared hold hshared =>
    by_cases hk : index = k
    · subst hk
      have hlt := (List.getElem?_eq_some_iff.mp hold).1
      rw [hold] at hthread
      cases hthread
      exact ⟨_, List.getElem?_set_self hlt, rfl,
        .inr ⟨question, next, answer, rfl, rfl, rfl, rfl⟩⟩
    · exact ⟨thread, by rw [List.getElem?_set_ne hk, hthread], rfl, .inl rfl⟩

/-- What is left of every thread is what its exchanges leave of its program. -/
def Consistent (system : ThreadSystem Shared Operation Answer α)
    (s : Threads Shared Operation Answer α) : Prop :=
  ∀ (k : ℕ) (thread : Thread Operation Answer α), s.threads[k]? = some thread →
    (system.program thread.operation).Reaches thread.exchanges thread.remaining

theorem consistent_step (h : system.Consistent s) (hstep : system.Step s label t) :
    system.Consistent t := by
  intro k thread hthread
  rcases hstep.thread_cases hthread with hold | ⟨-, -, heq⟩ |
    ⟨exchanges, question, next, answer, -, hold, heq⟩
  · exact h k thread hold
  · rw [heq]
    exact .nil _
  · rw [heq]
    exact (h k _ hold).concat answer

end ThreadSystem

end Locus.Lib
