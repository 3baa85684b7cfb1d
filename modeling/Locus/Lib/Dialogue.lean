import Mathlib.Data.List.Basic

/-!
# Programs that talk to an environment

A dialogue either ends with a value or asks the environment a question and goes on
with the answer. Nothing is assumed of the answers, so a statement about all runs of a
dialogue is a statement about every behaviour of the environment.
-/

namespace Locus.Lib

/-- A program that asks questions from `Question` and ends with a value. -/
inductive Dialogue {Question : Type} (Answer : Question → Type) (α : Type) : Type
  | done (value : α)
  | ask (question : Question) (next : Answer question → Dialogue Answer α)

variable {Question : Type} {Answer : Question → Type} {α β : Type}

/-- A question together with the answer it got. -/
abbrev Exchange (Answer : Question → Type) := (question : Question) × Answer question

namespace Dialogue

/-- Run one dialogue and go on with its value. -/
def bind (first : Dialogue Answer α) (next : α → Dialogue Answer β) : Dialogue Answer β :=
  match first with
  | done value => next value
  | ask question rest => ask question fun answer => (rest answer).bind next

instance : Monad (Dialogue Answer) where
  pure := done
  bind := bind

/-- Ask one question and return its answer. -/
def call (question : Question) : Dialogue Answer (Answer question) :=
  ask question done

/-- A dialogue can have these exchanges and end with this value. -/
inductive Runs : Dialogue Answer α → List (Exchange Answer) → α → Prop
  | done (value : α) : Runs (done value) [] value
  | ask {question : Question} {next : Answer question → Dialogue Answer α}
      {exchanges : List (Exchange Answer)} {value : α} (answer : Answer question)
      (rest : Runs (next answer) exchanges value) :
      Runs (ask question next) (⟨question, answer⟩ :: exchanges) value

/-- A finished dialogue has no exchange left. -/
@[simp] theorem runs_done {value result : α} {exchanges : List (Exchange Answer)} :
    Runs (Dialogue.done value) exchanges result ↔ exchanges = [] ∧ result = value := by
  constructor
  · intro h
    cases h
    exact ⟨rfl, rfl⟩
  · rintro ⟨rfl, rfl⟩
    exact .done _

/-- Returning a value ends the dialogue. -/
@[simp] theorem runs_pure {value result : α} {exchanges : List (Exchange Answer)} :
    Runs (pure value : Dialogue Answer α) exchanges result ↔ exchanges = [] ∧ result = value :=
  runs_done

/-- The first exchange of a dialogue that asks is the answer to its question. -/
theorem runs_ask {question : Question} {next : Answer question → Dialogue Answer α}
    {exchanges : List (Exchange Answer)} {result : α} :
    Runs (Dialogue.ask question next) exchanges result ↔
      ∃ answer rest, exchanges = ⟨question, answer⟩ :: rest ∧ Runs (next answer) rest result := by
  constructor
  · intro h
    cases h with
    | ask answer rest => exact ⟨answer, _, rfl, rest⟩
  · rintro ⟨answer, rest, rfl, h⟩
    exact .ask answer h

/-- A call followed by a continuation is the question with that continuation. -/
theorem call_bind (question : Question) (next : Answer question → Dialogue Answer α) :
    (call question >>= next) = Dialogue.ask question next :=
  rfl

/-- The exchanges of a call followed by a continuation. -/
@[simp] theorem runs_call_bind {question : Question}
    {next : Answer question → Dialogue Answer α} {exchanges : List (Exchange Answer)}
    {result : α} :
    Runs (call question >>= next) exchanges result ↔
      ∃ answer rest, exchanges = ⟨question, answer⟩ :: rest ∧ Runs (next answer) rest result := by
  rw [call_bind, runs_ask]

/-- A dialogue and its continuation run one after the other. -/
theorem runs_bind {first : Dialogue Answer α} {next : α → Dialogue Answer β}
    {exchanges : List (Exchange Answer)} {result : β} :
    Runs (first >>= next) exchanges result ↔
      ∃ front back value, exchanges = front ++ back ∧ Runs first front value ∧
        Runs (next value) back result := by
  induction first generalizing exchanges with
  | done value =>
    constructor
    · intro h
      exact ⟨[], exchanges, value, rfl, .done value, h⟩
    · rintro ⟨front, back, value', rfl, hfirst, hnext⟩
      obtain ⟨rfl, rfl⟩ := runs_done.mp hfirst
      exact hnext
  | ask question rest ih =>
    change Runs (Dialogue.ask question fun answer => rest answer >>= next) exchanges result ↔ _
    rw [runs_ask]
    constructor
    · rintro ⟨answer, exchanges, rfl, h⟩
      obtain ⟨front, back, value, rfl, hrest, hnext⟩ := (ih answer).mp h
      exact ⟨⟨question, answer⟩ :: front, back, value, rfl, .ask answer hrest, hnext⟩
    · rintro ⟨front, back, value, rfl, hfirst, hnext⟩
      obtain ⟨answer, front, rfl, hrest⟩ := runs_ask.mp hfirst
      exact ⟨answer, front ++ back, rfl, (ih answer).mpr ⟨front, back, value, rfl, hrest, hnext⟩⟩

section Handlers

variable {Question' : Type} {Answer' : Question' → Type}

/-- Let another dialogue answer each question. -/
def handle (handler : (question : Question) → Dialogue Answer' (Answer question)) :
    Dialogue Answer α → Dialogue Answer' α
  | done value => done value
  | ask question next => (handler question).bind fun answer => (next answer).handle handler

/-- A call is answered by the handler. -/
theorem handle_call_bind (handler : (question : Question) → Dialogue Answer' (Answer question))
    (question : Question) (next : Answer question → Dialogue Answer α) :
    (call question >>= next).handle handler =
      handler question >>= fun answer => (next answer).handle handler :=
  rfl

/-- Binding is associative. -/
theorem bind_assoc (first : Dialogue Answer α) (second : α → Dialogue Answer β) {γ : Type}
    (third : β → Dialogue Answer γ) :
    (first.bind second).bind third = first.bind fun value => (second value).bind third := by
  induction first with
  | done value => rfl
  | ask question next ih =>
    simp only [bind]
    congr 1
    funext answer
    exact ih answer

/-- A dialogue and its continuation are handled one after the other. -/
theorem handle_bind (handler : (question : Question) → Dialogue Answer' (Answer question))
    (first : Dialogue Answer α) (next : α → Dialogue Answer β) :
    (first >>= next).handle handler =
      first.handle handler >>= fun value => (next value).handle handler := by
  induction first with
  | done value => rfl
  | ask question rest ih =>
    change (handler question).bind (fun answer => (rest answer >>= next).handle handler) =
      ((handler question).bind fun answer => (rest answer).handle handler).bind _
    rw [bind_assoc]
    congr 1
    funext answer
    exact ih answer

end Handlers

section Evaluation

variable (world : (question : Question) → Answer question)

/-- The value of a dialogue in a world that has one answer to each question. -/
def evaluate : Dialogue Answer α → α
  | done value => value
  | ask question next => (next (world question)).evaluate

@[simp] theorem evaluate_pure (value : α) :
    (pure value : Dialogue Answer α).evaluate world = value :=
  rfl

@[simp] theorem evaluate_call_bind (question : Question)
    (next : Answer question → Dialogue Answer α) :
    (call question >>= next).evaluate world = (next (world question)).evaluate world :=
  rfl

/-- A dialogue and its continuation are evaluated one after the other. -/
@[simp] theorem evaluate_bind (first : Dialogue Answer α) (next : α → Dialogue Answer β) :
    (first >>= next).evaluate world = (next (first.evaluate world)).evaluate world := by
  induction first with
  | done value => rfl
  | ask question rest ih => exact ih (world question)

end Evaluation

/-- Every question of every run meets the condition. -/
def AsksOnly (P : Question → Prop) (dialogue : Dialogue Answer α) : Prop :=
  ∀ exchanges value, dialogue.Runs exchanges value → ∀ exchange ∈ exchanges, P exchange.1

section AsksOnly

variable {P Q : Question → Prop}

theorem asksOnly_pure (value : α) : AsksOnly P (pure value : Dialogue Answer α) := by
  intro exchanges result hrun exchange hmem
  obtain ⟨rfl, -⟩ := runs_pure.mp hrun
  cases hmem

theorem asksOnly_call {question : Question} (h : P question) :
    AsksOnly P (call question : Dialogue Answer (Answer question)) := by
  intro exchanges result hrun exchange hmem
  obtain ⟨answer, rest, rfl, hrest⟩ := runs_ask.mp hrun
  obtain ⟨rfl, -⟩ := runs_done.mp hrest
  rw [List.mem_singleton.mp hmem]
  exact h

theorem AsksOnly.bind {first : Dialogue Answer α} {next : α → Dialogue Answer β}
    (hfirst : AsksOnly P first) (hnext : ∀ value, AsksOnly P (next value)) :
    AsksOnly P (first >>= next) := by
  intro exchanges result hrun exchange hmem
  obtain ⟨front, back, value, rfl, hfront, hback⟩ := runs_bind.mp hrun
  rcases List.mem_append.mp hmem with hmem | hmem
  · exact hfirst front value hfront exchange hmem
  · exact hnext value back result hback exchange hmem

/-- The exchanges of a handled dialogue are those of the handlers of its own exchanges. -/
theorem exists_runs_of_handle {Question' : Type} {Answer' : Question' → Type}
    {handler : (question : Question) → Dialogue Answer' (Answer question)}
    {dialogue : Dialogue Answer α} {exchanges : List (Exchange Answer')} {value : α}
    (h : (dialogue.handle handler).Runs exchanges value) :
    ∃ original, dialogue.Runs original value ∧
      ∀ exchange ∈ exchanges, ∃ own ∈ original, ∃ handled,
        (handler own.1).Runs handled own.2 ∧ exchange ∈ handled := by
  induction dialogue generalizing exchanges with
  | done result =>
    obtain ⟨rfl, rfl⟩ := runs_done.mp h
    exact ⟨[], .done _, by simp⟩
  | ask question next ih =>
    obtain ⟨front, back, answer, rfl, hfront, hback⟩ := runs_bind.mp h
    obtain ⟨original, hrun, horiginal⟩ := ih answer hback
    refine ⟨⟨question, answer⟩ :: original, .ask answer hrun, ?_⟩
    intro exchange hmem
    rcases List.mem_append.mp hmem with hmem | hmem
    · exact ⟨⟨question, answer⟩, by simp, front, hfront, hmem⟩
    · obtain ⟨own, hown, handled, hhandled, hmem⟩ := horiginal exchange hmem
      exact ⟨own, List.mem_cons_of_mem _ hown, handled, hhandled, hmem⟩

/-- What the handlers of a dialogue's questions ask, the handled dialogue asks. -/
theorem AsksOnly.handle {Question' : Type} {Answer' : Question' → Type} {P' : Question' → Prop}
    {handler : (question : Question) → Dialogue Answer' (Answer question)}
    {dialogue : Dialogue Answer α} (hdialogue : AsksOnly P dialogue)
    (hhandler : ∀ question, P question → AsksOnly P' (handler question)) :
    AsksOnly P' (dialogue.handle handler) := by
  intro exchanges value hrun exchange hmem
  obtain ⟨original, horiginal, hexchanges⟩ := exists_runs_of_handle hrun
  obtain ⟨own, hown, handled, hhandled, hmem⟩ := hexchanges exchange hmem
  exact hhandler own.1 (hdialogue original value horiginal own hown) handled own.2 hhandled
    exchange hmem

end AsksOnly

/-- Every run ends with a value that meets the condition. -/
def Returns (P : α → Prop) (dialogue : Dialogue Answer α) : Prop :=
  ∀ exchanges value, dialogue.Runs exchanges value → P value

theorem returns_pure {P : α → Prop} {value : α} (h : P value) :
    Returns P (pure value : Dialogue Answer α) := by
  intro exchanges result hrun
  obtain ⟨-, rfl⟩ := runs_pure.mp hrun
  exact h

/-- What every continuation returns is returned. -/
theorem Returns.bind {P : β → Prop} {first : Dialogue Answer α} {next : α → Dialogue Answer β}
    (h : ∀ value, Returns P (next value)) : Returns P (first >>= next) := by
  intro exchanges result hrun
  obtain ⟨front, back, value, -, -, hback⟩ := runs_bind.mp hrun
  exact h value back result hback

/-- How often every run asks a question of a kind is known by its value. -/
def Counts (marked : Question → Bool) (count : α → ℕ) (dialogue : Dialogue Answer α) : Prop :=
  ∀ exchanges value, dialogue.Runs exchanges value →
    exchanges.countP (fun exchange => marked exchange.1) = count value

section Counts

variable {marked : Question → Bool} {count : α → ℕ} {question : Question}
  {next : Answer question → Dialogue Answer α}

/-- Returning a value asks nothing. -/
theorem counts_pure {value : α} (h : count value = 0) :
    Counts marked count (pure value : Dialogue Answer α) := by
  intro exchanges result hrun
  obtain ⟨rfl, rfl⟩ := runs_pure.mp hrun
  rw [h]
  rfl

/-- A question of another kind does not count. -/
theorem Counts.skip (hother : marked question = false)
    (hnext : ∀ answer, Counts marked count (next answer)) :
    Counts marked count (call question >>= next) := by
  intro exchanges result hrun
  obtain ⟨answer, rest, rfl, hrest⟩ := runs_call_bind.mp hrun
  rw [List.countP_cons_of_neg (by simp [hother])]
  exact hnext answer rest result hrest

/-- The only question of the kind is followed by a value. -/
theorem counts_call_pure (hmarked : marked question = true) {value : α}
    (hcount : count value = 1) :
    Counts marked count (call question >>= fun _ => (pure value : Dialogue Answer α)) := by
  intro exchanges result hrun
  obtain ⟨answer, rest, rfl, hrest⟩ := runs_call_bind.mp hrun
  obtain ⟨rfl, rfl⟩ := runs_pure.mp hrest
  rw [List.countP_cons_of_pos (by simpa using hmarked), hcount]
  rfl

end Counts

end Dialogue

end Locus.Lib
