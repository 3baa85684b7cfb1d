import Mathlib.Data.List.Basic

/-!
# Pushing a text in pieces

A parser that takes a text piece by piece should not care where the pieces end. It is
enough to compare two pieces with their concatenation; the lemmas here carry the
comparison to any number of pieces. Outputs are compared through a view, so that a piece
of output may itself come in several parts.
-/

namespace Locus.Lib

variable {σ α β ε ο γ : Type*}

/-- Put an output in front of what comes later. -/
def prepend (output : List ο) (result : Except ε (σ × List ο)) : Except ε (σ × List ο) :=
  result.map fun next => (next.1, output ++ next.2)

/-- Push the pieces one after the other and collect the outputs. -/
def pushAll (push : σ → β → Except ε (σ × List ο)) : σ → List β → Except ε (σ × List ο)
  | state, [] => .ok (state, [])
  | state, piece :: pieces =>
    match push state piece with
    | .error error => .error error
    | .ok (next, output) => prepend output (pushAll push next pieces)

/-- End with a last check of the state. -/
def finishWith (finish : σ → Except ε Unit) (result : Except ε (σ × List ο)) :
    Except ε (List ο) :=
  match result with
  | .error error => .error error
  | .ok (state, output) =>
    match finish state with
    | .error error => .error error
    | .ok () => .ok output

/-- Two results agree: both fail, or both give the same state and outputs that look the
same. -/
def Alike (view : List ο → γ) : Except ε (σ × List ο) → Except ε (σ × List ο) → Prop
  | .ok (state, output), .ok (state', output') => state = state' ∧ view output = view output'
  | .error _, .error _ => True
  | _, _ => False

/-- A piece that is accepted can be pushed apart from what follows it. -/
structure Splits (push : σ → List α → Except ε (σ × List ο)) (ready : σ → Prop)
    (view : List ο → γ) : Prop where
  nil {state : σ} : ready state → push state [] = .ok (state, [])
  next {state next : σ} {piece : List α} {output : List ο} :
    ready state → push state piece = .ok (next, output) → ready next
  view_append {output rest rest' : List ο} :
    view rest = view rest' → view (output ++ rest) = view (output ++ rest')
  append {state next : σ} {piece : List α} {output : List ο} (more : List α) :
    ready state → push state piece = .ok (next, output) →
    Alike view (push state (piece ++ more)) (prepend output (push next more))

variable {push : σ → List α → Except ε (σ × List ο)} {ready : σ → Prop} {view : List ο → γ}
  {state last : σ} {pieces : List (List α)} {output output' : List ο}
  {result result' : Except ε (σ × List ο)}

@[simp] theorem prepend_error (error : ε) :
    prepend output (.error error : Except ε (σ × List ο)) = .error error :=
  rfl

@[simp] theorem prepend_ok : prepend output (.ok (state, output') : Except ε (σ × List ο)) =
    .ok (state, output ++ output') :=
  rfl

@[simp] theorem prepend_nil : prepend [] result = result := by
  cases result with
  | error error => rfl
  | ok next => rfl

/-- Outputs are put in front one after the other. -/
theorem prepend_prepend :
    prepend output (prepend output' result) = prepend (output ++ output') result := by
  cases result with
  | error error => rfl
  | ok next => simp [prepend, Except.map]

/-- What an accepted result came from. -/
theorem prepend_eq_ok (h : prepend output result = .ok (last, output')) :
    ∃ rest, result = .ok (last, rest) ∧ output' = output ++ rest := by
  cases result with
  | error error => cases h
  | ok next =>
    cases h
    exact ⟨next.2, rfl, rfl⟩

/-- A result agrees with itself. -/
theorem Alike.refl (result : Except ε (σ × List ο)) : Alike view result result := by
  cases result with
  | error error => trivial
  | ok next => exact ⟨rfl, rfl⟩

/-- Agreement survives an output put in front. -/
theorem Alike.prepend
    (hview : ∀ {rest rest' : List ο}, view rest = view rest' →
      view (output ++ rest) = view (output ++ rest'))
    (h : Alike view result result') :
    Alike view (prepend output result) (Lib.prepend output result') := by
  cases result with
  | error error =>
    cases result' with
    | error error' => trivial
    | ok next' => exact h
  | ok next =>
    cases result' with
    | error error' => exact h
    | ok next' => exact ⟨h.1, hview h.2⟩

/-- Results agree if they come from one result with outputs in front that look the same
whatever follows. -/
theorem alike_prepend (result : Except ε (σ × List ο))
    (h : ∀ rest, view (output ++ rest) = view (output' ++ rest)) :
    Alike view (prepend output result) (prepend output' result) := by
  cases result with
  | error error => trivial
  | ok next => exact ⟨rfl, h next.2⟩

/-- Pieces that are all accepted give what their concatenation gives. -/
theorem Splits.flatten_of_pushAll (h : Splits push ready view) (hready : ready state)
    (hpush : pushAll push state pieces = .ok (last, output)) :
    ∃ whole, push state pieces.flatten = .ok (last, whole) ∧ view whole = view output := by
  induction pieces generalizing state output with
  | nil =>
    cases hpush
    exact ⟨[], h.nil hready, rfl⟩
  | cons piece pieces ih =>
    unfold pushAll at hpush
    split at hpush
    next => cases hpush
    next next first hfirst =>
      obtain ⟨rest, hrest, rfl⟩ := prepend_eq_ok hpush
      obtain ⟨whole, hwhole, hview⟩ := ih (h.next hready hfirst) hrest
      have halike := h.append pieces.flatten hready hfirst
      rw [hwhole, prepend_ok] at halike
      rw [List.flatten_cons]
      cases hall : push state (piece ++ pieces.flatten) with
      | error error =>
        rw [hall] at halike
        exact halike.elim
      | ok all =>
        rw [hall] at halike
        exact ⟨all.2, by rw [← halike.1], halike.2.trans (h.view_append hview)⟩

/-- Pieces are all accepted if every beginning of their concatenation is. -/
theorem Splits.pushAll_of_flatten (h : Splits push ready view) (hready : ready state)
    (pieces : List (List α))
    (hpush : ∀ piece more, pieces.flatten = piece ++ more → ∃ r, push state piece = .ok r) :
    ∃ r, pushAll push state pieces = .ok r := by
  induction pieces generalizing state with
  | nil => exact ⟨_, rfl⟩
  | cons piece pieces ih =>
    obtain ⟨⟨next, first⟩, hfirst⟩ := hpush piece pieces.flatten rfl
    have hrest : ∃ r, pushAll push next pieces = .ok r := by
      refine ih (h.next hready hfirst) fun piece' more heq => ?_
      obtain ⟨r, hr⟩ := hpush (piece ++ piece') more (by simp [heq])
      have halike := h.append piece' hready hfirst
      rw [hr] at halike
      cases hnext : push next piece' with
      | ok r' => exact ⟨r', rfl⟩
      | error error =>
        rw [hnext] at halike
        exact halike.elim
    obtain ⟨⟨last, rest⟩, hrest⟩ := hrest
    exact ⟨(last, first ++ rest), by simp [pushAll, hfirst, hrest]⟩

/-- Pieces agree with their concatenation if a refused beginning makes the whole
refused. -/
theorem Splits.alike_pushAll (h : Splits push ready view) (hready : ready state)
    (pieces : List (List α))
    (herror : ∀ piece more error, pieces.flatten = piece ++ more →
      push state piece = .error error → ∃ error', push state pieces.flatten = .error error') :
    Alike view (pushAll push state pieces) (push state pieces.flatten) := by
  cases hpieces : pushAll push state pieces with
  | ok result =>
    obtain ⟨whole, hwhole, hview⟩ := h.flatten_of_pushAll hready hpieces
    rw [hwhole]
    exact ⟨rfl, hview.symm⟩
  | error error =>
    cases hwhole : push state pieces.flatten with
    | error error' => trivial
    | ok result =>
      obtain ⟨result', hresult'⟩ := h.pushAll_of_flatten hready pieces
        fun piece more heq => by
          cases hpiece : push state piece with
          | ok r => exact ⟨r, rfl⟩
          | error error' =>
            obtain ⟨error'', herror''⟩ := herror piece more error' heq hpiece
            rw [hwhole] at herror''
            cases herror''
      rw [hpieces] at hresult'
      cases hresult'

/-- Pushing one piece. -/
theorem pushAll_singleton (push : σ → β → Except ε (σ × List ο)) (state : σ) (piece : β) :
    pushAll push state [piece] = push state piece := by
  unfold pushAll
  cases push state piece with
  | error error => rfl
  | ok next => simp [pushAll]

/-- One more piece is pushed behind the others. -/
theorem pushAll_concat {push : σ → β → Except ε (σ × List ο)} {pieces : List β} {piece : β}
    {next : σ} {first rest : List ο} (h : pushAll push state pieces = .ok (next, first))
    (hpiece : push next piece = .ok (last, rest)) :
    pushAll push state (pieces ++ [piece]) = .ok (last, first ++ rest) := by
  induction pieces generalizing state first with
  | nil =>
    cases h
    rw [List.nil_append, pushAll_singleton, hpiece, List.nil_append]
  | cons head pieces ih =>
    unfold pushAll at h
    split at h
    next => cases h
    next middle headOutput hhead =>
      obtain ⟨tail, htail, rfl⟩ := prepend_eq_ok h
      rw [List.cons_append, pushAll, hhead]
      simp only
      rw [ih htail, prepend_ok, List.append_assoc]

/-- The last of several pieces is pushed behind the others. -/
theorem pushAll_concat_eq_ok {push : σ → β → Except ε (σ × List ο)} {pieces : List β} {piece : β}
    (h : pushAll push state (pieces ++ [piece]) = .ok (last, output)) :
    ∃ next first rest, pushAll push state pieces = .ok (next, first) ∧
      push next piece = .ok (last, rest) ∧ output = first ++ rest := by
  induction pieces generalizing state output with
  | nil =>
    rw [List.nil_append, pushAll_singleton] at h
    exact ⟨state, [], output, rfl, h, rfl⟩
  | cons head pieces ih =>
    rw [List.cons_append] at h
    unfold pushAll at h
    split at h
    next => cases h
    next middle headOutput hhead =>
      obtain ⟨tail, htail, rfl⟩ := prepend_eq_ok h
      obtain ⟨next, first, rest, hpieces, hpiece, rfl⟩ := ih htail
      refine ⟨next, headOutput ++ first, rest, ?_, hpiece, (List.append_assoc _ _ _).symm⟩
      simp [pushAll, hhead, hpieces]

/-- What each push keeps of the state, all pieces and all outputs so far, any number of
them keeps. -/
theorem pushAll_invariant {push : σ → β → Except ε (σ × List ο)}
    (Inv : σ → List β → List ο → Prop)
    (hstep : ∀ {state next : σ} {piece : β} {pushed : List β} {history output : List ο},
      Inv state pushed history → push state piece = .ok (next, output) →
      Inv next (pushed ++ [piece]) (history ++ output))
    {pieces : List β} (pushed : List β) {history : List ο} (hinv : Inv state pushed history)
    (h : pushAll push state pieces = .ok (last, output)) :
    Inv last (pushed ++ pieces) (history ++ output) := by
  induction pieces generalizing state pushed history output with
  | nil =>
    cases h
    rwa [List.append_nil, List.append_nil]
  | cons piece pieces ih =>
    unfold pushAll at h
    split at h
    next => cases h
    next next first hfirst =>
      obtain ⟨rest, hrest, rfl⟩ := prepend_eq_ok h
      rw [← List.append_assoc, List.append_cons]
      exact ih _ (hstep hinv hfirst) hrest

/-- What each push keeps of the state and all outputs so far, any number of them keeps. -/
theorem pushAll_induction {push : σ → β → Except ε (σ × List ο)} {Inv : σ → List ο → Prop}
    (hstep : ∀ {state next : σ} {piece : β} {history output : List ο}, Inv state history →
      push state piece = .ok (next, output) → Inv next (history ++ output))
    {pieces : List β} {history : List ο} (hinv : Inv state history)
    (h : pushAll push state pieces = .ok (last, output)) : Inv last (history ++ output) :=
  pushAll_invariant (fun state _ history => Inv state history) hstep [] hinv h

/-- An error that no push returns is not returned by any number of them. -/
theorem pushAll_ne_error {push : σ → β → Except ε (σ × List ο)} {error : ε}
    (h : ∀ state piece, push state piece ≠ .error error) (state : σ) (pieces : List β) :
    pushAll push state pieces ≠ .error error := by
  induction pieces generalizing state with
  | nil => exact nofun
  | cons piece pieces ih =>
    rw [pushAll]
    split
    next other hother =>
      rw [← hother]
      exact h state piece
    next next output _ =>
      intro herror
      cases hrest : pushAll push next pieces with
      | error other =>
        rw [hrest] at herror
        cases herror
        exact ih next hrest
      | ok result =>
        rw [hrest] at herror
        cases herror

/-- A run that was accepted ended in an accepted state. -/
theorem finishWith_eq_ok {finish : σ → Except ε Unit} :
    finishWith finish result = .ok output ↔
      ∃ state, result = .ok (state, output) ∧ finish state = .ok () := by
  unfold finishWith
  constructor
  · intro h
    split at h
    next => cases h
    next state output' =>
      split at h
      next => cases h
      next hfinish =>
        cases h
        exact ⟨state, rfl, hfinish⟩
  · rintro ⟨state, rfl, hfinish⟩
    simp [hfinish]

/-- Results that agree are finished alike. -/
theorem Alike.finishWith (finish : σ → Except ε Unit) (h : Alike view result result') :
    ((∃ output, finishWith finish result = .ok output) ↔
      ∃ output, Lib.finishWith finish result' = .ok output) ∧
    ∀ output output', Lib.finishWith finish result = .ok output →
      Lib.finishWith finish result' = .ok output' → view output = view output' := by
  cases result with
  | error error =>
    cases result' with
    | error error' => exact ⟨by simp [Lib.finishWith], by simp [Lib.finishWith]⟩
    | ok next' => exact h.elim
  | ok next =>
    cases result' with
    | error error' => exact h.elim
    | ok next' =>
      obtain ⟨hstate, hview⟩ := h
      constructor
      · simp only [finishWith_eq_ok, Except.ok.injEq]
        constructor
        · rintro ⟨output, state, rfl, hfinish⟩
          exact ⟨next'.2, next'.1, rfl, by rwa [← hstate]⟩
        · rintro ⟨output, state, rfl, hfinish⟩
          exact ⟨next.2, next.1, rfl, by rwa [hstate]⟩
      · simp only [finishWith_eq_ok, Except.ok.injEq]
        rintro output output' ⟨state, rfl, -⟩ ⟨state', rfl, -⟩
        exact hview

end Locus.Lib
