import Mathlib.Data.List.Basic

/-!
# Runs of a labelled transition relation

A system is given by what one labelled step may do. A run is a finite sequence
of steps, extended at its end, so that every moment of a run is the end of one
of its prefixes. A property of all reachable states follows from the states it
starts in and from single steps.
-/

namespace Locus.Lib

variable {S L : Type*}

/-- A finite run from the first state to the last, with the labels taken. -/
inductive Run (R : S → L → S → Prop) : S → List L → S → Prop
  | nil (s : S) : Run R s [] s
  | snoc {s t u : S} {ls : List L} {l : L} :
      Run R s ls t → R t l u → Run R s (ls ++ [l]) u

/-- The relation of a partial step function. -/
def stepRel (step : S → L → Option S) (s : S) (l : L) (t : S) : Prop := step s l = some t

/-- The steps that start in a state where their label is permitted. -/
def permitted (ok : S → L → Prop) (R : S → L → S → Prop) (s : S) (l : L) (t : S) : Prop :=
  ok s l ∧ R s l t

/-- A property kept by every step is kept by every run. -/
theorem Run.invariant {R : S → L → S → Prop} (Inv : S → Prop)
    (hstep : ∀ s l t, Inv s → R s l t → Inv t) {s t : S} {ls : List L}
    (hrun : Run R s ls t) (hs : Inv s) : Inv t := by
  induction hrun with
  | nil => exact hs
  | snoc _ hlast ih => exact hstep _ _ _ ih hlast

/-- A run stays a run when more steps are allowed. -/
theorem Run.mono {R R' : S → L → S → Prop} (h : ∀ s l t, R s l t → R' s l t)
    {s t : S} {ls : List L} (hrun : Run R s ls t) : Run R' s ls t := by
  induction hrun with
  | nil => exact .nil _
  | snoc _ hlast ih => exact .snoc ih (h _ _ _ hlast)

/-- Runs compose. -/
theorem Run.append {R : S → L → S → Prop} {s t u : S} {ls ls' : List L}
    (hfirst : Run R s ls t) (hsecond : Run R t ls' u) : Run R s (ls ++ ls') u := by
  induction hsecond with
  | nil => simpa using hfirst
  | snoc _ hlast ih =>
    rw [← List.append_assoc]
    exact .snoc ih hlast

/-- A run may be cut in two anywhere. -/
theorem Run.split {R : S → L → S → Prop} {s t : S} {first rest : List L}
    (hrun : Run R s (first ++ rest) t) : ∃ m, Run R s first m ∧ Run R m rest t := by
  generalize hlabels : first ++ rest = labels at hrun
  induction hrun generalizing rest with
  | nil =>
    obtain ⟨rfl, rfl⟩ := List.append_eq_nil_iff.mp hlabels
    exact ⟨_, .nil _, .nil _⟩
  | @snoc t u labels label hrun hlast ih =>
    rcases List.eq_nil_or_concat rest with rfl | ⟨init, last, rfl⟩
    · rw [List.append_nil] at hlabels
      exact ⟨u, hlabels ▸ .snoc hrun hlast, .nil _⟩
    · rw [List.concat_eq_append, ← List.append_assoc] at hlabels
      obtain ⟨hinit, hlabel⟩ := List.append_inj' hlabels rfl
      obtain rfl : last = label := by simpa using hlabel
      obtain ⟨m, hfirst, hrest⟩ := ih hinit
      exact ⟨m, hfirst, by simpa using Run.snoc hrest hlast⟩

/-- The labels of a run of a step function determine where it ends. -/
theorem Run.unique {step : S → L → Option S} {s t t' : S} {ls : List L}
    (h : Run (stepRel step) s ls t) (h' : Run (stepRel step) s ls t') : t = t' := by
  induction h generalizing t' with
  | nil =>
    generalize hnil : ([] : List L) = labels at h'
    cases h' with
    | nil => rfl
    | snoc => simp at hnil
  | @snoc t u labels label hrun hlast ih =>
    generalize hsnoc : labels ++ [label] = labels' at h'
    cases h' with
    | nil => simp at hsnoc
    | snoc hrun' hlast' =>
      obtain ⟨rfl, hlabel⟩ := List.append_inj' hsnoc rfl
      obtain rfl := List.singleton_inj.mp hlabel
      obtain rfl := ih hrun'
      exact Option.some.inj (hlast.symm.trans hlast')

/-- A run passes through a state and goes on from there with the rest of its labels. -/
def Passes (R : S → L → S → Prop) (s : S) (labels : List L) (t m : S) (rest : List L) : Prop :=
  ∃ first, labels = first ++ rest ∧ Run R s first m ∧ Run R m rest t

section Passes

variable {R : S → L → S → Prop} {s t u m : S} {labels rest : List L} {label : L}

/-- A run passes through the state before its last step. -/
theorem Passes.last (hrun : Run R s labels t) (hstep : R t label u) :
    Passes R s (labels ++ [label]) u t [label] :=
  ⟨labels, rfl, hrun, .snoc (.nil t) hstep⟩

/-- A longer run passes through the same states. -/
theorem Passes.snoc (h : Passes R s labels t m rest) (hstep : R t label u) :
    Passes R s (labels ++ [label]) u m (rest ++ [label]) := by
  obtain ⟨first, rfl, hfirst, hrest⟩ := h
  exact ⟨first, by rw [List.append_assoc], hfirst, .snoc hrest hstep⟩

/-- What a run of permitted steps passes through, it passes through by permitted steps. -/
theorem Passes.permitted {step : S → L → Option S} {ok : S → L → Prop}
    (hrun : Run (permitted ok (stepRel step)) s labels t)
    (h : Passes (stepRel step) s labels t m rest) :
    Passes (Lib.permitted ok (stepRel step)) s labels t m rest := by
  obtain ⟨first, rfl, hfirst, hrest⟩ := h
  obtain ⟨m', hfirst', hrest'⟩ := hrun.split
  obtain rfl := hfirst.unique (hfirst'.mono fun _ _ _ hstep => hstep.2)
  exact ⟨first, rfl, hfirst', hrest'⟩

end Passes

/-- Executing labels through a partial step function yields a run. -/
theorem Run.of_foldlM {step : S → L → Option S} {s t : S} {ls : List L}
    (h : ls.foldlM step s = some t) : Run (stepRel step) s ls t := by
  induction ls generalizing s with
  | nil =>
    have hst : s = t := by simpa using h
    exact hst ▸ .nil s
  | cons l ls ih =>
    obtain ⟨u, hu, hrest⟩ := Option.bind_eq_some_iff.mp h
    exact Run.append (.snoc (.nil s) hu) (ih hrest)

/-- Executing labels that are all permitted yields a run of permitted steps. -/
theorem Run.of_foldlM_permitted {step : S → L → Option S} {ok : S → L → Prop}
    [∀ s l, Decidable (ok s l)] {s t : S} {ls : List L}
    (h : ls.foldlM (fun s l => if ok s l then step s l else none) s = some t) :
    Run (permitted ok (stepRel step)) s ls t := by
  refine (Run.of_foldlM h).mono fun s l t hstep => ?_
  by_cases hok : ok s l
  · exact ⟨hok, by simpa [stepRel, hok] using hstep⟩
  · simp [stepRel, hok] at hstep

end Locus.Lib
