import Locus.Lib.Chunks

/-!
# Encoders that may break off

An encoder turns the items of a stream into events, one item at a time. A step that breaks
off returns the last events as its error; the rest of the stream is then not read.
-/

namespace Locus.Lib

variable {σ α β : Type*}

/-- Encode the items until a step breaks off. -/
def emitAll (step : σ → α → Except (List β) (σ × List β)) : σ → List α → List β
  | _, [] => []
  | state, item :: items =>
    match step state item with
    | .error last => last
    | .ok (next, emitted) => emitted ++ emitAll step next items

/-- What is sent for items none of which breaks off. -/
def outputs {ι : Type*} (next : σ → ι → σ) (sent : σ → ι → List β) : σ → List ι → List β
  | _, [] => []
  | state, item :: items => sent state item ++ outputs next sent (next state item) items

variable {step : σ → α → Except (List β) (σ × List β)} {state : σ} {items : List α}

/-- The last item is sent behind the others. -/
theorem outputs_concat {next : σ → α → σ} {sent : σ → α → List β} (state : σ) (items : List α)
    (item : α) : outputs next sent state (items ++ [item]) =
      outputs next sent state items ++ sent (items.foldl next state) item := by
  induction items generalizing state with
  | nil => exact List.append_nil _
  | cons first items ih => simp [outputs, ih]

/-- Items that do not break off are sent before the rest. -/
theorem emitAll_outputs {ι : Type*} {next : σ → ι → σ} {sent : σ → ι → List β} {wrap : ι → α}
    {items : List ι}
    (h : ∀ state, ∀ item ∈ items, step state (wrap item) = .ok (next state item, sent state item))
    (state : σ) (rest : List α) : emitAll step state (items.map wrap ++ rest) =
      outputs next sent state items ++ emitAll step (items.foldl next state) rest := by
  induction items generalizing state with
  | nil => rfl
  | cons item items ih =>
    have hitem := h state item List.mem_cons_self
    have hrest := ih (fun state item hmem => h state item (List.mem_cons_of_mem _ hmem))
    simp [emitAll, hitem, hrest, outputs]

end Locus.Lib
