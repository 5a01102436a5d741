import Mathlib.Logic.Basic

/-!
# ExchangeLab.Lib.Transition

Labelled transition systems, given by their step relation: finite runs with the labels they took,
and the induction rules a safety proof starts from.

* `Run.invariant`: what holds at the start and survives every step holds at the end.
* `Run.history`: the same for a predicate that may look at the labels taken so far.
* `Run.mono`: a run is one of every step relation that allows more.
* `Run.of_fold`: iterating a step function is a run.
* `play`, `Run.of_play`, `Run.of_play_filter`: runs that are computed, move by move.
-/

namespace Transition

variable {S L : Type}

/-- `Run step s ls s'`: the labels `ls`, in order, lead from `s` to `s'`. -/
inductive Run (step : S → L → S → Prop) : S → List L → S → Prop
  | nil (s : S) : Run step s [] s
  | snoc {s s' s'' : S} {ls : List L} {l : L} :
      Run step s ls s' → step s' l s'' → Run step s (ls ++ [l]) s''

namespace Run

variable {step : S → L → S → Prop} {s s' s'' : S} {ls ls' : List L} {l : L}

/-- Only steps taken in the run count: each is given with the labels before it. -/
theorem history {P : List L → S → Prop} (h : Run step s ls s') (start : P [] s)
    (next : ∀ ls s₁ l s₂, Run step s ls s₁ → P ls s₁ → step s₁ l s₂ → P (ls ++ [l]) s₂) :
    P ls s' := by
  induction h with
  | nil => exact start
  | snoc hr hs ih => exact next _ _ _ _ hr ih hs

theorem invariant {P : S → Prop} (h : Run step s ls s') (start : P s)
    (next : ∀ s₁ l s₂, P s₁ → step s₁ l s₂ → P s₂) : P s' :=
  h.history (P := fun _ => P) start fun _ s₁ l s₂ _ => next s₁ l s₂

theorem append (h : Run step s ls s') (h' : Run step s' ls' s'') : Run step s (ls ++ ls') s'' := by
  induction h' with
  | nil => simpa using h
  | snoc _ hs ih => rw [← List.append_assoc]; exact ih.snoc hs

theorem cons (h : step s l s') (h' : Run step s' ls s'') : Run step s (l :: ls) s'' :=
  (Run.snoc (.nil s) h).append h'

theorem mono {step' : S → L → S → Prop} (h : Run step s ls s')
    (weaker : ∀ s₁ l s₂, step s₁ l s₂ → step' s₁ l s₂) : Run step' s ls s' := by
  induction h with
  | nil => exact .nil _
  | snoc _ hs ih => exact ih.snoc (weaker _ _ _ hs)

theorem of_fold (f : S → L → S) (s : S) (ls : List L) :
    Run (fun s l s' => s' = f s l) s ls (ls.foldl f s) := by
  induction ls generalizing s with
  | nil => exact .nil s
  | cons l ls ih => exact .cons rfl (ih (f s l))

end Run

/-! ## Runs that are computed -/

variable {M : Type}

/-- The moves are made one after the other, if each of them can be. -/
def play (perform : M → S → Option (L × S)) : List M → S → Option (List L × S)
  | [], s => some ([], s)
  | move :: moves, s =>
    (perform move s).bind fun next =>
      (play perform moves next.2).map fun rest => (next.1 :: rest.1, rest.2)

/-- Moves that are steps wherever a run has come to are a run. -/
theorem Run.of_play {step : S → L → S → Prop} {perform : M → S → Option (L × S)} {s₀ s s' : S}
    {ls ls' : List L} {moves : List M}
    (hstep : ∀ {ls s move l s'}, Run step s₀ ls s → perform move s = some (l, s') → step s l s')
    (h : Run step s₀ ls s) (hplay : play perform moves s = some (ls', s')) :
    Run step s₀ (ls ++ ls') s' := by
  induction moves generalizing ls ls' s with
  | nil =>
    cases hplay
    rwa [List.append_nil]
  | cons move moves ih =>
    obtain ⟨⟨l, s₁⟩, hfirst, hrest⟩ := Option.bind_eq_some_iff.mp hplay
    obtain ⟨⟨rest, s₂⟩, hlater, heq⟩ := Option.map_eq_some_iff.mp hrest
    cases heq
    have hall := ih (h.snoc (hstep h hfirst)) hlater
    rwa [List.append_assoc] at hall

/-- Moves that are made only where a check admits their steps are a run of such steps. -/
theorem Run.of_play_filter {step : S → L → S → Prop} {admitted : S → L → Prop} {s₀ s : S}
    {ls : List L} {moves : List M} (perform : M → S → Option (L × S)) (check : S → L → Bool)
    (hstep : ∀ {ls s move l s'}, Run step s₀ ls s → perform move s = some (l, s') → step s l s')
    (hcheck : ∀ {ls s l}, Run step s₀ ls s → check s l = true → admitted s l)
    (hplay : play (fun move s => (perform move s).filter fun next => check s next.1) moves s₀ =
      some (ls, s)) :
    Run (fun s l s' => step s l s' ∧ admitted s l) s₀ ls s := by
  refine Run.of_play (fun {ls s move l s'} hrun hmove => ?_) (.nil s₀) hplay
  obtain ⟨hperform, hadmitted⟩ := Option.filter_eq_some_iff.mp hmove
  have hrun' := hrun.mono fun _ _ _ hboth => hboth.1
  exact ⟨hstep hrun' hperform, hcheck hrun' hadmitted⟩

end Transition
