import Gherkin.Proofs.StepArguments

/-!
# What a step is for

A conjunction continues the step in front of it, so what a step is for depends on
other steps.  These are the ones in front of it in its own container:

> `build_stepTypes`: in every container of the features a step is for what the last
> primary family up to it says, and the families are those of the step tokens in the
> slice of the container.

Steps elsewhere have no part in this, be they in another container, in a background
that is replaced, or in front of the first container.  The assembly has one memory of
the last primary family for the whole segment; every container that opens clears it,
and `AreResolved` says what it does within one.
-/

namespace Gherkin

namespace StepFamily

/-- The families that are no conjunctions. -/
def primary : List StepFamily := [givenStep, whenStep, thenStep]

/-- The last primary family in a list. -/
def lastPrimary? (families : List StepFamily) : Option StepFamily :=
  (families.filter (· ∈ primary)).getLast?

/-- What the last of some steps is for, by the families of them all.  With no primary
family among these it sets something up. -/
def standsFor (families : List StepFamily) : StepFamily := (lastPrimary? families).getD givenStep

theorem mem_primary {f : StepFamily} : f ∈ primary ↔ f.isConjunction = false := by
  cases f <;> decide

theorem lastPrimary?_concat (families : List StepFamily) (f : StepFamily) :
    lastPrimary? (families ++ [f]) = f.carry (lastPrimary? families) := by
  rw [lastPrimary?, List.filter_append, carry]
  by_cases hf : f ∈ primary
  · rw [List.filter_cons_of_pos (by simpa using hf), List.filter_nil, List.getLast?_concat,
      mem_primary.1 hf]
    rfl
  · rw [List.filter_cons_of_neg (by simpa using hf), List.filter_nil, List.append_nil, if_pos]
    · rfl
    · simpa [mem_primary] using hf

theorem standsFor_concat (families : List StepFamily) (f : StepFamily) :
    standsFor (families ++ [f]) = f.resolve (lastPrimary? families) := by
  rw [standsFor, lastPrimary?_concat, carry, resolve]
  split <;> rfl

/-- A step is for what a primary family says. -/
theorem standsFor_mem_primary (families : List StepFamily) : standsFor families ∈ primary := by
  rw [standsFor]
  cases h : lastPrimary? families with
  | none => decide
  | some f =>
    have hmem := List.mem_of_getLast? h
    exact of_decide_eq_true (List.mem_filter.1 hmem).2

end StepFamily

open StepFamily

/-- Each step is for what the families up to it say, and that is no conjunction. -/
structure Container.IsResolved (c : Container) : Prop where
  stepType : ∀ i s, c.steps[i]? = some s →
    s.stepType = standsFor ((c.steps.take (i + 1)).map Step.family)
  primary : ∀ s ∈ c.steps, s.stepType ∈ primary

/-- Step by step: what is carried to a step is the last primary family in front of it. -/
theorem AreResolved.stepType {before : List StepFamily} {steps : List Step}
    (h : AreResolved (lastPrimary? before) steps) {front back : List Step} {s : Step}
    (hs : steps = front ++ s :: back) :
    s.stepType = standsFor (before ++ (front ++ [s]).map Step.family) := by
  induction front generalizing before steps with
  | nil =>
    subst hs
    rw [List.nil_append, List.map_singleton, standsFor_concat]
    exact h.1
  | cons u front ih =>
    subst hs
    have hrest := h.2
    rw [← lastPrimary?_concat] at hrest
    rw [ih hrest rfl, List.append_assoc]
    rfl

theorem isResolved_of_areResolved {c : Container} (h : AreResolved none c.steps) :
    c.IsResolved := by
  have hstep : ∀ i s, c.steps[i]? = some s →
      s.stepType = standsFor ((c.steps.take (i + 1)).map Step.family) := by
    intro i s hs
    obtain ⟨hi, hget⟩ := List.getElem?_eq_some_iff.1 hs
    have hsplit : c.steps = c.steps.take i ++ s :: c.steps.drop (i + 1) := by
      rw [← hget, ← List.drop_eq_getElem_cons hi, List.take_append_drop]
    have htake : c.steps.take (i + 1) = c.steps.take i ++ [s] := by
      rw [List.take_succ_eq_append_getElem hi, hget]
    have hstart : AreResolved (lastPrimary? []) c.steps := h
    rw [htake]
    exact hstart.stepType hsplit
  refine ⟨hstep, fun s hs => ?_⟩
  obtain ⟨i, hi⟩ := List.mem_iff_getElem?.1 hs
  rw [hstep i s hi]
  exact standsFor_mem_primary _

/-- The families of the steps in a slice. -/
theorem Reading.steps_families (slice : List Token) :
    (steps slice).map Step.family = slice.filterMap Token.family? := by
  have hheads : (steps slice).map Step.family =
      ((parts Token.isStep slice).map Part.head).map fun t => t.family?.getD .givenStep := by
    rw [steps, List.map_map, List.map_map]
    rfl
  rw [hheads, parts_map_head, ← List.filterMap_eq_map, List.filterMap_filter]
  apply List.filterMap_congr
  intro t _
  cases hk : t.kind <;> simp [Token.isStep, TokenKind.isStep, Token.family?, hk]

/-- **What a step is for is settled in its container.**  It is what the last primary
family says among the steps of the container up to this one, and a first step that is a
conjunction sets something up.  The families are those of the step tokens that stand in
the slice of the container, and of no others. -/
theorem build_stepTypes (ts : List Token) :
    (∀ f ∈ build ts, ∀ c ∈ f.containers, c.IsResolved) ∧
      List.Forall₂ (fun q f => List.Forall₂
          (fun r c => c.steps.map Step.family = r.slice.filterMap Token.family?)
          (keptContainers q) f.containers)
        (parts Token.isFeature ts) (build ts) := by
  constructor
  · intro f hf c hc
    rw [build_eq_features] at hf
    obtain ⟨q, -, rfl⟩ := List.mem_map.1 hf
    rw [Reading.feature_containers] at hc
    obtain ⟨r, -, rfl⟩ := List.mem_map.1 hc
    exact isResolved_of_areResolved (Reading.areResolved_steps r.slice)
  · apply forall₂_build
    intro q _
    rw [Reading.feature_containers, List.forall₂_map_right_iff, List.forall₂_same]
    exact fun r _ => Reading.steps_families r.slice

end Gherkin
