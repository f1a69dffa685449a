import Gherkin.Proofs.Assembling

/-!
# The outline of a feature

What stands in a document stands in its features, and nothing else does: there
is one feature for each feature token, and everything in it is opened by a token
of its body.  The body of a feature are the tokens behind its feature token up
to the next one; the slice of a container are the tokens behind it up to the
next container in the body.

> `build_outline`: the features of `build` and the feature tokens correspond one
> to one, in order, and so do scenarios, steps and examples below them.
-/

namespace Gherkin

/-- `c` is the node that the head of `q` opens: its steps are the step tokens of
the slice. -/
structure Container.OpenedBy (q : Part Token) (c : Container) : Prop where
  keyword : c.keyword = q.head.keyword
  name : c.name = q.head.text
  steps : c.steps.map (fun s => (TokenKind.step s.family, s.keyword, s.name)) =
    (q.slice.filter Token.isStep).map fun t => (t.kind, t.keyword, t.text)

/-- `i` is the entry that the head of `q` opens; the examples of an outline are
the examples tokens of the slice. -/
structure ScenarioItem.OpenedBy (q : Part Token) (i : ScenarioItem) : Prop where
  kind : i.kind = q.head.kind
  container : i.container.OpenedBy q
  examples : ∀ es, i.examples? = some es →
    es.map (fun e => (e.keyword, e.name)) =
      (q.slice.filter Token.isExamples).map fun t => (t.keyword, t.text)

/-- `f` is the feature that the head of `q` opens, with the slice as its body. -/
structure Feature.OpenedBy (q : Part Token) (f : Feature) : Prop where
  keyword : f.keyword = q.head.keyword
  name : f.name = q.head.text
  description : f.description =
    (q.slice.filter (fun t => t.kind == .description)).getLast?.map (·.text)
  background : Option.Rel Container.OpenedBy
    ((parts Token.isContainer q.slice).filter (·.head.kind == .background)).getLast? f.background
  scenarios : List.Forall₂ ScenarioItem.OpenedBy
    ((parts Token.isContainer q.slice).filter (·.head.kind != .background)) f.scenarios

namespace Reading

theorem description_eq (body : List Token) :
    description body = (body.filter (fun t => t.kind == .description)).getLast?.map (·.text) := by
  rw [description, ← List.getLast?_map, ← List.filterMap_eq_map, List.filterMap_filter]
  congr 1
  apply List.filterMap_congr
  intro t _
  cases hk : t.kind <;> simp [Token.description?, hk]

theorem steps_outline (slice : List Token) :
    (steps slice).map (fun s => (TokenKind.step s.family, s.keyword, s.name)) =
      (slice.filter Token.isStep).map fun t => (t.kind, t.keyword, t.text) := by
  rw [steps, ← parts_map_head, List.map_map, List.map_map]
  apply List.map_congr_left
  intro q hq
  obtain ⟨rest, -, hs, -⟩ := mem_parts.1 hq
  cases hk : q.head.kind <;>
    simp_all [Token.isStep, TokenKind.isStep, step, Token.family?]

theorem tables_outline (slice : List Token) :
    (tables slice).map (fun e => (e.keyword, e.name)) =
      (slice.filter Token.isExamples).map fun t => (t.keyword, t.text) := by
  rw [tables, ← parts_map_head, List.map_map, List.map_map]
  rfl

theorem node_openedBy (q : Part Token) : (node q).OpenedBy q :=
  ⟨rfl, rfl, steps_outline q.slice⟩

theorem item_openedBy {q : Part Token} (hc : q.head.isContainer = true)
    (hb : isBackground q = false) : (item q).OpenedBy q := by
  have hcases : q.head.kind = .scenario ∨ q.head.kind = .scenarioOutline := by
    cases hk : q.head.kind <;>
      simp_all [Token.isContainer, TokenKind.isContainer, isBackground]
  rcases hcases with hk | hk
  · have hi : item q = .scenario (node q) := by simp [item, hk]
    rw [hi]
    exact ⟨hk.symm, node_openedBy q, fun es hes => by simp [ScenarioItem.examples?] at hes⟩
  · have hi : item q = .outline ⟨node q, tables q.slice⟩ := by simp [item, hk]
    rw [hi]
    refine ⟨hk.symm, node_openedBy q, fun es hes => ?_⟩
    obtain rfl := Option.some.inj hes
    exact tables_outline q.slice

theorem feature_openedBy (q : Part Token) : (feature q).OpenedBy q := by
  refine ⟨rfl, rfl, description_eq q.slice, ?_, ?_⟩
  · rw [feature_background]
    show Option.Rel _ ((parts Token.isContainer q.slice).filter isBackground).getLast? _
    cases ((parts Token.isContainer q.slice).filter isBackground).getLast? with
    | none => exact .none
    | some r => exact .some (node_openedBy r)
  · rw [feature_scenarios, List.forall₂_map_right_iff]
    show List.Forall₂ _ ((parts Token.isContainer q.slice).filter (fun r => !isBackground r)) _
    rw [List.forall₂_same]
    intro r hr
    obtain ⟨hr, hb⟩ := List.mem_filter.1 hr
    obtain ⟨-, -, hc, -⟩ := mem_parts.1 hr
    exact item_openedBy hc (by simpa using hb)

end Reading

/-- **Nothing is added and nothing is lost.**  Every feature token gives a
feature, and below it the background is the last one of the body, the scenario
list has all scenarios and outlines of the body, and each of these has all steps
and examples of its slice, always in the order of the tokens. -/
theorem build_outline (ts : List Token) :
    List.Forall₂ Feature.OpenedBy (parts Token.isFeature ts) (build ts) :=
  forall₂_build fun q _ => Reading.feature_openedBy q

end Gherkin
