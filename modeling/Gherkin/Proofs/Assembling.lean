import Gherkin.Proofs.Reading
import Mathlib.Data.List.Forall2

/-!
# An assembly holds what its tokens say

`Reads h body a` describes an assembly that has taken the tokens `body` behind a
feature token with heading `h`, in the terms of `Reading`: the containers of
`body` but the last have joined the feature, the last one is open.  Every token
that is no feature token preserves the description (`Reads.place`), so it holds
at the end of a segment, where the open container joins the others.

> `build_eq_features`: `build ts = Reading.features ts`.
-/

namespace Gherkin

open Reading

namespace Reading

theorem featureOf_join (h : Heading) (d : Option Text) (cs : List OpenContainer)
    (c : OpenContainer) : Assembly.join (featureOf h d cs) c = featureOf h d (cs ++ [c]) := by
  cases c <;> simp [Assembly.join, featureOf, background?, item?]

theorem description_concat (body : List Token) (t : Token) :
    description (body ++ [t]) =
      match t.description? with
      | some d => some d
      | none => description body := by
  cases ht : t.description? with
  | none => simp [description, ht]
  | some d => simp [description, ht]

theorem container_steps (q : Part Token) : (container q).steps = steps q.slice := by
  unfold container
  split <;> rfl

/-- Only the steps of a container change with a token that its examples do not take. -/
theorem container_snoc_of_tables {q : Part Token} {t : Token}
    (h : tables (q.slice ++ [t]) = tables q.slice) :
    container (q.snoc t) = (container q).withSteps (steps (q.slice ++ [t])) := by
  simp only [container, node, heading, Part.snoc_head, Part.snoc_before, Part.snoc_slice, h]
  split <;> rfl

/-- Only an outline changes with a token that its steps do not take. -/
theorem container_snoc_of_steps {q : Part Token} {t : Token}
    (h : steps (q.slice ++ [t]) = steps q.slice) :
    container (q.snoc t) =
      match container q with
      | .outline o => .outline { o with examples := tables (q.slice ++ [t]) }
      | c => c := by
  simp only [container, node, heading, Part.snoc_head, Part.snoc_before, Part.snoc_slice, h]
  split <;> rfl

/-- The entry of the scenario list that a scenario or outline token opens. -/
def item (q : Part Token) : ScenarioItem :=
  match q.head.kind with
  | .scenarioOutline => .outline ⟨node q, tables q.slice⟩
  | _ => .scenario (node q)

/-- The parts of the body that are backgrounds, and those that are not. -/
def isBackground (q : Part Token) : Bool := q.head.kind == .background

theorem containers_background? (body : List Token) :
    (containers body).filterMap background? =
      ((parts Token.isContainer body).filter isBackground).map node := by
  rw [containers, List.filterMap_map, ← List.filterMap_eq_map, List.filterMap_filter]
  apply List.filterMap_congr
  intro r _
  cases hk : r.head.kind <;> simp [container, isBackground, background?, hk]

theorem containers_item? (body : List Token) :
    (containers body).filterMap item? =
      ((parts Token.isContainer body).filter (fun r => !isBackground r)).map item := by
  rw [containers, List.filterMap_map, ← List.filterMap_eq_map, List.filterMap_filter]
  apply List.filterMap_congr
  intro r _
  cases hk : r.head.kind <;> simp [container, isBackground, item?, item, hk]

/-- The background is that of the last background token. -/
theorem feature_background (q : Part Token) :
    (feature q).background =
      ((parts Token.isContainer q.slice).filter isBackground).getLast?.map node := by
  show ((containers q.slice).filterMap background?).getLast? = _
  rw [containers_background?, List.getLast?_map]

/-- The scenario list is that of the other container tokens. -/
theorem feature_scenarios (q : Part Token) :
    (feature q).scenarios =
      ((parts Token.isContainer q.slice).filter (fun r => !isBackground r)).map item :=
  containers_item? q.slice

theorem container_eq_outline {q : Part Token} {o : Outline} (h : container q = .outline o) :
    o.examples = tables q.slice := by
  unfold container at h
  split at h
  · cases h
  · cases h
    rfl
  · cases h

end Reading

namespace OpenContainer

@[simp] theorem withSteps_steps (c : OpenContainer) : c.withSteps c.steps = c := by
  cases c <;> rfl

end OpenContainer

namespace Assembly

/-- An argument goes to the last step of the open container, if there is one. -/
theorem attach_container (a : Assembly) (argument : StepArgument) (e : Event) :
    (a.attach argument e).container =
      a.container.map fun c => c.withSteps
        (modifyLast (fun s => { s with arguments := s.arguments ++ [argument] }) c.steps) := by
  unfold attach
  split
  next hc => rw [hc]; exact hc
  next c hc =>
    split
    next hs =>
      have hnil : c.steps = [] := List.isEmpty_iff.1 hs
      rw [hc, Option.map_some, hnil, modifyLast, ← hnil, OpenContainer.withSteps_steps]
      exact hc
    next => rw [hc]; rfl

/-- Nothing else changes, reports apart. -/
theorem attach_frame (a : Assembly) (argument : StepArgument) (e : Event) :
    (a.attach argument e).feature = a.feature ∧ (a.attach argument e).tags = a.tags ∧
      (a.attach argument e).rows = a.rows ∧ (a.attach argument e).previous = a.previous := by
  unfold attach
  split
  · exact ⟨rfl, rfl, rfl, rfl⟩
  · split <;> exact ⟨rfl, rfl, rfl, rfl⟩

/-- Tags go on waiting when a container is closed. -/
theorem close_tags (a : Assembly) : a.close.tags = a.tags := by
  unfold close
  split
  · rfl
  · split <;> rfl

end Assembly

/-- What an assembly holds that has taken the tokens `body` behind its feature token. -/
structure Reads (h : Heading) (body : List Token) (a : Assembly) : Prop where
  feature : a.feature =
    some (featureOf h (description body) ((parts Token.isContainer body).dropLast.map container))
  tags : a.tags = waitingTags body
  container : a.container = (parts Token.isContainer body).getLast?.map container
  rows : ∀ q, (parts Token.isContainer body).getLast? = some q → a.rows = rowOwner q.slice
  previous : ∀ q, (parts Token.isContainer body).getLast? = some q →
    a.previous = lastPrimary q.slice

namespace Reads

variable {h : Heading} {body : List Token} {a : Assembly} {t : Token}

/-- Behind the feature token nothing has been taken yet. -/
theorem start (h : Heading) (log : List Event) :
    Reads h [] { feature := some ⟨h, none, none, []⟩, log := log } :=
  ⟨rfl, rfl, rfl, by simp, by simp⟩

/-- Tags wait since the last container, or since examples in it. -/
theorem tags_of_open (hr : Reads h body a) {q : Part Token}
    (hq : (parts Token.isContainer body).getLast? = some q) : a.tags = waitingTags q.slice := by
  obtain ⟨hbody, hc⟩ := eq_of_getLast?_parts hq
  rw [hr.tags, hbody, waitingTags_append_cons (by simp [Token.opensNode, hc])]

/-- What a token must do to a reading assembly if it opens no container: the
open container, if there is one, takes it into its slice. -/
theorem snoc {a' : Assembly} (hr : Reads h body a) (ht : t.isContainer = false)
    (hfeature : a'.feature =
      some (featureOf h (description (body ++ [t]))
        ((parts Token.isContainer body).dropLast.map Reading.container)))
    (htags : a'.tags = waitingTags (body ++ [t]))
    (hnone : a.container = none → a'.container = none)
    (hsome : ∀ q, (parts Token.isContainer body).getLast? = some q →
      a.container = some (Reading.container q) →
        a'.container = some (Reading.container (q.snoc t)) ∧
        a'.rows = rowOwner (q.slice ++ [t]) ∧ a'.previous = lastPrimary (q.slice ++ [t])) :
    Reads h (body ++ [t]) a' := by
  have hparts := parts_concat_of_neg ht body
  have hc := hr.container
  cases hq : (parts Token.isContainer body).getLast? with
  | none =>
    -- no container is open, and the token does not open one
    rw [hq] at hc
    refine ⟨by rw [hparts, dropLast_modifyLast, hfeature], htags, ?_, ?_, ?_⟩ <;>
      rw [hparts, getLast?_modifyLast, hq]
    · exact hnone hc
    · simp
    · simp
  | some q =>
    rw [hq] at hc
    obtain ⟨h1, h2, h3⟩ := hsome q hq hc
    refine ⟨by rw [hparts, dropLast_modifyLast, hfeature], htags, ?_, ?_, ?_⟩ <;>
      rw [hparts, getLast?_modifyLast, hq]
    · exact h1
    · rintro r hr
      obtain rfl := Option.some.inj hr
      exact h2
    · rintro r hr
      obtain rfl := Option.some.inj hr
      exact h3

/-- What a token leaves alone that adds nothing to a container. -/
theorem container_snoc_of_share {q : Part Token} (hs : t.isStep = false)
    (he : t.isExamples = false) (hstep : stepShare (rowOwner q.slice) t = none)
    (htable : tableShare (rowOwner q.slice) t = none) :
    Reading.container (q.snoc t) = Reading.container q := by
  have hsteps : steps (q.slice ++ [t]) = steps q.slice := by
    rw [steps_concat_of_not_step hs, hstep]
    simp
  have htables : tables (q.slice ++ [t]) = tables q.slice := by
    rw [tables_concat_of_not_examples he, htable]
    simp
  rw [container_snoc_of_steps hsteps, htables]
  split
  next o ho => rw [ho, ← container_eq_outline ho]
  next => rfl

/-- What a token must do that opens nothing, is no tag and no description: only
the open container may change. -/
theorem inside {a' : Assembly} (hr : Reads h body a) (hopen : t.opensNode = false)
    (htag : t.isTag = false) (hd : t.description? = none) (hfeature : a'.feature = a.feature)
    (htags : a'.tags = a.tags) (hnone : a.container = none → a'.container = none)
    (hsome : ∀ q, (parts Token.isContainer body).getLast? = some q →
      a.container = some (Reading.container q) →
        a'.container = some (Reading.container (q.snoc t)) ∧
        a'.rows = rowOwner (q.slice ++ [t]) ∧ a'.previous = lastPrimary (q.slice ++ [t])) :
    Reads h (body ++ [t]) a' := by
  have ht : t.isContainer = false := by
    cases hc : t.isContainer with
    | false => rfl
    | true => simp [Token.opensNode, hc] at hopen
  apply hr.snoc ht _ _ hnone hsome
  · rw [hfeature, hr.feature, description_concat, hd]
  · rw [htags, hr.tags, waitingTags_concat, hopen, htag]
    rfl

/-- Tags and descriptions have no share in the open container. -/
theorem aside {a' : Assembly} (hr : Reads h body a)
    (hk : t.kind = .tag ∨ t.kind = .description)
    (hfeature : a'.feature =
      some (featureOf h (description (body ++ [t]))
        ((parts Token.isContainer body).dropLast.map Reading.container)))
    (htags : a'.tags = waitingTags (body ++ [t])) (hcontainer : a'.container = a.container)
    (hrows : a'.rows = a.rows) (hprevious : a'.previous = a.previous) :
    Reads h (body ++ [t]) a' := by
  have ht : t.isContainer = false := by
    rcases hk with hk | hk <;> simp [Token.isContainer, TokenKind.isContainer, hk]
  have hs : t.isStep = false := by
    rcases hk with hk | hk <;> simp [Token.isStep, TokenKind.isStep, hk]
  have he : t.isExamples = false := by
    rcases hk with hk | hk <;> simp [Token.isExamples, hk]
  have hf : t.family? = none := by
    rcases hk with hk | hk <;> simp [Token.family?, hk]
  apply hr.snoc ht hfeature htags
  · intro hc
    rw [hcontainer, hc]
  · intro q hq hc
    refine ⟨?_, ?_, ?_⟩
    · rw [hcontainer, hc, container_snoc_of_share hs he] <;> rcases hk with hk | hk <;>
        cases rowOwner q.slice <;>
        simp [stepShare, tableShare, Token.argument?, Token.block?, Token.row?, hk]
    · rw [hrows, hr.rows q hq, rowOwner_concat, hs, he]
      rfl
    · rw [hprevious, hr.previous q hq, lastPrimary_concat, hf]

theorem tag (hr : Reads h body a) (hk : t.kind = .tag) : Reads h (body ++ [t]) (a.place t) := by
  have hplace : a.place t = { a with tags := a.tags ++ [⟨t.text⟩] } := by simp [Assembly.place, hk]
  rw [hplace]
  refine hr.aside (Or.inl hk) ?_ ?_ rfl rfl rfl
  · show a.feature = _
    rw [hr.feature, description_concat]
    simp [Token.description?, hk]
  · show a.tags ++ _ = _
    rw [waitingTags_concat, hr.tags]
    simp [Token.opensNode, Token.isFeature, Token.isContainer, TokenKind.isContainer,
      Token.isExamples, Token.isTag, hk]

theorem describe (hr : Reads h body a) (hk : t.kind = .description) :
    Reads h (body ++ [t]) (a.place t) := by
  have hplace : a.place t = { a with
      feature := some (featureOf h (some t.text)
        ((parts Token.isContainer body).dropLast.map Reading.container)) } := by
    simp [Assembly.place, Assembly.placeDescription, hk, hr.feature, featureOf]
  rw [hplace]
  refine hr.aside (Or.inr hk) ?_ ?_ rfl rfl rfl
  · rw [description_concat]
    simp [Token.description?, hk]
  · show a.tags = _
    rw [waitingTags_concat, hr.tags]
    simp [Token.opensNode, Token.isFeature, Token.isContainer, TokenKind.isContainer,
      Token.isExamples, Token.isTag, hk]

theorem step {f : StepFamily} (hr : Reads h body a) (hk : t.kind = .step f) :
    Reads h (body ++ [t]) (a.place t) := by
  have he : t.isExamples = false := by simp [Token.isExamples, hk]
  have hplace : a.place t = a.placeStep t f := by simp [Assembly.place, hk]
  rw [hplace]
  apply hr.inside <;>
    try simp [Token.opensNode, Token.isFeature, Token.isContainer, TokenKind.isContainer,
      Token.isExamples, Token.isTag, Token.description?, hk]
  · unfold Assembly.placeStep
    split <;> rfl
  · unfold Assembly.placeStep
    split <;> rfl
  · intro hc
    simp [Assembly.placeStep, Assembly.report, hc]
  · intro q hq hc
    have htables : tables (q.slice ++ [t]) = tables q.slice := by
      rw [tables_concat_of_not_examples he]
      cases rowOwner q.slice <;> simp [tableShare, Token.row?, hk]
    rw [container_snoc_of_tables htables, steps_concat_of_step hk, ← container_steps,
      ← hr.previous q hq, rowOwner_concat, lastPrimary_concat, ← hr.previous q hq]
    simp [Assembly.placeStep, hc, he, Token.isStep, TokenKind.isStep, Token.family?, hk]

theorem block (hr : Reads h body a) (hk : t.kind = .block) :
    Reads h (body ++ [t]) (a.place t) := by
  have he : t.isExamples = false := by simp [Token.isExamples, hk]
  have hs : t.isStep = false := by simp [Token.isStep, TokenKind.isStep, hk]
  have hplace : a.place t = a.attach (.block t.text) (.blockWithoutStep t.line) := by
    simp [Assembly.place, hk]
  obtain ⟨hfeature, htags, hrows, hprevious⟩ :=
    a.attach_frame (.block t.text) (.blockWithoutStep t.line)
  rw [hplace]
  apply hr.inside _ _ _ hfeature htags <;>
    try simp [Token.opensNode, Token.isFeature, Token.isContainer, TokenKind.isContainer,
      Token.isExamples, Token.isTag, Token.description?, hk]
  · intro hc
    rw [Assembly.attach_container, hc]
    rfl
  · intro q hq hc
    have htables : tables (q.slice ++ [t]) = tables q.slice := by
      rw [tables_concat_of_not_examples he]
      cases rowOwner q.slice <;> simp [tableShare, Token.row?, hk]
    have hshare : stepShare (rowOwner q.slice) t = some (.block t.text) := by
      cases rowOwner q.slice <;> simp [stepShare, Token.argument?, Token.block?, hk]
    refine ⟨?_, ?_, ?_⟩
    · rw [Assembly.attach_container, hc, container_snoc_of_tables htables,
        steps_concat_of_not_step hs, hshare, ← container_steps]
      rfl
    · rw [hrows, hr.rows q hq, rowOwner_concat, he, hs]
      rfl
    · rw [hprevious, hr.previous q hq, lastPrimary_concat]
      simp [Token.family?, hk]

theorem examples (hr : Reads h body a) (hk : t.kind = .examples) :
    Reads h (body ++ [t]) (a.place t) := by
  have ht : t.isContainer = false := by simp [Token.isContainer, TokenKind.isContainer, hk]
  have he : t.isExamples = true := by simp [Token.isExamples, hk]
  have hs : t.isStep = false := by simp [Token.isStep, TokenKind.isStep, hk]
  have hplace : a.place t = a.placeExamples t := by simp [Assembly.place, hk]
  rw [hplace]
  apply hr.snoc ht
  · rw [description_concat]
    simp only [Token.description?, hk]
    rw [← hr.feature]
    unfold Assembly.placeExamples
    split <;> rfl
  · rw [waitingTags_concat]
    simp only [Token.opensNode, he, Bool.or_true, if_true]
    unfold Assembly.placeExamples
    split <;> rfl
  · intro hc
    simp [Assembly.placeExamples, Assembly.report, hc]
  · intro q hq hc
    have hsteps : steps (q.slice ++ [t]) = steps q.slice := by
      rw [steps_concat_of_not_step hs]
      cases rowOwner q.slice <;> simp [stepShare, Token.argument?, Token.block?, hk]
    rw [container_snoc_of_steps hsteps, rowOwner_concat, he, lastPrimary_concat,
      ← hr.previous q hq]
    simp only [Assembly.placeExamples, hc, Token.family?, hk, if_true]
    split
    next o ho =>
      have hco : Reading.container q = .outline o := Option.some.inj ho
      rw [hco, tables_concat_of_examples he, ← container_eq_outline hco, ← hr.tags_of_open hq]
      exact ⟨rfl, rfl, rfl⟩
    next hno =>
      -- examples outside an outline leave nothing but the direction of the rows
      refine ⟨?_, rfl, rfl⟩
      show some (Reading.container q) = _
      split
      next o hco => exact absurd (congrArg some hco) (hno o)
      next => rfl

/-- A row behind a step goes to it, and one behind examples goes to these. -/
theorem row (hr : Reads h body a) (hk : t.kind = .row) : Reads h (body ++ [t]) (a.place t) := by
  have he : t.isExamples = false := by simp [Token.isExamples, hk]
  have hs : t.isStep = false := by simp [Token.isStep, TokenKind.isStep, hk]
  have hplace : a.place t = a.placeRow t := by simp [Assembly.place, hk]
  have hframe : (a.placeRow t).feature = a.feature ∧ (a.placeRow t).tags = a.tags ∧
      (a.placeRow t).rows = a.rows ∧ (a.placeRow t).previous = a.previous := by
    unfold Assembly.placeRow
    split
    · exact a.attach_frame _ _
    · split
      · split <;> exact ⟨rfl, rfl, rfl, rfl⟩
      · exact ⟨rfl, rfl, rfl, rfl⟩
  obtain ⟨hfeature, htags, hrows, hprevious⟩ := hframe
  rw [hplace]
  apply hr.inside _ _ _ hfeature htags <;>
    try simp [Token.opensNode, Token.isFeature, Token.isContainer, TokenKind.isContainer,
      Token.isExamples, Token.isTag, Token.description?, hk]
  · intro hc
    unfold Assembly.placeRow
    split
    · rw [Assembly.attach_container, hc]
      rfl
    · simp [Assembly.report, hc]
  · intro q hq hc
    refine ⟨?_, ?_, ?_⟩
    · have howner := hr.rows q hq
      cases ho : a.rows with
      | step =>
        rw [ho] at howner
        have htables : tables (q.slice ++ [t]) = tables q.slice := by
          rw [tables_concat_of_not_examples he, ← howner]
          simp [tableShare]
        rw [container_snoc_of_tables htables, steps_concat_of_not_step hs, ← howner,
          ← container_steps]
        simp [Assembly.placeRow, ho, Assembly.attach_container, hc, stepShare, Token.argument?, hk]
      | examples =>
        rw [ho] at howner
        have hsteps : steps (q.slice ++ [t]) = steps q.slice := by
          rw [steps_concat_of_not_step hs, ← howner]
          simp [stepShare, Token.block?, hk]
        rw [container_snoc_of_steps hsteps, tables_concat_of_not_examples he, ← howner]
        simp only [Assembly.placeRow, ho, hc]
        cases hco : Reading.container q with
        | outline o =>
          -- rows go to examples, so there are some
          have htables := container_eq_outline hco
          have hne : tables q.slice ≠ [] := tables_ne_nil howner.symm
          simp [hne, htables, tableShare, Token.row?, hk]
        | background c => exact hc.trans (congrArg some hco)
        | scenario c => exact hc.trans (congrArg some hco)
    · rw [hrows, hr.rows q hq, rowOwner_concat, he, hs]
      rfl
    · rw [hprevious, hr.previous q hq, lastPrimary_concat]
      simp [Token.family?, hk]

/-- An open container joins the feature. -/
theorem close_feature (hr : Reads h body a) :
    a.close.feature = some (featureOf h (description body) (containers body)) := by
  have hc := hr.container
  have hf := hr.feature
  unfold Assembly.close containers
  rcases List.eq_nil_or_concat' (parts Token.isContainer body) with hp | ⟨qs, q, hp⟩
  · rw [hp] at hc hf ⊢
    simp only [List.getLast?_nil, Option.map_none] at hc
    rw [hc]
    exact hf
  · -- the parts before the last have joined already
    rw [hp, List.getLast?_concat, Option.map_some] at hc
    rw [hp, List.dropLast_concat] at hf
    rw [hc, hf, hp, List.map_append, List.map_singleton, ← featureOf_join]

theorem enter (hr : Reads h body a) (ht : t.isContainer = true) :
    Reads h (body ++ [t]) (a.enter (Reading.container ⟨body, t, []⟩)) := by
  have hparts := parts_concat_of_pos ht body
  have hd : t.description? = none := by
    cases hk : t.kind <;>
      simp_all [Token.isContainer, TokenKind.isContainer, Token.description?]
  refine ⟨?_, ?_, ?_, ?_, ?_⟩
  · show a.close.feature = _
    rw [hr.close_feature, hparts, List.dropLast_concat, description_concat, hd]
    rfl
  · rw [waitingTags_concat]
    simp [Token.opensNode, ht, Assembly.enter]
  · rw [hparts, List.getLast?_concat]
    rfl
  all_goals
    intro q hq
    rw [hparts, List.getLast?_concat, Option.some.injEq] at hq
    subst hq
    rfl

/-- Every token of the body is taken as the reading says. -/
theorem place (hr : Reads h body a) (ht : t.isFeature = false) :
    Reads h (body ++ [t]) (a.place t) := by
  have hcontainer (hc : t.isContainer = true)
      (hplace : a.place t = a.enter (Reading.container ⟨body, t, []⟩)) :
      Reads h (body ++ [t]) (a.place t) := by
    rw [hplace]
    exact hr.enter hc
  cases hk : t.kind with
  | feature => simp [Token.isFeature, hk] at ht
  | background | scenario | scenarioOutline =>
    apply hcontainer
    · simp [Token.isContainer, TokenKind.isContainer, hk]
    · simp [Assembly.place, Assembly.heading, Reading.container, node, heading, steps, tables, hk,
        hr.tags]
  | examples => exact hr.examples hk
  | tag => exact hr.tag hk
  | step f => exact hr.step hk
  | description => exact hr.describe hk
  | row => exact hr.row hk
  | block => exact hr.block hk

/-- The whole body is taken as the reading says. -/
theorem foldl (hr : Reads h [] a) (hbody : ∀ t ∈ body, t.isFeature = false) :
    Reads h body (body.foldl Assembly.place a) := by
  induction body using List.reverseRecOn with
  | nil => exact hr
  | append_singleton body t ih =>
    rw [List.foldl_append]
    exact (ih fun u hu => hbody u (List.mem_append_left _ hu)).place (hbody t (by simp))

end Reads

/-! ## From segments to features -/

/-- Tags only wait. -/
theorem foldl_place_tags {tags : List Token} (htags : ∀ t ∈ tags, t.isTag = true) (a : Assembly) :
    tags.foldl Assembly.place a = { a with tags := a.tags ++ tags.map fun t => ⟨t.text⟩ } := by
  induction tags generalizing a with
  | nil => simp
  | cons t tags ih =>
    have hk := Token.kind_of_isTag (htags t (by simp))
    rw [List.foldl_cons, ih fun u hu => htags u (List.mem_cons_of_mem _ hu)]
    simp [Assembly.place, hk]

/-- The end of a segment reports what waits; the feature is that of `close`. -/
theorem complete_feature (a : Assembly) : a.complete.feature = a.close.feature := by
  unfold Assembly.complete
  dsimp only
  split <;> rfl

/-- Tags that wait at the end do not reach the feature. -/
theorem close_feature_tags (a : Assembly) (tags : List Tag) :
    ({ a with tags := tags } : Assembly).close.feature = a.close.feature := by
  unfold Assembly.close
  dsimp only
  split
  · rfl
  · split <;> rfl

/-- The start of a segment are tags and the feature token, which bears them; so its
body is taken behind a feature that has nothing yet. -/
theorem ofTokens_eq {q : Part Token} (hq : q.head.isFeature = true) :
    Assembly.ofTokens (segmentOf q) =
      ((dropTrailing Token.isTag q.slice).foldl Assembly.place
        { feature := some ⟨featureHeading q, none, none, []⟩ }).complete := by
  have hk := Token.kind_of_isFeature hq
  rw [Assembly.ofTokens, segmentOf, List.foldl_append,
    foldl_place_tags fun t ht => of_mem_takeTrailing ht]
  simp [Assembly.place, Assembly.heading, featureHeading, hk]

/-- A segment gives the feature that its feature token opens. -/
theorem ofTokens_segmentOf {ts : List Token} {q : Part Token} (hq : q ∈ parts Token.isFeature ts) :
    (Assembly.ofTokens (segmentOf q)).feature = some (feature q) := by
  have hbody : ∀ t ∈ q.slice, t.isFeature = false := of_mem_slice hq
  have hreads := (Reads.start (featureHeading q) []).foldl hbody
  -- the tags that the segment leaves to the next one would only wait
  have htags : ((dropTrailing Token.isTag q.slice).foldl Assembly.place
        { feature := some ⟨featureHeading q, none, none, []⟩ }).close.feature =
      some (feature q) := by
    rw [← dropTrailing_append_takeTrailing Token.isTag q.slice, List.foldl_append,
      foldl_place_tags fun t ht => of_mem_takeTrailing ht] at hreads
    have h := hreads.close_feature
    rw [close_feature_tags, dropTrailing_append_takeTrailing] at h
    exact h
  rw [ofTokens_eq (head_of_mem_parts hq), complete_feature]
  exact htags

/-- **Two readings, one result**: assembling token by token gives the features
that stand in the tokens by position. -/
theorem build_eq_features (ts : List Token) : build ts = Reading.features ts := by
  rw [build, segments_eq, List.filterMap_map, Reading.features, ← List.filterMap_eq_map]
  apply List.filterMap_congr
  intro q hq
  exact ofTokens_segmentOf hq

/-- To relate the features of `build` to the feature tokens, look at each alone. -/
theorem forall₂_build {R : Part Token → Feature → Prop} {ts : List Token}
    (h : ∀ q ∈ parts Token.isFeature ts, R q (Reading.feature q)) :
    List.Forall₂ R (parts Token.isFeature ts) (build ts) := by
  rw [build_eq_features, Reading.features, List.forall₂_map_right_iff, List.forall₂_same]
  exact h

end Gherkin
