import Gherkin.Proofs.LegibleFeature

/-!
# The tokens of a feature

A legible feature without tags is read off the tokens that are listed here, in
the order of a dump: every node in front of what it holds, steps in front of
examples, and the background in front of the scenarios.

> `build_flatMap_tokens`: the features of these tokens are the features that
> they were made from.

The assembly is followed from node to node.  `Assembly.Awaits a f` says that it
holds the feature `f` as soon as what is open is closed, and that no tag waits.
-/

namespace Gherkin

/-! ## Tokens -/

/-- The token that opens a node. -/
def Heading.token (h : Heading) (kind : TokenKind) : Token := ⟨kind, h.keyword, h.name, 0⟩

def Row.token (cells : Row) : Token := ⟨.row, [], Line.row cells, 0⟩

def StepArgument.token : StepArgument → Token
  | block text => ⟨.block, [], text, 0⟩
  | row cells => Row.token cells

def Step.tokens (s : Step) : List Token :=
  ⟨.step s.family, s.keyword, s.name, 0⟩ :: s.arguments.map StepArgument.token

def Container.tokens (c : Container) (kind : TokenKind) : List Token :=
  c.toHeading.token kind :: c.steps.flatMap Step.tokens

def Examples.tokens (e : Examples) : List Token :=
  e.toHeading.token .examples :: e.rows.map Row.token

def ScenarioItem.tokens (i : ScenarioItem) : List Token :=
  i.container.tokens i.kind ++ (i.examples?.getD []).flatMap Examples.tokens

/-- The tokens of a feature behind the first. -/
def Feature.bodyTokens (f : Feature) : List Token :=
  f.description.toList.map (fun text => ⟨.description, [], text, 0⟩)
    ++ f.background.toList.flatMap (fun c => c.tokens .background)
    ++ f.scenarios.flatMap ScenarioItem.tokens

def Feature.tokens (f : Feature) : List Token := f.toHeading.token .feature :: f.bodyTokens

/-! ## Tags -/

/-- The headings of all nodes of a feature that can bear tags. -/
def Feature.headings (f : Feature) : List Heading :=
  f.toHeading :: f.containers.map Container.toHeading
    ++ f.scenarios.flatMap fun i => (i.examples?.getD []).map Examples.toHeading

/-- That no node bears a tag. -/
def Feature.IsUntagged (f : Feature) : Prop := ∀ h ∈ f.headings, h.tags = []

instance (f : Feature) : Decidable f.IsUntagged :=
  inferInstanceAs (Decidable (∀ h ∈ f.headings, h.tags = []))

namespace Feature.IsUntagged

variable {f : Feature}

theorem own (h : f.IsUntagged) : f.tags = [] := h f.toHeading (by simp [headings])

theorem background {c : Container} (h : f.IsUntagged) (hc : f.background = some c) :
    c.tags = [] := h c.toHeading (by simp [headings, containers, hc])

theorem item {i : ScenarioItem} (h : f.IsUntagged) (hi : i ∈ f.scenarios) :
    i.container.tags = [] := by
  refine h i.container.toHeading ?_
  simp only [headings, containers, List.cons_append, List.mem_cons, List.mem_append, List.mem_map]
  exact Or.inr (Or.inl ⟨i.container, Or.inr ⟨i, hi, rfl⟩, rfl⟩)

theorem examples {i : ScenarioItem} {e : Examples} (h : f.IsUntagged) (hi : i ∈ f.scenarios)
    (he : e ∈ i.examples?.getD []) : e.tags = [] := by
  refine h e.toHeading ?_
  simp only [headings, List.cons_append, List.mem_cons, List.mem_append, List.mem_flatMap,
    List.mem_map]
  exact Or.inr (Or.inr ⟨i, hi, e, he, rfl⟩)

end Feature.IsUntagged

namespace OpenContainer

@[simp] theorem steps_withSteps (c : OpenContainer) (ss : List Step) :
    (c.withSteps ss).steps = ss := by
  cases c <;> rfl

@[simp] theorem withSteps_withSteps (c : OpenContainer) (ss us : List Step) :
    (c.withSteps ss).withSteps us = c.withSteps us := by
  cases c <;> rfl

end OpenContainer

namespace Assembly

variable {a : Assembly}

/-! ## Steps -/

/-- The arguments of the last step, one after another. -/
theorem foldl_place_arguments {c : OpenContainer} {ss : List Step} {as : List StepArgument}
    (hrows : ∀ r, .row r ∈ as → Row.IsNeat r) (ha : a.rows = .step) {s : Step}
    (hc : a.container = some (c.withSteps (ss ++ [s]))) :
    (as.map StepArgument.token).foldl place a =
      { a with
        container := some (c.withSteps (ss ++ [{ s with arguments := s.arguments ++ as }])) } := by
  induction as generalizing a s with
  | nil =>
    rw [List.append_nil, ← hc]
    rfl
  | cons argument as ih =>
    have hplace : place a argument.token =
        { a with
          container := some
            (c.withSteps (ss ++ [{ s with arguments := s.arguments ++ [argument] }])) } := by
      cases argument with
      -- a text block ignores where rows go
      | block text => simp [place, StepArgument.token, attach, hc, modifyLast_concat]
      | row cells =>
        have hcells := Line.cells_row (hrows cells (by simp)).isTrimmed
        simp [place, StepArgument.token, Row.token, placeRow, attach, hc, ha, hcells,
          modifyLast_concat]
    have hrest := @ih (place a argument.token) (fun r hr => hrows r (List.mem_cons_of_mem _ hr))
      (by rw [hplace]; exact ha) { s with arguments := s.arguments ++ [argument] } (by rw [hplace])
    rw [List.map_cons, List.foldl_cons, hrest, hplace]
    simp

/-- A step joins the container that is open. -/
theorem foldl_place_step {c : OpenContainer} {ss : List Step} {s : Step}
    (hrows : ∀ r, .row r ∈ s.arguments → Row.IsNeat r)
    (htype : s.stepType = s.family.resolve a.previous)
    (hc : a.container = some (c.withSteps ss)) :
    s.tokens.foldl place a =
      { a with
        container := some (c.withSteps (ss ++ [s]))
        rows := .step
        previous := s.family.carry a.previous } := by
  have hplace : place a ⟨.step s.family, s.keyword, s.name, 0⟩ =
      { a with
        container := some (c.withSteps (ss ++ [{ s with arguments := [] }]))
        rows := .step
        previous := s.family.carry a.previous } := by
    simp [place, placeStep, hc, htype]
  rw [Step.tokens, List.foldl_cons, hplace, foldl_place_arguments hrows rfl rfl]
  rfl

/-- All steps of a container. -/
theorem foldl_place_steps {c : OpenContainer} {ss us : List Step}
    (hrows : ∀ s ∈ us, ∀ r, .row r ∈ s.arguments → Row.IsNeat r)
    (hresolved : AreResolved a.previous us) (hc : a.container = some (c.withSteps ss)) :
    ∃ rows previous, (us.flatMap Step.tokens).foldl place a =
      { a with
        container := some (c.withSteps (ss ++ us))
        rows := rows
        previous := previous } := by
  induction us generalizing a ss with
  | nil =>
    refine ⟨a.rows, a.previous, ?_⟩
    rw [List.append_nil, ← hc]
    rfl
  | cons s us ih =>
    obtain ⟨htype, hresolved⟩ := hresolved
    rw [List.flatMap_cons, List.foldl_append,
      foldl_place_step (hrows s (by simp)) htype hc]
    obtain ⟨rows, previous, h⟩ := @ih
      { a with
        container := some (c.withSteps (ss ++ [s]))
        rows := .step
        previous := s.family.carry a.previous } (ss ++ [s])
      (fun u hu => hrows u (List.mem_cons_of_mem _ hu)) hresolved rfl
    exact ⟨rows, previous, by rw [h, List.append_assoc]; rfl⟩

/-! ## Examples -/

/-- The rows of the last examples. -/
theorem foldl_place_rows {o : Outline} {es : List Examples} {rows : List Row}
    (hrows : ∀ r ∈ rows, Row.IsNeat r) (ha : a.rows = .examples) {e : Examples}
    (hc : a.container = some (.outline { o with examples := es ++ [e] })) :
    (rows.map Row.token).foldl place a =
      { a with
        container := some
          (.outline { o with examples := es ++ [{ e with rows := e.rows ++ rows }] }) } := by
  induction rows generalizing a e with
  | nil =>
    rw [List.append_nil, ← hc]
    rfl
  | cons r rows ih =>
    have hcells := Line.cells_row (hrows r (by simp)).isTrimmed
    have hplace : place a (Row.token r) =
        { a with
          container := some
            (.outline { o with examples := es ++ [{ e with rows := e.rows ++ [r] }] }) } := by
      simp [place, Row.token, placeRow, ha, hc, hcells, modifyLast_concat]
    have hrest := @ih (place a (Row.token r)) (fun r hr => hrows r (List.mem_cons_of_mem _ hr))
      (by rw [hplace]; exact ha) { e with rows := e.rows ++ [r] } (by rw [hplace])
    rw [List.map_cons, List.foldl_cons, hrest, hplace]
    simp

/-- All examples of an outline. -/
theorem foldl_place_examples {o : Outline} {es us : List Examples}
    (hrows : ∀ e ∈ us, ∀ r ∈ e.rows, Row.IsNeat r) (huntagged : ∀ e ∈ us, e.tags = [])
    (ha : a.tags = []) (hc : a.container = some (.outline { o with examples := es })) :
    ∃ rows, (us.flatMap Examples.tokens).foldl place a =
      { a with
        container := some (.outline { o with examples := es ++ us })
        rows := rows } := by
  induction us generalizing a es with
  | nil =>
    refine ⟨a.rows, ?_⟩
    rw [List.append_nil, ← hc]
    rfl
  | cons e us ih =>
    have hplace : place a (e.toHeading.token .examples) =
        { a with
          container := some (.outline { o with examples := es ++ [{ e with rows := [] }] })
          rows := .examples } := by
      simp [place, Heading.token, placeExamples, heading, hc, ha, ← huntagged e (by simp)]
    rw [List.flatMap_cons, List.foldl_append, Examples.tokens, List.foldl_cons, hplace,
      foldl_place_rows (hrows e (by simp)) rfl rfl]
    obtain ⟨rows, h⟩ := @ih
      { a with
        container := some (.outline { o with examples := es ++ [e] })
        rows := .examples } (es ++ [e])
      (fun u hu => hrows u (List.mem_cons_of_mem _ hu))
      (fun u hu => huntagged u (List.mem_cons_of_mem _ hu)) ha rfl
    refine ⟨rows, ?_⟩
    rw [List.append_assoc] at h
    exact h

/-! ## Nodes of a feature -/

/-- That the feature will be `f` once what is open is closed, and no tag waits. -/
structure Awaits (a : Assembly) (f : Feature) : Prop where
  tags : a.tags = []
  feature : a.close.feature = some f

theorem heading_token {h : Heading} (ha : a.tags = []) (hh : h.tags = []) (kind : TokenKind) :
    a.heading (h.token kind) = h := by
  cases h
  simp_all [heading, Heading.token]

/-- A container and its steps. -/
theorem foldl_place_container {d : Dialect} {r : Role} {c : Container} {kind : TokenKind}
    {o : OpenContainer} (hc : c.IsLegible d r)
    (hplace : place a (c.toHeading.token kind) = a.enter (o.withSteps [])) :
    ∃ rows previous, (c.tokens kind).foldl place a =
      { a.enter (o.withSteps c.steps) with rows := rows, previous := previous } := by
  have hrows : ∀ s ∈ c.steps, ∀ r, .row r ∈ s.arguments → Row.IsNeat r := fun s hs r hr =>
    (hc.steps s hs).isNeat_of_mem hr
  rw [Container.tokens, List.foldl_cons, hplace]
  exact @foldl_place_steps (a.enter (o.withSteps [])) o [] c.steps hrows hc.resolved rfl

theorem close_of_open {c : OpenContainer} {f : Feature} (hc : a.container = some c)
    (hf : a.feature = some f) : a.close.feature = some (join f c) := by
  simp [close, hc, hf]

/-- An open container joins the feature that is awaited. -/
theorem Awaits.enter {f : Feature} (h : a.Awaits f) (c : OpenContainer) (rows : RowOwner)
    (previous : Option StepFamily) :
    Awaits { a.enter c with rows := rows, previous := previous } (join f c) where
  tags := rfl
  feature := close_of_open rfl h.feature

section Nodes

variable {d : Dialect} {f : Feature}

theorem Awaits.background {c : Container} (h : a.Awaits f) (hc : c.IsLegible d .background)
    (hcs : c.tags = []) :
    Awaits ((c.tokens .background).foldl place a) { f with background := some c } := by
  have hplace : place a (c.toHeading.token .background) =
      a.enter ((OpenContainer.background c).withSteps []) := by
    show a.enter (.background ⟨a.heading (c.toHeading.token .background), []⟩) = _
    rw [heading_token h.tags hcs]
    rfl
  obtain ⟨rows, previous, hfold⟩ := foldl_place_container hc hplace
  rw [hfold]
  exact h.enter (.background c) rows previous

theorem Awaits.item {i : ScenarioItem} (h : a.Awaits f) (hi : i.IsLegible d)
    (hcs : i.container.tags = []) (hes : ∀ e ∈ i.examples?.getD [], e.tags = []) :
    Awaits (i.tokens.foldl place a) { f with scenarios := f.scenarios ++ [i] } := by
  rw [ScenarioItem.tokens, List.foldl_append]
  cases i with
  | scenario c =>
    have hc : c.IsLegible d .scenario := hi.container
    have hctags : c.tags = [] := hcs
    have hplace : place a (c.toHeading.token .scenario) =
        a.enter ((OpenContainer.scenario c).withSteps []) := by
      show a.enter (.scenario ⟨a.heading (c.toHeading.token .scenario), []⟩) = _
      rw [heading_token h.tags hctags]
      rfl
    obtain ⟨rows, previous, hfold⟩ := foldl_place_container hc hplace
    show Awaits ((c.tokens .scenario).foldl place a) _
    rw [hfold]
    exact h.enter (.scenario c) rows previous
  | outline o =>
    have hc : o.toContainer.IsLegible d .scenarioOutline := hi.container
    have hctags : o.tags = [] := hcs
    have hplace : place a (o.toHeading.token .scenarioOutline) =
        a.enter ((OpenContainer.outline { o with examples := [] }).withSteps []) := by
      show a.enter (.outline ⟨⟨a.heading (o.toHeading.token .scenarioOutline), []⟩, []⟩) = _
      rw [heading_token h.tags hctags]
      rfl
    obtain ⟨rows, previous, hfold⟩ := foldl_place_container hc hplace
    show Awaits ((o.examples.flatMap Examples.tokens).foldl place
      ((o.toContainer.tokens .scenarioOutline).foldl place a)) _
    rw [hfold]
    -- the outline is still open, and takes its examples
    obtain ⟨owner, hfold⟩ := @foldl_place_examples
      { a.enter (.outline { o with examples := [] }) with rows := rows, previous := previous }
      o [] o.examples (fun e he => (hi.examples e he).rows) hes rfl rfl
    show Awaits ((o.examples.flatMap Examples.tokens).foldl place
      { a.enter (.outline { o with examples := [] }) with rows := rows, previous := previous }) _
    rw [hfold]
    exact h.enter (.outline o) owner previous

/-- All scenarios and outlines of a feature. -/
theorem Awaits.items {items : List ScenarioItem} (h : a.Awaits f)
    (hitems : ∀ i ∈ items, i.IsLegible d) (hcs : ∀ i ∈ items, i.container.tags = [])
    (hes : ∀ i ∈ items, ∀ e ∈ i.examples?.getD [], e.tags = []) :
    Awaits ((items.flatMap ScenarioItem.tokens).foldl place a)
      { f with scenarios := f.scenarios ++ items } := by
  induction items generalizing a f with
  | nil => simpa using h
  | cons i items ih =>
    have hfirst := h.item (hitems i (by simp)) (hcs i (by simp)) (hes i (by simp))
    have hrest := ih hfirst (fun j hj => hitems j (List.mem_cons_of_mem _ hj))
      (fun j hj => hcs j (List.mem_cons_of_mem _ hj))
      fun j hj => hes j (List.mem_cons_of_mem _ hj)
    rw [List.flatMap_cons, List.foldl_append]
    simpa using hrest

/-- A whole feature. -/
theorem awaits_tokens (hf : f.IsLegible d) (huntagged : f.IsUntagged) :
    Awaits (f.tokens.foldl place {}) f := by
  have hhead : place {} (f.toHeading.token .feature) =
      { feature := some ⟨f.toHeading, none, none, []⟩ } := by
    show Assembly.mk (some ⟨heading {} (f.toHeading.token .feature), none, none, []⟩) [] none _ _ _
      = _
    rw [heading_token rfl huntagged.own]
  have hdescription : Awaits
      ((f.description.toList.map fun text => ⟨.description, [], text, 0⟩).foldl place
        (place {} (f.toHeading.token .feature))) ⟨f.toHeading, f.description, none, []⟩ := by
    rw [hhead]
    cases f.description <;> exact ⟨rfl, rfl⟩
  have hbackground : Awaits
      ((f.background.toList.flatMap fun c => c.tokens .background).foldl place
        ((f.description.toList.map fun text => ⟨.description, [], text, 0⟩).foldl place
          (place {} (f.toHeading.token .feature))))
      ⟨f.toHeading, f.description, f.background, []⟩ := by
    cases hb : f.background with
    | none => exact hdescription
    | some c =>
      have h := hdescription.background (hf.background c hb) (huntagged.background hb)
      simpa using h
  have hitems := hbackground.items hf.scenarios (fun i hi => huntagged.item hi)
    fun i hi e he => huntagged.examples hi he
  rw [Feature.tokens, List.foldl_cons, Feature.bodyTokens, List.foldl_append, List.foldl_append]
  exact hitems

end Nodes

end Assembly

/-! ## Features -/

/-- The tokens of a node inside a feature: neither features nor tags. -/
def Token.isInner (t : Token) : Bool := !t.isFeature && !t.isTag

theorem Token.isInner_argument (argument : StepArgument) : argument.token.isInner = true := by
  cases argument <;> rfl

theorem Step.isInner_tokens {s : Step} : ∀ t ∈ s.tokens, t.isInner = true := by
  intro t ht
  rcases List.mem_cons.1 ht with rfl | ht
  · rfl
  · obtain ⟨argument, -, rfl⟩ := List.mem_map.1 ht
    exact Token.isInner_argument argument

theorem Container.isInner_tokens {c : Container} {kind : TokenKind}
    (hk : kind.isContainer = true) : ∀ t ∈ c.tokens kind, t.isInner = true := by
  intro t ht
  rcases List.mem_cons.1 ht with rfl | ht
  · cases kind <;> first | rfl | cases hk
  · obtain ⟨s, -, hs⟩ := List.mem_flatMap.1 ht
    exact s.isInner_tokens t hs

theorem ScenarioItem.isInner_tokens {i : ScenarioItem} : ∀ t ∈ i.tokens, t.isInner = true := by
  intro t ht
  rcases List.mem_append.1 ht with ht | ht
  · exact Container.isInner_tokens (by cases i <;> rfl) t ht
  · obtain ⟨e, -, ht⟩ := List.mem_flatMap.1 ht
    rcases List.mem_cons.1 ht with rfl | ht
    · rfl
    · obtain ⟨r, -, rfl⟩ := List.mem_map.1 ht
      rfl

theorem Feature.isInner_bodyTokens {f : Feature} : ∀ t ∈ f.bodyTokens, t.isInner = true := by
  intro t ht
  rcases List.mem_append.1 ht with ht | ht
  · rcases List.mem_append.1 ht with ht | ht
    · obtain ⟨text, -, rfl⟩ := List.mem_map.1 ht
      rfl
    · obtain ⟨c, -, ht⟩ := List.mem_flatMap.1 ht
      exact Container.isInner_tokens rfl t ht
  · obtain ⟨i, -, ht⟩ := List.mem_flatMap.1 ht
    exact i.isInner_tokens t ht

theorem Feature.isFeature_of_mem_bodyTokens {f : Feature} {t : Token} (ht : t ∈ f.bodyTokens) :
    t.isFeature = false := by
  have h := f.isInner_bodyTokens t ht
  rw [Token.isInner, Bool.and_eq_true, Bool.not_eq_true'] at h
  exact h.1

theorem Feature.isTag_of_mem_tokens {f : Feature} {t : Token} (ht : t ∈ f.tokens) :
    t.isTag = false := by
  rcases List.mem_cons.1 ht with rfl | ht
  · rfl
  · have h := f.isInner_bodyTokens t ht
    rw [Token.isInner, Bool.and_eq_true, Bool.not_eq_true', Bool.not_eq_true'] at h
    exact h.2

/-- The tokens of one feature are one segment. -/
theorem segments_tokens (f : Feature) : segments f.tokens = [f.tokens] := by
  have hparts : parts Token.isFeature f.tokens =
      [⟨[], f.toHeading.token .feature, f.bodyTokens⟩] := by
    have hhead : (f.toHeading.token .feature).isFeature = true := rfl
    have htake : f.bodyTokens.takeWhile (fun t => !t.isFeature) = f.bodyTokens := by
      rw [List.takeWhile_eq_self_iff]
      intro t ht
      rw [f.isFeature_of_mem_bodyTokens ht]
      rfl
    rw [Feature.tokens, parts, partsAfter, if_pos hhead, htake,
      partsAfter_eq_nil.2 fun t => f.isFeature_of_mem_bodyTokens]
  -- no tag stands at the end that another feature could take
  have htags : dropTrailing Token.isTag f.bodyTokens = f.bodyTokens := by
    rw [dropTrailing_eq_rdropWhile, List.rdropWhile_eq_self_iff]
    intro hne
    have htag := f.isTag_of_mem_tokens (List.mem_cons_of_mem _ (List.getLast_mem hne))
    simp [htag]
  rw [segments_eq, hparts, List.map_singleton, segmentOf, htags]
  rfl

theorem build_tokens {d : Dialect} {f : Feature} (hf : f.IsLegible d) (huntagged : f.IsUntagged) :
    build f.tokens = [f] := by
  have h := (Assembly.awaits_tokens hf huntagged).feature
  rw [← complete_feature] at h
  rw [build, segments_tokens, List.filterMap_cons, Assembly.ofTokens, h]
  rfl

/-- **Features are read back from their tokens.** -/
theorem build_flatMap_tokens {d : Dialect} {fs : List Feature} (hfs : ∀ f ∈ fs, f.IsLegible d)
    (huntagged : ∀ f ∈ fs, f.IsUntagged) : build (fs.flatMap Feature.tokens) = fs := by
  induction fs with
  | nil => rfl
  | cons f fs ih =>
    have hrest := ih (fun g hg => hfs g (List.mem_cons_of_mem _ hg))
      fun g hg => huntagged g (List.mem_cons_of_mem _ hg)
    have hfirst := build_tokens (hfs f (by simp)) (huntagged f (by simp))
    rw [List.flatMap_cons]
    cases fs with
    | nil => rw [List.flatMap_nil, List.append_nil, hfirst]
    | cons g fs =>
      have hlast : ∀ t, f.tokens.getLast? = some t → t.isTag = false := by
        intro t ht
        exact f.isTag_of_mem_tokens (List.mem_of_getLast? ht)
      have hstart : StartsWithFeature ((g :: fs).flatMap Feature.tokens) :=
        ⟨[], g.toHeading.token .feature, g.bodyTokens ++ fs.flatMap Feature.tokens, rfl, by simp,
          rfl⟩
      rw [build_append hlast hstart, hfirst, hrest]
      rfl

end Gherkin
