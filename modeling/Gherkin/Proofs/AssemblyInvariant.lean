import Gherkin.Proofs.TagReports

/-!
# What an assembly can rely on

At every turn an assembly asks for something that might not be there: the feature to
which a description or a container belongs, the table to which a row behind examples
belongs.  For a segment none of these is ever missing:

> `build_isGrounded`: nothing is reported about a container or a description without a
> feature, nor about a row without examples, and every segment gives a feature.

A segment starts with its feature, tags apart, so there is one from then on.  Rows are
sent to examples where an outline gets its next table, but also where examples stand
outside of any outline.  What comes of these is odd, since no table is there, yet it
does no harm: rows find no outline open then, and whatever opens one sends them to the
steps again.

`IsGrounded` holds behind the feature token, one token keeps it (`IsGrounded.place`), so
it holds behind every beginning of a segment that is not made of tags only
(`isTag_or_isGrounded`), and at the end.
-/

namespace Gherkin

/-! ## Reports of something missing -/

/-- The words of a message; none if it is the start of a stage. -/
def EventRecord.text? : EventRecord → Option String
  | span _ _ => none
  | message _ text _ => some text

/-- What is said of a container, a description or a row that has nothing to belong to. -/
def ungroundedMessages : List String :=
  ["dropping container without feature", "dropping description without feature",
    "dropping row without examples"]

/-- Whether a report is about a container, a description or a row that has nothing to
belong to. -/
def Event.isUngrounded : Event → Bool
  | containerWithoutFeature | descriptionWithoutFeature _ | rowWithoutExamples _ => true
  | _ => false

theorem Event.text?_mem_iff {e : Event} :
    (∃ text ∈ ungroundedMessages, e.record.text? = some text) ↔ e.isUngrounded = true := by
  cases e <;> simp [record, EventRecord.text?, ungroundedMessages, isUngrounded]

/-- Nothing of the kind is said about the cut into segments. -/
theorem isUngrounded_of_mem_segmentEvents {ts : List Token} {e : Event}
    (he : e ∈ segmentEvents ts) : e.isUngrounded = false := by
  rw [segmentEvents, List.mem_append] at he
  rcases he with he | he
  · split at he
    · cases he
    · rw [List.mem_singleton.1 he]
      rfl
  · split at he
    · cases he
    · rw [List.mem_singleton.1 he]
      rfl

/-! ## One token -/

theorem OpenContainer.withSteps_eq_outline {c : OpenContainer} {steps : List Step} {o : Outline}
    (h : c.withSteps steps = .outline o) :
    ∃ o', c = .outline o' ∧ o'.examples = o.examples := by
  cases c with
  | background c => cases h
  | scenario c => cases h
  | outline o' =>
    cases h
    exact ⟨o', rfl, rfl⟩

theorem modifyLast_ne_nil {α : Type} {f : α → α} {l : List α} (h : l ≠ []) :
    modifyLast f l ≠ [] := by
  intro hnil
  have hlast := getLast?_modifyLast f l
  rw [hnil, List.getLast?_nil] at hlast
  exact h (List.getLast?_eq_none_iff.1 (Option.map_eq_none_iff.1 hlast.symm))

namespace Assembly

variable {a : Assembly} {t : Token} {e : Event}

/-- An open outline to whose examples rows go has examples. -/
def RowsHaveTable (a : Assembly) : Prop :=
  a.rows = .examples → ∀ o, a.container = some (.outline o) → o.examples ≠ []

/-- What holds of an assembly behind its feature token. -/
structure IsGrounded (a : Assembly) : Prop where
  feature : a.feature ≠ none
  tables : a.RowsHaveTable
  log : ∀ e ∈ a.log, e.isUngrounded = false

theorem rowsHaveTable_of_step (h : a.rows = .step) : a.RowsHaveTable := by
  intro hrows
  rw [h] at hrows
  cases hrows

namespace IsGrounded

theorem report (h : a.IsGrounded) (he : e.isUngrounded = false) : (a.report e).IsGrounded where
  feature := h.feature
  tables := h.tables
  log := by
    intro e' he'
    rcases List.mem_append.1 he' with hold | hnew
    · exact h.log e' hold
    · rw [List.mem_singleton.1 hnew]
      exact he

/-- The feature is there for a container to join. -/
theorem close (h : a.IsGrounded) : a.close.IsGrounded := by
  unfold Assembly.close
  split
  next => exact h
  next c hc =>
    split
    next hf => exact absurd hf h.feature
    next f hf =>
      refine ⟨Option.some_ne_none _, fun _ o ho => ?_, fun e he => ?_⟩
      · cases ho
      · rcases List.mem_append.1 he with hold | hnew
        · exact h.log e hold
        · obtain ⟨name, rfl⟩ := mem_joinEvents hnew
          rfl

/-- A container that opens has no table yet, and rows do not go to one. -/
theorem enter (h : a.IsGrounded) (c : OpenContainer) : (a.enter c).IsGrounded :=
  ⟨h.close.feature, rowsHaveTable_of_step rfl, h.close.log⟩

theorem attach (h : a.IsGrounded) (argument : StepArgument) (he : e.isUngrounded = false) :
    (a.attach argument e).IsGrounded := by
  unfold Assembly.attach
  split
  next => exact h.report he
  next c hc =>
    split
    next => exact h.report he
    next =>
      refine ⟨h.feature, fun hrows o ho => ?_, h.log⟩
      obtain ⟨o', rfl, hexamples⟩ := OpenContainer.withSteps_eq_outline (Option.some.inj ho)
      rw [← hexamples]
      exact h.tables hrows o' hc

theorem placeDescription (h : a.IsGrounded) (t : Token) : (a.placeDescription t).IsGrounded := by
  unfold Assembly.placeDescription
  split
  next f hf => exact ⟨Option.some_ne_none _, h.tables, h.log⟩
  next hf => exact absurd hf h.feature

/-- Rows go to the table that an outline gets, or there is no outline for them to go to. -/
theorem placeExamples (h : a.IsGrounded) (t : Token) : (a.placeExamples t).IsGrounded := by
  unfold Assembly.placeExamples
  split
  next o hc =>
    refine ⟨h.feature, fun _ o' ho' => ?_, h.log⟩
    cases ho'
    simp
  next hno =>
    have hstray : ({ a with tags := [], rows := .examples } : Assembly).IsGrounded :=
      ⟨h.feature, fun _ o ho => absurd ho (hno o), h.log⟩
    exact hstray.report rfl

theorem placeStep (h : a.IsGrounded) (t : Token) (f : StepFamily) :
    (a.placeStep t f).IsGrounded := by
  unfold Assembly.placeStep
  split
  next => exact h.report rfl
  next => exact ⟨h.feature, rowsHaveTable_of_step rfl, h.log⟩

/-- There is a table for a row behind examples, unless these were left out themselves. -/
theorem placeRow (h : a.IsGrounded) (t : Token) : (a.placeRow t).IsGrounded := by
  unfold Assembly.placeRow
  split
  next => exact h.attach _ rfl
  next hrows =>
    split
    next o hc =>
      have hne : o.examples ≠ [] := h.tables hrows o hc
      rw [if_neg (by simpa using hne)]
      refine ⟨h.feature, fun _ o' ho' => ?_, h.log⟩
      cases ho'
      exact modifyLast_ne_nil hne
    next => exact h.report rfl

/-- **One token.** -/
theorem place (h : a.IsGrounded) (t : Token) : (a.place t).IsGrounded := by
  rw [Assembly.place]
  cases t.kind with
  | tag => exact ⟨h.feature, h.tables, h.log⟩
  | feature => exact ⟨Option.some_ne_none _, h.tables, h.log⟩
  | description => exact h.placeDescription t
  | background | scenario | scenarioOutline => exact h.enter _
  | examples => exact h.placeExamples t
  | step family => exact h.placeStep t family
  | row => exact h.placeRow t
  | block => exact h.attach _ rfl

/-- **A run of tokens.** -/
theorem foldl : ∀ (ts : List Token) {a : Assembly}, a.IsGrounded →
    (ts.foldl Assembly.place a).IsGrounded
  | [], _, h => h
  | t :: ts, _, h => foldl ts (h.place t)

theorem complete (h : a.IsGrounded) : a.complete.IsGrounded := by
  unfold Assembly.complete
  dsimp only
  split
  · exact h.close
  · exact h.close.report rfl

end IsGrounded

end Assembly

/-! ## A segment -/

variable {ts segment taken : List Token}

/-- Behind tags and a feature token an assembly has a feature and nothing else. -/
theorem isGrounded_start {tags : List Token} {head : Token} (htags : ∀ t ∈ tags, t.isTag = true)
    (hhead : head.isFeature = true) :
    ((tags ++ [head]).foldl Assembly.place {}).IsGrounded := by
  have hk := Token.kind_of_isFeature hhead
  rw [List.foldl_append, foldl_place_tags htags, List.foldl_cons, List.foldl_nil, Assembly.place,
    hk]
  exact ⟨Option.some_ne_none _, Assembly.rowsHaveTable_of_step rfl,
    fun _ he => absurd he List.not_mem_nil⟩

/-- A segment starts with tags and its feature token. -/
theorem exists_head_of_mem_segments (h : segment ∈ segments ts) :
    ∃ tags head body, segment = tags ++ head :: body ∧ (∀ t ∈ tags, t.isTag = true) ∧
      head.isFeature = true := by
  rw [segments_eq] at h
  obtain ⟨q, hq, rfl⟩ := List.mem_map.1 h
  exact ⟨_, q.head, _, rfl, fun t ht => of_mem_takeTrailing ht, head_of_mem_parts hq⟩

/-- **A beginning of a segment.**  It is tags, or the assembly that has taken it has what
it can rely on. -/
theorem isTag_or_isGrounded (h : segment ∈ segments ts) (htaken : taken <+: segment) :
    (∀ t ∈ taken, t.isTag = true) ∨ (taken.foldl Assembly.place {}).IsGrounded := by
  obtain ⟨tags, head, body, rfl, htags, hhead⟩ := exists_head_of_mem_segments h
  obtain ⟨rest, hrest⟩ := htaken
  rcases List.append_eq_append_iff.1 hrest with ⟨more, hmore, -⟩ | ⟨inner, rfl, hinner⟩
  · left
    intro t ht
    exact htags t (hmore ▸ List.mem_append_left _ ht)
  · cases inner with
    | nil =>
      left
      rwa [List.append_nil]
    | cons t inner =>
      right
      obtain ⟨rfl, -⟩ := List.cons.inj hinner
      rw [List.append_cons, List.foldl_append]
      exact (isGrounded_start htags hhead).foldl inner

theorem isGrounded_ofTokens (h : segment ∈ segments ts) :
    (Assembly.ofTokens segment).IsGrounded := by
  rcases isTag_or_isGrounded h (List.prefix_refl segment) with htags | hgrounded
  · -- the feature token is no tag
    obtain ⟨tags, head, body, rfl, -, hhead⟩ := exists_head_of_mem_segments h
    have htag := htags head (by simp)
    rw [Token.isTag_of_isFeature hhead] at htag
    cases htag
  · exact hgrounded.complete

theorem isUngrounded_of_mem_buildEvents {e : Event} (he : e ∈ buildEvents ts) :
    e.isUngrounded = false := by
  rw [buildEvents, List.cons_append, List.mem_cons, List.mem_append] at he
  rcases he with rfl | hcut | hlog
  · rfl
  · exact isUngrounded_of_mem_segmentEvents hcut
  · obtain ⟨segment, hsegment, he⟩ := List.mem_flatMap.1 hlog
    exact (isGrounded_ofTokens hsegment).log e he

/-- **An assembly never lacks what it asks for.**  While features are built nothing is
reported about a container or a description without a feature, nor about a row without
examples.  Every segment gives a feature.  Behind any beginning of a segment there is a
feature as soon as something else than tags has come, and an open outline has examples if
rows go to them. -/
theorem build_isGrounded (ts : List Token) :
    (∀ e ∈ buildEvents ts, ∀ text ∈ ungroundedMessages, e.record.text? ≠ some text) ∧
      ∀ segment ∈ segments ts,
        (Assembly.ofTokens segment).feature ≠ none ∧
          ∀ taken, taken <+: segment →
            ((∃ t ∈ taken, t.isTag = false) → (taken.foldl Assembly.place {}).feature ≠ none) ∧
              (taken.foldl Assembly.place {}).RowsHaveTable := by
  refine ⟨fun e he text htext hsaid => ?_, fun segment hsegment => ?_⟩
  · have hnone := isUngrounded_of_mem_buildEvents he
    rw [Event.text?_mem_iff.1 ⟨text, htext, hsaid⟩] at hnone
    cases hnone
  · refine ⟨(isGrounded_ofTokens hsegment).feature, fun taken htaken => ?_⟩
    rcases isTag_or_isGrounded hsegment htaken with htags | hgrounded
    · refine ⟨fun ⟨t, ht, hno⟩ => ?_, ?_⟩
      · rw [htags t ht] at hno
        cases hno
      · rw [foldl_place_tags htags]
        exact Assembly.rowsHaveTable_of_step rfl
    · exact ⟨fun _ => hgrounded.feature, hgrounded.tables⟩

/-- Stray examples send rows to a table that is not there; then an outline opens, with a row
before its table. -/
theorem build_isGrounded_of_stray_examples :
    let segment : List Token := [⟨.tag, "@", "x", 0⟩, ⟨.feature, "Feature", "A", 1⟩,
      ⟨.scenario, "Scenario", "S", 2⟩, ⟨.examples, "Examples", [], 3⟩, ⟨.row, [], "|a|", 4⟩,
      ⟨.scenarioOutline, "Outline", "O", 5⟩, ⟨.row, [], "|b|", 6⟩,
      ⟨.examples, "Examples", [], 7⟩, ⟨.row, [], "|c|", 8⟩]
    segment ∈ segments segment ∧ (Assembly.ofTokens segment).feature ≠ none ∧
      ((segment.take 4).foldl Assembly.place {}).rows = .examples ∧
      ((segment.take 4).foldl Assembly.place {}).feature ≠ none ∧
      (segment.foldl Assembly.place {}).rows = .examples ∧
      (segment.foldl Assembly.place {}).RowsHaveTable := by
  intro segment
  have hsegment : segment ∈ segments segment := by decide
  obtain ⟨hfeature, htaken⟩ := (build_isGrounded segment).2 segment hsegment
  exact ⟨hsegment, hfeature, by decide,
    (htaken _ (List.take_prefix 4 segment)).1 ⟨⟨.feature, "Feature", "A", 1⟩, by decide, rfl⟩,
    by decide, (htaken segment List.prefix_rfl).2⟩

/-- Without the cut into segments a container can lack its feature. -/
example : (Assembly.ofTokens [⟨.scenario, "Scenario", "S", 0⟩]).log =
    [.containerWithoutFeature] := by decide

end Gherkin
