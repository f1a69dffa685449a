import Gherkin.Proofs.Assembling

/-!
# Which rows and text blocks a node has

A text block goes to the last step before it.  A row goes to the last step or to
the last examples before it, whichever is nearer; where the nearer one is an
examples token outside of an outline, the row is left out.

> `build_attachments`: every step and every examples table has exactly the rows
> and text blocks that its token owns by position, and besides these there are
> no rows and text blocks in the trees.

The first half looks at each node alone, from its token to the next one that
takes over.  The second half looks at each row and text block alone, back to the
token that decides where it goes, so what no node owns shows there as left out.
-/

namespace Gherkin

namespace Token

def isRow (t : Token) : Bool := t.kind == .row

/-- Rows and text blocks: what steps and examples have below their line. -/
def isAttachment (t : Token) : Bool := t.argument?.isSome

end Token

/-- The nearest step or examples token, if `before` are the tokens since the
container was opened. -/
def nearestOwner? (before : List Token) : Option Token :=
  (before.filter fun t => t.isStep || t.isExamples).getLast?

namespace Part

/-- What a row or text block in the slice of a step adds to the step: a row does
so only if no examples token stands between the two. -/
def stepArgument? (p : Part Token) : Option StepArgument :=
  if p.head.isRow && p.before.any Token.isExamples then none else p.head.argument?

/-- Whether a row or text block in the slice of a container goes to a step. -/
def goesToStep (p : Part Token) : Bool :=
  if p.head.isRow then (nearestOwner? p.before).any Token.isStep
  else p.before.any Token.isStep

/-- Whether a row or text block in the slice of a container goes to examples. -/
def goesToExamples (p : Part Token) : Bool :=
  p.head.isRow && (nearestOwner? p.before).any Token.isExamples

end Part

/-- What goes to the steps of a container with the given slice. -/
def stepAttachments (slice : List Token) : List StepArgument :=
  ((parts Token.isAttachment slice).filter Part.goesToStep).filterMap (·.head.argument?)

/-- What goes to the examples of a container with the given slice. -/
def tableAttachments (slice : List Token) : List StepArgument :=
  ((parts Token.isAttachment slice).filter Part.goesToExamples).filterMap (·.head.argument?)

/-- What the container that `q` opens keeps of its slice: only an outline has
examples. -/
def keptAttachments (q : Part Token) : List StepArgument :=
  stepAttachments q.slice ++
    if q.head.kind = .scenarioOutline then tableAttachments q.slice else []

/-- The containers in the body of a feature that stay in it: the last background
and all others. -/
def keptContainers (q : Part Token) : List (Part Token) :=
  ((parts Token.isContainer q.slice).filter (·.head.kind == .background)).getLast?.toList
    ++ (parts Token.isContainer q.slice).filter (·.head.kind != .background)

/-- All rows and text blocks below the steps of a container. -/
def Container.attachments (c : Container) : List StepArgument := c.steps.flatMap (·.arguments)

/-- All rows and text blocks in an entry of the scenario list. -/
def ScenarioItem.attachments (i : ScenarioItem) : List StepArgument :=
  i.container.attachments ++ ((i.examples?.getD []).flatMap (·.rows)).map .row

/-- All rows and text blocks in a feature. -/
def Feature.attachments (f : Feature) : List StepArgument :=
  f.background.toList.flatMap Container.attachments
    ++ f.scenarios.flatMap ScenarioItem.attachments

/-- The steps of `c`, whose token opens `q`, have what their tokens own: up to the
next step all text blocks, and the rows with no examples before them. -/
def Container.OwnsArguments (q : Part Token) (c : Container) : Prop :=
  List.Forall₂
    (fun p s => s.arguments = (parts Token.isAttachment p.slice).filterMap Part.stepArgument?)
    (parts Token.isStep q.slice) c.steps

/-- The entry `i`, whose token opens `q`, has what its tokens own: its examples
have the rows up to the next step or examples. -/
structure ScenarioItem.OwnsAttachments (q : Part Token) (i : ScenarioItem) : Prop where
  steps : i.container.OwnsArguments q
  examples : ∀ es, i.examples? = some es →
    List.Forall₂ (fun p e => e.rows = p.slice.filterMap Token.row?)
      ((parts (fun t => t.isStep || t.isExamples) q.slice).filter (·.head.isExamples)) es

/-- The feature `f`, whose token opens `q`, has what the tokens of its body own. -/
structure Feature.OwnsAttachments (q : Part Token) (f : Feature) : Prop where
  background : Option.Rel Container.OwnsArguments
    ((parts Token.isContainer q.slice).filter (·.head.kind == .background)).getLast? f.background
  scenarios : List.Forall₂ ScenarioItem.OwnsAttachments
    ((parts Token.isContainer q.slice).filter (·.head.kind != .background)) f.scenarios

/-! ## Parts that share their places -/

/-- A filtered image does not see a change of the last member that neither the
filter nor the map sees. -/
theorem filterMap_filter_modifyLast {α β : Type} {f : α → α} {p : α → Bool} {g : α → Option β}
    (hp : ∀ a, p (f a) = p a) (hg : ∀ a, g (f a) = g a) (l : List α) :
    ((modifyLast f l).filter p).filterMap g = (l.filter p).filterMap g := by
  rw [List.filterMap_filter, List.filterMap_filter]
  rcases List.eq_nil_or_concat' l with rfl | ⟨l, a, rfl⟩
  · rfl
  · rw [modifyLast_concat, List.filterMap_append, List.filterMap_append]
    simp [List.filterMap_cons, hp, hg]

/-- The parts of one kind, cut where another kind comes first. -/
theorem partsAfter_or {α : Type} (p q : α → Bool) (hpq : ∀ a, p a = true → q a = false) :
    ∀ before l : List α,
      (partsAfter (fun a => q a || p a) before l).filter (fun r => p r.head) =
        (partsAfter p before l).map
          fun r => { r with slice := r.slice.takeWhile fun a => !q a }
  | before, [] => rfl
  | before, a :: l => by
    have ih := partsAfter_or p q hpq (before ++ [a]) l
    rw [partsAfter, partsAfter]
    cases ha : p a with
    | true =>
      have htake : l.takeWhile (fun b => !(q b || p b)) =
          (l.takeWhile fun b => !p b).takeWhile fun b => !q b := by
        rw [List.takeWhile_takeWhile]
        congr 1
        funext b
        cases q b <;> cases p b <;> rfl
      simp only [hpq a ha, Bool.false_or, if_true, List.map_cons, ← htake]
      rw [List.filter_cons_of_pos (by simpa using ha), ih]
    | false =>
      cases hq : q a with
      | true =>
        simp only [Bool.or_false, if_true, Bool.false_eq_true, if_false]
        rw [List.filter_cons_of_neg (by simp [ha]), ih]
      | false =>
        simp only [Bool.or_false, Bool.false_eq_true, if_false]
        exact ih

namespace Reading

/-! ## Each node alone -/

/-- What a step has is what its slice adds, row by row and block by block. -/
theorem arguments_eq (slice : List Token) :
    arguments slice = (parts Token.isAttachment slice).filterMap Part.stepArgument? := by
  induction slice using List.reverseRecOn with
  | nil => rfl
  | append_singleton slice t ih =>
    rw [arguments_concat, ih]
    cases ht : t.isAttachment with
    | true =>
      rw [parts_concat_of_pos ht, List.filterMap_append]
      congr 1
      cases hs : slice.any Token.isExamples <;> cases hk : t.kind <;>
        simp_all [Token.isAttachment, Token.argument?, Token.block?, Token.isRow, stepShare,
          Part.stepArgument?]
    | false =>
      have hshare (owner : RowOwner) : stepShare owner t = none := by
        cases owner <;> cases hk : t.kind <;>
          simp_all [Token.isAttachment, Token.argument?, Token.block?, stepShare]
      rw [hshare, parts_concat_of_neg ht]
      rcases List.eq_nil_or_concat' (parts Token.isAttachment slice) with hp | ⟨ps, p, hp⟩
      · rw [hp]
        rfl
      · rw [hp, modifyLast_concat, List.filterMap_append, List.filterMap_append]
        simp [Part.stepArgument?, List.filterMap_cons]

theorem node_ownsArguments (q : Part Token) : (node q).OwnsArguments q := by
  show List.Forall₂ _ _ (steps q.slice)
  rw [steps, List.forall₂_map_right_iff, List.forall₂_same]
  intro p _
  exact arguments_eq p.slice

/-- Examples end where a step or other examples come. -/
theorem tables_owned (slice : List Token) :
    List.Forall₂ (fun p e => e.rows = p.slice.filterMap Token.row?)
      ((parts (fun t => t.isStep || t.isExamples) slice).filter (·.head.isExamples))
      (tables slice) := by
  have hkinds : ∀ t : Token, t.isExamples = true → t.isStep = false := by
    intro t ht
    cases hk : t.kind <;> simp_all [Token.isExamples, Token.isStep, TokenKind.isStep]
  rw [parts, partsAfter_or Token.isExamples Token.isStep hkinds, tables, ← parts,
    List.forall₂_map_left_iff, List.forall₂_map_right_iff, List.forall₂_same]
  intro p _
  rfl

theorem item_ownsAttachments (q : Part Token) : (item q).OwnsAttachments q := by
  unfold item
  split
  · refine ⟨node_ownsArguments q, fun es hes => ?_⟩
    obtain rfl := Option.some.inj hes
    exact tables_owned q.slice
  · exact ⟨node_ownsArguments q, fun es hes => by simp [ScenarioItem.examples?] at hes⟩

theorem feature_ownsAttachments (q : Part Token) : (feature q).OwnsAttachments q := by
  constructor
  · rw [feature_background]
    show Option.Rel _ ((parts Token.isContainer q.slice).filter isBackground).getLast? _
    cases ((parts Token.isContainer q.slice).filter isBackground).getLast? with
    | none => exact .none
    | some r => exact .some (node_ownsArguments r)
  · rw [feature_scenarios, List.forall₂_map_right_iff]
    show List.Forall₂ _ ((parts Token.isContainer q.slice).filter (fun r => !isBackground r)) _
    rw [List.forall₂_same]
    intro r _
    exact item_ownsAttachments r

/-! ## Each row and text block alone -/

theorem steps_eq_nil {slice : List Token} :
    steps slice = [] ↔ slice.any Token.isStep = false := by
  rw [steps, List.map_eq_nil_iff, parts_eq_nil, List.any_eq_false]
  simp

theorem nearestOwner?_concat (slice : List Token) (t : Token) :
    nearestOwner? (slice ++ [t]) =
      if t.isStep || t.isExamples then some t else nearestOwner? slice := by
  cases h : t.isStep || t.isExamples <;> simp [nearestOwner?, h]

/-- Rows go to examples where these are the nearest owner. -/
theorem nearestOwner?_isExamples (slice : List Token) :
    (nearestOwner? slice).any Token.isExamples = (rowOwner slice == .examples) := by
  induction slice using List.reverseRecOn with
  | nil => rfl
  | append_singleton slice t ih =>
    rw [nearestOwner?_concat, rowOwner_concat]
    cases hs : t.isStep <;> cases he : t.isExamples <;> simp [ih, he]

/-- Rows go to a step otherwise, if there is one. -/
theorem nearestOwner?_isStep (slice : List Token) :
    (nearestOwner? slice).any Token.isStep =
      (rowOwner slice == .step && slice.any Token.isStep) := by
  induction slice using List.reverseRecOn with
  | nil => rfl
  | append_singleton slice t ih =>
    rw [nearestOwner?_concat, rowOwner_concat]
    cases hs : t.isStep <;> cases he : t.isExamples <;> simp [ih, hs]
    cases hk : t.kind <;> simp_all [Token.isStep, TokenKind.isStep, Token.isExamples]

/-- One more token in the slice: it counts if it is a row or text block that goes
where `goes` says. -/
theorem filterMap_filter_concat {β : Type} {goes : Part Token → Bool}
    (hgoes : ∀ (p : Part Token) (t : Token), goes (p.snoc t) = goes p)
    {g : Token → Option β} (hg : ∀ t : Token, t.isAttachment = false → g t = none)
    (slice : List Token) (t : Token) :
    ((parts Token.isAttachment (slice ++ [t])).filter goes).filterMap (fun p => g p.head) =
      ((parts Token.isAttachment slice).filter goes).filterMap (fun p => g p.head)
        ++ if goes ⟨slice, t, []⟩ then (g t).toList else [] := by
  cases ht : t.isAttachment with
  | true =>
    rw [parts_concat_of_pos ht, List.filter_append, List.filterMap_append]
    cases hp : goes ⟨slice, t, []⟩ <;> cases hv : g t <;> simp [hp, hv]
  | false =>
    rw [parts_concat_of_neg ht, filterMap_filter_modifyLast (fun p => hgoes p t) fun _ => rfl]
    simp [hg t ht]

theorem stepAttachments_concat (slice : List Token) (t : Token) :
    stepAttachments (slice ++ [t]) =
      stepAttachments slice ++ if Part.goesToStep ⟨slice, t, []⟩ then t.argument?.toList else [] :=
  filterMap_filter_concat (fun _ _ => rfl)
    (fun t ht => by simpa [Token.isAttachment] using ht) slice t

theorem tableAttachments_concat (slice : List Token) (t : Token) :
    tableAttachments (slice ++ [t]) =
      tableAttachments slice ++
        if Part.goesToExamples ⟨slice, t, []⟩ then t.argument?.toList else [] :=
  filterMap_filter_concat (fun _ _ => rfl)
    (fun t ht => by simpa [Token.isAttachment] using ht) slice t

/-- The steps of a container have what goes to steps, in the order of the tokens. -/
theorem steps_attachments (slice : List Token) :
    (steps slice).flatMap (·.arguments) = stepAttachments slice := by
  induction slice using List.reverseRecOn with
  | nil => rfl
  | append_singleton slice t ih =>
    rw [stepAttachments_concat, ← ih]
    cases hk : t.kind with
    | step f =>
      rw [steps_concat_of_step hk]
      simp [Token.argument?, hk]
    | row =>
      have hs : t.isStep = false := by simp [Token.isStep, TokenKind.isStep, hk]
      rw [steps_concat_of_not_step hs, flatMap_modifyLast fun _ => rfl]
      congr 1
      simp only [Part.goesToStep, Token.isRow, hk, nearestOwner?_isStep, steps_eq_nil]
      cases rowOwner slice <;> cases slice.any Token.isStep <;>
        simp [stepShare, Token.argument?, Token.block?, hk]
    | block =>
      have hs : t.isStep = false := by simp [Token.isStep, TokenKind.isStep, hk]
      rw [steps_concat_of_not_step hs, flatMap_modifyLast fun _ => rfl]
      congr 1
      simp only [Part.goesToStep, Token.isRow, hk, steps_eq_nil]
      cases rowOwner slice <;> cases slice.any Token.isStep <;>
        simp [stepShare, Token.argument?, Token.block?, hk]
    | _ =>
      have hs : t.isStep = false := by simp [Token.isStep, TokenKind.isStep, hk]
      rw [steps_concat_of_not_step hs, flatMap_modifyLast fun _ => rfl]
      cases rowOwner slice <;> simp [stepShare, Token.argument?, Token.block?, hk]

/-- The examples of an outline have what goes to examples. -/
theorem tables_attachments (slice : List Token) :
    ((tables slice).flatMap (·.rows)).map .row = tableAttachments slice := by
  induction slice using List.reverseRecOn with
  | nil => rfl
  | append_singleton slice t ih =>
    rw [tableAttachments_concat, ← ih]
    cases he : t.isExamples with
    | true =>
      have hk : t.kind = .examples := by simpa [Token.isExamples] using he
      rw [tables_concat_of_examples he]
      simp [Token.argument?, hk]
    | false =>
      rw [tables_concat_of_not_examples he, flatMap_modifyLast fun _ => rfl]
      simp only [Part.goesToExamples, nearestOwner?_isExamples, List.map_append]
      congr 1
      cases ho : rowOwner slice with
      | step => simp [tableShare]
      | examples =>
        -- there are examples for the row to go to
        have hne : tables slice ≠ [] := tables_ne_nil ho
        cases hk : t.kind <;> simp [tableShare, hne, Token.row?, Token.isRow, Token.argument?, hk]

theorem node_attachments (q : Part Token) : (node q).attachments = stepAttachments q.slice :=
  steps_attachments q.slice

theorem item_attachments (q : Part Token) : (item q).attachments = keptAttachments q := by
  unfold item
  split
  next hk =>
    rw [keptAttachments, hk, if_pos rfl, ← tables_attachments, ← node_attachments]
    rfl
  next hk =>
    rw [keptAttachments, if_neg hk, ← node_attachments]
    rfl

/-- A feature has what its containers keep. -/
theorem feature_attachments (q : Part Token) :
    (feature q).attachments = (keptContainers q).flatMap keptAttachments := by
  rw [Feature.attachments, feature_background, feature_scenarios, keptContainers,
    List.flatMap_append, List.flatMap_map]
  congr 1
  · show _ = List.flatMap keptAttachments
      ((parts Token.isContainer q.slice).filter isBackground).getLast?.toList
    cases hr : ((parts Token.isContainer q.slice).filter isBackground).getLast? with
    | none => rfl
    | some r =>
      have hk : r.head.kind = .background := by
        simpa [isBackground] using (List.mem_filter.1 (List.mem_of_getLast? hr)).2
      simp [keptAttachments, node_attachments, hk]
  · exact List.flatMap_congr fun r _ => item_attachments r

end Reading

/-- **Every row has its place.**  A step has the text blocks up to the next step
and the rows that come before any examples; examples have the rows up to the next
step or examples.  Nothing else is in the trees: of each container that stays,
they hold the rows and text blocks for which the slice has an owner, each once
and in order.  A row in front of all steps, or below examples that are in no
outline, has none. -/
theorem build_attachments (ts : List Token) :
    List.Forall₂ Feature.OwnsAttachments (parts Token.isFeature ts) (build ts) ∧
      (build ts).flatMap Feature.attachments =
        (parts Token.isFeature ts).flatMap fun q => (keptContainers q).flatMap keptAttachments := by
  refine ⟨forall₂_build fun q _ => Reading.feature_ownsAttachments q, ?_⟩
  rw [build_eq_features, Reading.features, List.flatMap_map]
  exact List.flatMap_congr fun q _ => Reading.feature_attachments q

end Gherkin
