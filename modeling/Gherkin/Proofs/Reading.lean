import Gherkin.Proofs.Segments

/-!
# What a sequence of tokens says

`build` moves a cursor along the tokens.  This file reads the same features off
the tokens by position, without a cursor: every node owns the stretch of tokens
from the one that opens it to the next of its kind, and what it holds are the
tokens of that stretch.

> `build_eq_features`: `build` and the reading by position agree on every
> sequence of tokens.

The proof follows one segment.  `Reads h body a` says what an assembly holds
when it has taken the tokens `body` behind its feature token; it is stated with
the parts of `body` alone, and each kind of token preserves it.
-/

namespace Gherkin

namespace Token

/-- Backgrounds, scenarios and outlines. -/
def isContainer (t : Token) : Bool := t.kind.isContainer

def isStep (t : Token) : Bool := t.kind.isStep

def isExamples (t : Token) : Bool := t.kind == .examples

/-- Whether the token opens a node that can bear tags. -/
def opensNode (t : Token) : Bool := t.isFeature || t.isContainer || t.isExamples

def family? (t : Token) : Option StepFamily :=
  match t.kind with
  | .step family => some family
  | _ => none

def description? (t : Token) : Option Text :=
  match t.kind with
  | .description => some t.text
  | _ => none

def row? (t : Token) : Option Row :=
  match t.kind with
  | .row => some (Line.cells t.text)
  | _ => none

def block? (t : Token) : Option Text :=
  match t.kind with
  | .block => some t.text
  | _ => none

/-- What the token adds to a step. -/
def argument? (t : Token) : Option StepArgument :=
  match t.kind with
  | .row => some (.row (Line.cells t.text))
  | .block => some (.block t.text)
  | _ => none

end Token

namespace Reading

/-! ## The reading by position -/

/-- The tags since the last token that opens a node. -/
def waitingTags (ts : List Token) : List Tag :=
  ((takeTrailing (fun t => !t.opensNode) ts).filter Token.isTag).map fun t => ⟨t.text⟩

/-- The heading of a node inside a feature. -/
def heading (q : Part Token) : Heading := ⟨q.head.keyword, q.head.text, waitingTags q.before⟩

/-- The arguments in the slice of a step: rows up to the next examples token,
text blocks everywhere. -/
def arguments (slice : List Token) : List StepArgument :=
  (slice.takeWhile (fun t => !t.isExamples)).filterMap Token.argument?
    ++ ((slice.dropWhile (fun t => !t.isExamples)).filterMap Token.block?).map .block

/-- The last family among the steps that is not a conjunction. -/
def lastPrimary (ts : List Token) : Option StepFamily :=
  ((ts.filterMap Token.family?).filter (fun f => !f.isConjunction)).getLast?

/-- The step that a step token opens. -/
def step (q : Part Token) : Step :=
  let family := q.head.family?.getD .givenStep
  ⟨q.head.keyword, q.head.text, family, family.resolve (lastPrimary q.before), arguments q.slice⟩

/-- The steps in the slice of a container. -/
def steps (slice : List Token) : List Step := (parts Token.isStep slice).map step

/-- The rows in the slice of an examples token: those up to the next step. -/
def rows (slice : List Token) : List Row :=
  (slice.takeWhile (fun t => !t.isStep)).filterMap Token.row?

/-- The examples that an examples token opens. -/
def table (q : Part Token) : Examples := ⟨heading q, rows q.slice⟩

/-- The examples in the slice of an outline. -/
def tables (slice : List Token) : List Examples := (parts Token.isExamples slice).map table

/-- The heading and the steps of what a container token opens. -/
def node (q : Part Token) : Container := ⟨heading q, steps q.slice⟩

/-- What a background, scenario or outline token opens. -/
def container (q : Part Token) : OpenContainer :=
  match q.head.kind with
  | .background => .background (node q)
  | .scenarioOutline => .outline ⟨node q, tables q.slice⟩
  | _ => .scenario (node q)

/-- The containers in the body of a feature. -/
def containers (body : List Token) : List OpenContainer :=
  (parts Token.isContainer body).map container

/-- The description in the body of a feature. -/
def description (body : List Token) : Option Text := (body.filterMap Token.description?).getLast?

def background? : OpenContainer → Option Container
  | .background c => some c
  | _ => none

def item? : OpenContainer → Option ScenarioItem
  | .background _ => none
  | .scenario c => some (.scenario c)
  | .outline o => some (.outline o)

/-- The feature with the given containers, of whose backgrounds the last one
stays. -/
def featureOf (h : Heading) (description : Option Text) (cs : List OpenContainer) : Feature :=
  ⟨h, description, (cs.filterMap background?).getLast?, cs.filterMap item?⟩

/-- The heading of a feature: its tags stand directly before it. -/
def featureHeading (q : Part Token) : Heading :=
  ⟨q.head.keyword, q.head.text, (takeTrailing Token.isTag q.before).map fun t => ⟨t.text⟩⟩

/-- The feature that a feature token opens. -/
def feature (q : Part Token) : Feature :=
  featureOf (featureHeading q) (description q.slice) (containers q.slice)

/-- The features of a sequence of tokens. -/
def features (ts : List Token) : List Feature := (parts Token.isFeature ts).map feature

/-! ## One more token -/

/-- What stands behind a member satisfying `p` is not taken. -/
theorem takeWhile_append_of_any {α : Type} {p : α → Bool} {l : List α} (h : l.any p = true)
    (m : List α) : (l ++ m).takeWhile (fun a => !p a) = l.takeWhile (fun a => !p a) := by
  induction l with
  | nil => cases h
  | cons a l ih =>
    by_cases ha : p a = true
    · simp [ha]
    · have hl : l.any p = true := by simpa [ha] using h
      simp [ha, ih hl]

/-- What stands behind a member satisfying `p` is not dropped. -/
theorem dropWhile_append_of_any {α : Type} {p : α → Bool} {l : List α} (h : l.any p = true)
    (m : List α) : (l ++ m).dropWhile (fun a => !p a) = l.dropWhile (fun a => !p a) ++ m := by
  induction l with
  | nil => cases h
  | cons a l ih =>
    by_cases ha : p a = true
    · simp [ha]
    · have hl : l.any p = true := by simpa [ha] using h
      simp [ha, ih hl]

theorem waitingTags_concat (ts : List Token) (t : Token) :
    waitingTags (ts ++ [t]) =
      if t.opensNode then []
      else if t.isTag then waitingTags ts ++ [⟨t.text⟩] else waitingTags ts := by
  rw [waitingTags, takeTrailing_concat]
  cases t.opensNode <;> cases ht : t.isTag <;> simp [waitingTags, ht]

/-- A token that opens a node takes all tags before it. -/
theorem waitingTags_append_cons {t : Token} (ht : t.opensNode = true) (ts us : List Token) :
    waitingTags (ts ++ t :: us) = waitingTags us := by
  rw [waitingTags, takeTrailing_append_cons (by simp [ht]), waitingTags]

theorem lastPrimary_concat (ts : List Token) (t : Token) :
    lastPrimary (ts ++ [t]) =
      match t.family? with
      | some f => f.carry (lastPrimary ts)
      | none => lastPrimary ts := by
  cases ht : t.family? with
  | none => simp [lastPrimary, ht]
  | some f => cases hf : f.isConjunction <;> simp [lastPrimary, StepFamily.carry, ht, hf]

/-- Where a row goes that stands behind the given tokens of a container: the
last step or examples token decides. -/
def rowOwner (slice : List Token) : RowOwner :=
  match (slice.filter fun t => t.isStep || t.isExamples).getLast? with
  | some t => if t.isExamples then .examples else .step
  | none => .step

theorem rowOwner_concat (ts : List Token) (t : Token) :
    rowOwner (ts ++ [t]) =
      if t.isExamples then .examples else if t.isStep then .step else rowOwner ts := by
  cases he : t.isExamples <;> cases hs : t.isStep <;> simp [rowOwner, he, hs]

/-- What a token adds to the last step before it. -/
def stepShare (owner : RowOwner) (t : Token) : Option StepArgument :=
  match owner with
  | .step => t.argument?
  | .examples => t.block?.map .block

/-- What a token adds to the last examples before it. -/
def tableShare (owner : RowOwner) (t : Token) : Option Row :=
  match owner with
  | .step => none
  | .examples => t.row?

theorem arguments_concat (slice : List Token) (t : Token) :
    arguments (slice ++ [t]) =
      arguments slice
        ++ (stepShare (if slice.any Token.isExamples then .examples else .step) t).toList := by
  cases hs : slice.any Token.isExamples with
  | false =>
    -- everything so far counts, and so does the new token unless it is examples
    have hnone : ∀ u ∈ slice, (!u.isExamples) = true := by
      simpa using hs
    have hdrop : slice.dropWhile (fun u => !u.isExamples) = [] :=
      List.dropWhile_eq_nil_iff.2 hnone
    have htake : slice.takeWhile (fun u => !u.isExamples) = slice :=
      List.takeWhile_eq_self_iff.2 hnone
    rw [arguments, arguments, List.takeWhile_append_of_pos hnone, List.dropWhile_append, hdrop,
      htake]
    cases hk : t.kind <;> simp [Token.isExamples, Token.argument?, Token.block?, stepShare, hk]
  | true =>
    -- the new token stands behind examples, where only text blocks count
    rw [arguments, arguments, takeWhile_append_of_any hs, dropWhile_append_of_any hs]
    cases hb : t.block? <;> simp [stepShare, hb]

theorem rows_concat (slice : List Token) (t : Token) :
    rows (slice ++ [t]) =
      rows slice
        ++ (tableShare (if slice.any Token.isStep then .step else .examples) t).toList := by
  cases hs : slice.any Token.isStep with
  | false =>
    have hnone : ∀ u ∈ slice, (!u.isStep) = true := by
      simpa using hs
    have htake : slice.takeWhile (fun u => !u.isStep) = slice := List.takeWhile_eq_self_iff.2 hnone
    rw [rows, rows, List.takeWhile_append_of_pos hnone, htake]
    cases hk : t.kind <;> simp [Token.isStep, TokenKind.isStep, Token.row?, tableShare, hk]
  | true =>
    rw [rows, rows, takeWhile_append_of_any hs]
    simp [tableShare]

/-- In the slice of the last step an examples token stands exactly if rows go to
examples. -/
theorem any_examples_of_last_step {slice : List Token} {q : Part Token}
    (h : (parts Token.isStep slice).getLast? = some q) :
    (if q.slice.any Token.isExamples then RowOwner.examples else .step) = rowOwner slice := by
  induction slice using List.reverseRecOn generalizing q with
  | nil => simp at h
  | append_singleton ts t ih =>
    cases hs : t.isStep with
    | true =>
      rw [parts_concat_of_pos hs, List.getLast?_concat, Option.some.injEq] at h
      subst h
      have he : t.isExamples = false := by
        cases hk : t.kind <;> simp_all [Token.isStep, TokenKind.isStep, Token.isExamples]
      simp [rowOwner_concat, hs, he]
    | false =>
      rw [parts_concat_of_neg hs, getLast?_modifyLast, Option.map_eq_some_iff] at h
      obtain ⟨r, hr, rfl⟩ := h
      rw [rowOwner_concat, ← ih hr, hs]
      cases he : t.isExamples <;> simp [he]

/-- In the slice of the last examples token a step token stands exactly if rows
go to steps. -/
theorem any_step_of_last_examples {slice : List Token} {q : Part Token}
    (h : (parts Token.isExamples slice).getLast? = some q) :
    (if q.slice.any Token.isStep then RowOwner.step else .examples) = rowOwner slice := by
  induction slice using List.reverseRecOn generalizing q with
  | nil => simp at h
  | append_singleton ts t ih =>
    cases he : t.isExamples with
    | true =>
      rw [parts_concat_of_pos he, List.getLast?_concat, Option.some.injEq] at h
      subst h
      simp [rowOwner_concat, he]
    | false =>
      rw [parts_concat_of_neg he, getLast?_modifyLast, Option.map_eq_some_iff] at h
      obtain ⟨r, hr, rfl⟩ := h
      rw [rowOwner_concat, ← ih hr, he]
      cases hs : t.isStep <;> simp [hs]

theorem steps_concat_of_step {t : Token} {f : StepFamily} (hk : t.kind = .step f)
    (slice : List Token) :
    steps (slice ++ [t]) =
      steps slice ++ [⟨t.keyword, t.text, f, f.resolve (lastPrimary slice), []⟩] := by
  have hs : t.isStep = true := by simp [Token.isStep, TokenKind.isStep, hk]
  rw [steps, parts_concat_of_pos hs, List.map_append]
  simp [steps, step, arguments, Token.family?, hk]

theorem steps_concat_of_not_step {t : Token} (hs : t.isStep = false) (slice : List Token) :
    steps (slice ++ [t]) =
      modifyLast (fun s => { s with
          arguments := s.arguments ++ (stepShare (rowOwner slice) t).toList })
        (steps slice) := by
  rw [steps, parts_concat_of_neg hs, steps]
  rcases List.eq_nil_or_concat' (parts Token.isStep slice) with hp | ⟨qs, q, hp⟩
  · rw [hp]
    rfl
  · have hlast : (parts Token.isStep slice).getLast? = some q := by simp [hp]
    have howner := any_examples_of_last_step hlast
    rw [hp, modifyLast_concat, List.map_append, List.map_append, List.map_singleton,
      List.map_singleton, modifyLast_concat, ← howner]
    simp only [step, Part.snoc_head, Part.snoc_before, Part.snoc_slice, arguments_concat]

theorem tables_concat_of_examples {t : Token} (he : t.isExamples = true) (slice : List Token) :
    tables (slice ++ [t]) = tables slice ++ [⟨⟨t.keyword, t.text, waitingTags slice⟩, []⟩] := by
  rw [tables, parts_concat_of_pos he, List.map_append]
  rfl

theorem tables_concat_of_not_examples {t : Token} (he : t.isExamples = false)
    (slice : List Token) :
    tables (slice ++ [t]) =
      modifyLast (fun e => { e with rows := e.rows ++ (tableShare (rowOwner slice) t).toList })
        (tables slice) := by
  rw [tables, parts_concat_of_neg he, tables]
  rcases List.eq_nil_or_concat' (parts Token.isExamples slice) with hp | ⟨qs, q, hp⟩
  · rw [hp]
    rfl
  · have hlast : (parts Token.isExamples slice).getLast? = some q := by simp [hp]
    have howner := any_step_of_last_examples hlast
    rw [hp, modifyLast_concat, List.map_append, List.map_append, List.map_singleton,
      List.map_singleton, modifyLast_concat, ← howner]
    simp only [table, heading, Part.snoc_head, Part.snoc_before, Part.snoc_slice, rows_concat]

/-- While rows go to examples in the slice of an outline, the outline has some. -/
theorem tables_ne_nil {slice : List Token} (h : rowOwner slice = .examples) :
    tables slice ≠ [] := by
  intro hnil
  rw [tables, List.map_eq_nil_iff, parts_eq_nil] at hnil
  have hstep : ∀ t ∈ slice.filter fun t => t.isStep || t.isExamples, t.isExamples = false :=
    fun t ht => hnil t (List.mem_of_mem_filter ht)
  rw [rowOwner] at h
  split at h
  next t ht =>
    rw [hstep t (List.mem_of_getLast? ht)] at h
    simp at h
  next => simp at h

end Reading

end Gherkin
