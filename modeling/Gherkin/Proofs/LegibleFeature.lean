import Gherkin.Proofs.Assembling
import Gherkin.Proofs.Legible
import Gherkin.Proofs.RowCells

/-!
# Legible features

Features that are read off legible tokens can be written down again as a whole:
every keyword has the right role, every text is of the right shape, a step has at
most one text block, in front of its rows, and what the steps are for follows
from their families.

> `isLegible_of_mem_build`: all features of a document are legible.
-/

namespace Gherkin

/-- A heading with a keyword of the given role. -/
structure Heading.IsLegible (d : Dialect) (r : Role) (h : Heading) : Prop where
  keyword : h.keyword ∈ d.words r
  name : Text.IsNeat h.name

/-- At most one text block, and rows behind it. -/
structure AreArguments (block : Option Text) (rows : List Row) (as : List StepArgument) : Prop where
  order : as = block.toList.map .block ++ rows.map .row
  block : ∀ text, block = some text → text.IsStacked
  rows : ∀ r ∈ rows, Row.IsNeat r

structure Step.IsLegible (d : Dialect) (s : Step) : Prop where
  keyword : s.keyword ∈ d.words (.step s.family)
  name : Text.IsNeat s.name
  arguments : ∃ block rows, AreArguments block rows s.arguments

theorem Step.IsLegible.isNeat_of_mem {d : Dialect} {s : Step} (h : s.IsLegible d) {r : Row}
    (hr : .row r ∈ s.arguments) : r.IsNeat := by
  obtain ⟨block, rows, has⟩ := h.arguments
  rw [has.order] at hr
  rcases List.mem_append.1 hr with hr | hr
  · obtain ⟨text, -, heq⟩ := List.mem_map.1 hr
    cases heq
  · obtain ⟨cells, hcells, heq⟩ := List.mem_map.1 hr
    rw [← StepArgument.row.inj heq]
    exact has.rows cells hcells

/-- Steps that are for what their families say, behind steps of which `previous`
is the last primary family. -/
def AreResolved : Option StepFamily → List Step → Prop
  | _, [] => True
  | previous, s :: ss =>
    s.stepType = s.family.resolve previous ∧ AreResolved (s.family.carry previous) ss

structure Container.IsLegible (d : Dialect) (r : Role) (c : Container) : Prop where
  heading : c.toHeading.IsLegible d r
  steps : ∀ s ∈ c.steps, s.IsLegible d
  resolved : AreResolved none c.steps

structure Examples.IsLegible (d : Dialect) (e : Examples) : Prop where
  heading : e.toHeading.IsLegible d .examples
  rows : ∀ r ∈ e.rows, Row.IsNeat r

/-- The role of the keyword of an entry. -/
def ScenarioItem.role : ScenarioItem → Role
  | scenario _ => .scenario
  | outline _ => .scenarioOutline

structure ScenarioItem.IsLegible (d : Dialect) (i : ScenarioItem) : Prop where
  container : i.container.IsLegible d i.role
  examples : ∀ e ∈ i.examples?.getD [], e.IsLegible d

structure Feature.IsLegible (d : Dialect) (f : Feature) : Prop where
  heading : f.toHeading.IsLegible d .feature
  description : ∀ text, f.description = some text → text.IsDescription d
  background : ∀ c, f.background = some c → c.IsLegible d .background
  scenarios : ∀ i ∈ f.scenarios, i.IsLegible d

namespace AreLegible

variable {d : Dialect} {ts : List Token}

/-- A part of legible tokens is legible. -/
theorem part (h : AreLegible d ts) {p : Token → Bool} {q : Part Token} (hq : q ∈ parts p ts) :
    AreLegible d (q.head :: q.slice) := by
  obtain ⟨rest, hts⟩ := exists_append_of_mem_parts hq
  have hwithin : q.head :: q.slice <:+: ts := ⟨q.before, rest, by rw [hts]; simp⟩
  exact ⟨fun t ht => h.tokens t (hwithin.subset ht), h.order.infix hwithin⟩

theorem tail {t : Token} (h : AreLegible d (t :: ts)) : AreLegible d ts :=
  ⟨fun u hu => h.tokens u (List.mem_cons_of_mem _ hu), h.order.tail⟩

end AreLegible

/-- Where no token is a step, only the first can be a text block. -/
theorem isBlock_of_mem_tail :
    ∀ {ts : List Token}, ts.IsChain Token.Follows → (∀ t ∈ ts, t.isStep = false) →
      ∀ t ∈ ts.tail, t.isBlock = false
  | [], _, _ => by simp
  | [_], _, _ => by simp
  | s :: t :: ts, horder, hstep => by
    obtain ⟨hfollows, htail⟩ := List.isChain_cons_cons.1 horder
    intro u hu
    rcases List.mem_cons.1 hu with rfl | hu
    · cases hb : u.isBlock with
      | false => rfl
      | true => exact absurd (hfollows hb) (by simp [hstep s (by simp)])
    · exact isBlock_of_mem_tail htail (fun v hv => hstep v (List.mem_cons_of_mem _ hv)) u hu

namespace Reading

/-! ## Arguments -/

/-- The rows in front of the first examples token. -/
def stepRows (slice : List Token) : List Row :=
  (slice.takeWhile (fun t => !t.isExamples)).filterMap Token.row?

theorem arguments_of_no_block {slice : List Token} (h : ∀ t ∈ slice, t.isBlock = false) :
    arguments slice = (stepRows slice).map .row := by
  have hrows : ∀ ts : List Token, (∀ t ∈ ts, t.isBlock = false) →
      ts.filterMap Token.argument? = (ts.filterMap Token.row?).map .row := by
    intro ts hts
    rw [List.map_filterMap]
    apply List.filterMap_congr
    intro t ht
    have hb := hts t ht
    cases hk : t.kind <;> simp_all [Token.argument?, Token.row?, Token.isBlock]
  have hblocks : (slice.dropWhile (fun t => !t.isExamples)).filterMap Token.block? = [] := by
    apply List.filterMap_eq_nil_iff.2
    intro t ht
    have hb := h t ((List.dropWhile_sublist _).subset ht)
    cases hk : t.kind <;> simp_all [Token.block?, Token.isBlock]
  rw [arguments, hblocks, hrows _ fun t ht => h t ((List.takeWhile_sublist _).subset ht)]
  simp [stepRows]

theorem arguments_cons_block {t : Token} (h : t.isBlock = true) (ts : List Token) :
    arguments (t :: ts) = .block t.text :: arguments ts := by
  have hk : t.kind = .block := by simpa [Token.isBlock] using h
  simp [arguments, Token.isExamples, Token.argument?, hk]

/-- A slice in which text blocks stand behind steps only gives one at its start, or
none, and rows behind it. -/
theorem arguments_of_isChain {slice : List Token} (horder : slice.IsChain Token.Follows)
    (hstep : ∀ t ∈ slice, t.isStep = false) :
    arguments slice =
      (slice.head?.bind Token.block?).toList.map .block ++ (stepRows slice).map .row := by
  cases slice with
  | nil => rfl
  | cons t ts =>
    have hblocks : ∀ u ∈ ts, u.isBlock = false := isBlock_of_mem_tail horder hstep
    -- only at the start can a text block stand
    cases ht : t.isBlock with
    | true =>
      have hk : t.kind = .block := by simpa [Token.isBlock] using ht
      rw [arguments_cons_block ht, arguments_of_no_block hblocks]
      simp [stepRows, Token.block?, Token.isExamples, Token.row?, hk]
    | false =>
      have hall : ∀ u ∈ t :: ts, u.isBlock = false := by
        intro u hu
        rcases List.mem_cons.1 hu with rfl | hu
        · exact ht
        · exact hblocks u hu
      have hnone : t.block? = none := by
        cases hk : t.kind <;> simp_all [Token.isBlock, Token.block?]
      rw [arguments_of_no_block hall]
      simp [hnone]

theorem isNeat_of_row? {d : Dialect} {t : Token} {r : Row} (ht : t.IsLegible d)
    (hr : t.row? = some r) : r.IsNeat := by
  unfold Token.row? at hr
  split at hr
  next hk =>
    obtain rfl := Option.some.inj hr
    exact Line.isNeat_cells (ht.row hk)
  next => cases hr

theorem isNeat_of_mem_filterMap {d : Dialect} {ts : List Token} (h : ∀ t ∈ ts, t.IsLegible d) :
    ∀ r ∈ ts.filterMap Token.row?, Row.IsNeat r := by
  intro r hr
  obtain ⟨t, ht, hrow⟩ := List.mem_filterMap.1 hr
  exact isNeat_of_row? (h t ht) hrow

theorem isNeat_of_mem_stepRows {d : Dialect} {slice : List Token}
    (h : ∀ t ∈ slice, t.IsLegible d) : ∀ r ∈ stepRows slice, Row.IsNeat r :=
  isNeat_of_mem_filterMap fun t ht => h t ((List.takeWhile_sublist _).subset ht)

/-- The arguments in the slice of a step can be written down again. -/
theorem areArguments {d : Dialect} {slice : List Token} (h : AreLegible d slice)
    (hstep : ∀ t ∈ slice, t.isStep = false) :
    ∃ block rows, AreArguments block rows (arguments slice) := by
  refine ⟨_, _, arguments_of_isChain h.order hstep, ?_, isNeat_of_mem_stepRows h.tokens⟩
  intro text htext
  obtain ⟨t, ht, hblock⟩ := Option.bind_eq_some_iff.1 htext
  unfold Token.block? at hblock
  split at hblock
  next hk =>
    rw [← Option.some.inj hblock]
    exact (h.tokens t (List.mem_of_head? ht)).block hk
  next => cases hblock

/-! ## Nodes -/

variable {d : Dialect}

theorem step_isLegible {slice : List Token} (h : AreLegible d slice) {q : Part Token}
    (hq : q ∈ parts Token.isStep slice) : (step q).IsLegible d := by
  have hpart := h.part hq
  obtain ⟨family, hk⟩ : ∃ family, q.head.kind = .step family := by
    have hstep := head_of_mem_parts hq
    cases hk : q.head.kind <;> simp_all [Token.isStep, TokenKind.isStep]
  have hfamily : (step q).family = family := by simp [step, Token.family?, hk]
  obtain ⟨hword, hname⟩ := (hpart.tokens q.head (by simp)).keyword (.step family) hk
  exact ⟨hfamily ▸ hword, hname, areArguments hpart.tail (of_mem_slice hq)⟩

theorem areResolved_partsAfter :
    ∀ before ts : List Token,
      AreResolved (lastPrimary before) ((partsAfter Token.isStep before ts).map step)
  | before, [] => trivial
  | before, t :: ts => by
    have ih := areResolved_partsAfter (before ++ [t]) ts
    rw [lastPrimary_concat] at ih
    rw [partsAfter]
    cases hk : t.kind with
    | step family =>
      -- the step carries its family on to those behind it
      have hfamily : t.family? = some family := by simp [Token.family?, hk]
      rw [hfamily] at ih
      rw [if_pos (by simp [Token.isStep, TokenKind.isStep, hk]), List.map_cons]
      refine ⟨rfl, ?_⟩
      simpa [step, hfamily] using ih
    | _ =>
      have hfamily : t.family? = none := by simp [Token.family?, hk]
      rw [hfamily] at ih
      rw [if_neg (by simp [Token.isStep, TokenKind.isStep, hk])]
      exact ih

/-- What a step of a document is for follows from the families up to it. -/
theorem areResolved_steps (slice : List Token) : AreResolved none (steps slice) :=
  areResolved_partsAfter [] slice

theorem node_isLegible {q : Part Token} (h : AreLegible d (q.head :: q.slice)) {r : Role}
    (hr : q.head.kind = r.kind) : (node q).IsLegible d r := by
  obtain ⟨hword, hname⟩ := (h.tokens q.head (by simp)).keyword r hr
  refine ⟨⟨hword, hname⟩, ?_, areResolved_steps q.slice⟩
  intro s hs
  obtain ⟨p, hp, rfl⟩ := List.mem_map.1 hs
  exact step_isLegible h.tail hp

theorem table_isLegible {slice : List Token} (h : AreLegible d slice) {q : Part Token}
    (hq : q ∈ parts Token.isExamples slice) : (table q).IsLegible d := by
  have hpart := h.part hq
  have hk : q.head.kind = .examples := by simpa [Token.isExamples] using head_of_mem_parts hq
  obtain ⟨hword, hname⟩ := (hpart.tokens q.head (by simp)).keyword .examples hk
  refine ⟨⟨hword, hname⟩, ?_⟩
  exact isNeat_of_mem_filterMap fun t ht =>
    hpart.tail.tokens t ((List.takeWhile_sublist _).subset ht)

theorem item_isLegible {body : List Token} (h : AreLegible d body) {q : Part Token}
    (hq : q ∈ parts Token.isContainer body) (hb : isBackground q = false) :
    (item q).IsLegible d := by
  have hpart := h.part hq
  have hkinds : q.head.kind = .scenario ∨ q.head.kind = .scenarioOutline := by
    have hc := head_of_mem_parts hq
    cases hk : q.head.kind <;>
      simp_all [Token.isContainer, TokenKind.isContainer, isBackground]
  rcases hkinds with hk | hk
  · have hi : item q = .scenario (node q) := by simp [item, hk]
    rw [hi]
    exact ⟨node_isLegible hpart hk, by simp [ScenarioItem.examples?]⟩
  · have hi : item q = .outline ⟨node q, tables q.slice⟩ := by simp [item, hk]
    rw [hi]
    refine ⟨node_isLegible hpart hk, ?_⟩
    intro e he
    obtain ⟨p, hp, rfl⟩ := List.mem_map.1 he
    exact table_isLegible hpart.tail hp

theorem description_isDescription {body : List Token} (h : AreLegible d body) {text : Text}
    (htext : description body = some text) : text.IsDescription d := by
  obtain ⟨t, ht, hd⟩ := List.mem_filterMap.1 (List.mem_of_getLast? htext)
  unfold Token.description? at hd
  split at hd
  next hk =>
    rw [← Option.some.inj hd]
    exact (h.tokens t ht).description hk
  next => cases hd

theorem feature_isLegible {ts : List Token} (h : AreLegible d ts) {q : Part Token}
    (hq : q ∈ parts Token.isFeature ts) : (feature q).IsLegible d := by
  have hpart := h.part hq
  have hk := Token.kind_of_isFeature (head_of_mem_parts hq)
  obtain ⟨hword, hname⟩ := (hpart.tokens q.head (by simp)).keyword .feature hk
  refine ⟨⟨hword, hname⟩, fun text => description_isDescription hpart.tail, ?_, ?_⟩
  · intro c hc
    rw [feature_background] at hc
    obtain ⟨p, hp, rfl⟩ := Option.map_eq_some_iff.1 hc
    obtain ⟨hp, hb⟩ := List.mem_filter.1 (List.mem_of_getLast? hp)
    have hkind : p.head.kind = .background := by simpa [isBackground] using hb
    exact node_isLegible (hpart.tail.part hp) hkind
  · intro i hi
    rw [feature_scenarios] at hi
    obtain ⟨p, hp, rfl⟩ := List.mem_map.1 hi
    obtain ⟨hp, hb⟩ := List.mem_filter.1 hp
    exact item_isLegible hpart.tail hp (by simpa using hb)

end Reading

/-- **Whatever is read can be written down again.** -/
theorem isLegible_of_mem_build {d : Dialect} {ts : List Token} (h : AreLegible d ts) :
    ∀ f ∈ build ts, f.IsLegible d := by
  intro f hf
  rw [build_eq_features] at hf
  obtain ⟨q, hq, rfl⟩ := List.mem_map.1 hf
  exact Reading.feature_isLegible h hq

end Gherkin
