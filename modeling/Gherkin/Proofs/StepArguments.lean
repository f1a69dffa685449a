import Gherkin.Proofs.RowOwnership
import Gherkin.Proofs.LegibleFeature

/-!
# The arguments of a step

A step has at most one text block, and that stands in front of its rows.  Neither
half of the reading sees to this alone: `build` takes blocks in any number and
order, and the scan, which finds a text block directly behind a step only, knows
nothing of the steps that have no place in a feature.

> `parseText_arguments`: the arguments of every step of a document are its text block,
> if it has one, and its rows; and the block is the one directly behind the token of
> the step.

What a step has comes from the slice of its token (`Reading.arguments_of_isChain`).
The token behind it in the document is the first of that slice, or else one that
ends the slice, and none of these is a text block.
-/

namespace Gherkin

/-- The steps of a feature, the background in front. -/
def Feature.steps (f : Feature) : List Step := f.containers.flatMap (·.steps)

/-- The step tokens whose steps stay in the features, each with all tokens before it. -/
def keptSteps (ts : List Token) : List (Part Token) :=
  (parts Token.isFeature ts).flatMap fun q =>
    (keptContainers q).flatMap fun r =>
      (parts Token.isStep r.slice).map fun p =>
        { p with before := q.before ++ q.head :: (r.before ++ r.head :: p.before) }

/-- The step `s` is made from the token that opens `p` among `ts`, and what it has is
the text block that is the next token, if it is one, and rows. -/
structure Step.IsMadeAt (ts : List Token) (p : Part Token) (s : Step) : Prop where
  kind : p.head.kind = .step s.family
  keyword : s.keyword = p.head.keyword
  name : s.name = p.head.text
  block : ∃ after, ts = p.before ++ p.head :: after ∧ s.block? = after.head?.bind Token.block?
  arguments : s.arguments = s.block?.toList.map .block ++ s.rows.map .row

/-! ## The arguments of one step -/

/-- What a step with a block and rows is asked for, it gives. -/
theorem Step.block?_rows_of_arguments {s : Step} {block : Option Text} {rows : List Row}
    (h : s.arguments = block.toList.map .block ++ rows.map .row) :
    s.block? = block ∧ s.rows = rows := by
  have hblock : (rows.map StepArgument.row).findSome? StepArgument.block? = none := by
    rw [List.findSome?_eq_none_iff]
    intro a ha
    obtain ⟨r, -, rfl⟩ := List.mem_map.1 ha
    rfl
  have hrows : (rows.map StepArgument.row).filterMap StepArgument.row? = rows := by
    rw [List.filterMap_map]
    exact List.filterMap_some
  rw [Step.block?, Step.rows, h, List.findSome?_append, List.filterMap_append, hblock, hrows]
  cases block with
  | none => exact ⟨rfl, rfl⟩
  | some text => exact ⟨rfl, rfl⟩

/-- What starts a list is not seen past its end if what follows does not show. -/
theorem head?_bind_append {α β : Type} {f : α → Option β} {m : List α} (hm : m.head?.bind f = none)
    (l : List α) : (l ++ m).head?.bind f = l.head?.bind f := by
  cases l with
  | nil => exact hm
  | cons a l => rfl

/-- Behind a part there is no text block, unless its kind of token is one. -/
theorem head?_block?_of_opens {p : Token → Bool} (hp : ∀ t : Token, p t = true → t.block? = none)
    {rest : List Token} (h : ∀ t, rest.head? = some t → p t = true) :
    rest.head?.bind Token.block? = none := by
  cases ht : rest.head? with
  | none => rfl
  | some t => exact hp t (h t ht)

namespace Token

variable {t : Token}

theorem block?_of_isStep (h : t.isStep = true) : t.block? = none := by
  cases hk : t.kind <;> simp_all [isStep, TokenKind.isStep, block?]

theorem block?_of_isContainer (h : t.isContainer = true) : t.block? = none := by
  cases hk : t.kind <;> simp_all [isContainer, TokenKind.isContainer, block?]

theorem block?_of_isFeature (h : t.isFeature = true) : t.block? = none := by
  simp [block?, kind_of_isFeature h]

end Token

namespace Reading

/-! ## Where a step stands -/

theorem mem_of_mem_keptContainers {q r : Part Token} (h : r ∈ keptContainers q) :
    r ∈ parts Token.isContainer q.slice := by
  rcases List.mem_append.1 h with h | h
  · exact List.mem_of_mem_filter (List.mem_of_getLast? (Option.mem_toList.1 h))
  · exact List.mem_of_mem_filter h

theorem item_container (q : Part Token) : (item q).container = node q := by
  unfold item
  split <;> rfl

/-- The containers of a feature are those that stay in it. -/
theorem feature_containers (q : Part Token) :
    (feature q).containers = (keptContainers q).map node := by
  rw [Feature.containers, feature_background, feature_scenarios, keptContainers, List.map_append,
    List.map_map]
  congr 1
  · show _ = (((parts Token.isContainer q.slice).filter isBackground).getLast?.toList).map node
    cases ((parts Token.isContainer q.slice).filter isBackground).getLast? <;> rfl
  · exact List.map_congr_left fun r _ => item_container r

/-- Through its container and its feature a step token stands in the whole list.
What follows its slice there does not start with a text block. -/
theorem exists_after_step {ts : List Token} {q r p : Part Token}
    (hq : q ∈ parts Token.isFeature ts) (hr : r ∈ parts Token.isContainer q.slice)
    (hp : p ∈ parts Token.isStep r.slice) :
    ∃ rest, ts = (q.before ++ q.head :: (r.before ++ r.head :: p.before)) ++
        p.head :: (p.slice ++ rest) ∧ rest.head?.bind Token.block? = none := by
  obtain ⟨a, hts, ha⟩ := exists_rest_of_mem_parts hq
  obtain ⟨b, hbody, hb⟩ := exists_rest_of_mem_parts hr
  obtain ⟨c, hslice, hc⟩ := exists_rest_of_mem_parts hp
  refine ⟨c ++ (b ++ a), ?_, ?_⟩
  · rw [hts, hbody, hslice]
    simp
  · -- the slice ends at a step, a container, a feature or the end
    have hfeature := head?_block?_of_opens (fun _ => Token.block?_of_isFeature) ha
    have hcontainer := head?_block?_of_opens (fun _ => Token.block?_of_isContainer) hb
    have hstep := head?_block?_of_opens (fun _ => Token.block?_of_isStep) hc
    rw [head?_bind_append, hstep]
    rw [head?_bind_append hfeature, hcontainer]

theorem step_isMadeAt {d : Dialect} {ts : List Token} (h : AreLegible d ts) {q r p : Part Token}
    (hq : q ∈ parts Token.isFeature ts) (hr : r ∈ parts Token.isContainer q.slice)
    (hp : p ∈ parts Token.isStep r.slice) :
    (step p).IsMadeAt ts
      { p with before := q.before ++ q.head :: (r.before ++ r.head :: p.before) } := by
  have hlegible := ((h.part hq).tail.part hr).tail.part hp
  have harguments := arguments_of_isChain hlegible.tail.order (of_mem_slice hp)
  obtain ⟨hblock, hrows⟩ := Step.block?_rows_of_arguments (s := step p) harguments
  obtain ⟨rest, hts, hrest⟩ := exists_after_step hq hr hp
  obtain ⟨family, hk⟩ : ∃ family, p.head.kind = .step family := by
    have hstep := head_of_mem_parts hp
    cases hk : p.head.kind <;> simp_all [Token.isStep, TokenKind.isStep]
  constructor
  · simp [step, Token.family?, hk]
  · rfl
  · rfl
  · exact ⟨p.slice ++ rest, hts, by rw [hblock, head?_bind_append hrest]⟩
  · rw [hblock, hrows]
    exact harguments

end Reading

/-! ## All steps -/

theorem forall₂_flatMap {α β γ : Type} {R : β → γ → Prop} {f : α → List β} {g : α → List γ}
    {l : List α} (h : ∀ a ∈ l, List.Forall₂ R (f a) (g a)) :
    List.Forall₂ R (l.flatMap f) (l.flatMap g) := by
  have hsame : List.Forall₂ (fun a b => a = b ∧ a ∈ l) l l :=
    List.forall₂_same.2 fun a ha => ⟨rfl, ha⟩
  apply List.rel_flatMap hsame
  intro a b hab
  obtain ⟨rfl, ha⟩ := hab
  exact h a ha

/-- The steps of legible tokens, one for each step token that has a place. -/
theorem forall₂_keptSteps {d : Dialect} {ts : List Token} (h : AreLegible d ts) :
    List.Forall₂ (Step.IsMadeAt ts) (keptSteps ts) ((build ts).flatMap Feature.steps) := by
  rw [build_eq_features, Reading.features, List.flatMap_map]
  apply forall₂_flatMap
  intro q hq
  rw [Feature.steps, Reading.feature_containers, List.flatMap_map]
  apply forall₂_flatMap
  intro r hr
  show List.Forall₂ _ _ ((parts Token.isStep r.slice).map Reading.step)
  rw [List.forall₂_map_left_iff, List.forall₂_map_right_iff, List.forall₂_same]
  intro p hp
  exact Reading.step_isMadeAt h hq (Reading.mem_of_mem_keptContainers hr) hp

namespace DialectTable

/-- **A step has one text block at most, in front of its rows.**  The steps of a
document, in order, are made from its step tokens that have a place in a feature.
The block of a step is the text block that is the next token in the document; a step
with another token behind it has none.  The block and the rows are all it has. -/
theorem parseText_arguments {t : DialectTable} {source : Text} {fs : List Feature}
    (h : t.parseText source = .ok fs) :
    ∃ ts, t.tokenizeText source = .ok ts ∧
      List.Forall₂ (Step.IsMadeAt ts) (keptSteps ts) (fs.flatMap Feature.steps) := by
  obtain ⟨ts, hts, rfl⟩ := tokenize_of_parse h
  obtain ⟨d, -, rfl⟩ := dialectOf_of_tokenize hts
  exact ⟨_, hts, forall₂_keptSteps (Line.areLegible_scan fun _ => Text.not_mem_of_mem_lines)⟩

/-- A step that has no container, a line without meaning in front of a text block, and
quotes behind a row, which open no block. -/
theorem parseText_arguments_behind_ignored_line :
    let source : Text :=
      "Feature: A\nGiven b\n'''c'''\nScenario: S\nThen d\ne\n'''\nf\n'''\n| g |\nAnd h\n| i |\n'''"
    let f : Feature :=
      { keyword := "Feature", name := "A", tags := [], description := none, background := none
        scenarios := [.scenario ⟨⟨"Scenario", "S", []⟩,
          [⟨"Then", "d", .thenStep, .thenStep, [.block "f", .row ["g"]]⟩,
            ⟨"And", "h", .andStep, .thenStep, [.row ["i"]]⟩]⟩] }
    standard.parseText source = .ok [f] ∧ ∃ ts, standard.tokenizeText source = .ok ts ∧
      List.Forall₂ (Step.IsMadeAt ts) (keptSteps ts) ([f].flatMap Feature.steps) := by
  intro source f
  have hparse : standard.parseText source = .ok [f] := by decide
  exact ⟨hparse, parseText_arguments hparse⟩

end DialectTable

end Gherkin
