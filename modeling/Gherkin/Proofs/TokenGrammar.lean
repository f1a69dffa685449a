import Gherkin.Proofs.TokenOrder
import Gherkin.Proofs.Legible
import Gherkin.Dialect.Standard

/-!
# The grammar of the tokens

What a scan finds has a grammar of its own.  It says which token may stand behind
which, and what the text of each kind looks like.

> `tokenizeText_grammar`: the tokens of a document follow the grammar
> (`IsTokenStream`) of its dialect.

Most of it is known from other places.  The neighbours of a token follow from the
mode of the scan (`Line.inOrder_scan`), and the texts of descriptions and text blocks
from the lines that the mode keeps back (`Line.areLegible_scan`).  Rows and tags are
found in the line that they stand in, whatever the mode is, so for these it is
enough to look at one line (`standsIn_of_mem_advance`).
-/

namespace Gherkin

/-- A line of a description: it says something, and starts with no keyword. -/
structure Line.IsDescriptive (d : Dialect) (l : Text) : Prop where
  neat : Text.IsNeat l
  ne_nil : l ≠ []
  noComment : l.head? ≠ some '#'
  notStructural : match? d Role.structural l = none
  notStep : match? d Role.steps l = none

/-- The text of a token is what its kind asks for, in a document of dialect `d`. -/
structure Token.HasForm (d : Dialect) (t : Token) : Prop where
  keyword : ∀ r : Role, t.kind = r.kind → Text.IsNeat t.text
  description : t.kind = .description →
    ∃ ls, ls ≠ [] ∧ t.text = Text.ofLines ls ∧ ∀ l ∈ ls, Line.IsDescriptive d l
  tag : t.kind = .tag → t.text ≠ [] ∧ ∀ c ∈ t.text, Text.isWordChar c = true
  row : t.kind = .row → Text.IsNeat t.text ∧ t.text.head? = some '|'
  block : t.kind = .block →
    ∃ ls, t.text = Text.ofLines ls ∧ ∀ l ∈ ls, Text.IsNeat l ∧ l ≠ []

/-- The grammar of the tokens of a document in the dialect `d`. -/
structure IsTokenStream (d : Dialect) (ts : List Token) : Prop where
  description : ∀ before t after, ts = before ++ t :: after → t.kind = .description →
    ∃ s, before.getLast? = some s ∧ s.kind = .feature
  belowFeature : ∀ before s t after, ts = before ++ s :: t :: after →
    s.kind = .feature ∨ s.kind = .description → t.kind ≠ .row ∧ t.kind ≠ .block
  block : ∀ before t after, ts = before ++ t :: after → t.kind = .block →
    ∃ s family, before.getLast? = some s ∧ s.kind = .step family
  forms : ∀ t ∈ ts, t.HasForm d

/-! ## Neighbours -/

theorem Token.exists_kind_of_isStep {t : Token} (h : t.isStep = true) :
    ∃ family, t.kind = .step family := by
  cases hk : t.kind <;> simp_all [isStep, TokenKind.isStep]

namespace InOrder

variable {ts : List Token} (h : InOrder ts)

include h

/-- A description stands behind its feature. -/
theorem feature_before {before after : List Token} {t : Token} (hts : ts = before ++ t :: after)
    (ht : t.kind = .description) : ∃ s, before.getLast? = some s ∧ s.kind = .feature := by
  have hlast := (h before t after hts).description ht
  cases hs : before.getLast? with
  | none => simp [hs] at hlast
  | some s =>
    rw [hs, Option.any_some] at hlast
    exact ⟨s, rfl, Token.kind_of_isFeature hlast⟩

/-- A text block stands behind its step. -/
theorem step_before {before after : List Token} {t : Token} (hts : ts = before ++ t :: after)
    (ht : t.kind = .block) : ∃ s family, before.getLast? = some s ∧ s.kind = .step family := by
  have hlast := (h before t after hts).block ht
  cases hs : before.getLast? with
  | none => simp [hs] at hlast
  | some s =>
    rw [hs, Option.any_some] at hlast
    obtain ⟨family, hk⟩ := Token.exists_kind_of_isStep hlast
    exact ⟨s, family, rfl, hk⟩

/-- Directly below a feature and its description there is neither a row nor a text
block. -/
theorem below_feature {before after : List Token} {s t : Token}
    (hts : ts = before ++ s :: t :: after) (hs : s.kind = .feature ∨ s.kind = .description) :
    t.kind ≠ .row ∧ t.kind ≠ .block := by
  have hts' : ts = (before ++ [s]) ++ t :: after := by rw [hts]; simp
  have hlast : (before ++ [s]).getLast? = some s := List.getLast?_concat
  constructor
  · intro hrow
    obtain ⟨hf, hd⟩ := (h _ t after hts').row hrow s hlast
    rcases hs with hs | hs
    · rw [Token.isFeature, hs] at hf
      cases hf
    · exact hd hs
  · intro hblock
    obtain ⟨u, family, hu, hk⟩ := h.step_before hts' hblock
    rw [hlast, Option.some.injEq] at hu
    rw [← hu] at hk
    rcases hs with hs | hs <;> rw [hs] at hk <;> cases hk

end InOrder

/-! ## Rows and tags -/

namespace Line

theorem tags_of_shape_tags {d : Dialect} {line : Text} {names : List Text}
    (h : shape d line = .tags names) : tags line = names := by
  unfold shape at h
  split at h
  next => cases h
  next =>
    split at h
    next first rest htags => rw [htags, LineShape.tags.inj h]
    next => split at h <;> cases h

/-- A tag is a word, and not the empty one. -/
theorem word_of_mem_tags {line name : Text} (h : name ∈ tags line) :
    name ≠ [] ∧ ∀ c ∈ name, Text.isWordChar c = true := by
  unfold tags at h
  split at h
  next =>
    obtain ⟨hpiece, hne⟩ := List.mem_filter.1 h
    obtain ⟨piece, -, rfl⟩ := List.mem_map.1 hpiece
    exact ⟨by simpa using hne, fun c hc => List.mem_takeWhile_imp hc⟩
  next => cases h

theorem head?_of_isRow {line : Text} (h : isRow line = true) : line.head? = some '|' := by
  simpa [isRow] using h

/-- A free line starts with no keyword. -/
theorem match?_of_shape_free {d : Dialect} {line : Text} (h : shape d line = .free) :
    match? d Role.structural line = none ∧ match? d Role.steps line = none := by
  unfold shape at h
  split at h
  next => cases h
  next hstructural =>
    split at h
    next => cases h
    next =>
      split at h
      next => cases h
      next hstep => exact ⟨hstructural, hstep⟩

theorem IsFree.isDescriptive {d : Dialect} {l : Text} (h : IsFree d l) : IsDescriptive d l where
  neat := h.neat
  ne_nil := ne_nil_of_isEffective h.effective
  noComment := by
    have heff := h.effective
    cases l with
    | nil => cases heff
    | cons c l =>
      intro hc
      rw [List.head?_cons, Option.some.injEq] at hc
      rw [hc] at heff
      cases heff
  notStructural := (match?_of_shape_free h.free).1
  notStep := (match?_of_shape_free h.free).2

end Line

/-- What a line has to do with a token that it gives: a row is the line itself, and a
tag one of those that stand in it. -/
structure Token.StandsIn (t : Token) (l : Text) : Prop where
  row : t.kind = .row → t.text = l ∧ Line.isRow l = true
  tag : t.kind = .tag → t.text ∈ Line.tags l

/-- Tokens of other kinds may stand in any line. -/
theorem Token.standsIn_of_kind {t : Token} (hrow : t.kind ≠ .row) (htag : t.kind ≠ .tag)
    (l : Text) : t.StandsIn l :=
  ⟨fun h => absurd h hrow, fun h => absurd h htag⟩

namespace ScanMode

variable {d : Dialect} {l : NumberedLine} {mode : ScanMode} {t : Token}

theorem kind_of_mem_pending (h : t ∈ foundTokens mode.pending) : t.kind = .description := by
  unfold pending at h
  split at h
  · rw [foundTokens_token, foundTokens_nil, List.mem_singleton] at h
    rw [h]
  · cases h

theorem kind_of_mem_addLine {b : OpenBlock} {s : Text}
    (h : t ∈ foundTokens (inBlock (b.addLine s)).2) : t.kind = .block := by
  rcases b.addLine_cases s with ⟨-, hadd⟩ | ⟨r, -, hadd⟩
  · rw [hadd] at h
    cases h
  · rw [hadd, inBlock, foundTokens_token, foundTokens_nil, List.mem_singleton] at h
    rw [h]
    rfl

theorem kind_of_mem_start? {n : Nat} {s : Text} {state : BlockState}
    (hstate : OpenBlock.start? n s = some state) (h : t ∈ foundTokens (inBlock state).2) :
    t.kind = .block := by
  obtain ⟨q, -, rest, -, rfl⟩ := OpenBlock.start?_cases hstate
  rcases OpenBlock.begin_cases ⟨q, n, []⟩ rest with ⟨body, hb⟩ | ⟨-, body, hb⟩
  · rw [hb] at h
    cases h
  · rw [hb, inBlock, foundTokens_token, foundTokens_nil, List.mem_singleton] at h
    rw [h]
    rfl

theorem standsIn_of_mem_unclaimed (mode : ScanMode) (h : t ∈ foundTokens (unclaimed mode l).2) :
    t.StandsIn l.text := by
  unfold unclaimed at h
  split at h
  next hrow =>
    rw [foundTokens_token, foundTokens_nil, List.mem_singleton] at h
    subst h
    exact ⟨fun _ => ⟨rfl, hrow⟩, fun hk => absurd hk (by simp)⟩
  next => cases h

theorem standsIn_of_mem_free (h : t ∈ foundTokens (free l mode).2) : t.StandsIn l.text := by
  cases mode with
  | plain => exact standsIn_of_mem_unclaimed plain h
  | feature description => cases h
  | step =>
    rw [free] at h
    split at h
    next state hstate =>
      have hk := kind_of_mem_start? hstate h
      exact Token.standsIn_of_kind (by simp [hk]) (by simp [hk]) _
    next => exact standsIn_of_mem_unclaimed step h
  | block b => exact standsIn_of_mem_unclaimed (block b) h

/-- Rows and tags stand in the line that gives them. -/
theorem standsIn_of_mem_advance (h : t ∈ foundTokens (advance d l mode).2) :
    t.StandsIn l.text := by
  have hpending (ht : t ∈ foundTokens mode.pending) : t.StandsIn l.text := by
    have hk := kind_of_mem_pending ht
    exact Token.standsIn_of_kind (by simp [hk]) (by simp [hk]) _
  cases hb : mode.isBlock with
  | true =>
    cases mode with
    | block b =>
      have hk := kind_of_mem_addLine (b := b) h
      exact Token.standsIn_of_kind (by simp [hk]) (by simp [hk]) _
    | _ => cases hb
  | false =>
    cases hs : Line.shape d l.text with
    | keyworded m =>
      rw [advance_of_keyworded hs hb, foundTokens_append] at h
      rcases List.mem_append.1 h with h | h
      · exact hpending h
      · rw [foundTokens_token, foundTokens_nil, List.mem_singleton] at h
        subst h
        apply Token.standsIn_of_kind <;>
          cases hr : m.role <;> simp [KeywordMatch.token, hr, Role.kind]
    | tags names =>
      rw [advance_of_tags hs hb, foundTokens_append, foundTokens_tags] at h
      rcases List.mem_append.1 h with h | h
      · exact hpending h
      · obtain ⟨name, hname, rfl⟩ := List.mem_map.1 h
        exact ⟨fun hk => absurd hk (by simp), fun _ => by rwa [Line.tags_of_shape_tags hs]⟩
    | free =>
      rw [advance_of_free hs hb] at h
      exact standsIn_of_mem_free h

/-- Every token of a run is given by one of its lines. -/
theorem exists_standsIn_of_mem_run :
    ∀ {ls : List NumberedLine} {mode : ScanMode}, t ∈ foundTokens (run d mode ls).2 →
      ∃ l ∈ ls, t.StandsIn l.text
  | [], mode, h => by cases h
  | l :: ls, mode, h => by
    rw [run, foundTokens_append] at h
    rcases List.mem_append.1 h with h | h
    · exact ⟨l, List.mem_cons_self, standsIn_of_mem_advance h⟩
    · obtain ⟨m, hm, ht⟩ := exists_standsIn_of_mem_run h
      exact ⟨m, List.mem_cons_of_mem _ hm, ht⟩

end ScanMode

namespace Line

variable {d : Dialect} {lines : List Text} {t : Token}

/-- At the end of a document nothing but a description can be left. -/
theorem exists_standsIn_of_mem_scan (h : t ∈ foundTokens (scan d lines))
    (hk : t.kind ≠ .description) : ∃ l ∈ effective lines, t.StandsIn l.text := by
  rw [foundTokens_scan, ScanMode.tokensFrom, foundTokens_append] at h
  rcases List.mem_append.1 h with h | h
  · exact ScanMode.exists_standsIn_of_mem_run h
  · cases hb : (ScanMode.plain.run d (effective lines)).1.isBlock with
    | true =>
      cases hm : (ScanMode.plain.run d (effective lines)).1 with
      | block b =>
        rw [hm] at h
        cases h
      | _ =>
        rw [hm] at hb
        cases hb
    | false =>
      rw [ScanMode.atEnd_of_not_isBlock hb] at h
      exact absurd (ScanMode.kind_of_mem_pending h) hk

theorem hasForm_of_mem_scan (hlines : ∀ l ∈ lines, '\n' ∉ l) (h : t ∈ foundTokens (scan d lines)) :
    t.HasForm d := by
  have hlegible := (areLegible_scan (d := d) hlines).tokens t h
  constructor
  · intro r hr
    exact (hlegible.keyword r hr).2
  · intro hk
    obtain ⟨hstacked, hne, hfree⟩ := hlegible.description hk
    exact ⟨Text.lines t.text, hne, hstacked.whole.symm, fun l hl => (hfree l hl).isDescriptive⟩
  · intro hk
    obtain ⟨l, -, hl⟩ := exists_standsIn_of_mem_scan h (by simp [hk])
    exact word_of_mem_tags (hl.tag hk)
  · intro hk
    obtain ⟨l, hmem, hl⟩ := exists_standsIn_of_mem_scan h (by simp [hk])
    obtain ⟨htext, hrow⟩ := hl.row hk
    rw [htext]
    exact ⟨(isNeat_of_mem_effective hlines hmem).1, head?_of_isRow hrow⟩
  · intro hk
    have hstacked := hlegible.block hk
    exact ⟨Text.lines t.text, hstacked.whole.symm,
      fun l hl => ⟨hstacked.neat l hl, hstacked.ne_nil l hl⟩⟩

/-- The tokens of lines that were cut at the line feeds. -/
theorem isTokenStream_scan (d : Dialect) (hlines : ∀ l ∈ lines, '\n' ∉ l) :
    IsTokenStream d (foundTokens (scan d lines)) where
  description _ _ _ := (inOrder_scan d lines).feature_before
  belowFeature _ _ _ _ := (inOrder_scan d lines).below_feature
  block _ _ _ := (inOrder_scan d lines).step_before
  forms _ := hasForm_of_mem_scan hlines

end Line

namespace DialectTable

/-- **Tokens follow a grammar.**  A description stands behind its feature and a text
block behind its step, directly, and neither a row nor a text block below a feature
or its description.  The texts of keyword lines and rows are neat, descriptions and
text blocks consist of neat lines, of which those of a description could not have
meant anything else, and tags are words. -/
theorem tokenizeText_grammar {t : DialectTable} {source : Text} {ts : List Token}
    (h : t.tokenizeText source = .ok ts) :
    ∃ d, t.dialectOf (Text.lines source) = .ok d ∧ IsTokenStream d ts := by
  obtain ⟨d, hd, rfl⟩ := dialectOf_of_tokenize h
  exact ⟨d, hd, Line.isTokenStream_scan d fun _ => Text.not_mem_of_mem_lines⟩

/-- A description that looks like a row and the start of a text block, a tag that ends
at a hyphen, and a text block with a row behind it. -/
theorem tokenizeText_grammar_of_all_kinds :
    let source : Text :=
      "Feature: A\n| b\n''' c \n@x @y-z\nScenario: S\nGiven d\n'''e\n\n# f\n g\n'''\n| h |"
    let ts : List Token :=
      [⟨.feature, "Feature", "A", 0⟩, ⟨.description, [], "| b\n''' c", 1⟩, ⟨.tag, "@", "x", 3⟩,
        ⟨.tag, "@", "y", 3⟩, ⟨.scenario, "Scenario", "S", 4⟩, ⟨.step .givenStep, "Given", "d", 5⟩,
        ⟨.block, [], "e\ng", 6⟩, ⟨.row, [], "| h |", 11⟩]
    standard.tokenizeText source = .ok ts ∧ IsTokenStream Dialect.english ts := by
  intro source ts
  have hts : standard.tokenizeText source = .ok ts := by decide
  have henglish : standard.dialectOf (Text.lines source) = .ok Dialect.english := by decide
  obtain ⟨d, hd, hstream⟩ := tokenizeText_grammar hts
  obtain rfl : Dialect.english = d := Except.ok.inj (henglish.symm.trans hd)
  exact ⟨hts, hstream⟩

end DialectTable

end Gherkin
