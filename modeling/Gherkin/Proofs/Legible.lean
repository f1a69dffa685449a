import Gherkin.Proofs.Scanning
import Gherkin.Proofs.Wording
import Mathlib.Data.List.Chain

/-!
# Legible tokens

Every token that a scan finds could be written down again: its keyword belongs
to the dialect, its text is neat, a description has free lines only, and a text
block stands directly behind a step.

> `areLegible_scan`: the tokens of a document are legible, and text blocks stand
> behind steps only.

The scan is followed line by line.  `Scanned d ts mode` says what holds when it
has found `ts` and is in `mode`; a text block that is open promises that a step
came last.
-/

namespace Gherkin

/-- A free line that says something. -/
structure Line.IsFree (d : Dialect) (l : Text) : Prop where
  neat : Text.IsNeat l
  effective : isEffective l = true
  free : shape d l = .free

/-- A description that consists of free lines. -/
structure Text.IsDescription (d : Dialect) (s : Text) : Prop where
  stacked : IsStacked s
  ne_nil : lines s ≠ []
  free : ∀ l ∈ lines s, Line.IsFree d l

theorem Line.ne_nil_of_isEffective {l : Text} (h : isEffective l = true) : l ≠ [] := by
  rintro rfl
  cases h

theorem Text.isDescription_ofLines {d : Dialect} {ls : List Text} (hne : ls ≠ [])
    (hfree : ∀ l ∈ ls, Line.IsFree d l) : IsDescription d (ofLines ls) := by
  obtain ⟨hstacked, hlines⟩ := isStacked_ofLines (fun l hl => (hfree l hl).neat)
    fun l hl => Line.ne_nil_of_isEffective (hfree l hl).effective
  exact ⟨hstacked, by rwa [hlines], by rwa [hlines]⟩

namespace Token

def isBlock (t : Token) : Bool := t.kind == .block

/-- A token that can be written down again. -/
structure IsLegible (d : Dialect) (t : Token) : Prop where
  keyword : ∀ r : Role, t.kind = r.kind → t.keyword ∈ d.words r ∧ Text.IsNeat t.text
  description : t.kind = .description → t.text.IsDescription d
  row : t.kind = .row → '\n' ∉ t.text
  block : t.kind = .block → t.text.IsStacked

/-- That `t` may stand directly behind `s`: text blocks stand behind steps. -/
def Follows (s t : Token) : Prop := t.isBlock = true → s.isStep = true

end Token

/-- Tokens that can be written down again, one after another. -/
structure AreLegible (d : Dialect) (ts : List Token) : Prop where
  tokens : ∀ t ∈ ts, t.IsLegible d
  order : ts.IsChain Token.Follows

namespace ScanMode

/-- Whether the next token may be a text block. -/
def isBelowStep : ScanMode → Bool
  | step | block _ => true
  | _ => false

/-- What the lines that a mode keeps back are like. -/
def IsLegible (d : Dialect) : ScanMode → Prop
  | feature description => ∀ l ∈ description, Line.IsFree d l.text
  | block b => ∀ s ∈ b.body, Text.IsNeat s ∧ s ≠ []
  | _ => True

end ScanMode

/-- A scan that has found the tokens `ts` and is in the given mode. -/
structure Scanned (d : Dialect) (ts : List Token) (mode : ScanMode) : Prop
    extends AreLegible d ts where
  kept : mode.IsLegible d
  below : mode.isBelowStep = true → ∀ s, ts.getLast? = some s → s.isStep = true

theorem Role.kind_injective {r s : Role} (h : r.kind = s.kind) : r = s := by
  cases r <;> cases s <;> simp_all [Role.kind]

namespace Token

variable {d : Dialect} {m : KeywordMatch}

theorem isLegible_of_keyworded {line : Text} (h : Line.shape d line = .keyworded m) (n : Nat) :
    (m.token n).IsLegible d where
  keyword r hr := by
    have hrole : m.role = r := Role.kind_injective hr
    subst hrole
    exact Line.of_shape_keyworded h
  description hk := by cases hr : m.role <;> simp [KeywordMatch.token, hr, Role.kind] at hk
  row hk := by cases hr : m.role <;> simp [KeywordMatch.token, hr, Role.kind] at hk
  block hk := by cases hr : m.role <;> simp [KeywordMatch.token, hr, Role.kind] at hk

theorem isLegible_tag (keyword name : Text) (n : Nat) :
    IsLegible d ⟨.tag, keyword, name, n⟩ where
  keyword r hr := by cases r <;> simp [Role.kind] at hr
  description hk := by cases hk
  row hk := by cases hk
  block hk := by cases hk

theorem isLegible_row {text : Text} (h : '\n' ∉ text) (n : Nat) :
    IsLegible d ⟨.row, [], text, n⟩ where
  keyword r hr := by cases r <;> simp [Role.kind] at hr
  description hk := by cases hk
  row _ := h
  block hk := by cases hk

theorem isLegible_description {text : Text} (h : text.IsDescription d) (n : Nat) :
    IsLegible d ⟨.description, [], text, n⟩ where
  keyword r hr := by cases r <;> simp [Role.kind] at hr
  description _ := h
  row hk := by cases hk
  block hk := by cases hk

theorem isLegible_block {text : Text} (h : text.IsStacked) (n : Nat) :
    IsLegible d ⟨.block, [], text, n⟩ where
  keyword r hr := by cases r <;> simp [Role.kind] at hr
  description hk := by cases hk
  row hk := by cases hk
  block _ := h

end Token

namespace Scanned

variable {d : Dialect} {ts : List Token} {mode : ScanMode}

theorem start (d : Dialect) : Scanned d [] .plain := ⟨⟨by simp, by simp⟩, trivial, by simp⟩

/-- One more token. -/
theorem concat {t : Token} {mode' : ScanMode} (h : Scanned d ts mode) (ht : t.IsLegible d)
    (hblock : t.isBlock = true → mode.isBelowStep = true) (hmode : mode'.IsLegible d)
    (hbelow : mode'.isBelowStep = true → t.isStep = true) : Scanned d (ts ++ [t]) mode' where
  tokens u hu := by
    rcases List.mem_append.1 hu with hu | hu
    · exact h.tokens u hu
    · rwa [List.mem_singleton.1 hu]
  order := by
    rw [List.isChain_append]
    refine ⟨h.order, by simp, ?_⟩
    intro s hs u hu hb
    simp only [List.head?_cons, Option.mem_def, Option.some.injEq] at hu
    subst hu
    exact h.below (hblock hb) s hs
  kept := hmode
  below hb s hs := by
    rw [List.getLast?_concat, Option.some.injEq] at hs
    exact hs ▸ hbelow hb

/-- A mode that expects no more than the one before, and no more tokens. -/
theorem weaken {mode' : ScanMode} (h : Scanned d ts mode) (hmode : mode'.IsLegible d)
    (hbelow : mode'.isBelowStep = true → mode.isBelowStep = true) : Scanned d ts mode' :=
  ⟨h.toAreLegible, hmode, fun hb => h.below (hbelow hb)⟩

/-- The description that was pending. -/
theorem pending (h : Scanned d ts mode) :
    Scanned d (ts ++ foundTokens mode.pending) .plain := by
  unfold ScanMode.pending
  split
  next first rest =>
    have hfree : ∀ l ∈ (first :: rest).map (·.text), Line.IsFree d l := by
      intro l hl
      obtain ⟨n, hn, rfl⟩ := List.mem_map.1 hl
      exact h.kept n hn
    exact h.concat (Token.isLegible_description (Text.isDescription_ofLines (by simp) hfree) _)
      (by simp [Token.isBlock]) trivial (by simp [ScanMode.isBelowStep])
  next =>
    simp only [foundTokens_nil, List.append_nil]
    exact h.weaken trivial (by simp [ScanMode.isBelowStep])

/-- A line of a text block. -/
theorem inBlock {b : OpenBlock} {s : Text} (h : Scanned d ts mode)
    (hbelow : mode.isBelowStep = true) (hbody : ∀ s ∈ b.body, Text.IsNeat s ∧ s ≠ [])
    (hs : Text.IsNeat s) (hne : s ≠ []) :
    Scanned d (ts ++ foundTokens (ScanMode.inBlock (b.addLine s)).2)
      (ScanMode.inBlock (b.addLine s)).1 := by
  have hconcat {l : Text} (hl : Text.IsNeat l ∧ l ≠ []) :
      ∀ s ∈ b.body ++ [l], Text.IsNeat s ∧ s ≠ [] := by
    intro s hs
    rcases List.mem_append.1 hs with hs | hs
    · exact hbody s hs
    · rwa [List.mem_singleton.1 hs]
  have hfinish {body : List Text} (hls : ∀ s ∈ body, Text.IsNeat s ∧ s ≠ []) :
      Scanned d (ts ++ [b.token body]) .plain := by
    have hstacked := (Text.isStacked_ofLines (fun l hl => (hls l hl).1) fun l hl => (hls l hl).2).1
    exact h.concat (Token.isLegible_block hstacked _) (fun _ => hbelow) trivial
      (by simp [ScanMode.isBelowStep])
  unfold OpenBlock.addLine
  split
  next =>
    simp only [ScanMode.inBlock, foundTokens_nil, List.append_nil]
    exact h.weaken (hconcat ⟨hs, hne⟩) fun _ => hbelow
  next rest hrest =>
    -- the line closes the block, and leaves what stands before the quotes
    rw [Text.before?_eq_some.1 hrest] at hs
    split
    next => exact hfinish hbody
    next last hlast => exact hfinish (hconcat ⟨hs.trimEnd_of_append, hlast⟩)

/-- A line that opens a text block. -/
theorem start? {n : Nat} {s : Text} {state : BlockState} (h : Scanned d ts mode)
    (hbelow : mode.isBelowStep = true) (hs : Text.IsNeat s)
    (hstate : OpenBlock.start? n s = some state) :
    Scanned d (ts ++ foundTokens (ScanMode.inBlock state).2) (ScanMode.inBlock state).1 := by
  obtain ⟨⟨delimiter, rest⟩, hopening, rfl⟩ := Option.map_eq_some_iff.1 hstate
  dsimp only
  split
  next =>
    simp only [ScanMode.inBlock, foundTokens_nil, List.append_nil]
    exact h.weaken (by simp [ScanMode.IsLegible]) fun _ => hbelow
  next first hfirst =>
    -- the rest of the opening line is the first line of the block
    obtain ⟨q, -, hq⟩ := List.exists_of_findSome?_eq_some hopening
    obtain ⟨r, hr, hpair⟩ := Option.map_eq_some_iff.1 hq
    obtain ⟨rfl, rfl⟩ := Prod.mk.inj hpair
    rw [Text.after?_eq_some.1 hr] at hs
    exact h.inBlock hbelow (by simp) hs.trimStart_of_append hfirst

/-- A free line that no mode claims. -/
theorem unclaimed {l : NumberedLine} (h : Scanned d ts mode) (hl : Text.IsNeat l.text) :
    Scanned d (ts ++ foundTokens (ScanMode.unclaimed mode l).2)
      (ScanMode.unclaimed mode l).1 := by
  unfold ScanMode.unclaimed
  split
  · exact h.concat (Token.isLegible_row hl.oneLine _) (by simp [Token.isBlock]) trivial
      (by simp [ScanMode.isBelowStep])
  · simpa using h

/-- A free line. -/
theorem free {l : NumberedLine} (h : Scanned d ts mode) (hl : Line.IsFree d l.text) :
    Scanned d (ts ++ foundTokens (ScanMode.free l mode).2) (ScanMode.free l mode).1 := by
  cases mode with
  | feature description =>
    simp only [ScanMode.free, foundTokens_nil, List.append_nil]
    refine h.weaken ?_ (by simp [ScanMode.isBelowStep])
    intro n hn
    rcases List.mem_append.1 hn with hn | hn
    · exact h.kept n hn
    · rwa [List.mem_singleton.1 hn]
  | step =>
    rw [ScanMode.free]
    split
    next state hstate => exact h.start? rfl hl.neat hstate
    next => exact h.unclaimed hl.neat
  | plain => exact h.unclaimed hl.neat
  | block b => exact h.unclaimed hl.neat

/-- The tags of a line. -/
theorem tags (h : Scanned d ts .plain) (names : List Text) (n : Nat) :
    Scanned d (ts ++ names.map fun name => ⟨.tag, Token.tagMark, name, n⟩) .plain := by
  induction names generalizing ts with
  | nil => simpa using h
  | cons name names ih =>
    rw [List.map_cons, List.append_cons]
    exact ih (h.concat (Token.isLegible_tag _ _ _) (by simp [Token.isBlock]) trivial
      (by simp [ScanMode.isBelowStep]))

/-- One line. -/
theorem advance {l : NumberedLine} (h : Scanned d ts mode) (hl : Text.IsNeat l.text)
    (heff : Line.isEffective l.text = true) :
    Scanned d (ts ++ foundTokens (ScanMode.advance d l mode).2) (ScanMode.advance d l mode).1 := by
  cases hb : mode.isBlock with
  | true =>
    cases mode with
    | block b => exact h.inBlock rfl h.kept hl (Line.ne_nil_of_isEffective heff)
    | _ => cases hb
  | false =>
    cases hs : Line.shape d l.text with
    | keyworded m =>
      rw [ScanMode.advance_of_keyworded hs hb]
      simp only [foundTokens_append, foundTokens_token, foundTokens_nil, ← List.append_assoc]
      refine h.pending.concat (Token.isLegible_of_keyworded hs _) ?_ ?_ ?_
      · cases hr : m.role <;> simp [KeywordMatch.token, hr, Role.kind, Token.isBlock]
      · cases hr : m.role <;> simp [ScanMode.afterKeyword, ScanMode.IsLegible]
      · cases hr : m.role <;>
          simp [ScanMode.afterKeyword, ScanMode.isBelowStep, KeywordMatch.token, hr, Role.kind,
            Token.isStep, TokenKind.isStep]
    | tags names =>
      rw [ScanMode.advance_of_tags hs hb]
      simp only [foundTokens_append, foundTokens_tags, ← List.append_assoc]
      exact h.pending.tags names _
    | free =>
      rw [ScanMode.advance_of_free hs hb]
      exact h.free ⟨hl, heff, hs⟩

/-- All lines. -/
theorem run :
    ∀ {ls : List NumberedLine} {ts : List Token} {mode : ScanMode}, Scanned d ts mode →
      (∀ l ∈ ls, Text.IsNeat l.text ∧ Line.isEffective l.text = true) →
        Scanned d (ts ++ foundTokens (ScanMode.run d mode ls).2) (ScanMode.run d mode ls).1
  | [], ts, mode, h, _ => by simpa [ScanMode.run] using h
  | l :: ls, ts, mode, h, hls => by
    obtain ⟨hneat, heff⟩ := hls l (by simp)
    have hnext := run (h.advance hneat heff) fun m hm => hls m (List.mem_cons_of_mem _ hm)
    rw [ScanMode.run]
    simp only [foundTokens_append, ← List.append_assoc]
    exact hnext

/-- The end of the document. -/
theorem atEnd (h : Scanned d ts mode) : Scanned d (ts ++ foundTokens mode.atEnd) .plain := by
  cases hb : mode.isBlock with
  | true =>
    cases mode with
    | block b =>
      have hplain : Scanned d ts .plain := h.weaken trivial (by simp [ScanMode.isBelowStep])
      simpa [ScanMode.atEnd] using hplain
    | _ => cases hb
  | false =>
    rw [ScanMode.atEnd_of_not_isBlock hb]
    exact h.pending

end Scanned

namespace Line

/-- The lines that are scanned are neat, and each of them says something. -/
theorem isNeat_of_mem_effective {lines : List Text} (hlines : ∀ l ∈ lines, '\n' ∉ l)
    {l : NumberedLine} (h : l ∈ effective lines) :
    Text.IsNeat l.text ∧ isEffective l.text = true := by
  obtain ⟨hl, heff⟩ := List.mem_filter.1 h
  obtain ⟨⟨text, n⟩, hpair, rfl⟩ := List.mem_map.1 hl
  obtain ⟨line, hline, rfl⟩ := List.mem_map.1 (List.fst_mem_of_mem_zipIdx hpair)
  exact ⟨Text.isNeat_trim (hlines line hline), heff⟩

/-- **Whatever is found can be written down again.** -/
theorem areLegible_scan {d : Dialect} {lines : List Text} (hlines : ∀ l ∈ lines, '\n' ∉ l) :
    AreLegible d (foundTokens (scan d lines)) := by
  have h := ((Scanned.start d).run fun l hl => isNeat_of_mem_effective hlines hl).atEnd
  rw [List.nil_append, ← foundTokens_append] at h
  exact h.toAreLegible

end Line

end Gherkin
