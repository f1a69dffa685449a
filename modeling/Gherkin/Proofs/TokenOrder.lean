import Gherkin.Proofs.Scanning
import Gherkin.Proofs.TextBlock

/-!
# What stands next to what

The tokens of a document do not come in any order.  A description stands directly
behind its feature, a text block directly behind its step, and no row directly
behind a feature or its description.  None of this is checked anywhere: it
follows from the mode of the scan, which always agrees with the last token.

> `inOrder_scan`: the tokens of a document are in order.
>
> `mode_of_last_step`: where a step came last and no text block is open, the scan
> waits for one.

`Ordered ts mode` is what every line preserves: the tokens so far are in order,
and the mode is one that fits the last of them.
-/

namespace Gherkin

namespace Token

/-- That `t` may stand directly behind `last`, or at the start if there is none. -/
structure MayFollow (last : Option Token) (t : Token) : Prop where
  description : t.kind = .description → last.any isFeature = true
  block : t.kind = .block → last.any isStep = true
  row : t.kind = .row → ∀ s, last = some s → s.isFeature = false ∧ s.kind ≠ .description

/-- Kinds of token that may stand anywhere. -/
theorem mayFollow_of_kind {t : Token} (hd : t.kind ≠ .description) (hb : t.kind ≠ .block)
    (hr : t.kind ≠ .row) (last : Option Token) : t.MayFollow last :=
  ⟨fun h => absurd h hd, fun h => absurd h hb, fun h => absurd h hr⟩

theorem mayFollow_keyword (m : KeywordMatch) (n : Nat) (last : Option Token) :
    (m.token n).MayFollow last := by
  apply mayFollow_of_kind <;> cases hr : m.role <;> simp [KeywordMatch.token, hr, Role.kind]

theorem isStep_of_isFeature {t : Token} (h : t.isFeature = true) : t.isStep = false := by
  cases hk : t.kind <;> simp_all [isFeature, isStep, TokenKind.isStep]

end Token

/-- A line of tags gives one tag at least. -/
theorem Line.exists_cons_of_shape_tags {d : Dialect} {line : Text} {names : List Text}
    (h : shape d line = .tags names) : ∃ first rest, names = first :: rest := by
  unfold shape at h
  split at h
  · cases h
  · split at h
    next first rest _ => exact ⟨first, rest, (LineShape.tags.inj h).symm⟩
    next => split at h <;> cases h

/-- All that a line can do, with the mode that lets it. -/
theorem ScanMode.advance_cases (d : Dialect) (l : NumberedLine) (mode : ScanMode) :
    (∃ b, mode = block b ∧ advance d l mode = inBlock (b.addLine l.text)) ∨
      (mode.isBlock = false ∧ ∃ m : KeywordMatch,
        advance d l mode = (afterKeyword m.role, mode.pending ++ [.token (m.token l.number)])) ∨
      (mode.isBlock = false ∧ ∃ first others, advance d l mode =
        (plain, mode.pending ++ (first :: others).map fun name =>
          .token ⟨.tag, Token.tagMark, name, l.number⟩)) ∨
      mode.isBlock = false ∧ advance d l mode = free l mode := by
  cases hb : mode.isBlock with
  | true =>
    cases mode with
    | block b => exact Or.inl ⟨b, rfl, rfl⟩
    | _ => cases hb
  | false =>
    cases hs : Line.shape d l.text with
    | keyworded m => exact Or.inr (Or.inl ⟨rfl, m, advance_of_keyworded hs hb⟩)
    | tags names =>
      obtain ⟨first, others, rfl⟩ := Line.exists_cons_of_shape_tags hs
      exact Or.inr (Or.inr (Or.inl ⟨rfl, first, others, advance_of_tags hs hb⟩))
    | free => exact Or.inr (Or.inr (Or.inr ⟨rfl, advance_of_free hs hb⟩))

/-- That every token may stand where it stands. -/
def InOrder (ts : List Token) : Prop :=
  ∀ before t after, ts = before ++ t :: after → t.MayFollow before.getLast?

theorem InOrder.nil : InOrder [] := by
  intro before t after h
  simp at h

theorem InOrder.concat {ts : List Token} {t : Token} (h : InOrder ts)
    (ht : t.MayFollow ts.getLast?) : InOrder (ts ++ [t]) := by
  intro before u after heq
  rcases List.eq_nil_or_concat' after with rfl | ⟨after, v, rfl⟩
  · obtain ⟨rfl, hu⟩ := List.append_inj' heq rfl
    rwa [← List.singleton_inj.1 hu]
  · rw [← List.cons_append, ← List.append_assoc] at heq
    exact h before u after (List.append_inj' heq rfl).1

namespace ScanMode

/-- That the mode is one in which a scan can be behind the given token. -/
def Fits (last : Option Token) : ScanMode → Prop
  | plain => ∀ t, last = some t →
      t.isFeature = false ∧ t.isStep = false ∧ t.kind ≠ .description
  | feature _ => last.any Token.isFeature = true
  | step | block _ => last.any Token.isStep = true

end ScanMode

/-- A scan that has found the tokens `ts` and is in the given mode. -/
structure Ordered (ts : List Token) (mode : ScanMode) : Prop where
  order : InOrder ts
  fits : mode.Fits ts.getLast?

namespace Ordered

variable {d : Dialect} {l : NumberedLine} {ts : List Token} {mode : ScanMode}

theorem start : Ordered [] .plain := ⟨.nil, by simp [ScanMode.Fits]⟩

/-- What is pending is a description, and a feature came last. -/
theorem pending (h : Ordered ts mode) : InOrder (ts ++ foundTokens mode.pending) := by
  unfold ScanMode.pending
  split
  next first rest =>
    exact h.order.concat ⟨fun _ => h.fits, nofun, nofun⟩
  next =>
    rw [foundTokens_nil, List.append_nil]
    exact h.order

/-- Behind any other token nothing is expected. -/
theorem plain {t : Token} (h : InOrder ts) (ht : t.MayFollow ts.getLast?)
    (hf : t.isFeature = false) (hs : t.isStep = false) (hd : t.kind ≠ .description) :
    Ordered (ts ++ [t]) .plain := by
  refine ⟨h.concat ht, ?_⟩
  intro u hu
  rw [List.getLast?_concat, Option.some.injEq] at hu
  exact hu ▸ ⟨hf, hs, hd⟩

/-- The line that ends a text block gives the block behind its step. -/
theorem finished (h : InOrder ts) (hlast : (ts.getLast?).any Token.isStep = true) (b : OpenBlock)
    (body : List Text) : Ordered (ts ++ [b.token body]) .plain :=
  plain h ⟨nofun, fun _ => hlast, nofun⟩ rfl rfl nofun

/-- A line of an open text block. -/
theorem addLine {b : OpenBlock} (h : Ordered ts (.block b)) (s : Text) :
    Ordered (ts ++ foundTokens (ScanMode.inBlock (b.addLine s)).2)
      (ScanMode.inBlock (b.addLine s)).1 := by
  rcases b.addLine_cases s with ⟨-, hadd⟩ | ⟨r, -, hadd⟩
  · rw [hadd]
    simp only [ScanMode.inBlock, foundTokens_nil, List.append_nil]
    exact ⟨h.order, h.fits⟩
  · rw [hadd]
    exact finished h.order h.fits b _

/-- A line that opens a text block below a step. -/
theorem start? {n : Nat} {s : Text} {state : BlockState} (h : Ordered ts .step)
    (hstate : OpenBlock.start? n s = some state) :
    Ordered (ts ++ foundTokens (ScanMode.inBlock state).2) (ScanMode.inBlock state).1 := by
  obtain ⟨q, -, rest, -, rfl⟩ := OpenBlock.start?_cases hstate
  rcases OpenBlock.begin_cases ⟨q, n, []⟩ rest with ⟨body, hb⟩ | ⟨-, body, hb⟩
  · rw [hb]
    simp only [ScanMode.inBlock, foundTokens_nil, List.append_nil]
    exact ⟨h.order, h.fits⟩
  · rw [hb]
    exact finished h.order h.fits _ body

/-- A free line that no mode claims can be a row, except below a feature. -/
theorem unclaimed (h : Ordered ts mode)
    (hlast : ∀ s, ts.getLast? = some s → s.isFeature = false ∧ s.kind ≠ .description) :
    Ordered (ts ++ foundTokens (ScanMode.unclaimed mode l).2) (ScanMode.unclaimed mode l).1 := by
  unfold ScanMode.unclaimed
  split
  · exact plain h.order ⟨nofun, nofun, fun _ => hlast⟩ rfl rfl nofun
  · simpa using h

/-- Steps are neither features nor descriptions. -/
theorem last_of_step (h : (ts.getLast?).any Token.isStep = true) :
    ∀ s, ts.getLast? = some s → s.isFeature = false ∧ s.kind ≠ .description := by
  intro s hs
  rw [hs, Option.any_some] at h
  cases hk : s.kind <;> simp_all [Token.isStep, TokenKind.isStep, Token.isFeature]

theorem free (h : Ordered ts mode) :
    Ordered (ts ++ foundTokens (ScanMode.free l mode).2) (ScanMode.free l mode).1 := by
  cases mode with
  | plain => exact h.unclaimed fun s hs => ⟨(h.fits s hs).1, (h.fits s hs).2.2⟩
  | feature description =>
    simp only [ScanMode.free, foundTokens_nil, List.append_nil]
    exact ⟨h.order, h.fits⟩
  | step =>
    rw [ScanMode.free]
    split
    next state hstate => exact h.start? hstate
    next => exact h.unclaimed (last_of_step h.fits)
  | block b => exact h.unclaimed (last_of_step h.fits)

theorem tags (h : InOrder ts) (first : Text) (names : List Text) (n : Nat) :
    Ordered (ts ++ (first :: names).map fun name => ⟨.tag, Token.tagMark, name, n⟩) .plain := by
  have hone {us : List Token} (hus : InOrder us) (name : Text) :
      Ordered (us ++ [⟨.tag, Token.tagMark, name, n⟩]) .plain :=
    plain hus (Token.mayFollow_of_kind (by simp) (by simp) (by simp) _) rfl rfl nofun
  induction names using List.reverseRecOn with
  | nil => exact hone h first
  | append_singleton names name ih =>
    rw [← List.cons_append, List.map_append, ← List.append_assoc]
    exact hone ih.order name

theorem keyword (h : InOrder ts) (m : KeywordMatch) (n : Nat) :
    Ordered (ts ++ [m.token n]) (ScanMode.afterKeyword m.role) := by
  refine ⟨h.concat (Token.mayFollow_keyword m n _), ?_⟩
  rw [List.getLast?_concat]
  cases hr : m.role <;>
    simp [ScanMode.afterKeyword, ScanMode.Fits, KeywordMatch.token, hr, Role.kind,
      Token.isFeature, Token.isStep, TokenKind.isStep]

/-- One line. -/
theorem advance (h : Ordered ts mode) :
    Ordered (ts ++ foundTokens (ScanMode.advance d l mode).2) (ScanMode.advance d l mode).1 := by
  rcases ScanMode.advance_cases d l mode with
    ⟨b, rfl, hline⟩ | ⟨-, m, hline⟩ | ⟨-, first, others, hline⟩ | ⟨-, hline⟩
  · rw [hline]
    exact h.addLine l.text
  · rw [hline]
    simp only [foundTokens_append, foundTokens_token, foundTokens_nil, ← List.append_assoc]
    exact keyword h.pending m _
  · rw [hline]
    simp only [foundTokens_append, foundTokens_tags, ← List.append_assoc]
    exact tags h.pending first others _
  · rw [hline]
    exact h.free

/-- All lines. -/
theorem run (d : Dialect) :
    ∀ (ls : List NumberedLine) {ts : List Token} {mode : ScanMode}, Ordered ts mode →
      Ordered (ts ++ foundTokens (ScanMode.run d mode ls).2) (ScanMode.run d mode ls).1
  | [], ts, mode, h => by simpa [ScanMode.run] using h
  | l :: ls, ts, mode, h => by
    have hnext := run d ls (h.advance (d := d) (l := l))
    rw [ScanMode.run]
    simp only [foundTokens_append, ← List.append_assoc]
    exact hnext

/-- The end of the document. -/
theorem atEnd (h : Ordered ts mode) : InOrder (ts ++ foundTokens mode.atEnd) := by
  cases hb : mode.isBlock with
  | true =>
    cases mode with
    | block b => simpa [ScanMode.atEnd] using h.order
    | _ => cases hb
  | false =>
    rw [ScanMode.atEnd_of_not_isBlock hb]
    exact h.pending

/-- Behind a step the scan waits for a text block, unless one is open already. -/
theorem mode_eq_step (h : Ordered ts mode) (hb : mode.isBlock = false)
    (hlast : ((ts ++ foundTokens mode.atEnd).getLast?).any Token.isStep = true) :
    mode = .step := by
  rw [ScanMode.atEnd_of_not_isBlock hb] at hlast
  cases mode with
  | step => rfl
  | block b => cases hb
  | plain =>
    simp only [ScanMode.pending, foundTokens_nil, List.append_nil] at hlast
    cases hl : ts.getLast? with
    | none => simp [hl] at hlast
    | some t =>
      rw [hl, Option.any_some, (h.fits t hl).2.1] at hlast
      cases hlast
  | feature description =>
    cases description with
    | nil =>
      -- the feature token itself came last
      simp only [ScanMode.pending, foundTokens_nil, List.append_nil] at hlast
      have hfits := h.fits
      cases hl : ts.getLast? with
      | none => simp [hl] at hlast
      | some t =>
        rw [hl] at hlast hfits
        rw [Option.any_some, Token.isStep_of_isFeature hfits] at hlast
        cases hlast
    | cons first rest =>
      simp [ScanMode.pending, Token.isStep, TokenKind.isStep] at hlast

end Ordered

namespace Line

/-- **The tokens of a document are in order.** -/
theorem inOrder_scan (d : Dialect) (lines : List Text) : InOrder (foundTokens (scan d lines)) := by
  have h := (Ordered.start.run d (effective lines)).atEnd
  rwa [List.nil_append, ← foundTokens_append] at h

/-- Where a step came last and no text block is open, the scan is below the step. -/
theorem mode_of_last_step {d : Dialect} {lines : List Text}
    (hopen : (ScanMode.plain.run d (effective lines)).1.isBlock = false)
    (hlast : ((foundTokens (scan d lines)).getLast?).any Token.isStep = true) :
    (ScanMode.plain.run d (effective lines)).1 = .step := by
  have h := Ordered.start.run d (effective lines)
  rw [List.nil_append] at h
  apply h.mode_eq_step hopen
  rwa [← foundTokens_append]

end Line

end Gherkin
