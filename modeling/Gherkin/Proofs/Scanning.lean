import Gherkin.Proofs.Renumbering
import Gherkin.Document.Parse

/-!
# Scanning in pieces

A scan knows its past through its mode alone, so the scan of two documents in a
row is two scans (`ScanMode.run_append`), and a line that is not free is read
alike in every mode but an open text block (`ScanMode.advance_of_ne_free`).  Where
the lines stand shows in the line numbers of the tokens and nowhere else
(`ScanMode.run_renumber`).
-/

namespace Gherkin

/-- The tokens among what was found. -/
def foundTokens (fs : List Finding) : List Token := fs.filterMap Finding.token?

@[simp] theorem foundTokens_nil : foundTokens [] = [] := rfl

@[simp] theorem foundTokens_append (fs gs : List Finding) :
    foundTokens (fs ++ gs) = foundTokens fs ++ foundTokens gs := List.filterMap_append ..

@[simp] theorem foundTokens_token (t : Token) (fs : List Finding) :
    foundTokens (.token t :: fs) = t :: foundTokens fs := rfl

@[simp] theorem foundTokens_event (e : Event) (fs : List Finding) :
    foundTokens (.event e :: fs) = foundTokens fs := rfl

theorem foundTokens_map_token (ts : List Token) : foundTokens (ts.map .token) = ts := by
  induction ts with
  | nil => rfl
  | cons t ts ih => rw [List.map_cons, foundTokens_token, ih]

theorem foundTokens_tags (names : List Text) (n : Nat) :
    foundTokens (names.map fun name => .token ⟨.tag, Token.tagMark, name, n⟩) =
      names.map fun name => ⟨.tag, Token.tagMark, name, n⟩ := by
  rw [← foundTokens_map_token (names.map fun name => ⟨.tag, Token.tagMark, name, n⟩), List.map_map]
  rfl

namespace ScanMode

/-- Whether a text block is open. -/
def isBlock : ScanMode → Bool
  | block _ => true
  | _ => false

/-- Scanning on is scanning from the mode that was reached. -/
theorem run_append (d : Dialect) :
    ∀ (mode : ScanMode) (ls ms : List NumberedLine),
      run d mode (ls ++ ms) =
        ((run d (run d mode ls).1 ms).1, (run d mode ls).2 ++ (run d (run d mode ls).1 ms).2)
  | mode, [], ms => rfl
  | mode, l :: ls, ms => by
    rw [List.cons_append, run, run_append d _ ls ms, run]
    simp only [List.append_assoc]

/-- Outside of text blocks the end of the document completes what is pending. -/
theorem atEnd_of_not_isBlock {mode : ScanMode} (h : mode.isBlock = false) :
    mode.atEnd = mode.pending := by
  cases mode with
  | block b => cases h
  | _ => rfl

section Advance

variable {d : Dialect} {l : NumberedLine} {mode : ScanMode}

theorem advance_of_keyworded {m : KeywordMatch} (hs : Line.shape d l.text = .keyworded m)
    (hmode : mode.isBlock = false) :
    advance d l mode = (afterKeyword m.role, mode.pending ++ [.token (m.token l.number)]) := by
  cases mode with
  | block b => cases hmode
  | _ => simp only [advance, hs]

theorem advance_of_tags {names : List Text} (hs : Line.shape d l.text = .tags names)
    (hmode : mode.isBlock = false) :
    advance d l mode =
      (plain, mode.pending ++
        names.map fun name => .token ⟨.tag, Token.tagMark, name, l.number⟩) := by
  cases mode with
  | block b => cases hmode
  | _ => simp only [advance, hs]

theorem advance_of_free (hs : Line.shape d l.text = .free) (hmode : mode.isBlock = false) :
    advance d l mode = free l mode := by
  cases mode with
  | block b => cases hmode
  | _ => simp only [advance, hs]

/-- A line that is not free means the same in every mode but a text block, and
completes what is pending. -/
theorem advance_of_ne_free (hs : Line.shape d l.text ≠ .free) (hmode : mode.isBlock = false) :
    advance d l mode = ((advance d l plain).1, mode.pending ++ (advance d l plain).2) := by
  cases h : Line.shape d l.text with
  | keyworded m => rw [advance_of_keyworded h hmode, advance_of_keyworded h rfl]; rfl
  | tags names => rw [advance_of_tags h hmode, advance_of_tags h rfl]; rfl
  | free => exact absurd h hs

end Advance

/-- A free line gives neither a feature nor a tag. -/
theorem shape_ne_free {d : Dialect} {l : NumberedLine} {t : Token}
    (ht : t ∈ foundTokens (advance d l plain).2) (hk : t.isFeature = true ∨ t.isTag = true) :
    Line.shape d l.text ≠ .free := by
  intro hs
  simp only [advance, hs, free, unclaimed] at ht
  split at ht
  · simp only [foundTokens_token, foundTokens_nil, List.mem_singleton] at ht
    subst ht
    simp [Token.isFeature, Token.isTag] at hk
  · simp at ht

end ScanMode

/-! ## Other line numbers -/

section Renumber

variable (g : Nat → Nat)

/-- The line with another number. -/
def NumberedLine.renumber (l : NumberedLine) : NumberedLine := { l with number := g l.number }

/-- The text block with another opening line. -/
def OpenBlock.renumber (b : OpenBlock) : OpenBlock := { b with line := g b.line }

/-- The mode with other line numbers. -/
def ScanMode.renumber : ScanMode → ScanMode
  | .feature description => .feature (description.map (NumberedLine.renumber g))
  | .block b => .block (b.renumber g)
  | mode => mode

/-- The state of a text block with other line numbers. -/
def BlockState.renumber : BlockState → BlockState
  | .unfinished b => .unfinished (b.renumber g)
  | .finished t => .finished (t.renumber g)

/-- That `y` is `x` with other line numbers, reports apart. -/
def Renumbered (x y : ScanMode × List Finding) : Prop :=
  y.1 = x.1.renumber g ∧ foundTokens y.2 = (foundTokens x.2).map (Token.renumber g)

theorem OpenBlock.addLine_renumber (b : OpenBlock) (s : Text) :
    (b.renumber g).addLine s = (b.addLine s).renumber g := by
  simp only [addLine, OpenBlock.renumber]
  split
  · rfl
  · split <;> rfl

theorem OpenBlock.start?_renumber (line : Nat) (s : Text) :
    start? (g line) s = (start? line s).map (BlockState.renumber g) := by
  unfold start?
  cases opening? s with
  | none => rfl
  | some p =>
    simp only [Option.map_some, Option.some.injEq]
    cases Text.trimStart p.2 with
    | nil => rfl
    | cons c rest => exact addLine_renumber g ⟨p.1, line, []⟩ (c :: rest)

namespace ScanMode

variable {g}

@[simp] theorem isBlock_renumber (mode : ScanMode) : (mode.renumber g).isBlock = mode.isBlock := by
  cases mode <;> rfl

theorem pending_renumber (mode : ScanMode) :
    foundTokens (mode.renumber g).pending = (foundTokens mode.pending).map (Token.renumber g) := by
  cases mode with
  | feature description =>
    cases description with
    | nil => rfl
    | cons l ls =>
      simp only [renumber, pending, List.map_cons, List.map_map]
      rfl
  | _ => rfl

theorem inBlock_renumber (state : BlockState) :
    Renumbered g (inBlock state) (inBlock (state.renumber g)) := by
  cases state <;> exact ⟨rfl, rfl⟩

theorem unclaimed_renumber (l : NumberedLine) (mode : ScanMode) :
    Renumbered g (unclaimed mode l) (unclaimed (mode.renumber g) (l.renumber g)) := by
  cases hr : Line.isRow l.text with
  | true => simp only [Renumbered, unclaimed, NumberedLine.renumber, hr, if_true]; exact ⟨rfl, rfl⟩
  | false => simp [Renumbered, unclaimed, NumberedLine.renumber, hr]

theorem free_renumber (l : NumberedLine) (mode : ScanMode) :
    Renumbered g (free l mode) (free (l.renumber g) (mode.renumber g)) := by
  cases mode with
  | plain => exact unclaimed_renumber l plain
  | feature description => simp [Renumbered, free, renumber]
  | step =>
    have htext : (l.renumber g).text = l.text := rfl
    have hnumber : (l.renumber g).number = g l.number := rfl
    simp only [renumber, free, htext, hnumber, OpenBlock.start?_renumber]
    cases OpenBlock.start? l.number l.text with
    | none => exact unclaimed_renumber l step
    | some state => exact inBlock_renumber state
  | block b => exact unclaimed_renumber l (block b)

theorem advance_renumber (d : Dialect) (l : NumberedLine) (mode : ScanMode) :
    Renumbered g (advance d l mode) (advance d (l.renumber g) (mode.renumber g)) := by
  cases hb : mode.isBlock with
  | true =>
    -- in an open text block the shape of the line is not even looked at
    cases mode with
    | block b =>
      have h := inBlock_renumber (g := g) (b.addLine l.text)
      rw [← OpenBlock.addLine_renumber] at h
      exact h
    | _ => cases hb
  | false =>
    have hb' : (mode.renumber g).isBlock = false := (isBlock_renumber mode).trans hb
    cases hs : Line.shape d l.text with
    | keyworded m =>
      have hs' : Line.shape d (l.renumber g).text = .keyworded m := hs
      rw [advance_of_keyworded hs hb, advance_of_keyworded hs' hb']
      constructor
      · cases m.role <;> rfl
      · simp only [foundTokens_append, pending_renumber, List.map_append]
        rfl
    | tags names =>
      have hs' : Line.shape d (l.renumber g).text = .tags names := hs
      rw [advance_of_tags hs hb, advance_of_tags hs' hb']
      refine ⟨rfl, ?_⟩
      simp only [foundTokens_append, pending_renumber, foundTokens_tags, List.map_append,
        List.map_map]
      rfl
    | free =>
      have hs' : Line.shape d (l.renumber g).text = .free := hs
      rw [advance_of_free hs hb, advance_of_free hs' hb']
      exact free_renumber l mode

/-- A whole scan with other line numbers. -/
theorem run_renumber (d : Dialect) :
    ∀ (mode : ScanMode) (ls : List NumberedLine),
      Renumbered g (run d mode ls) (run d (mode.renumber g) (ls.map (NumberedLine.renumber g)))
  | mode, [] => ⟨rfl, rfl⟩
  | mode, l :: ls => by
    obtain ⟨hmode, hfound⟩ := advance_renumber (g := g) d l mode
    obtain ⟨hmodes, htokens⟩ := run_renumber d (advance d l mode).1 ls
    rw [List.map_cons, run, run, hmode]
    refine ⟨hmodes, ?_⟩
    simp only [foundTokens_append, List.map_append, hfound, htokens]

theorem atEnd_renumber (mode : ScanMode) :
    foundTokens (mode.renumber g).atEnd = (foundTokens mode.atEnd).map (Token.renumber g) := by
  cases mode with
  | feature description => exact pending_renumber (feature description)
  | _ => rfl

/-- All tokens from a mode on, up to the end of the document. -/
def tokensFrom (d : Dialect) (mode : ScanMode) (ls : List NumberedLine) : List Token :=
  foundTokens ((run d mode ls).2 ++ (run d mode ls).1.atEnd)

theorem tokensFrom_append (d : Dialect) (mode : ScanMode) (ls ms : List NumberedLine) :
    tokensFrom d mode (ls ++ ms) =
      foundTokens (run d mode ls).2 ++ tokensFrom d (run d mode ls).1 ms := by
  simp only [tokensFrom, run_append, foundTokens_append, List.append_assoc]

theorem tokensFrom_cons (d : Dialect) (mode : ScanMode) (l : NumberedLine)
    (ls : List NumberedLine) :
    tokensFrom d mode (l :: ls) =
      foundTokens (advance d l mode).2 ++ tokensFrom d (advance d l mode).1 ls := by
  simp only [tokensFrom, run, foundTokens_append, List.append_assoc]

theorem tokensFrom_renumber (d : Dialect) (mode : ScanMode) (ls : List NumberedLine) :
    tokensFrom d (mode.renumber g) (ls.map (NumberedLine.renumber g)) =
      (tokensFrom d mode ls).map (Token.renumber g) := by
  obtain ⟨hmode, hfound⟩ := run_renumber (g := g) d mode ls
  simp only [tokensFrom, foundTokens_append, List.map_append, hmode, hfound, atEnd_renumber]

end ScanMode

end Renumber

namespace Line

/-- All tokens of a document. -/
theorem foundTokens_scan (d : Dialect) (lines : List Text) :
    foundTokens (scan d lines) = ScanMode.tokensFrom d .plain (effective lines) := rfl

/-- The lines of two documents in a row: the second starts behind the first. -/
theorem effective_append (xs ys : List Text) :
    effective (xs ++ ys) =
      effective xs ++ (effective ys).map (NumberedLine.renumber (xs.length + ·)) := by
  rw [effective, List.map_append, List.zipIdx_append, List.map_append, List.filter_append]
  congr 1
  rw [effective, Nat.zero_add, List.length_map, List.zipIdx_eq_map_add, List.map_map,
    List.filter_map, List.filter_map, List.map_map]
  rfl

/-- Only comments are directives. -/
theorem directive?_of_isEffective {line : Text} (h : isEffective (Text.trim line) = true) :
    directive? line = none := by
  unfold directive?
  split
  next s hs =>
    rw [hs] at h
    simp [isEffective] at h
  next => rfl

end Line

namespace DialectTable

variable {t : DialectTable} {d : Dialect} {lines : List Text}

theorem tokenize_of_dialectOf (h : t.dialectOf lines = .ok d) :
    t.tokenize lines = .ok (foundTokens (Line.scan d lines)) := by
  rw [tokenize_eq, h]
  rfl

theorem parse_of_dialectOf (h : t.dialectOf lines = .ok d) :
    t.parse lines = .ok (build (foundTokens (Line.scan d lines))) := by
  rw [parse, tokenize_of_dialectOf h]
  rfl

/-- Reading that succeeds is a scan in the dialect of the document. -/
theorem dialectOf_of_tokenize {ts : List Token} (h : t.tokenize lines = .ok ts) :
    ∃ d, t.dialectOf lines = .ok d ∧ foundTokens (Line.scan d lines) = ts := by
  cases hd : t.dialectOf lines with
  | error e =>
    rw [tokenize_eq, hd] at h
    cases h
  | ok d =>
    rw [tokenize_of_dialectOf hd] at h
    exact ⟨d, rfl, Except.ok.inj h⟩

theorem tokenize_of_parse {fs : List Feature} (h : t.parse lines = .ok fs) :
    ∃ ts, t.tokenize lines = .ok ts ∧ build ts = fs := by
  rw [parse] at h
  cases hts : t.tokenize lines with
  | error e =>
    rw [hts] at h
    cases h
  | ok ts =>
    rw [hts] at h
    exact ⟨ts, rfl, Except.ok.inj h⟩

end DialectTable

end Gherkin
