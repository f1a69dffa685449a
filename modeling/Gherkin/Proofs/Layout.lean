import Gherkin.Proofs.LineAccount
import Gherkin.Proofs.Neat
import Gherkin.Dialect.Standard
import Mathlib.Data.List.Forall2

/-!
# Layout

A document is read for what its lines say.  A line that says nothing can stand
anywhere, in an open text block or between a step and its table, and only the
numbers of the lines below it tell that it is there.  White space at the ends of
the lines and the way in which they are ended leave no trace at all.

> `parse_layout`: another blank line or comment moves the lines of the tokens
> below it and changes nothing else; other white space around the lines, and
> other line ends, change nothing.

A scan sees a document through its effective lines and its last language
directive, so each of these is a statement about the two
(`tokenize_of_effective`, `parse_of_effective`).
-/

namespace Gherkin

/-! ## White space and line ends -/

namespace Text

/-- `l` is `s` with white space added at its ends. -/
def Padded (s l : Text) : Prop :=
  ∃ v w, (∀ c ∈ v, isBlank c = true) ∧ (∀ c ∈ w, isBlank c = true) ∧ l = v ++ s ++ w

/-- `l` and `m` differ in the white space at their ends alone. -/
def SameButPadding (l m : Text) : Prop := ∃ s, Padded s l ∧ Padded s m

theorem Padded.trim_eq {s l : Text} (h : Padded s l) : trim l = trim s := by
  obtain ⟨v, w, hv, hw, rfl⟩ := h
  rw [trim_append_blank hw, trim_append_of_blank hv]

theorem SameButPadding.trim_eq {l m : Text} (h : SameButPadding l m) : trim l = trim m := by
  obtain ⟨s, hl, hm⟩ := h
  rw [hl.trim_eq, hm.trim_eq]

/-- What may stand at the end of a line. -/
def lineEnds : List Text := [['\n'], ['\r', '\n']]

/-- The same text, but each line of either may be ended in its own way. -/
inductive SameButLineEnds : Text → Text → Prop
  /-- The last line, which nothing ends. -/
  | last {w : Text} : '\n' ∉ w → SameButLineEnds w w
  /-- A line, what ends it in one text and in the other, and the rest. -/
  | line (w e e' : Text) {s s' : Text} : '\n' ∉ w → e ∈ lineEnds → e' ∈ lineEnds →
      SameButLineEnds s s' → SameButLineEnds (w ++ e ++ s) (w ++ e' ++ s')

/-- A carriage return that ends a line is white space. -/
theorem trim_withoutTrailing_return (w : Text) : trim (withoutTrailing ['\r'] w) = trim w := by
  unfold withoutTrailing
  cases hb : before? ['\r'] w with
  | none => rfl
  | some r =>
    have hblank : ∀ c ∈ ['\r'], isBlank c = true := List.forall_mem_singleton.2 rfl
    rw [before?_eq_some.1 hb, trim_append_blank hblank]
    rfl

/-- A line, its end, and the lines behind it. -/
theorem lines_append {w e : Text} (hw : '\n' ∉ w) (he : e ∈ lineEnds) (s : Text) :
    ∃ l, lines (w ++ e ++ s) = l :: lines s ∧ trim l = trim w := by
  have hline {v : Text} (hv : '\n' ∉ v) :
      lines (v ++ '\n' :: s) = withoutTrailing ['\r'] v :: lines s := by
    rw [lines, pieces_append_cons s hv, linesOfPieces_cons (pieces_ne_nil _ _), lines]
  simp only [lineEnds, List.mem_cons, List.not_mem_nil, or_false] at he
  rcases he with rfl | rfl
  · rw [List.append_assoc, List.singleton_append]
    exact ⟨_, hline hw, trim_withoutTrailing_return w⟩
  · have hreturn : '\n' ∉ w ++ ['\r'] := by simp [hw]
    have hsplit : w ++ ['\r', '\n'] ++ s = (w ++ ['\r']) ++ '\n' :: s := by simp
    rw [hsplit]
    exact ⟨_, hline hreturn, by rw [withoutTrailing_append]⟩

theorem SameButLineEnds.map_trim_lines {s s' : Text} (h : SameButLineEnds s s') :
    (lines s).map trim = (lines s').map trim := by
  induction h with
  | last => rfl
  | line w e e' hw he he' _ ih =>
    obtain ⟨l, hl, htrim⟩ := lines_append hw he _
    obtain ⟨l', hl', htrim'⟩ := lines_append hw he' _
    rw [hl, hl', List.map_cons, List.map_cons, ih, htrim, htrim']

end Text

/-! ## Lines that say nothing -/

namespace Line

/-- A comment that is no language directive. -/
structure IsRemark (line : Text) : Prop where
  comment : (Text.trim line).head? = some '#'
  noDirective : directive? line = none

theorem isEffective_of_comment {line : Text} (h : line.head? = some '#') :
    isEffective line = false := by
  obtain ⟨rest, rfl⟩ := List.head?_eq_some_iff.1 h
  rfl

theorem directive?_congr {l m : Text} (h : Text.trim l = Text.trim m) :
    directive? l = directive? m := by
  rw [directive?, directive?, h]

theorem directive?_of_blank {line : Text} (h : Text.trim line = []) : directive? line = none := by
  rw [directive?, h]

/-- Lines that a scan does not tell apart: they are the same between their ends, or
neither says anything. -/
def SaysTheSame (l m : Text) : Prop :=
  Text.trim l = Text.trim m ∨
    isEffective (Text.trim l) = false ∧ isEffective (Text.trim m) = false

theorem effective_singleton (line : Text) :
    effective [line] = if isEffective (Text.trim line) then [⟨0, Text.trim line⟩] else [] := by
  cases h : isEffective (Text.trim line) <;> simp [effective, h]

theorem effective_congr {ls ms : List Text} (h : List.Forall₂ SaysTheSame ls ms) :
    effective ls = effective ms := by
  induction h with
  | nil => rfl
  | @cons l m ls ms hlm _ ih =>
    have hone : effective [l] = effective [m] := by
      rw [effective_singleton, effective_singleton]
      rcases hlm with htrim | ⟨hl, hm⟩
      · rw [htrim]
      · rw [hl, hm]
        rfl
    rw [← List.singleton_append, effective_append, hone, ih, List.length_singleton,
      ← List.singleton_append (l := ms), effective_append, List.length_singleton]

/-- The numbers that lines have when there is one more line before line `n`. -/
def countedOn (n i : Nat) : Nat := if i < n then i else i + 1

/-- A line that says nothing only moves those below it. -/
theorem effective_insert {z : Text} (hz : isEffective (Text.trim z) = false) (xs ys : List Text) :
    effective (xs ++ z :: ys) =
      (effective (xs ++ ys)).map (NumberedLine.renumber (countedOn xs.length)) := by
  have hone : effective [z] = [] := by
    rw [effective_singleton, hz]
    rfl
  have habove : (effective xs).map (NumberedLine.renumber (countedOn xs.length)) =
      effective xs := by
    -- the lines above stand before line `xs.length`
    conv_rhs => rw [← List.map_id (effective xs)]
    apply List.map_congr_left
    intro l hl
    obtain ⟨line, hline, -, -⟩ := mem_effective.1 hl
    have hlt : l.number < xs.length := (List.getElem?_eq_some_iff.1 hline).1
    rw [NumberedLine.renumber, countedOn, if_pos hlt, id]
  have hbelow (i : Nat) : countedOn xs.length (xs.length + i) = xs.length + (1 + i) := by
    rw [countedOn, if_neg (by omega)]
    omega
  rw [effective_append xs ys, List.map_append, habove, effective_append xs,
    ← List.singleton_append, effective_append, hone, List.nil_append, List.length_singleton,
    List.map_map, List.map_map]
  congr 1
  apply List.map_congr_left
  intro l _
  simp only [Function.comp, NumberedLine.renumber, hbelow]

theorem lastDirective?_insert {z : Text} (hz : directive? z = none) (xs ys : List Text) :
    lastDirective? (xs ++ z :: ys) = lastDirective? (xs ++ ys) := by
  simp only [lastDirective?, List.filterMap_append, List.filterMap_cons, hz]

theorem lastDirective?_congr {ls ms : List Text} (h : ls.map Text.trim = ms.map Text.trim) :
    lastDirective? ls = lastDirective? ms := by
  have htrim : directive? ∘ Text.trim = directive? :=
    funext fun l => directive?_congr (Text.trim_trim l)
  have hls := congrArg (List.filterMap directive?) h
  rw [List.filterMap_map, List.filterMap_map, htrim] at hls
  rw [lastDirective?, lastDirective?, hls]

theorem forall₂_saysTheSame {ls ms : List Text} (h : ls.map Text.trim = ms.map Text.trim) :
    List.Forall₂ SaysTheSame ls ms := by
  rw [← List.forall₂_eq_eq_eq, List.forall₂_map_left_iff, List.forall₂_map_right_iff] at h
  exact h.imp fun _ _ => Or.inl

end Line

/-! ## What a document is read by -/

namespace DialectTable

variable {t : DialectTable} {ls ms : List Text}

theorem dialectOf_congr (h : Line.lastDirective? ls = Line.lastDirective? ms) :
    t.dialectOf ls = t.dialectOf ms := by
  have hlocale : t.localeOf ls = t.localeOf ms := by rw [localeOf, localeOf, h]
  rw [dialectOf, dialectOf, hlocale]

/-- Documents with the same lines, whose numbers may differ, have the same tokens. -/
theorem tokenize_of_effective {g : Nat → Nat}
    (hdirective : Line.lastDirective? ls = Line.lastDirective? ms)
    (h : Line.effective ls = (Line.effective ms).map (NumberedLine.renumber g)) :
    t.tokenize ls = (t.tokenize ms).map (List.map (Token.renumber g)) := by
  cases hd : t.dialectOf ms with
  | error e =>
    rw [tokenize_eq, tokenize_eq, dialectOf_congr hdirective, hd]
    rfl
  | ok d =>
    have hls : t.dialectOf ls = .ok d := (dialectOf_congr hdirective).trans hd
    have htokens := ScanMode.tokensFrom_renumber (g := g) d .plain (Line.effective ms)
    rw [← h] at htokens
    rw [tokenize_of_dialectOf hls, tokenize_of_dialectOf hd, Except.map]
    exact congrArg Except.ok htokens

/-- And they have the same features. -/
theorem parse_of_effective {g : Nat → Nat}
    (hdirective : Line.lastDirective? ls = Line.lastDirective? ms)
    (h : Line.effective ls = (Line.effective ms).map (NumberedLine.renumber g)) :
    t.parse ls = t.parse ms := by
  rw [parse, parse, tokenize_of_effective hdirective h]
  cases t.tokenize ms with
  | error e => rfl
  | ok ts => exact congrArg Except.ok (build_renumber g ts)

/-- Documents whose lines differ in white space at their ends are read alike. -/
theorem tokenize_of_map_trim (h : ls.map Text.trim = ms.map Text.trim) :
    t.tokenize ls = t.tokenize ms ∧ t.parse ls = t.parse ms := by
  have heff := Line.effective_congr (Line.forall₂_saysTheSame h)
  have htokens : t.tokenize ls = t.tokenize ms := by
    rw [tokenize_eq, tokenize_eq, dialectOf_congr (Line.lastDirective?_congr h)]
    simp only [Line.scan, heff]
  exact ⟨htokens, by rw [parse, parse, htokens]⟩

/-- **Layout does not matter.**  A blank line or a comment more, wherever it stands,
moves the lines of the tokens below it and changes nothing else, as long as it names
no language.  Nor do white space around the lines and the kind of their ends change
anything. -/
theorem parse_layout (t : DialectTable) :
    (∀ (xs ys : List Text) (z : Text), Text.trim z = [] ∨ Line.IsRemark z →
        t.tokenize (xs ++ z :: ys) =
            (t.tokenize (xs ++ ys)).map (List.map (Token.renumber (Line.countedOn xs.length))) ∧
          t.parse (xs ++ z :: ys) = t.parse (xs ++ ys)) ∧
      (∀ ls ms, List.Forall₂ Text.SameButPadding ls ms →
        t.tokenize ls = t.tokenize ms ∧ t.parse ls = t.parse ms) ∧
      ∀ s u, Text.SameButLineEnds s u →
        t.tokenizeText s = t.tokenizeText u ∧ t.parseText s = t.parseText u := by
  refine ⟨fun xs ys z hz => ?_, fun ls ms h => ?_, fun s u h => ?_⟩
  · have hidle : Line.isEffective (Text.trim z) = false ∧ Line.directive? z = none := by
      rcases hz with hblank | hremark
      · exact ⟨by rw [hblank]; rfl, Line.directive?_of_blank hblank⟩
      · exact ⟨Line.isEffective_of_comment hremark.comment, hremark.noDirective⟩
    have hdirective := Line.lastDirective?_insert hidle.2 xs ys
    have heff := Line.effective_insert hidle.1 xs ys
    exact ⟨tokenize_of_effective hdirective heff, parse_of_effective hdirective heff⟩
  · apply tokenize_of_map_trim
    rw [← List.forall₂_eq_eq_eq, List.forall₂_map_left_iff, List.forall₂_map_right_iff]
    exact h.imp fun _ _ => Text.SameButPadding.trim_eq
  · exact tokenize_of_map_trim h.map_trim_lines

/-- A comment in an open text block, other white space around a row, and a document
whose lines are ended in both ways. -/
theorem parse_layout_in_block :
    let xs : List Text := ["Feature: A", "Scenario: S", "Given a", "'''", "one"]
    let z : Text := " # language"
    let ys : List Text := ["two", "'''", "| r |"]
    let ts : List Token :=
      [⟨.feature, "Feature", "A", 0⟩, ⟨.scenario, "Scenario", "S", 1⟩,
        ⟨.step .givenStep, "Given", "a", 2⟩, ⟨.block, [], "one\ntwo", 3⟩, ⟨.row, [], "| r |", 8⟩]
    let row : Text := "| r |"
    let padded : Text := "\t| r | "
    let s : Text := "Feature: A\n@x\n"
    let u : Text := "Feature: A\r\n@x\n"
    Line.IsRemark z ∧ standard.tokenize (xs ++ z :: ys) = .ok ts ∧
      standard.parse (xs ++ z :: ys) = standard.parse (xs ++ ys) ∧
      Text.SameButPadding row padded ∧ standard.tokenize [row] = standard.tokenize [padded] ∧
      Text.SameButLineEnds s u ∧ standard.parseText s = standard.parseText u := by
  intro xs z ys ts row padded s u
  obtain ⟨hinsert, hpadding, hends⟩ := parse_layout standard
  have hremark : Line.IsRemark z := ⟨by decide, by decide⟩
  have htokens : (standard.tokenize (xs ++ ys)).map
      (List.map (Token.renumber (Line.countedOn xs.length))) = .ok ts := by decide
  have hpadded : Text.SameButPadding row padded :=
    ⟨row, ⟨[], [], nofun, nofun, rfl⟩,
      ⟨['\t'], [' '], List.forall_mem_singleton.2 rfl, List.forall_mem_singleton.2 rfl, rfl⟩⟩
  have hlast : Text.SameButLineEnds "@x\n".toList "@x\n".toList :=
    .line "@x" ['\n'] ['\n'] (by decide) (by decide) (by decide) (.last (by decide))
  have hlines : Text.SameButLineEnds s u :=
    .line "Feature: A" ['\n'] ['\r', '\n'] (by decide) (by decide) (by decide) hlast
  obtain ⟨htoks, hparse⟩ := hinsert xs ys z (Or.inr hremark)
  exact ⟨hremark, htoks.trans htokens, hparse, hpadded,
    (hpadding [row] [padded] (.cons hpadded .nil)).1, hlines, (hends s u hlines).2⟩

end DialectTable

end Gherkin
