import Gherkin.Proofs.TokenOrder
import Gherkin.Dialect.Standard
import Mathlib.Data.List.Pairwise

/-!
# Every line is accounted for

No line of a document gets lost and none counts twice.  The lines that say
something fall into groups of consecutive lines, and each group is found as one
thing: one token, the tags of one line, or one report.

> `tokenize_account`: the groups in a row are the lines of the document, what they
> give in a row is what tokenizing finds, and a line is in one group only.

The lines of a description and of a text block are found long after they were
read.  `Accounts seen found mode groups kept` therefore balances the lines seen so
far against complete groups and the lines that the mode keeps back; every line
preserves the balance, and at the end nothing is kept back any more.
-/

namespace Gherkin

/-- Kinds of token that stand for one line each. -/
def TokenKind.isOfOneLine : TokenKind → Bool
  | tag | description | block => false
  | _ => true

/-- The line that an event is about. -/
def Event.line? : Event → Option Nat
  | ignoredLine n | unclosedBlock n | descriptionWithoutFeature n | examplesOutsideOutline n
  | stepWithoutContainer n | rowWithoutExamples n | rowOfDiscardedExamples n | rowWithoutStep n
  | blockWithoutStep n => some n
  | _ => none

/-- The line of a token, or the line that an event is about. -/
def Finding.line? : Finding → Option Nat
  | token t => some t.line
  | event e => e.line?

/-- Consecutive lines that are read as one thing. -/
inductive LineGroup where
  /-- A line with a token of its own. -/
  | single (l : NumberedLine) (kind : TokenKind) (keyword text : Text)
  /-- A line with one or more tags. -/
  | tags (l : NumberedLine) (first : Text) (others : List Text)
  /-- The lines of a description. -/
  | description (first : NumberedLine) (others : List NumberedLine)
  /-- The lines of a text block, from the opening to the closing one. -/
  | block (opening : NumberedLine) (others : List NumberedLine) (text : Text)
  /-- A line without meaning. -/
  | ignored (l : NumberedLine)
  /-- The lines of a text block that is never closed. -/
  | unclosed (opening : NumberedLine) (others : List NumberedLine)
deriving DecidableEq, Repr

namespace LineGroup

/-- The lines of a group; there is always one. -/
def lines : LineGroup → List NumberedLine
  | single l .. | tags l .. | ignored l => [l]
  | description first others => first :: others
  | block opening others _ | unclosed opening others => opening :: others

/-- What a group is found as: everything has the number of its first line. -/
def findings : LineGroup → List Finding
  | single l kind keyword text => [.token ⟨kind, keyword, text, l.number⟩]
  | tags l first others =>
    (first :: others).map fun name => .token ⟨.tag, Token.tagMark, name, l.number⟩
  | description first others =>
    [.token ⟨.description, [], Text.ofLines ((first :: others).map (·.text)), first.number⟩]
  | block opening _ text => [.token ⟨.block, [], text, opening.number⟩]
  | ignored l => [.event (.ignoredLine l.number)]
  | unclosed opening _ => [.event (.unclosedBlock opening.number)]

/-- That a group is of its kind.  The lines of a text block start with quotes, and
the last one, and no line between, ends in these; none does if it is not closed. -/
def IsSound : LineGroup → Prop
  | single _ kind _ _ => kind.isOfOneLine = true
  | block opening others _ => ∃ q ∈ OpenBlock.delimiters, q <+: opening.text ∧
      (∀ l ∈ others.dropLast, ¬ q <:+ l.text) ∧
      ∀ l, (opening :: others).getLast? = some l → q <:+ l.text
  | unclosed opening others => ∃ q ∈ OpenBlock.delimiters, q <+: opening.text ∧
      ∀ l ∈ others, ¬ q <:+ l.text
  | _ => True

def isUnclosed : LineGroup → Bool
  | unclosed _ _ => true
  | _ => false

/-- All that is found in a group has the number of one of its lines. -/
theorem line?_of_mem_findings {g : LineGroup} {f : Finding} (hf : f ∈ g.findings) :
    ∃ l ∈ g.lines, f.line? = some l.number := by
  cases g with
  | tags l first others =>
    obtain ⟨name, -, rfl⟩ := List.mem_map.1 hf
    exact ⟨l, by simp [lines], rfl⟩
  | _ =>
    rw [findings, List.mem_singleton] at hf
    subst hf
    exact ⟨_, List.mem_cons_self, rfl⟩

end LineGroup

/-- The lines that a mode keeps back. -/
def ScanMode.Keeps : ScanMode → List NumberedLine → Prop
  | feature description, kept => kept = description
  | block b, kept => ∃ opening others, kept = opening :: others ∧ b.line = opening.number ∧
      b.delimiter ∈ OpenBlock.delimiters ∧ b.delimiter <+: opening.text ∧
      ∀ l ∈ others, ¬ b.delimiter <:+ l.text
  | _, kept => kept = []

/-- The balance of a scan: the lines seen are those of the groups and those kept
back, and the groups are all that was found. -/
structure Accounts (seen : List NumberedLine) (found : List Finding) (mode : ScanMode)
    (groups : List LineGroup) (kept : List NumberedLine) : Prop where
  sound : ∀ g ∈ groups, g.IsSound
  closed : ∀ g ∈ groups, g.isUnclosed = false
  lines : groups.flatMap LineGroup.lines ++ kept = seen
  findings : groups.flatMap LineGroup.findings = found
  keeps : mode.Keeps kept

/-- That there is a balance. -/
def IsAccounted (seen : List NumberedLine) (found : List Finding) (mode : ScanMode) : Prop :=
  ∃ groups kept, Accounts seen found mode groups kept

namespace Accounts

variable {seen : List NumberedLine} {found : List Finding} {mode mode' : ScanMode}
  {groups : List LineGroup} {kept ls : List NumberedLine} {l : NumberedLine}

/-- One more line is kept back. -/
theorem keep (h : Accounts seen found mode groups kept) (hkeeps : mode'.Keeps (kept ++ [l])) :
    Accounts (seen ++ [l]) found mode' groups (kept ++ [l]) :=
  ⟨h.sound, h.closed, by rw [← h.lines, List.append_assoc], h.findings, hkeeps⟩

/-- The lines kept back and those that come now are a group. -/
theorem settle (h : Accounts seen found mode groups kept) (ls : List NumberedLine)
    (mode' : ScanMode) {g : LineGroup} (hg : g.IsSound) (hclosed : g.isUnclosed = false)
    (hlines : g.lines = kept ++ ls) (hkeeps : mode'.Keeps []) :
    Accounts (seen ++ ls) (found ++ g.findings) mode' (groups ++ [g]) [] where
  sound g' hg' := by
    rcases List.mem_append.1 hg' with hg' | hg'
    · exact h.sound g' hg'
    · rwa [List.mem_singleton.1 hg']
  closed g' hg' := by
    rcases List.mem_append.1 hg' with hg' | hg'
    · exact h.closed g' hg'
    · rwa [List.mem_singleton.1 hg']
  lines := by
    rw [List.flatMap_append, List.flatMap_singleton, hlines, ← h.lines]
    simp only [List.append_assoc, List.append_nil]
  findings := by rw [List.flatMap_append, List.flatMap_singleton, h.findings]
  keeps := hkeeps

end Accounts

namespace IsAccounted

variable {d : Dialect} {seen : List NumberedLine} {found : List Finding} {mode mode' : ScanMode}
  {l : NumberedLine}

theorem start : IsAccounted [] [] .plain := ⟨[], [], by simp, by simp, rfl, rfl, rfl⟩

/-- What is pending is a group of its own. -/
theorem pending (h : IsAccounted seen found mode) (hb : mode.isBlock = false) :
    IsAccounted seen (found ++ mode.pending) .plain := by
  obtain ⟨groups, kept, h⟩ := h
  have hkeeps := h.keeps
  cases mode with
  | block b => cases hb
  | feature description =>
    cases description with
    | nil => exact ⟨groups, kept, h.sound, h.closed, h.lines, by simp [h.findings,
        ScanMode.pending], hkeeps⟩
    | cons first rest =>
      have hsettled := h.settle [] .plain (g := .description first rest) trivial rfl
        (by rw [List.append_nil]; exact hkeeps.symm) rfl
      rw [List.append_nil] at hsettled
      exact ⟨_, _, hsettled⟩
  | _ => exact ⟨groups, kept, h.sound, h.closed, h.lines, by simp [h.findings,
      ScanMode.pending], hkeeps⟩

/-- A line that is a group alone, where nothing is kept back. -/
theorem alone (h : IsAccounted seen found mode) (hmode : ∀ kept, mode.Keeps kept → kept = [])
    {g : LineGroup} (hg : g.IsSound) (hclosed : g.isUnclosed = false) (hlines : g.lines = [l])
    (hkeeps : mode'.Keeps []) : IsAccounted (seen ++ [l]) (found ++ g.findings) mode' := by
  obtain ⟨groups, kept, h⟩ := h
  obtain rfl := hmode kept h.keeps
  exact ⟨_, _, h.settle [l] mode' hg hclosed hlines hkeeps⟩

/-- A line of an open text block. -/
theorem addLine {b : OpenBlock} (h : IsAccounted seen found (.block b)) :
    IsAccounted (seen ++ [l]) (found ++ (ScanMode.inBlock (b.addLine l.text)).2)
      (ScanMode.inBlock (b.addLine l.text)).1 := by
  obtain ⟨groups, kept, h⟩ := h
  obtain ⟨opening, others, rfl, hline, hq, hstart, hothers⟩ := h.keeps
  rcases b.addLine_cases l.text with ⟨hnot, hadd⟩ | ⟨r, hr, hadd⟩
  · rw [hadd]
    simp only [ScanMode.inBlock, List.append_nil]
    refine ⟨groups, _, h.keep ⟨opening, others ++ [l], rfl, hline, hq, hstart, ?_⟩⟩
    intro m hm
    rcases List.mem_append.1 hm with hm | hm
    · exact hothers m hm
    · rwa [List.mem_singleton.1 hm]
  · -- the line closes the block, which is a group now
    have hsound : (LineGroup.block opening (others ++ [l])
        (b.token (b.body ++ Text.lineUnlessEmpty (Text.trimEnd r))).text).IsSound := by
      refine ⟨b.delimiter, hq, hstart, by rwa [List.dropLast_concat], ?_⟩
      intro m hm
      rw [← List.cons_append, List.getLast?_concat, Option.some.injEq] at hm
      exact hm ▸ ⟨r, hr.symm⟩
    have hsettled := h.settle [l] .plain hsound rfl rfl rfl
    simp only [LineGroup.findings, ← hline] at hsettled
    rw [hadd]
    exact ⟨_, _, hsettled⟩

/-- A line that opens a text block. -/
theorem start? {state : BlockState} (h : IsAccounted seen found .step)
    (hstate : OpenBlock.start? l.number l.text = some state) :
    IsAccounted (seen ++ [l]) (found ++ (ScanMode.inBlock state).2) (ScanMode.inBlock state).1 := by
  obtain ⟨q, hq, rest, hl, rfl⟩ := OpenBlock.start?_cases hstate
  rcases OpenBlock.begin_cases ⟨q, l.number, []⟩ rest with ⟨body, hb⟩ | ⟨hclose, body, hb⟩
  · obtain ⟨groups, kept, h⟩ := h
    obtain rfl : kept = [] := h.keeps
    rw [hb]
    simp only [ScanMode.inBlock, List.append_nil]
    exact ⟨groups, [l], h.keep ⟨l, [], rfl, rfl, hq, ⟨rest, hl.symm⟩, by simp⟩⟩
  · -- opened and closed on one line
    have hsound : (LineGroup.block l [] (Text.ofLines body)).IsSound := by
      refine ⟨q, hq, ⟨rest, hl.symm⟩, by simp, ?_⟩
      intro m hm
      rw [List.getLast?_singleton, Option.some.injEq] at hm
      rw [← hm, hl]
      exact hclose.trans (List.suffix_append q rest)
    rw [hb]
    exact h.alone (fun _ hk => hk) hsound rfl rfl rfl

/-- A free line that no mode claims. -/
theorem unclaimed (h : IsAccounted seen found mode)
    (hmode : ∀ kept, mode.Keeps kept → kept = []) (hkeeps : mode.Keeps []) :
    IsAccounted (seen ++ [l]) (found ++ (ScanMode.unclaimed mode l).2)
      (ScanMode.unclaimed mode l).1 := by
  unfold ScanMode.unclaimed
  split
  · exact h.alone hmode (g := .single l .row [] l.text) rfl rfl rfl rfl
  · exact h.alone hmode (g := .ignored l) trivial rfl rfl hkeeps

theorem free (h : IsAccounted seen found mode) (hb : mode.isBlock = false) :
    IsAccounted (seen ++ [l]) (found ++ (ScanMode.free l mode).2) (ScanMode.free l mode).1 := by
  cases mode with
  | plain => exact h.unclaimed (fun _ hk => hk) rfl
  | feature description =>
    obtain ⟨groups, kept, h⟩ := h
    obtain rfl : kept = description := h.keeps
    rw [ScanMode.free, List.append_nil]
    exact ⟨groups, _, h.keep rfl⟩
  | step =>
    rw [ScanMode.free]
    split
    next state hstate => exact h.start? hstate
    next => exact h.unclaimed (fun _ hk => hk) rfl
  | block b => cases hb

/-- One line. -/
theorem advance (h : IsAccounted seen found mode) :
    IsAccounted (seen ++ [l]) (found ++ (ScanMode.advance d l mode).2)
      (ScanMode.advance d l mode).1 := by
  rcases ScanMode.advance_cases d l mode with
    ⟨b, rfl, hline⟩ | ⟨hb, m, hline⟩ | ⟨hb, first, others, hline⟩ | ⟨hb, hline⟩
  · rw [hline]
    exact h.addLine
  · have hkind : (LineGroup.single l m.role.kind m.keyword m.payload).IsSound := by
      cases hr : m.role <;> simp [LineGroup.IsSound, TokenKind.isOfOneLine, Role.kind]
    rw [hline, ← List.append_assoc]
    apply (h.pending hb).alone (fun _ hk => hk) hkind rfl rfl
    cases hr : m.role <;> simp [ScanMode.afterKeyword, ScanMode.Keeps]
  · rw [hline, ← List.append_assoc]
    exact (h.pending hb).alone (fun _ hk => hk) (g := .tags l first others) trivial rfl rfl rfl
  · rw [hline]
    exact h.free hb

/-- All lines. -/
theorem run (d : Dialect) :
    ∀ (ls : List NumberedLine) {seen : List NumberedLine} {found : List Finding} {mode : ScanMode},
      IsAccounted seen found mode →
        IsAccounted (seen ++ ls) (found ++ (ScanMode.run d mode ls).2) (ScanMode.run d mode ls).1
  | [], seen, found, mode, h => by simpa [ScanMode.run] using h
  | l :: ls, seen, found, mode, h => by
    have hnext := run d ls (h.advance (d := d) (l := l))
    rw [ScanMode.run, List.append_cons seen l ls, ← List.append_assoc]
    exact hnext

end IsAccounted

/-- Groups that account for the given lines and for all that was found in them. -/
structure IsAccountOf (ls : List NumberedLine) (found : List Finding)
    (groups : List LineGroup) : Prop where
  sound : ∀ g ∈ groups, g.IsSound
  unclosed : ∀ g ∈ groups.dropLast, g.isUnclosed = false
  lines : groups.flatMap LineGroup.lines = ls
  findings : groups.flatMap LineGroup.findings = found

/-- At the end of the document nothing is kept back any more. -/
theorem IsAccounted.atEnd {seen : List NumberedLine} {found : List Finding} {mode : ScanMode}
    (h : IsAccounted seen found mode) :
    ∃ groups, IsAccountOf seen (found ++ mode.atEnd) groups := by
  cases hb : mode.isBlock with
  | false =>
    obtain ⟨groups, kept, h⟩ := h.pending hb
    obtain rfl : kept = [] := h.keeps
    rw [ScanMode.atEnd_of_not_isBlock hb]
    refine ⟨groups, h.sound, fun g hg => h.closed g (List.dropLast_subset _ hg), ?_, h.findings⟩
    rw [← h.lines, List.append_nil]
  | true =>
    cases mode with
    | block b =>
      obtain ⟨groups, kept, h⟩ := h
      obtain ⟨opening, others, rfl, hline, hq, hstart, hothers⟩ := h.keeps
      refine ⟨groups ++ [.unclosed opening others], ?_, ?_, ?_, ?_⟩
      · intro g hg
        rcases List.mem_append.1 hg with hg | hg
        · exact h.sound g hg
        · rw [List.mem_singleton.1 hg]
          exact ⟨b.delimiter, hq, hstart, hothers⟩
      · rw [List.dropLast_concat]
        exact h.closed
      · rw [List.flatMap_append, List.flatMap_singleton, ← h.lines]
        rfl
      · rw [List.flatMap_append, List.flatMap_singleton, h.findings, ScanMode.atEnd, hline]
        rfl
    | _ => cases hb

namespace IsAccountOf

variable {ls : List NumberedLine} {found : List Finding} {groups : List LineGroup}

/-- Groups one after another have their lines one after another. -/
theorem pairwise_groups (h : IsAccountOf ls found groups)
    (hls : ls.Pairwise fun l m => l.number < m.number) :
    groups.Pairwise fun g g' => ∀ l ∈ g.lines, ∀ m ∈ g'.lines, l.number < m.number := by
  rw [← h.lines, List.pairwise_flatMap] at hls
  exact hls.2

/-- Every line is in one group. -/
theorem existsUnique_group (h : IsAccountOf ls found groups)
    (hls : ls.Pairwise fun l m => l.number < m.number) {l : NumberedLine} (hl : l ∈ ls) :
    ∃! g, g ∈ groups ∧ l ∈ g.lines := by
  rw [← h.lines] at hl
  obtain ⟨g, hg, hlg⟩ := List.mem_flatMap.1 hl
  refine ⟨g, ⟨hg, hlg⟩, ?_⟩
  rintro g' ⟨hg', hlg'⟩
  by_contra hne
  have hdisjoint : groups.Pairwise fun g g' => ∀ m ∈ g.lines, m ∉ g'.lines :=
    (h.pairwise_groups hls).imp fun hlt m hm hm' => absurd (hlt m hm m hm') (Nat.lt_irrefl _)
  have hsymm : Std.Symm fun g g' : LineGroup => ∀ m ∈ g.lines, m ∉ g'.lines :=
    ⟨fun _ _ hgg m hm hm' => hgg m hm' hm⟩
  exact hdisjoint.forall hg' hg hne l hlg' hlg

/-- What has the number of a line was found in the group of that line. -/
theorem filter_line? (h : IsAccountOf ls found groups)
    (hls : ls.Pairwise fun l m => l.number < m.number) {g : LineGroup} (hg : g ∈ groups)
    {l : NumberedLine} (hl : l ∈ g.lines) :
    found.filter (fun f => f.line? == some l.number) =
      g.findings.filter (fun f => f.line? == some l.number) := by
  obtain ⟨before, after, rfl⟩ := List.append_of_mem hg
  have hpairs := h.pairwise_groups hls
  rw [List.pairwise_append, List.pairwise_cons] at hpairs
  obtain ⟨-, ⟨hafter, -⟩, hbefore⟩ := hpairs
  have hnone {gs : List LineGroup} (hgs : ∀ g' ∈ gs, ∀ m ∈ g'.lines, m.number ≠ l.number) :
      (gs.flatMap LineGroup.findings).filter (fun f => f.line? == some l.number) = [] := by
    apply List.filter_eq_nil_iff.2
    intro f hf
    obtain ⟨g', hg', hfg⟩ := List.mem_flatMap.1 hf
    obtain ⟨m, hm, hline⟩ := LineGroup.line?_of_mem_findings hfg
    rw [hline]
    simpa using hgs g' hg' m hm
  rw [← h.findings, List.flatMap_append, List.flatMap_cons, List.filter_append, List.filter_append,
    hnone fun g' hg' m hm => Nat.ne_of_lt (hbefore g' hg' g (by simp) m hm l hl),
    hnone fun g' hg' m hm => Nat.ne_of_gt (hafter g' hg' l hl m hm), List.nil_append,
    List.append_nil]

/-- Nothing is found but in the lines. -/
theorem exists_line (h : IsAccountOf ls found groups) {f : Finding} (hf : f ∈ found) :
    ∃ l ∈ ls, f.line? = some l.number := by
  rw [← h.findings] at hf
  obtain ⟨g, hg, hfg⟩ := List.mem_flatMap.1 hf
  obtain ⟨l, hl, hline⟩ := LineGroup.line?_of_mem_findings hfg
  exact ⟨l, h.lines ▸ List.mem_flatMap.2 ⟨g, hg, hl⟩, hline⟩

end IsAccountOf

/-- That `v` can be found behind `u`: on a later line, or as another tag of its line. -/
def Token.IsBefore (u v : Token) : Prop :=
  u.line < v.line ∨ u.line = v.line ∧ u.isTag = true ∧ v.isTag = true

/-- A token stands on one of the lines of its group. -/
theorem LineGroup.exists_line_of_mem {g : LineGroup} {u : Token}
    (hu : u ∈ foundTokens g.findings) : ∃ l ∈ g.lines, u.line = l.number := by
  obtain ⟨f, hf, hfu⟩ := List.mem_filterMap.1 hu
  obtain ⟨l, hl, hnumber⟩ := line?_of_mem_findings hf
  cases f with
  | event e => cases hfu
  | token v =>
    obtain rfl : v = u := Option.some.inj hfu
    exact ⟨l, hl, Option.some.inj hnumber⟩

/-- A token stands on one of the lines in which it is found. -/
theorem IsAccountOf.exists_line_of_mem {ls : List NumberedLine} {found : List Finding}
    {groups : List LineGroup} (h : IsAccountOf ls found groups) {u : Token}
    (hu : u ∈ foundTokens found) : ∃ l ∈ ls, u.line = l.number := by
  rw [← h.findings, foundTokens, List.filterMap_flatMap] at hu
  obtain ⟨g, hg, hug⟩ := List.mem_flatMap.1 hu
  obtain ⟨l, hl, hline⟩ := LineGroup.exists_line_of_mem hug
  exact ⟨l, h.lines ▸ List.mem_flatMap.2 ⟨g, hg, hl⟩, hline⟩

/-- The tokens of one group are one, or tags. -/
theorem LineGroup.pairwise_tokens (g : LineGroup) :
    (foundTokens g.findings).Pairwise Token.IsBefore := by
  cases g with
  | tags l first others =>
    rw [findings, foundTokens_tags, List.pairwise_map]
    exact List.pairwise_of_forall fun _ _ => Or.inr ⟨rfl, rfl, rfl⟩
  | _ => simp [findings]

/-- Tokens are found in the order of their lines. -/
theorem IsAccountOf.pairwise_tokens {ls : List NumberedLine} {found : List Finding}
    {groups : List LineGroup} (h : IsAccountOf ls found groups)
    (hls : ls.Pairwise fun l m => l.number < m.number) :
    (foundTokens found).Pairwise Token.IsBefore := by
  rw [← h.findings, foundTokens, List.filterMap_flatMap, List.pairwise_flatMap]
  refine ⟨fun g _ => g.pairwise_tokens, (h.pairwise_groups hls).imp ?_⟩
  intro g g' hlt u hu v hv
  obtain ⟨l, hl, hul⟩ := LineGroup.exists_line_of_mem hu
  obtain ⟨m, hm, hvm⟩ := LineGroup.exists_line_of_mem hv
  exact Or.inl (by rw [hul, hvm]; exact hlt l hl m hm)

namespace Line

/-- The lines that say something, by their places in the document. -/
theorem mem_effective {lines : List Text} {l : NumberedLine} :
    l ∈ effective lines ↔
      ∃ line, lines[l.number]? = some line ∧ l.text = Text.trim line ∧
        isEffective (Text.trim line) = true := by
  rw [effective, List.mem_filter, List.mem_map]
  constructor
  · rintro ⟨⟨⟨text, number⟩, hpair, rfl⟩, heff⟩
    have hget := List.mem_zipIdx_iff_getElem?.1 hpair
    rw [List.getElem?_map, Option.map_eq_some_iff] at hget
    obtain ⟨line, hline, rfl⟩ := hget
    exact ⟨line, hline, rfl, heff⟩
  · rintro ⟨line, hline, htext, heff⟩
    refine ⟨⟨(l.text, l.number), ?_, rfl⟩, by rwa [htext]⟩
    rw [List.mem_zipIdx_iff_getElem?, List.getElem?_map, hline, htext]
    rfl

theorem pairwise_effective (lines : List Text) :
    (effective lines).Pairwise fun l m => l.number < m.number := by
  have hrange : (((lines.map Text.trim).zipIdx).map Prod.snd).Pairwise (· < ·) := by
    rw [List.zipIdx_map_snd]
    exact List.pairwise_lt_range'
  exact List.Pairwise.filter _ (List.pairwise_map.2 (List.pairwise_map.1 hrange))

/-- **Every line is accounted for.** -/
theorem exists_isAccountOf (d : Dialect) (lines : List Text) :
    ∃ groups, IsAccountOf (effective lines) (scan d lines) groups := by
  have h := IsAccounted.start.run d (effective lines)
  rw [List.nil_append, List.nil_append] at h
  exact h.atEnd

end Line

namespace DialectTable

/-- How the lines of a document, its tokens and the reports about them go together. -/
structure IsAccount (t : DialectTable) (lines : List Text) (ts : List Token)
    (found : List Finding) (groups : List LineGroup) : Prop where
  /-- The groups have the lines that say something, and are found as `found`. -/
  balance : IsAccountOf (Line.effective lines) found groups
  tokens : foundTokens found = ts
  events : t.tokenizeEvents lines =
    .tokenizeSpan :: .tokenizing (t.localeOf lines) lines.length :: found.filterMap Finding.event?
  /-- A line that says something is in one group and no other. -/
  one : ∀ i line, lines[i]? = some line → Line.isEffective (Text.trim line) = true →
    ∃! g, g ∈ groups ∧ ⟨i, Text.trim line⟩ ∈ g.lines
  /-- Only its group gives something that has its number. -/
  own : ∀ g ∈ groups, ∀ l ∈ g.lines,
    found.filter (fun f => f.line? == some l.number) =
      g.findings.filter (fun f => f.line? == some l.number)
  /-- Any other line gives nothing. -/
  others : ∀ f ∈ found, ∃ i line, f.line? = some i ∧ lines[i]? = some line ∧
    Line.isEffective (Text.trim line) = true
  order : ts.Pairwise Token.IsBefore

/-- **Nothing is lost and nothing counts twice.**  The lines of a document that
say something can be grouped so that each group is found as one thing, and all
tokens and reports are accounted for in this way. -/
theorem tokenize_account {t : DialectTable} {lines : List Text} {ts : List Token}
    (h : t.tokenize lines = .ok ts) : ∃ found groups, t.IsAccount lines ts found groups := by
  cases hd : t.dialectOf lines with
  | error e =>
    rw [tokenize_eq, hd] at h
    cases h
  | ok d =>
    have hts : foundTokens (Line.scan d lines) = ts := by
      rw [tokenize_of_dialectOf hd] at h
      exact Except.ok.inj h
    have hlines := Line.pairwise_effective lines
    obtain ⟨groups, hgroups⟩ := Line.exists_isAccountOf d lines
    refine ⟨Line.scan d lines, groups, hgroups, hts,
      by rw [tokenizeEvents, compiledDialectOf_unlimited, hd], ?_, ?_, ?_, ?_⟩
    · intro i line hline heff
      exact hgroups.existsUnique_group hlines (Line.mem_effective.2 ⟨line, hline, rfl, heff⟩)
    · intro g hg l hl
      exact hgroups.filter_line? hlines hg hl
    · intro f hf
      obtain ⟨l, hl, hnumber⟩ := hgroups.exists_line hf
      obtain ⟨line, hline, -, heff⟩ := Line.mem_effective.1 hl
      exact ⟨l.number, line, hnumber, hline, heff⟩
    · rw [← hts]
      exact hgroups.pairwise_tokens hlines

/-- Lines of all kinds: a description over a comment, a line of two tags, a text
block, a line without meaning, and a text block that is not closed. -/
theorem tokenize_account_of_all_kinds :
    let lines : List Text :=
      ["Feature: A", "told", "# note", "here", "@x @y", "Scenario: S", "Given a", "'''one", "",
        "two'''", "what", "| r |", "Given b", "\"\"\"", "| r |"]
    let ts : List Token :=
      [⟨.feature, "Feature", "A", 0⟩, ⟨.description, [], "told\nhere", 1⟩, ⟨.tag, ['@'], "x", 4⟩,
        ⟨.tag, ['@'], "y", 4⟩, ⟨.scenario, "Scenario", "S", 5⟩,
        ⟨.step .givenStep, "Given", "a", 6⟩, ⟨.block, [], "one\ntwo", 7⟩,
        ⟨.row, [], "| r |", 11⟩, ⟨.step .givenStep, "Given", "b", 12⟩]
    standard.tokenize lines = .ok ts ∧
      ∃ found groups, standard.IsAccount lines ts found groups := by
  intro lines ts
  have hts : standard.tokenize lines = .ok ts := by decide
  exact ⟨hts, tokenize_account hts⟩

end DialectTable

end Gherkin
