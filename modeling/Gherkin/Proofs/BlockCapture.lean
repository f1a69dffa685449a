import Gherkin.Proofs.FeatureBoundary
import Gherkin.Proofs.LineAccount

/-!
# What a text block takes

Below a step a line of quotes opens a text block.  From there on nothing is read
for what it says: the lines belong to the block up to the first that ends in the
same quotes, and behind that one the document goes on as if the block were not
there.

> `tokenize_block`: a block that is never closed leaves the tokens before it, and
> one that is closed adds a single token, whose text are the lines between.  Other
> lines between change that text and nothing else.

`Line.blockLines` lists the lines that a block can have.  What stands behind the
opening quotes is the first of them, so that a block which closes on the line
where it opens is no special case.
-/

namespace Gherkin

namespace ScanMode

variable {d : Dialect}

/-- A text block takes all lines that do not close it. -/
theorem run_block {ls : List NumberedLine} :
    ∀ {b : OpenBlock}, (∀ l ∈ ls, ¬ b.delimiter <:+ l.text) →
      run d (block b) ls = (block { b with body := b.body ++ ls.map (·.text) }, []) := by
  induction ls with
  | nil => intro b _; simp [run]
  | cons l ls ih =>
    intro b h
    have hl : b.addLine l.text = .unfinished { b with body := b.body ++ [l.text] } :=
      OpenBlock.addLine_of_not_closing (h l (by simp))
    have hls := ih (b := { b with body := b.body ++ [l.text] })
      fun m hm => h m (List.mem_cons_of_mem _ hm)
    simp only [run, advance, hl, inBlock, hls]
    simp

/-- The line that closes a text block ends it, and the scan starts anew. -/
theorem run_block_closed {b : OpenBlock} {before : List NumberedLine}
    (h : ∀ l ∈ before, ¬ b.delimiter <:+ l.text) (n : Nat) (r : Text)
    (after : List NumberedLine) :
    run d (block b) (before ++ ⟨n, r ++ b.delimiter⟩ :: after) =
      ((run d plain after).1,
        .token (b.token (b.body ++ before.map (·.text) ++ Text.lineUnlessEmpty (Text.trimEnd r)))
          :: (run d plain after).2) := by
  rw [run_append, run_block h]
  have hclose := OpenBlock.addLine_append { b with body := b.body ++ before.map (·.text) } r
  simp only [run, advance, hclose, inBlock, List.nil_append]
  rfl

/-- What stands behind the opening quotes is a line of the block already. -/
theorem run_opening {q rest : Text} {n : Nat} (hq : q ∈ OpenBlock.delimiters)
    (hfree : Line.shape d (q ++ rest) = .free) (ls : List NumberedLine) :
    run d step (⟨n, q ++ rest⟩ :: ls) =
      run d (block ⟨q, n, []⟩)
        ((Text.lineUnlessEmpty (Text.trimStart rest)).map (⟨n, ·⟩) ++ ls) := by
  have hadvance : advance d ⟨n, q ++ rest⟩ step = inBlock (OpenBlock.begin ⟨q, n, []⟩ rest) := by
    rw [advance_of_free hfree rfl]
    simp only [free, OpenBlock.start?_append hq]
  rw [run, hadvance, OpenBlock.begin]
  cases Text.trimStart rest with
  | nil => simp [inBlock, Text.lineUnlessEmpty]
  | cons c s =>
    simp only [Text.lineUnlessEmpty, List.map_cons, List.map_nil, List.singleton_append, run,
      advance]

end ScanMode

namespace Line

/-- A line that opens a text block below a step: it starts with the quotes `q`, and
no keyword applies to it. -/
structure OpensBlock (d : Dialect) (q rest line : Text) : Prop where
  quotes : q ∈ OpenBlock.delimiters
  start : Text.trim line = q ++ rest
  structural : match? d Role.structural (Text.trim line) = none
  steps : match? d Role.steps (Text.trim line) = none

/-- The lines that a text block can have which opens on line `n`, with `rest`
behind its quotes: `rest` itself and the effective ones among the lines below. -/
def blockLines (n : Nat) (rest : Text) (ys : List Text) : List NumberedLine :=
  (Text.lineUnlessEmpty (Text.trim rest)).map (⟨n, ·⟩)
    ++ (effective ys).map (NumberedLine.renumber (n + 1 + ·))

namespace OpensBlock

variable {d : Dialect} {q rest line : Text}

theorem shape_eq (h : OpensBlock d q rest line) : shape d (q ++ rest) = .free := by
  have hstructural := h.structural
  have hsteps := h.steps
  rw [h.start] at hstructural hsteps
  have htags : tags (q ++ rest) = [] := by
    have hq := h.quotes
    simp only [OpenBlock.delimiters, List.mem_cons, List.not_mem_nil, or_false] at hq
    rcases hq with rfl | rfl <;> rfl
  simp only [shape, hstructural, hsteps, htags]

theorem isEffective (h : OpensBlock d q rest line) : isEffective (q ++ rest) = true := by
  have hq := h.quotes
  simp only [OpenBlock.delimiters, List.mem_cons, List.not_mem_nil, or_false] at hq
  rcases hq with rfl | rfl <;> rfl

theorem trimStart_eq (h : OpensBlock d q rest line) : Text.trimStart rest = Text.trim rest :=
  Text.trimStart_eq_trim (p := q) (by rw [← h.start, Text.trim_trim])

end OpensBlock

/-- An effective line between others. -/
theorem effective_append_cons (xs ys : List Text) {line : Text}
    (h : isEffective (Text.trim line) = true) :
    effective (xs ++ line :: ys) =
      effective xs ++ ⟨xs.length, Text.trim line⟩
        :: (effective ys).map (NumberedLine.renumber (xs.length + 1 + ·)) := by
  have hone : effective [line] = [⟨0, Text.trim line⟩] := by simp [effective, h]
  rw [← List.singleton_append, effective_append, effective_append, hone, List.map_append,
    List.map_map]
  simp [NumberedLine.renumber, Function.comp_def, Nat.add_assoc]

/-- Lines of a text block, an effective line, and what follows. -/
theorem blockLines_append_cons (n : Nat) (rest : Text) (body ys : List Text) {line : Text}
    (h : isEffective (Text.trim line) = true) :
    blockLines n rest (body ++ line :: ys) =
      blockLines n rest body ++ ⟨n + 1 + body.length, Text.trim line⟩
        :: (effective ys).map (NumberedLine.renumber (n + 1 + body.length + 1 + ·)) := by
  rw [blockLines, effective_append_cons _ _ h, List.map_append, List.map_cons, List.map_map,
    blockLines, List.append_assoc]
  simp [NumberedLine.renumber, Function.comp_def, Nat.add_assoc]

/-- The lines of a block are counted from where it opens. -/
theorem pairwise_blockLines (n : Nat) (rest : Text) (ys : List Text) :
    (blockLines n rest ys).Pairwise fun l m => l.number < m.number := by
  rw [blockLines, List.pairwise_append]
  refine ⟨?_, ?_, ?_⟩
  · cases Text.trim rest <;> simp [Text.lineUnlessEmpty]
  · exact List.pairwise_map.2 ((pairwise_effective ys).imp fun h => Nat.add_lt_add_left h _)
  · intro l hl m hm
    obtain ⟨s, -, rfl⟩ := List.mem_map.1 hl
    obtain ⟨m, -, rfl⟩ := List.mem_map.1 hm
    show n < n + 1 + m.number
    omega

/-- Lines that do not close a text block, if what stands behind the opening quotes
does not either. -/
theorem not_closing_blockLines {q rest : Text} {n : Nat} {body : List Text}
    (hfirst : ∀ s ∈ Text.lineUnlessEmpty (Text.trim rest), ¬ q <:+ s)
    (hbody : ∀ line ∈ body, isEffective (Text.trim line) = true → ¬ q <:+ Text.trim line) :
    ∀ l ∈ blockLines n rest body, ¬ q <:+ l.text := by
  intro l hl
  rcases List.mem_append.1 hl with hl | hl
  · obtain ⟨s, hs, rfl⟩ := List.mem_map.1 hl
    exact hfirst s hs
  · obtain ⟨m, hm, rfl⟩ := List.mem_map.1 hl
    obtain ⟨line, hline, htext, heff⟩ := mem_effective.1 hm
    show ¬ q <:+ m.text
    rw [htext]
    exact hbody line (List.mem_of_getElem? hline) heff

/-- If some line of a block closes it, there is a first one, and the lines between
the opening line and this one can be any that do not close the block. -/
theorem exists_closing {q rest : Text} {opening : Nat} {ys : List Text}
    (h : ∃ l ∈ blockLines opening rest ys, q <:+ l.text) :
    ∃ n r after, Text.trim (r ++ q) = r ++ q ∧
      (∃ before, blockLines opening rest ys = before ++ ⟨n, r ++ q⟩ :: after ∧
        ∀ l ∈ before, ¬ q <:+ l.text) ∧
      ∀ body : List Text, body.length = n - (opening + 1) →
        (∀ line ∈ body, ¬ q <:+ Text.trim line) →
        ∃ before, blockLines opening rest (body ++ ys.drop body.length) =
            before ++ ⟨n, r ++ q⟩ :: after ∧
          ∀ l ∈ before, ¬ q <:+ l.text := by
  by_cases hfirst : ∀ s ∈ Text.lineUnlessEmpty (Text.trim rest), ¬ q <:+ s
  · -- a line below closes the block, the first one of this kind
    obtain ⟨l, hl, hclose⟩ := h
    have hfind : (ys.find? fun line =>
        isEffective (Text.trim line) && q.isSuffixOf (Text.trim line)).isSome := by
      rw [List.find?_isSome]
      by_contra hnone
      simp only [not_exists, not_and, Bool.and_eq_true, List.isSuffixOf_iff_suffix] at hnone
      exact not_closing_blockLines hfirst hnone l hl hclose
    obtain ⟨line, hline⟩ := Option.isSome_iff_exists.1 hfind
    obtain ⟨hp, old, tail, rfl, hold⟩ := List.find?_eq_some_iff_append.1 hline
    rw [Bool.and_eq_true, List.isSuffixOf_iff_suffix] at hp
    obtain ⟨heff, r, hr⟩ := hp
    have hbefore : ∀ l ∈ blockLines opening rest old, ¬ q <:+ l.text := by
      apply not_closing_blockLines hfirst
      intro line hline heff hsuffix
      have hnot := hold line hline
      simp [heff, List.isSuffixOf_iff_suffix.2 hsuffix] at hnot
    refine ⟨opening + 1 + old.length, r, _, by rw [hr, Text.trim_trim],
      ⟨_, by rw [blockLines_append_cons _ _ _ _ heff, hr], hbefore⟩, ?_⟩
    intro body hlength hbody
    have hlength : body.length = old.length := by omega
    refine ⟨blockLines opening rest body, ?_,
      not_closing_blockLines hfirst fun _ hl _ => hbody _ hl⟩
    rw [hlength, List.drop_left, blockLines_append_cons _ _ _ _ heff, hlength, hr]
  · -- what stands behind the opening quotes closes the block
    simp only [not_forall, not_not] at hfirst
    obtain ⟨s, hs, r, hr⟩ := hfirst
    obtain ⟨rfl, hline⟩ := Text.eq_of_mem_lineUnlessEmpty hs
    have hlines (ls : List Text) : blockLines opening rest ls =
        [] ++ ⟨opening, r ++ q⟩
          :: (effective ls).map (NumberedLine.renumber (opening + 1 + ·)) := by
      rw [blockLines, hline, hr]
      rfl
    refine ⟨opening, r, _, by rw [hr, Text.trim_trim], ⟨[], hlines ys, nofun⟩, ?_⟩
    intro body hlength _
    have hlength : body.length = 0 := by omega
    rw [List.length_eq_zero_iff.1 hlength]
    exact ⟨[], hlines ys, nofun⟩

/-- What is found behind a text block. -/
def tokensBehind (d : Dialect) (ls : List NumberedLine) : List Token :=
  foundTokens ((ScanMode.plain.run d ls).2 ++ (ScanMode.plain.run d ls).1.atEnd)

/-- What is found behind a text block stands there. -/
theorem exists_line_of_mem_tokensBehind {d : Dialect} {ls : List NumberedLine} {v : Token}
    (hv : v ∈ tokensBehind d ls) : ∃ l ∈ ls, v.line = l.number := by
  obtain ⟨groups, hgroups⟩ := (IsAccounted.start.run d ls).atEnd
  rw [List.nil_append, List.nil_append] at hgroups
  exact hgroups.exists_line_of_mem hv

/-- What is found in a document stands in it. -/
theorem line_lt_of_mem_scan {d : Dialect} {xs : List Text} {u : Token}
    (hu : u ∈ foundTokens (scan d xs)) : u.line < xs.length := by
  obtain ⟨groups, hgroups⟩ := exists_isAccountOf d xs
  obtain ⟨l, hl, hnumber⟩ := hgroups.exists_line_of_mem hu
  obtain ⟨line, hline, -, -⟩ := mem_effective.1 hl
  rw [hnumber]
  exact (List.getElem?_eq_some_iff.1 hline).1

section Capture

variable {d : Dialect} {xs ys : List Text} {o q rest : Text}

/-- A document up to a step, and below it the opening of a text block. -/
theorem foundTokens_scan_block
    (hmode : (ScanMode.plain.run d (effective xs)).1 = .step) (ho : OpensBlock d q rest o) :
    foundTokens (scan d (xs ++ o :: ys)) =
      foundTokens (scan d xs) ++ foundTokens
        ((ScanMode.run d (.block ⟨q, xs.length, []⟩) (blockLines xs.length rest ys)).2 ++
        (ScanMode.run d (.block ⟨q, xs.length, []⟩) (blockLines xs.length rest ys)).1.atEnd) := by
  have heff : isEffective (Text.trim o) = true := by
    rw [ho.start]
    exact ho.isEffective
  have hxs : foundTokens (scan d xs) = foundTokens (ScanMode.plain.run d (effective xs)).2 := by
    simp [scan, hmode, ScanMode.atEnd, ScanMode.pending]
  rw [hxs, scan, effective_append_cons _ _ heff, ho.start, ScanMode.run_append, hmode,
    ScanMode.run_opening ho.quotes ho.shape_eq, ho.trimStart_eq, ← blockLines]
  simp only [foundTokens_append, List.append_assoc]

/-- A text block that is never closed gives no token. -/
theorem foundTokens_scan_unclosed
    (hmode : (ScanMode.plain.run d (effective xs)).1 = .step) (ho : OpensBlock d q rest o)
    (hnone : ∀ l ∈ blockLines xs.length rest ys, ¬ q <:+ l.text) :
    foundTokens (scan d (xs ++ o :: ys)) = foundTokens (scan d xs) := by
  rw [foundTokens_scan_block hmode ho, ScanMode.run_block (b := ⟨q, xs.length, []⟩) hnone]
  simp [ScanMode.atEnd]

/-- A text block that is closed gives one token. -/
theorem foundTokens_scan_closed {before after : List NumberedLine} {n : Nat} {r : Text}
    (hmode : (ScanMode.plain.run d (effective xs)).1 = .step) (ho : OpensBlock d q rest o)
    (hlines : blockLines xs.length rest ys = before ++ ⟨n, r ++ q⟩ :: after)
    (hbefore : ∀ l ∈ before, ¬ q <:+ l.text) :
    foundTokens (scan d (xs ++ o :: ys)) =
      foundTokens (scan d xs) ++
        ⟨.block, [],
            Text.ofLines (before.map (·.text) ++ Text.lineUnlessEmpty (Text.trimEnd r)),
            xs.length⟩
          :: tokensBehind d after := by
  have hclosed :=
    ScanMode.run_block_closed (d := d) (b := ⟨q, xs.length, []⟩) hbefore n r after
  rw [foundTokens_scan_block hmode ho, hlines]
  simp only at hclosed
  rw [hclosed]
  rfl

end Capture

end Line

namespace DialectTable

variable {t : DialectTable} {d : Dialect} {xs ys : List Text} {o q rest : Text} {us : List Token}

/-- What a text block makes of a document, if it opens on the line `o` below the
lines `xs` with tokens `us`, and the lines `ys` close it on line `n`. -/
structure IsCapture (t : DialectTable) (d : Dialect) (xs : List Text) (o : Text) (ys : List Text)
    (us : List Token) (q rest : Text) (before : List NumberedLine) (n : Nat) (r : Text)
    (after : List NumberedLine) (vs : List Token) : Prop where
  /-- Line `n` is the first one of the block that ends in the quotes `q`. -/
  lines : Line.blockLines xs.length rest ys = before ++ ⟨n, r ++ q⟩ :: after
  first : ∀ l ∈ before, ¬ q <:+ l.text
  /-- The block is one token. -/
  tokens : t.tokenize (xs ++ o :: ys) =
    .ok (us ++
      ⟨.block, [], Text.ofLines (before.map (·.text) ++ Text.lineUnlessEmpty (Text.trim r)),
        xs.length⟩
        :: vs)
  /-- No line of the block gives any other. -/
  above : ∀ u ∈ us, u.line < xs.length
  below : ∀ v ∈ vs, n < v.line
  /-- Other lines in the block, and as many, change its text alone.  A language
  directive is in force wherever it stands, so these must leave the dialect as it
  is. -/
  replaceable : ∀ body : List Text, body.length = n - (xs.length + 1) →
    (∀ line ∈ body, ¬ q <:+ Text.trim line) →
    t.dialectOf (xs ++ o :: (body ++ ys.drop body.length)) = .ok d →
    ∃ text, t.tokenize (xs ++ o :: (body ++ ys.drop body.length)) =
      .ok (us ++ ⟨.block, [], text, xs.length⟩ :: vs)

/-- **A text block is taken as a whole.**  Below a step, a block that is never
closed leaves the tokens before it as they are; one that is closed is a single
token, and what its lines would mean elsewhere makes no difference. -/
theorem tokenize_block (hxs : t.dialectOf xs = .ok d)
    (hboth : t.dialectOf (xs ++ o :: ys) = .ok d) (hus : t.tokenize xs = .ok us)
    (hopen : Line.leavesBlockOpen d xs = false) (hlast : us.getLast?.any Token.isStep = true)
    (ho : Line.OpensBlock d q rest o) :
    ((∀ l ∈ Line.blockLines xs.length rest ys, ¬ q <:+ l.text) →
        t.tokenize (xs ++ o :: ys) = .ok us) ∧
      ((∃ l ∈ Line.blockLines xs.length rest ys, q <:+ l.text) →
        ∃ before n r after vs, t.IsCapture d xs o ys us q rest before n r after vs) := by
  have hus' : foundTokens (Line.scan d xs) = us := by
    rw [tokenize_of_dialectOf hxs] at hus
    exact Except.ok.inj hus
  have hmode : (ScanMode.plain.run d (Line.effective xs)).1 = .step := by
    apply Line.mode_of_last_step hopen
    rwa [hus']
  constructor
  · intro hnone
    rw [tokenize_of_dialectOf hboth, Line.foundTokens_scan_unclosed hmode ho hnone, hus']
  · intro hsome
    obtain ⟨n, r, after, htrim, ⟨before, hlines, hbefore⟩, hother⟩ := Line.exists_closing hsome
    refine ⟨before, n, r, after, Line.tokensBehind d after, hlines, hbefore, ?_, ?_, ?_, ?_⟩
    · rw [tokenize_of_dialectOf hboth, Line.foundTokens_scan_closed hmode ho hlines hbefore, hus',
        Text.trimEnd_eq_trim htrim]
    · intro u hu
      rw [← hus'] at hu
      exact Line.line_lt_of_mem_scan hu
    · intro v hv
      obtain ⟨l, hl, hline⟩ := Line.exists_line_of_mem_tokensBehind hv
      have hpairs := Line.pairwise_blockLines xs.length rest ys
      rw [hlines, List.pairwise_append, List.pairwise_cons] at hpairs
      rw [hline]
      exact hpairs.2.1.1 l hl
    · intro body hlength hbody hdialect
      obtain ⟨between, hlines', hbetween⟩ := hother body hlength hbody
      refine ⟨Text.ofLines (between.map (·.text) ++ Text.lineUnlessEmpty (Text.trimEnd r)), ?_⟩
      rw [tokenize_of_dialectOf hdialect, Line.foundTokens_scan_closed hmode ho hlines' hbetween,
        hus']

/-- Quotes behind text close a block, those of the other kind and a tag line do not. -/
theorem tokenize_block_closed_behind_text :
    let xs : List Text := ["Feature: A", "Scenario: S", "Given a"]
    let ys : List Text := ["\"\"\"", "", "Given b", "# note", "  two '''", "Then c"]
    let us : List Token :=
      [⟨.feature, "Feature", "A", 0⟩, ⟨.scenario, "Scenario", "S", 1⟩,
        ⟨.step .givenStep, "Given", "a", 2⟩]
    Line.OpensBlock Dialect.english "'''" " one" "  ''' one" ∧
      ∃ before n r after vs, standard.IsCapture Dialect.english xs "  ''' one" ys us "'''" " one"
        before n r after vs := by
  intro xs ys us
  have ho : Line.OpensBlock Dialect.english "'''" " one" "  ''' one" :=
    ⟨by decide, by decide, by decide, by decide⟩
  have hclosing : ∃ l ∈ Line.blockLines xs.length " one" ys, "'''" <:+ l.text := by decide
  have hxs : standard.dialectOf xs = .ok Dialect.english := rfl
  have hboth : standard.dialectOf (xs ++ "  ''' one".toList :: ys) = .ok Dialect.english := rfl
  have hus : standard.tokenize xs = .ok us := by decide
  exact ⟨ho, (tokenize_block hxs hboth hus (by decide) (by decide) ho).2 hclosing⟩

/-- A comment in a text block is no line of it, and yet changes how the document is
read if it names another language. -/
theorem tokenize_block_directive :
    let xs : List Text := ["Feature: A", "Scenario: S", "Given a"]
    let o : Text := "'''"
    let ys : List Text := ["one", "'''", "Given b"]
    let body : List Text := ["# language: fr"]
    let us : List Token :=
      [⟨.feature, "Feature", "A", 0⟩, ⟨.scenario, "Scenario", "S", 1⟩,
        ⟨.step .givenStep, "Given", "a", 2⟩]
    let vs : List Token := [⟨.step .givenStep, "Given", "b", 6⟩]
    standard.dialectOf xs = .ok Dialect.english ∧
      standard.dialectOf (xs ++ o :: ys) = .ok Dialect.english ∧
      standard.tokenize xs = .ok us ∧ us.getLast?.any Token.isStep = true ∧
      Line.leavesBlockOpen Dialect.english xs = false ∧
      Line.OpensBlock Dialect.english o [] o ∧
      standard.tokenize (xs ++ o :: ys) = .ok (us ++ ⟨.block, [], "one", 3⟩ :: vs) ∧
      (∀ line ∈ body, ¬ o <:+ Text.trim line) ∧
      ¬ ∃ text, standard.tokenize (xs ++ o :: (body ++ ys.drop body.length)) =
        .ok (us ++ ⟨.block, [], text, 3⟩ :: vs) := by
  intro xs o ys body us vs
  have ho : Line.OpensBlock Dialect.english o [] o :=
    ⟨by decide, by decide, by decide, by decide⟩
  refine ⟨rfl, rfl, by decide, by decide, by decide, ho, by decide, by decide, ?_⟩
  have hfrench : standard.tokenize (xs ++ o :: (body ++ ys.drop body.length)) = .ok [] := by
    decide
  rintro ⟨text, htext⟩
  rw [hfrench] at htext
  cases htext

end DialectTable

end Gherkin
