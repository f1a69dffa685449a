import Gherkin.Proofs.FeatureTokens
import Gherkin.Proofs.Legible

/-!
# Reading a dump

A dump is written node by node, and it is read in the same pieces.  `ReadsAs d m
text m' ts` says that `text` consists of whole lines that take a scan from the
mode `m` to `m'` and complete the tokens `ts`; pieces compose (`ReadsAs.append`).
Each kind of line that a dump writes is read as the kind it was made from, in
every mode that can precede it:

> `readsAs_dump`: the dump of legible features gives their tokens.

Text blocks need more than legible features: a line that looks like a comment
would be left out, and one that ends in three quotes would close the block.
-/

namespace Gherkin

namespace ScanMode

/-- The modes in which a row is a row. -/
def takesRows : ScanMode → Bool
  | plain | step => true
  | _ => false

theorem isBlock_of_takesRows {m : ScanMode} (h : m.takesRows = true) : m.isBlock = false := by
  cases m <;> first | rfl | cases h

@[simp] theorem pending_of_takesRows {m : ScanMode} (h : m.takesRows = true) : m.pending = [] := by
  cases m <;> first | rfl | cases h

@[simp] theorem pending_afterKeyword (r : Role) : (afterKeyword r).pending = [] := by
  cases r <;> rfl

end ScanMode

/-- The lines of all text blocks of a step. -/
def Step.blockLines (s : Step) : List Text :=
  (s.arguments.filterMap StepArgument.block?).flatMap Text.lines

/-- The lines of all text blocks of a feature. -/
def Feature.blockLines (f : Feature) : List Text :=
  f.containers.flatMap fun c => c.steps.flatMap Step.blockLines

namespace Dump

/-- The lines of a text as they are scanned, all with the number 0. -/
def scanned (ls : List Text) : List NumberedLine := ls.map fun l => ⟨0, Text.trim l⟩

/-- A line that a scan does not leave out. -/
structure IsScanned (l : Text) : Prop where
  line : Text.IsLine l
  effective : Line.isEffective (Text.trim l) = true

/-- That whole lines are read from one mode to another, completing the tokens. -/
def ReadsAs (d : Dialect) (m : ScanMode) (text : Text) (m' : ScanMode) (ts : List Token) : Prop :=
  ∃ ls : List Text, text = ls.flatMap (· ++ ['\n']) ∧ (∀ l ∈ ls, IsScanned l) ∧
    (m.run d (scanned ls)).1 = m' ∧
    foundTokens (m.run d (scanned ls)).2 ++ foundTokens m'.pending = foundTokens m.pending ++ ts

namespace ReadsAs

variable {d : Dialect} {m m' m'' : ScanMode} {x y : Text} {ts us : List Token}

theorem nil : ReadsAs d m [] m [] := ⟨[], rfl, by simp, rfl, by simp [scanned, ScanMode.run]⟩

theorem append (hx : ReadsAs d m x m' ts) (hy : ReadsAs d m' y m'' us) :
    ReadsAs d m (x ++ y) m'' (ts ++ us) := by
  obtain ⟨ls, rfl, hls, rfl, hts⟩ := hx
  obtain ⟨ks, rfl, hks, rfl, hus⟩ := hy
  refine ⟨ls ++ ks, by rw [List.flatMap_append], ?_, ?_, ?_⟩
  · intro l hl
    rcases List.mem_append.1 hl with hl | hl
    · exact hls l hl
    · exact hks l hl
  · rw [scanned, List.map_append, ScanMode.run_append]
    rfl
  · rw [scanned, List.map_append, ScanMode.run_append]
    simp only [foundTokens_append, List.append_assoc]
    rw [← List.append_assoc (foundTokens m.pending), ← hts, List.append_assoc]
    exact congrArg _ hus

/-- One line, given how the scan goes on. -/
theorem line {l : Text} {fs : List Finding} (hl : IsScanned l)
    (hadvance : ScanMode.advance d ⟨0, Text.trim l⟩ m = (m', fs))
    (hts : foundTokens fs ++ foundTokens m'.pending = foundTokens m.pending ++ ts) :
    ReadsAs d m (l ++ ['\n']) m' ts := by
  refine ⟨[l], by simp, by simpa using hl, ?_, ?_⟩
  · simp [scanned, ScanMode.run, hadvance]
  · simpa [scanned, ScanMode.run, hadvance] using hts

/-- A piece for each member of a list, in modes that satisfy `P`. -/
theorem flatMap {α : Type} {P : ScanMode → Prop} {g : α → Text} {h : α → List Token}
    {xs : List α} (hpiece : ∀ a ∈ xs, ∀ m, P m → ∃ m', P m' ∧ ReadsAs d m (g a) m' (h a))
    (hm : P m) : ∃ m', P m' ∧ ReadsAs d m (xs.flatMap g) m' (xs.flatMap h) := by
  induction xs generalizing m with
  | nil => exact ⟨m, hm, nil⟩
  | cons a xs ih =>
    obtain ⟨m', hm', ha⟩ := hpiece a (by simp) m hm
    obtain ⟨m'', hm'', hxs⟩ := ih (fun b hb => hpiece b (List.mem_cons_of_mem _ hb)) hm'
    exact ⟨m'', hm'', ha.append hxs⟩

end ReadsAs

/-! ## Lines -/

/-- A neat line behind white space, which is not a comment. -/
theorem isScanned_indented {s : Text} (hs : Text.IsNeat s) (heff : Line.isEffective s = true)
    (width : Nat) : IsScanned (List.replicate width ' ' ++ s) where
  line := by
    refine ⟨?_, ?_⟩
    · simp [hs.oneLine]
    · have hne := Line.ne_nil_of_isEffective heff
      rw [List.getLast?_append_of_ne_nil _ hne]
      exact hs.isLine.openEnd
  effective := by rwa [hs.trim_indented]

variable {d : Dialect} {m : ScanMode}

/-- A line whose keyword is read back. -/
theorem readsAs_keyworded {l : Text} {r : KeywordMatch} (hl : IsScanned l)
    (hs : Line.shape d (Text.trim l) = .keyworded r) (hm : m.isBlock = false) :
    ReadsAs d m (l ++ ['\n']) (ScanMode.afterKeyword r.role) [r.token 0] := by
  apply ReadsAs.line hl (ScanMode.advance_of_keyworded hs hm)
  simp

theorem isEffective_of_keyword (hd : d.IsDistinct) {r : Role} {w rest : Text}
    (hw : w ∈ d.words r) : Line.isEffective (w ++ rest) = true := by
  cases w with
  | nil => exact absurd rfl (hd.word_ne_nil hw)
  | cons c w =>
    have hc : c ≠ '#' := by
      intro hc
      have hmark := hd.isMark_of_cons hw
      rw [hc] at hmark
      cases hmark
    simpa [Line.isEffective] using hc

/-- A heading is read as the heading it was written for. -/
theorem readsAs_heading (hd : d.IsDistinct) {r : Role} (hr : r ∈ Role.structural) {h : Heading}
    (hh : h.IsLegible d r) (htags : h.tags = []) (hm : m.isBlock = false) (depth : Nat) :
    ReadsAs d m (heading depth h) (ScanMode.afterKeyword r) [h.token r.kind] := by
  have hneat := Line.isNeat_headingLine hd hh.keyword hh.name htags
  have heff : Line.isEffective (headingLine h) = true := by
    rw [headingLine, List.append_assoc, List.append_assoc]
    exact isEffective_of_keyword hd hh.keyword
  have hshape := Line.shape_headingLine hd hr hh.keyword hh.name htags
  rw [← hneat.trim_indented (2 * depth)] at hshape
  exact readsAs_keyworded (isScanned_indented hneat heff _) hshape hm

/-- The line of a step, in front of its arguments. -/
theorem readsAs_stepLine (hd : d.IsDistinct) {s : Step} (hs : s.IsLegible d)
    (hm : m.isBlock = false) :
    ReadsAs d m (indented 4 (s.keyword ++ [' '] ++ s.name)) .step
      [⟨.step s.family, s.keyword, s.name, 0⟩] := by
  have hword := hd.isNeat_word hs.keyword
  have hne := hd.word_ne_nil hs.keyword
  have htrim : Text.trim (List.replicate 4 ' ' ++ (s.keyword ++ [' '] ++ s.name)) =
      Line.stepLine s.keyword s.name := by
    rw [Text.trim_append_of_blank (Text.isBlank_of_mem_spaces 4), Line.trim_step hword hne hs.name]
  have hshape := Line.shape_stepLine hd (Role.mem_steps.2 rfl) hs.keyword hs.name
  rw [← htrim] at hshape
  have hscanned : IsScanned (List.replicate 4 ' ' ++ (s.keyword ++ [' '] ++ s.name)) := by
    refine ⟨⟨?_, ?_⟩, ?_⟩
    · simp [hword.oneLine, hs.name.oneLine]
    · cases hn : s.name with
      | nil =>
        rw [List.append_nil, ← List.append_assoc, List.getLast?_concat]
        decide
      | cons c name =>
        rw [← List.append_assoc, List.getLast?_append_of_ne_nil _ (by simp), ← hn]
        exact hs.name.isLine.openEnd
    · -- a step without text ends at its keyword
      rw [htrim, Line.stepLine]
      split
      · rw [← List.append_nil s.keyword]
        exact isEffective_of_keyword hd hs.keyword
      · rw [List.append_assoc]
        exact isEffective_of_keyword hd hs.keyword
  exact readsAs_keyworded hscanned hshape hm

/-- A row is read as a row, below a step and behind other rows. -/
theorem readsAs_row (hd : d.IsDistinct) {r : Row} (hr : r.IsNeat) (hm : m.takesRows = true) :
    ReadsAs d m (row r) .plain [Row.token r] := by
  have hneat := Line.isNeat_row hr
  have hshape : Line.shape d (Line.row r) = .free :=
    Line.shape_of_mark hd (by decide) (by decide) _
  have hadvance : ScanMode.advance d ⟨0, Line.row r⟩ m =
      (.plain, [.token (Row.token r)]) := by
    rw [ScanMode.advance_of_free hshape (ScanMode.isBlock_of_takesRows hm)]
    cases m with
    | plain => rfl
    | step => rfl
    | _ => cases hm
  apply ReadsAs.line (isScanned_indented hneat rfl _)
  · rw [hneat.trim_indented]
    exact hadvance
  · rw [ScanMode.pending_of_takesRows hm]
    rfl

/-! ## Text blocks -/

/-- A line that stays a line of its text block: no comment, and no closing quotes. -/
@[mk_iff]
structure IsBlockLine (l : Text) : Prop where
  noComment : l.head? ≠ some '#'
  noFence : ¬ fence <:+ l

instance (l : Text) : Decidable (IsBlockLine l) := decidable_of_iff _ (isBlockLine_iff l).symm

theorem isEffective_of_noComment {l : Text} (hne : l ≠ []) (h : l.head? ≠ some '#') :
    Line.isEffective l = true := by
  cases l with
  | nil => exact absurd rfl hne
  | cons c l => simpa [Line.isEffective] using h

/-- The lines of a text block in an open block. -/
theorem readsAs_blockLines {b : OpenBlock} (hb : b.delimiter = fence) {ls : List Text}
    (hneat : ∀ l ∈ ls, Text.IsNeat l) (hne : ∀ l ∈ ls, l ≠ [])
    (hblock : ∀ l ∈ ls, IsBlockLine l) :
    ReadsAs d (.block b) (ls.flatMap (indented contentWidth))
      (.block { b with body := b.body ++ ls }) [] := by
  induction ls generalizing b with
  | nil =>
    rw [List.append_nil]
    exact .nil
  | cons l ls ih =>
    have hl := hneat l (by simp)
    have hopen : Text.before? b.delimiter l = none := by
      rw [Option.eq_none_iff_forall_ne_some]
      intro r hr
      exact (hblock l (by simp)).noFence ⟨r, by rw [Text.before?_eq_some.1 hr, hb]⟩
    -- the line does not close the block, whatever it looks like
    have hadvance : ScanMode.advance d ⟨0, l⟩ (.block b) =
        (.block { b with body := b.body ++ [l] }, []) := by
      simp [ScanMode.advance, OpenBlock.addLine, hopen, ScanMode.inBlock]
    have hline : ReadsAs d (.block b) (indented contentWidth l)
        (.block { b with body := b.body ++ [l] }) [] := by
      apply ReadsAs.line (isScanned_indented hl
        (isEffective_of_noComment (hne l (by simp)) (hblock l (by simp)).noComment) _)
      · rw [hl.trim_indented]
        exact hadvance
      · rfl
    have hrest := @ih { b with body := b.body ++ [l] } hb
      (fun k hk => hneat k (List.mem_cons_of_mem _ hk))
      (fun k hk => hne k (List.mem_cons_of_mem _ hk))
      fun k hk => hblock k (List.mem_cons_of_mem _ hk)
    rw [List.append_assoc, List.singleton_append] at hrest
    exact hline.append hrest

theorem isNeat_fence : Text.IsNeat fence := by decide

/-- A text block is read as one, directly below its step. -/
theorem readsAs_block (hd : d.IsDistinct) {text : Text} (htext : text.IsStacked)
    (hblock : ∀ l ∈ Text.lines text, IsBlockLine l) :
    ReadsAs d .step (argument (.block text)) .plain [(StepArgument.block text).token] := by
  have hshape : Line.shape d fence = .free := Line.shape_of_mark hd (by decide) (by decide) _
  have hscanned := isScanned_indented isNeat_fence rfl contentWidth
  have hopening : ReadsAs d .step (indented contentWidth fence) (.block ⟨fence, 0, []⟩) [] := by
    apply ReadsAs.line hscanned
    · rw [isNeat_fence.trim_indented, ScanMode.advance_of_free hshape rfl]
      rfl
    · rfl
  have hbody := @readsAs_blockLines d ⟨fence, 0, []⟩ rfl _ htext.neat htext.ne_nil hblock
  have hclosing : ReadsAs d (.block ⟨fence, 0, Text.lines text⟩) (indented contentWidth fence)
      .plain [(StepArgument.block text).token] := by
    apply ReadsAs.line hscanned
    · rw [isNeat_fence.trim_indented]
      show ScanMode.inBlock (.finished ⟨.block, [], Text.ofLines (Text.lines text), 0⟩) = _
      rw [htext.whole]
      rfl
    · rfl
  exact (hopening.append hbody).append hclosing

/-! ## Nodes -/

/-- Rows below a step or below examples. -/
theorem readsAs_rows (hd : d.IsDistinct) {rows : List Row} (hrows : ∀ r ∈ rows, Row.IsNeat r)
    (hm : m.takesRows = true) :
    ∃ m', m'.takesRows = true ∧ ReadsAs d m (rows.flatMap row) m' (rows.map Row.token) := by
  have hpiece : ∀ r ∈ rows, ∀ m : ScanMode, m.takesRows = true →
      ∃ m', m'.takesRows = true ∧ ReadsAs d m (row r) m' [Row.token r] :=
    fun r hr m hm => ⟨.plain, rfl, readsAs_row hd (hrows r hr) hm⟩
  rw [List.map_eq_flatMap]
  exact ReadsAs.flatMap hpiece hm

/-- A step with its arguments. -/
theorem readsAs_step (hd : d.IsDistinct) {s : Step} (hs : s.IsLegible d)
    (hblocks : ∀ l ∈ s.blockLines, IsBlockLine l) (hm : m.isBlock = false) :
    ∃ m', m'.takesRows = true ∧ ReadsAs d m (step s) m' s.tokens := by
  obtain ⟨block, rows, has⟩ := hs.arguments
  have hline := readsAs_stepLine hd hs hm
  have hrows : (rows.map StepArgument.row).flatMap argument = rows.flatMap row := by
    rw [List.flatMap_map]
    rfl
  have htokens : (rows.map StepArgument.row).map StepArgument.token = rows.map Row.token := by
    rw [List.map_map]
    rfl
  rw [step, Step.tokens, has.order, List.flatMap_append, List.map_append, hrows, htokens]
  cases block with
  | none =>
    obtain ⟨m', hm', hreads⟩ := @readsAs_rows d .step hd rows has.rows rfl
    exact ⟨m', hm', hline.append hreads⟩
  | some text =>
    have hlines : ∀ l ∈ Text.lines text, IsBlockLine l := by
      intro l hl
      apply hblocks
      rw [Step.blockLines, has.order]
      simp [StepArgument.block?, hl]
    have hblock := readsAs_block hd (has.block text rfl) hlines
    obtain ⟨m', hm', hreads⟩ := @readsAs_rows d .plain hd rows has.rows rfl
    have h := hline.append (hblock.append hreads)
    refine ⟨m', hm', ?_⟩
    simpa using h

/-- A heading with steps below it. -/
theorem readsAs_container (hd : d.IsDistinct) {r : Role} (hr : r ∈ Role.structural)
    (hfree : ScanMode.afterKeyword r = .plain) {c : Container} (hc : c.IsLegible d r)
    (htags : c.tags = []) (hblocks : ∀ s ∈ c.steps, ∀ l ∈ s.blockLines, IsBlockLine l)
    (hm : m.isBlock = false) :
    ∃ m', m'.takesRows = true ∧ ReadsAs d m (container c) m' (c.tokens r.kind) := by
  have hheading := readsAs_heading hd hr hc.heading htags hm 1
  rw [hfree] at hheading
  have hpiece : ∀ s ∈ c.steps, ∀ m : ScanMode, m.takesRows = true →
      ∃ m', m'.takesRows = true ∧ ReadsAs d m (step s) m' s.tokens :=
    fun s hs m hm =>
      readsAs_step hd (hc.steps s hs) (hblocks s hs) (ScanMode.isBlock_of_takesRows hm)
  obtain ⟨m', hm', hsteps⟩ := @ReadsAs.flatMap d .plain _ _ _ _ _ hpiece rfl
  exact ⟨m', hm', hheading.append hsteps⟩

/-- Examples with their rows. -/
theorem readsAs_examples (hd : d.IsDistinct) {e : Examples} (he : e.IsLegible d)
    (htags : e.tags = []) (hm : m.isBlock = false) :
    ∃ m', m'.takesRows = true ∧ ReadsAs d m (examples e) m' e.tokens := by
  have hheading := readsAs_heading hd (by decide) he.heading htags hm 2
  obtain ⟨m', hm', hrows⟩ := @readsAs_rows d .plain hd e.rows he.rows rfl
  exact ⟨m', hm', hheading.append hrows⟩

/-- A scenario, or an outline with its examples. -/
theorem readsAs_item (hd : d.IsDistinct) {i : ScenarioItem} (hi : i.IsLegible d)
    (htags : i.container.tags = []) (hes : ∀ e ∈ i.examples?.getD [], e.tags = [])
    (hblocks : ∀ s ∈ i.container.steps, ∀ l ∈ s.blockLines, IsBlockLine l)
    (hm : m.isBlock = false) :
    ∃ m', m'.takesRows = true ∧ ReadsAs d m (item i) m' i.tokens := by
  have hkind : i.role.kind = i.kind := by cases i <;> rfl
  obtain ⟨m', hm', hcontainer⟩ := readsAs_container hd
    (Role.mem_structural.2 (by cases i <;> rfl)) (by cases i <;> rfl) hi.container htags hblocks hm
  have hpiece : ∀ e ∈ i.examples?.getD [], ∀ m : ScanMode, m.takesRows = true →
      ∃ m', m'.takesRows = true ∧ ReadsAs d m (examples e) m' e.tokens :=
    fun e he m hm => readsAs_examples hd (hi.examples e he) (hes e he)
      (ScanMode.isBlock_of_takesRows hm)
  obtain ⟨m'', hm'', hexamples⟩ := ReadsAs.flatMap hpiece hm'
  rw [hkind] at hcontainer
  exact ⟨m'', hm'', hcontainer.append hexamples⟩

/-! ## Features -/

/-- The lines of a description below the line of its feature. -/
theorem readsAs_descriptionLines {ls : List Text} (hls : ∀ l ∈ ls, Line.IsFree d l)
    (kept : List NumberedLine) :
    ∃ raw : List Text, ls.flatMap (indented 2) = raw.flatMap (· ++ ['\n']) ∧
      (∀ l ∈ raw, IsScanned l) ∧
      (ScanMode.feature kept).run d (scanned raw) =
        (.feature (kept ++ ls.map fun l => ⟨0, l⟩), []) := by
  induction ls generalizing kept with
  | nil => exact ⟨[], rfl, by simp, by simp [scanned, ScanMode.run]⟩
  | cons l ls ih =>
    have hl := hls l (by simp)
    obtain ⟨raw, hraw, hscanned, hrun⟩ := ih (fun k hk => hls k (List.mem_cons_of_mem _ hk))
      (kept ++ [⟨0, l⟩])
    refine ⟨(List.replicate 2 ' ' ++ l) :: raw, ?_, ?_, ?_⟩
    · rw [List.flatMap_cons, List.flatMap_cons, hraw]
      rfl
    · intro k hk
      rcases List.mem_cons.1 hk with rfl | hk
      · exact isScanned_indented hl.neat hl.effective 2
      · exact hscanned k hk
    · have hadvance : ScanMode.advance d ⟨0, l⟩ (.feature kept) =
          (.feature (kept ++ [⟨0, l⟩]), []) := ScanMode.advance_of_free hl.free rfl
      rw [scanned, List.map_cons, hl.neat.trim_indented, ScanMode.run, hadvance]
      simp only [List.nil_append]
      rw [← scanned, hrun, List.append_assoc]
      rfl

theorem pending_description {ls : List Text} (hne : ls ≠ []) :
    foundTokens (ScanMode.feature (ls.map fun l => ⟨0, l⟩)).pending =
      [⟨.description, [], Text.ofLines ls, 0⟩] := by
  cases ls with
  | nil => exact absurd rfl hne
  | cons l ls =>
    have htexts : (ls.map fun l => (⟨0, l⟩ : NumberedLine)).map (fun n => n.text) = ls := by
      rw [List.map_map]
      exact List.map_id ls
    simp only [List.map_cons, ScanMode.pending, foundTokens_token, foundTokens_nil, htexts]

/-- A description, whatever its lines look like. -/
theorem readsAs_description {text : Text} (htext : text.IsDescription d) :
    ∃ m', m'.isBlock = false ∧
      ReadsAs d (.feature []) (description (some text)) m' [⟨.description, [], text, 0⟩] := by
  obtain ⟨raw, hraw, hscanned, hrun⟩ := readsAs_descriptionLines htext.free []
  refine ⟨.feature ((Text.lines text).map fun l => ⟨0, l⟩), rfl, raw, hraw, hscanned, ?_, ?_⟩
  · rw [hrun]
    rfl
  · rw [hrun]
    simp only [List.nil_append, foundTokens_nil]
    rw [pending_description htext.ne_nil, htext.stacked.whole]
    rfl

/-- One feature. -/
theorem readsAs_feature (hd : d.IsDistinct) {f : Feature} (hf : f.IsLegible d)
    (huntagged : f.IsUntagged) (hblocks : ∀ l ∈ f.blockLines, IsBlockLine l)
    (hm : m.isBlock = false) :
    ∃ m', m'.isBlock = false ∧ ReadsAs d m (feature f) m' f.tokens := by
  have hsteps : ∀ c ∈ f.containers, ∀ s ∈ c.steps, ∀ l ∈ s.blockLines, IsBlockLine l := by
    intro c hc s hs l hl
    exact hblocks l (List.mem_flatMap.2 ⟨c, hc, List.mem_flatMap.2 ⟨s, hs, hl⟩⟩)
  have hheading := readsAs_heading hd (by decide) hf.heading huntagged.own hm 0
  obtain ⟨m₁, hm₁, hdescription⟩ : ∃ m', m'.isBlock = false ∧
      ReadsAs d (.feature []) (description f.description) m'
        (f.description.toList.map fun text => ⟨.description, [], text, 0⟩) := by
    cases hdesc : f.description with
    | none => exact ⟨.feature [], rfl, .nil⟩
    | some text => exact readsAs_description (hf.description text hdesc)
  obtain ⟨m₂, hm₂, hbackground⟩ : ∃ m', m'.isBlock = false ∧
      ReadsAs d m₁ (background f.background) m'
        (f.background.toList.flatMap fun c => c.tokens .background) := by
    cases hb : f.background with
    | none => exact ⟨m₁, hm₁, .nil⟩
    | some c =>
      obtain ⟨m', hm', hc⟩ := readsAs_container hd (by decide) rfl (hf.background c hb)
        (huntagged.background hb) (hsteps c (by simp [Feature.containers, hb])) hm₁
      refine ⟨m', ScanMode.isBlock_of_takesRows hm', ?_⟩
      rw [Option.toList_some, List.flatMap_singleton]
      exact hc
  have hpiece : ∀ i ∈ f.scenarios, ∀ m : ScanMode, m.isBlock = false →
      ∃ m', m'.isBlock = false ∧ ReadsAs d m (item i) m' i.tokens := by
    intro i hi m hm
    have hmem : i.container ∈ f.containers :=
      List.mem_append_right _ (List.mem_map.2 ⟨i, hi, rfl⟩)
    obtain ⟨m', hm', hreads⟩ := readsAs_item hd (hf.scenarios i hi) (huntagged.item hi)
      (fun e he => huntagged.examples hi he) (hsteps _ hmem) hm
    exact ⟨m', ScanMode.isBlock_of_takesRows hm', hreads⟩
  obtain ⟨m₃, hm₃, hitems⟩ := ReadsAs.flatMap hpiece hm₂
  refine ⟨m₃, hm₃, ?_⟩
  rw [feature, List.append_assoc (heading 0 _), List.append_assoc (heading 0 _)]
  exact hheading.append ((hdescription.append hbackground).append hitems)

/-- **A dump is read as the tokens of its features.** -/
theorem readsAs_dump (hd : d.IsDistinct) {fs : List Feature} (hfs : ∀ f ∈ fs, f.IsLegible d)
    (huntagged : ∀ f ∈ fs, f.IsUntagged)
    (hblocks : ∀ f ∈ fs, ∀ l ∈ f.blockLines, IsBlockLine l) :
    ∃ m, m.isBlock = false ∧ ReadsAs d .plain (dump fs) m (fs.flatMap Feature.tokens) := by
  have hpiece : ∀ f ∈ fs, ∀ m : ScanMode, m.isBlock = false →
      ∃ m', m'.isBlock = false ∧ ReadsAs d m (feature f) m' f.tokens :=
    fun f hf m hm => readsAs_feature hd (hfs f hf) (huntagged f hf) (hblocks f hf) hm
  exact ReadsAs.flatMap hpiece rfl

end Dump

end Gherkin
