import Gherkin.Proofs.Neat
import Gherkin.Line.Shape
import Gherkin.Dialect.Standard
import Gherkin.Feature.Dump

/-!
# Keywords and what is written behind them

A line starts with a keyword, and which one is decided among all synonyms of the
dialect.  What a line says is therefore read back only from a dialect whose
keywords can be told apart in front of any text.  `Dialect.IsDistinct` asks for
what that takes, and three of the standard dialects have it.

> `shape_headingLine`, `shape_stepLine`: the lines that a dump writes for a
> heading and for a step have the keyword and the text they were made from.
-/

namespace Gherkin

namespace Role

theorem mem_all (r : Role) : r ∈ all := by
  cases r with
  | step family => cases family <;> decide
  | _ => decide

theorem mem_structural {r : Role} : r ∈ structural ↔ r.isStep = false := by
  cases r with
  | step family => cases family <;> decide
  | _ => decide

theorem mem_steps {r : Role} : r ∈ steps ↔ r.isStep = true := by
  cases r with
  | step family => cases family <;> decide
  | _ => decide

end Role

/-! ## The keyword of a line -/

namespace Line

/-- The longest match is one of the matches. -/
theorem mem_of_longest? :
    ∀ {ms : List KeywordMatch} {m : KeywordMatch}, longest? ms = some m → m ∈ ms
  | n :: ms, m, h => by
    rw [longest?] at h
    split at h
    next => simp [Option.some.inj h]
    next k hk =>
      split at h
      · simp [Option.some.inj h]
      · rw [← Option.some.inj h]
        exact List.mem_cons_of_mem _ (mem_of_longest? hk)

theorem longest?_eq_none : ∀ {ms : List KeywordMatch}, longest? ms = none ↔ ms = []
  | [] => by simp [longest?]
  | n :: ms => by
    rw [longest?]
    split
    · simp
    · split <;> simp

theorem length_le_of_longest? :
    ∀ {ms : List KeywordMatch} {m n : KeywordMatch}, longest? ms = some m → n ∈ ms →
      n.keyword.length ≤ m.keyword.length
  | k :: ms, m, n, h, hn => by
    rw [longest?] at h
    split at h
    next hnone =>
      rw [longest?_eq_none.1 hnone, List.mem_singleton] at hn
      rw [hn, Option.some.inj h]
    next l hl =>
      have htail : ∀ n ∈ ms, n.keyword.length ≤ l.keyword.length :=
        fun n hn => length_le_of_longest? hl hn
      split at h
      next hle =>
        obtain rfl := Option.some.inj h
        rcases List.mem_cons.1 hn with rfl | hn
        · exact Nat.le_refl _
        · exact Nat.le_trans (htail n hn) hle
      next hlt =>
        obtain rfl := Option.some.inj h
        rcases List.mem_cons.1 hn with rfl | hn
        · exact Nat.le_of_not_le hlt
        · exact htail n hn

variable {d : Dialect} {roles : List Role} {line : Text}

theorem mem_candidates {m : KeywordMatch} :
    m ∈ candidates d roles line ↔
      m.role ∈ roles ∧ m.keyword ∈ d.words m.role ∧
        payloadAfter? m.role m.keyword line = some m.payload := by
  simp only [candidates, synonyms, List.mem_filterMap, List.mem_flatMap, List.mem_map]
  constructor
  · rintro ⟨_, ⟨r, hr, w, hw, rfl⟩, hpayload⟩
    obtain ⟨p, hp, rfl⟩ := Option.map_eq_some_iff.1 hpayload
    exact ⟨hr, hw, hp⟩
  · rintro ⟨hr, hw, hp⟩
    exact ⟨(m.role, m.keyword), ⟨m.role, hr, m.keyword, hw, rfl⟩, by rw [hp]; rfl⟩

/-- A keyword that is longer than all others that apply. -/
theorem match?_eq_some {m : KeywordMatch} (hm : m ∈ candidates d roles line)
    (hlongest : ∀ n ∈ candidates d roles line, m.keyword.length ≤ n.keyword.length → n = m) :
    match? d roles line = some m := by
  cases h : match? d roles line with
  | none =>
    rw [longest?_eq_none.1 h] at hm
    cases hm
  | some n => rw [hlongest n (mem_of_longest? h) (length_le_of_longest? h hm)]

/-- A keyword that applies starts the line. -/
theorem prefix_of_payloadAfter? {r : Role} {w p : Text} (h : payloadAfter? r w line = some p) :
    w <+: line := by
  unfold payloadAfter? at h
  split at h
  · cases h
  next rest hrest => exact ⟨rest, (Text.after?_eq_some.1 hrest).symm⟩

theorem match?_eq_none (h : ∀ r ∈ roles, ∀ w ∈ d.words r, ¬ w <+: line) :
    match? d roles line = none := by
  rw [match?, longest?_eq_none]
  apply List.eq_nil_iff_forall_not_mem.2
  intro m hm
  obtain ⟨hr, hw, hp⟩ := mem_candidates.1 hm
  exact h m.role hr m.keyword hw (prefix_of_payloadAfter? hp)

theorem trim_payload (r : Role) (rest : Text) : Text.trim (payload r rest) = payload r rest := by
  unfold payload
  split
  · exact Text.trim_trim _
  · split <;> exact Text.trim_trim _

/-- What is read off a line is a keyword of the dialect and a neat text. -/
theorem of_match? {m : KeywordMatch} (h : match? d roles line = some m) :
    m.keyword ∈ d.words m.role ∧ Text.IsNeat m.payload := by
  obtain ⟨-, hw, hp⟩ := mem_candidates.1 (mem_of_longest? h)
  refine ⟨hw, ?_⟩
  unfold payloadAfter? at hp
  split at hp
  · cases hp
  next rest _ =>
    split at hp
    · cases hp
    · split at hp
      · cases hp
      next hline =>
        rw [← Option.some.inj hp]
        exact Text.isNeat_iff.2 ⟨trim_payload m.role rest, by simpa using hline⟩

theorem of_shape_keyworded {m : KeywordMatch} (h : shape d line = .keyworded m) :
    m.keyword ∈ d.words m.role ∧ Text.IsNeat m.payload := by
  unfold shape at h
  split at h
  next hm =>
    cases h
    exact of_match? hm
  next =>
    split at h
    · cases h
    · split at h
      next hm =>
        cases h
        exact of_match? hm
      next => cases h

end Line

/-! ## Distinct keywords -/

/-- The characters that mark comments, tags, rows and text blocks. -/
def Line.isMark (c : Char) : Bool := ['#', '@', '|', '"', '\''].contains c

/-- That the keywords of a dialect are told apart whatever stands behind them. -/
@[mk_iff]
structure Dialect.IsDistinct (d : Dialect) : Prop where
  ne_nil : ∀ r ∈ Role.all, ∀ w ∈ d.words r, w ≠ []
  neat : ∀ r ∈ Role.all, ∀ w ∈ d.words r, Text.IsNeat w
  unmarked : ∀ r ∈ Role.all, ∀ w ∈ d.words r, w.head?.any Line.isMark = false
  noColon : ∀ r ∈ Role.structural, ∀ w ∈ d.words r, ':' ∉ w
  role : ∀ r ∈ Role.all, ∀ w ∈ d.words r, ∀ s ∈ Role.all, ∀ v ∈ d.words s, w = v → r = s
  apart : ∀ r ∈ Role.structural, ∀ w ∈ d.words r, ∀ s ∈ Role.steps, ∀ k ∈ d.words s,
    ¬ w <+: k ++ [' '] ∧ ¬ k ++ [' '] <+: w
  steps : ∀ r ∈ Role.steps, ∀ w ∈ d.words r, ∀ s ∈ Role.steps, ∀ k ∈ d.words s,
    ¬ k ++ [' '] <+: w

instance (d : Dialect) : Decidable d.IsDistinct := decidable_of_iff _ (d.isDistinct_iff).symm

namespace Dialect

namespace IsDistinct

variable {d : Dialect} {r : Role}

theorem isNeat_word (hd : d.IsDistinct) {w : Text} (hw : w ∈ d.words r) : Text.IsNeat w :=
  hd.neat r (Role.mem_all r) w hw

theorem word_ne_nil (hd : d.IsDistinct) {w : Text} (hw : w ∈ d.words r) : w ≠ [] :=
  hd.ne_nil r (Role.mem_all r) w hw

theorem isMark_of_cons (hd : d.IsDistinct) {c : Char} {rest : Text}
    (hw : c :: rest ∈ d.words r) : Line.isMark c = false := by
  simpa using hd.unmarked r (Role.mem_all r) _ hw

theorem role_eq (hd : d.IsDistinct) {s : Role} {w : Text} (hr : w ∈ d.words r)
    (hs : w ∈ d.words s) : r = s :=
  hd.role r (Role.mem_all r) w hr s (Role.mem_all s) w hs rfl

end IsDistinct

theorem english_isDistinct : english.IsDistinct := by decide

theorem german_isDistinct : german.IsDistinct := by decide

theorem spanish_isDistinct : spanish.IsDistinct := by decide

example : ¬ french.IsDistinct := by decide

end Dialect

namespace Line

/-- A prefix of a text that goes on behind `k` ends in `k` or reaches beyond it. -/
theorem prefix_append_cons {w k rest : Text} {c : Char} (h : w <+: k ++ c :: rest) :
    w <+: k ∨ k ++ [c] <+: w := by
  rw [List.append_cons] at h
  rcases List.prefix_or_prefix_of_prefix h (List.prefix_append (k ++ [c]) rest) with hw | hw
  · rcases List.prefix_concat_iff.1 hw with rfl | hw
    · exact Or.inr List.prefix_rfl
    · exact Or.inl hw
  · exact Or.inr hw

theorem eq_of_prefix_of_length_le {w k : Text} (h : w <+: k) (hle : k.length ≤ w.length) : w = k :=
  h.eq_of_length (Nat.le_antisymm h.length_le hle)

variable {d : Dialect}

/-- The only longest match on a line that starts with a keyword of the dialect. -/
theorem match?_of_prefix (hd : d.IsDistinct) {roles : List Role} {line : Text} {m : KeywordMatch}
    (hrole : m.role ∈ roles) (hw : m.keyword ∈ d.words m.role)
    (hpayload : payloadAfter? m.role m.keyword line = some m.payload)
    (hstarts : ∀ r ∈ roles, ∀ w ∈ d.words r, w <+: line → w <+: m.keyword) :
    match? d roles line = some m := by
  apply match?_eq_some (mem_candidates.2 ⟨hrole, hw, hpayload⟩)
  intro n hn hle
  obtain ⟨hr, hv, hp⟩ := mem_candidates.1 hn
  -- a keyword as long as the right one is the right one, and its role follows
  have hword : n.keyword = m.keyword :=
    eq_of_prefix_of_length_le (hstarts n.role hr n.keyword hv (prefix_of_payloadAfter? hp)) hle
  have hsame : n.role = m.role := hd.role_eq (hword ▸ hv) hw
  rw [hword, hsame, hpayload, Option.some.injEq] at hp
  cases n
  cases m
  simp_all

/-- A line that starts with a mark has no keyword. -/
theorem match?_of_mark (hd : d.IsDistinct) {c : Char} (hc : isMark c = true) (roles : List Role)
    (rest : Text) : match? d roles (c :: rest) = none := by
  apply match?_eq_none
  rintro r - w hw ⟨v, hv⟩
  cases w with
  | nil => exact hd.word_ne_nil hw rfl
  | cons x w =>
    rw [List.cons_append, List.cons.injEq] at hv
    have hmark := hd.isMark_of_cons hw
    rw [hv.1, hc] at hmark
    cases hmark

theorem shape_of_mark (hd : d.IsDistinct) {c : Char} (hc : isMark c = true) (htag : c ≠ '@')
    (rest : Text) : shape d (c :: rest) = .free := by
  have htags : tags (c :: rest) = [] := by
    unfold tags
    split
    next h => exact absurd (List.cons.inj h).1 htag
    next => rfl
  rw [shape, match?_of_mark hd hc, htags, match?_of_mark hd hc]

theorem trim_cons_blank {s : Text} (h : Text.IsNeat s) : Text.trim (' ' :: s) = s :=
  h.trim_indented 1

/-! ## Written headings -/

theorem payloadAfter?_colon {r : Role} (hr : r ∈ Role.structural) (k : Text) {rest name : Text}
    (htrim : Text.trim rest = name) (hline : '\n' ∉ name) :
    payloadAfter? r k (k ++ ':' :: rest) = some name := by
  have hstep := Role.mem_structural.1 hr
  have hpayload : payload r (':' :: rest) = name := by
    have hstart : Text.trimStart (':' :: rest) = ':' :: rest :=
      List.dropWhile_cons_of_neg (by decide)
    rw [payload, hstep, if_neg (by simp), hstart]
    exact htrim
  rw [payloadAfter?, Text.after?_append]
  dsimp only
  rw [if_neg (by simp [isSeparated, hstep]), hpayload, if_neg (by simpa using hline)]

/-- A heading without tags is read back as it was written. -/
theorem shape_headingLine (hd : d.IsDistinct) {r : Role} (hr : r ∈ Role.structural) {h : Heading}
    (hw : h.keyword ∈ d.words r) (hname : Text.IsNeat h.name) (htags : h.tags = []) :
    shape d (Dump.headingLine h) = .keyworded ⟨r, h.keyword, h.name⟩ := by
  obtain ⟨rest, hline, htrim⟩ : ∃ rest, Dump.headingLine h = h.keyword ++ ':' :: rest ∧
      Text.trim rest = h.name := by
    cases hn : h.name with
    | nil => exact ⟨[], by simp [Dump.headingLine, hn, htags], rfl⟩
    | cons c name =>
      refine ⟨' ' :: c :: name, by simp [Dump.headingLine, hn, htags], ?_⟩
      rw [← hn]
      exact trim_cons_blank hname
  have hmatch : match? d Role.structural (Dump.headingLine h) =
      some ⟨r, h.keyword, h.name⟩ := by
    apply match?_of_prefix hd hr hw
    · rw [hline]
      exact payloadAfter?_colon hr h.keyword htrim hname.oneLine
    · intro s hs w hw hstarts
      rw [hline] at hstarts
      rcases prefix_append_cons hstarts with hstarts | hstarts
      · exact hstarts
      · -- a longer keyword would hold the colon
        exact absurd (hstarts.subset (by simp)) (hd.noColon s hs w hw)
  rw [shape, hmatch]

/-- A heading without tags starts at its keyword and ends at its name. -/
theorem isNeat_headingLine (hd : d.IsDistinct) {r : Role} {h : Heading}
    (hw : h.keyword ∈ d.words r) (hname : Text.IsNeat h.name) (htags : h.tags = []) :
    Text.IsNeat (Dump.headingLine h) := by
  have hword := hd.isNeat_word hw
  have hne := hd.word_ne_nil hw
  cases hn : h.name with
  | nil =>
    have hline : Dump.headingLine h = h.keyword ++ [] ++ [':'] := by
      simp [Dump.headingLine, hn, htags]
    rw [hline]
    exact hword.append (by simp) (by decide) hne (by simp)
  | cons c name =>
    have hline : Dump.headingLine h = h.keyword ++ [':', ' '] ++ h.name := by
      simp [Dump.headingLine, hn, htags]
    rw [hline]
    exact hword.append (by decide) hname hne (by simp [hn])

/-! ## Written steps -/

/-- The line of a step, without white space around it. -/
def stepLine (keyword name : Text) : Text :=
  if name.isEmpty then keyword else keyword ++ [' '] ++ name

theorem payloadAfter?_stepLine {r : Role} (hr : r ∈ Role.steps) (k : Text) {name : Text}
    (hname : Text.IsNeat name) : payloadAfter? r k (stepLine k name) = some name := by
  have hstep := Role.mem_steps.1 hr
  have hblank : Text.isBlank ' ' = true := by decide
  obtain ⟨rest, hline, hsep, htrim⟩ : ∃ rest, stepLine k name = k ++ rest ∧
      isSeparated r rest = true ∧ Text.trim rest = name := by
    cases name with
    | nil => exact ⟨[], by simp [stepLine], rfl, rfl⟩
    | cons c name =>
      exact ⟨' ' :: c :: name, by simp [stepLine], by simp [isSeparated, hblank],
        trim_cons_blank hname⟩
  have hpayload : payload r rest = name := by rw [payload, if_pos hstep, htrim]
  rw [payloadAfter?, hline, Text.after?_append]
  dsimp only
  rw [if_neg (by simp [hsep]), hpayload, if_neg (by simpa using hname.oneLine)]

/-- What starts the line of a step ends in its keyword or reaches beyond it. -/
theorem prefix_stepLine {w k name : Text} (h : w <+: stepLine k name) :
    w <+: k ∨ k ++ [' '] <+: w := by
  unfold stepLine at h
  split at h
  · exact Or.inl h
  · rw [List.append_assoc] at h
    exact prefix_append_cons h

/-- A step is read back as it was written. -/
theorem shape_stepLine (hd : d.IsDistinct) {r : Role} (hr : r ∈ Role.steps) {k name : Text}
    (hw : k ∈ d.words r) (hname : Text.IsNeat name) :
    shape d (stepLine k name) = .keyworded ⟨r, k, name⟩ := by
  have hstructural : match? d Role.structural (stepLine k name) = none := by
    apply match?_eq_none
    intro s hs w hv hstarts
    obtain ⟨hshort, hlong⟩ := hd.apart s hs w hv r hr k hw
    rcases prefix_stepLine hstarts with hstarts | hstarts
    · exact hshort (hstarts.trans (List.prefix_append k [' ']))
    · exact hlong hstarts
  -- no keyword starts with an at sign, so the line is no line of tags
  have htags : tags (stepLine k name) = [] := by
    cases hk : k with
    | nil => exact absurd hk (hd.word_ne_nil hw)
    | cons c rest =>
      have hc : c ≠ '@' := by
        intro hc
        have hmark := hd.isMark_of_cons (hk ▸ hw)
        rw [hc] at hmark
        cases hmark
      unfold tags
      split
      next h =>
        unfold stepLine at h
        split at h <;> simp at h <;> exact absurd h.1 hc
      next => rfl
  have hsteps : match? d Role.steps (stepLine k name) = some ⟨r, k, name⟩ := by
    apply match?_of_prefix hd hr hw (payloadAfter?_stepLine hr k hname)
    intro s hs w hv hstarts
    rcases prefix_stepLine hstarts with hstarts | hstarts
    · exact hstarts
    · exact absurd hstarts (hd.steps s hs w hv r hr k hw)
  rw [shape, hstructural, htags, hsteps]

theorem isNeat_stepLine {k name : Text} (hk : Text.IsNeat k) (hne : k ≠ [])
    (hname : Text.IsNeat name) : Text.IsNeat (stepLine k name) := by
  cases name with
  | nil => simpa [stepLine] using hk
  | cons c name => exact hk.append (by decide) hname hne (by simp)

/-- The space behind the keyword of a step without text does not count. -/
theorem trim_step {k name : Text} (hk : Text.IsNeat k) (hne : k ≠ []) (hname : Text.IsNeat name) :
    Text.trim (k ++ [' '] ++ name) = stepLine k name := by
  cases name with
  | nil =>
    have hblank : ∀ c ∈ [' '], Text.isBlank c = true := Text.isBlank_of_mem_spaces 1
    rw [List.append_nil, Text.trim_append_blank hblank, hk.trim_eq]
    rfl
  | cons c name => exact (isNeat_stepLine hk hne hname).trim_eq

end Line

end Gherkin
