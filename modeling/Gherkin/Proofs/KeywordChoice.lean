import Mathlib.Data.List.Find
import Gherkin.Proofs.KeywordPattern

/-!
# The longest keyword that applies

Patterns are tried one after the other, and the first that matches decides.  What is
chosen that way is said here without patterns and without an order in which they are
tried: `Applies` is what a keyword asks of a line, and `IsMeant` that no longer
keyword applies.

> `match?_eq_firstCapture?`: on a trimmed line the patterns find what `match?` finds.
>
> `firstCapture?_longest`: they find a keyword if and only if one applies, and then
> the longest one, with the first role that has it; in which order a dialect lists
> its synonyms, and how often, is not seen.

The synonyms are sorted stably.  The induction is on the list that is sorted: a new
synonym goes in front of those that are not longer (`exists_mergeSort_cons`), so it
decides unless one that is longer does.
-/

namespace Gherkin.Line

/-! ## Trying the longest first -/

section

variable {α : Type} (size : α → Nat)

/-- A new first member of a list that is sorted stably, from the longest to the
shortest, goes in front of all that is not longer. -/
theorem exists_mergeSort_cons (x : α) (xs : List α) : ∃ front back,
    ((x :: xs).mergeSort fun y z => decide (size z ≤ size y)) = front ++ x :: back ∧
      (xs.mergeSort fun y z => decide (size z ≤ size y)) = front ++ back ∧
      (∀ y ∈ front, size x < size y) ∧ ∀ y ∈ back, size y ≤ size x := by
  have htrans : ∀ a b c : α, decide (size b ≤ size a) = true → decide (size c ≤ size b) = true →
      decide (size c ≤ size a) = true := by
    simp only [decide_eq_true_iff]
    intro a b c hab hbc
    exact Nat.le_trans hbc hab
  have htotal : ∀ a b : α, (decide (size b ≤ size a) || decide (size a ≤ size b)) = true := by
    intro a b
    simpa using Nat.le_total (size b) (size a)
  obtain ⟨front, back, hsort, hrest, hfront⟩ := List.mergeSort_cons htrans htotal x xs
  refine ⟨front, back, hsort, hrest, fun y hy => by simpa using hfront y hy, ?_⟩
  have hsorted := List.pairwise_mergeSort htrans htotal (x :: xs)
  rw [hsort, List.pairwise_append, List.pairwise_cons] at hsorted
  intro y hy
  simpa using hsorted.2.1.1 y hy

/-- The first of such a list that matches has the longest keyword. -/
theorem findSome?_mergeSort {f : α → Option KeywordMatch}
    (hsize : ∀ x m, f x = some m → m.keyword.length = size x) : ∀ xs : List α,
      (xs.mergeSort fun x y => decide (size y ≤ size x)).findSome? f = longest? (xs.filterMap f)
  | [] => by simp [longest?]
  | x :: xs => by
    obtain ⟨front, back, hsort, hrest, hfront, hback⟩ := exists_mergeSort_cons size x xs
    have ih := findSome?_mergeSort hsize xs
    rw [hrest, List.findSome?_append] at ih
    rw [hsort, List.findSome?_append, List.findSome?_cons, List.filterMap_cons]
    cases hx : f x with
    | none => exact ih
    | some m =>
      rw [longest?, ← ih]
      cases hf : front.findSome? f with
      | some n =>
        obtain ⟨y, hy, hn⟩ := List.exists_of_findSome?_eq_some hf
        have hlonger : m.keyword.length < n.keyword.length := by
          rw [hsize x m hx, hsize y n hn]
          exact hfront y hy
        simp [hlonger]
      | none =>
        cases hb : back.findSome? f with
        | none => rfl
        | some n =>
          obtain ⟨y, hy, hn⟩ := List.exists_of_findSome?_eq_some hb
          have hle : n.keyword.length ≤ m.keyword.length := by
            rw [hsize x m hx, hsize y n hn]
            exact hback y hy
          simp [hle]

end

variable {d : Dialect} {roles : List Role} {line : Text}

/-- The first pattern of the chain that matches is that of the longest keyword. -/
theorem match?_eq_firstCapture? (d : Dialect) (roles : List Role)
    (hline : Text.trim line = line) : match? d roles line = firstCapture? d roles line := by
  have hsize : ∀ (e : Role × Text) m,
      ((payloadAfter? e.1 e.2 line).map fun payload => KeywordMatch.mk e.1 e.2 payload) = some m →
        m.keyword.length = e.2.length := by
    intro e m hm
    obtain ⟨payload, -, rfl⟩ := Option.map_eq_some_iff.1 hm
    rfl
  have hfirst := findSome?_mergeSort (fun e => e.2.length) hsize (synonyms d roles)
  simp only [firstCapture?, chain, capture?_eq_payloadAfter? hline]
  exact hfirst.symm

/-! ## Keywords that apply -/

/-- That `rest` may follow a keyword, and says the given text. -/
structure Follows (role : Role) (keyword rest text : Text) : Prop where
  apart : ∀ c, keyword.getLast? = some c → Text.isAlphanumeric c = true → c.toNat < 0x2E80 →
    ∀ b, rest.head? = some b → Text.isBlank b = true ∨ (role.isStep = false ∧ b = ':')
  behindColon : ∀ s, role.isStep = false → Text.trimStart rest = ':' :: s → text = Text.trim s
  otherwise : (role.isStep = true ∨ (Text.trimStart rest).head? ≠ some ':') →
    text = Text.trim rest
  oneLine : '\n' ∉ text

/-- That a keyword applies to a line, which says the given text behind it. -/
def Applies (role : Role) (keyword line text : Text) : Prop :=
  ∃ rest, line = keyword ++ rest ∧ Follows role keyword rest text

theorem wantsSeparator_iff {keyword : Text} :
    wantsSeparator keyword = true ↔
      ∃ c, keyword.getLast? = some c ∧ Text.isAlphanumeric c = true ∧ c.toNat < 0x2E80 := by
  unfold wantsSeparator firstUnseparated
  split
  next c hc =>
    rw [hc, Bool.and_eq_true, decide_eq_true_iff]
    constructor
    · intro h
      exact ⟨c, rfl, h⟩
    · rintro ⟨b, hb, h⟩
      rwa [Option.some.inj hb]
  next hnone =>
    rw [hnone]
    constructor
    · intro h
      cases h
    · rintro ⟨c, hc, -⟩
      cases hc

theorem follows_iff {role : Role} {keyword rest text : Text} :
    Follows role keyword rest text ↔
      (wantsSeparator keyword = true → isSeparated role rest = true) ∧
        payload role rest = text ∧ '\n' ∉ text := by
  rw [wantsSeparator_iff, isSeparated_iff]
  constructor
  · intro h
    refine ⟨fun ⟨c, hc, hletter, hscript⟩ => h.apart c hc hletter hscript, ?_, h.oneLine⟩
    by_cases hcolon : ∃ s, Text.trimStart rest = ':' :: s
    · obtain ⟨s, hs⟩ := hcolon
      cases hstep : role.isStep with
      | true => rw [payload_step hstep, h.otherwise (Or.inl hstep)]
      | false => rw [payload_colon hstep hs, h.behindColon s hstep hs]
    · have hhead : (Text.trimStart rest).head? ≠ some ':' :=
        fun hhead => hcolon (List.head?_eq_some_iff.1 hhead)
      rw [payload_of_ne_colon (not_exists.1 hcolon), h.otherwise (Or.inr hhead)]
  · rintro ⟨hapart, rfl, hline⟩
    refine ⟨fun c hc hletter hscript => hapart ⟨c, hc, hletter, hscript⟩, ?_, ?_, hline⟩
    · intro s hstep hs
      exact payload_colon hstep hs
    · rintro (hstep | hhead)
      · exact payload_step hstep
      · exact payload_of_ne_colon fun s hs => hhead (by rw [hs]; rfl)

theorem payloadAfter?_eq_some {role : Role} {keyword text : Text} :
    payloadAfter? role keyword line = some text ↔ Applies role keyword line text := by
  have hseparated : ∀ rest, (wantsSeparator keyword && !isSeparated role rest) = true ↔
      ¬ (wantsSeparator keyword = true → isSeparated role rest = true) := by simp
  unfold payloadAfter?
  constructor
  · intro h
    split at h
    · cases h
    next rest hrest =>
      refine ⟨rest, Text.after?_eq_some.1 hrest, follows_iff.2 ?_⟩
      split at h
      · cases h
      next hsep =>
        split at h
        · cases h
        next hline =>
          have htext := Option.some.inj h
          refine ⟨not_not.1 (fun hnot => hsep ((hseparated rest).2 hnot)), htext, ?_⟩
          simpa [htext] using hline
  · rintro ⟨rest, rfl, hf⟩
    obtain ⟨hsep, hpayload, hline⟩ := follows_iff.1 hf
    rw [Text.after?_append]
    dsimp only
    rw [if_neg (fun h => (hseparated rest).1 h hsep), hpayload, if_neg (by simpa using hline)]

/-! ## The keyword that is meant -/

/-- That a line is to be read with the given keyword: it applies, no other one of the
given roles that applies is as long, and the role is the first that has it. -/
structure IsMeant (d : Dialect) (roles : List Role) (line : Text) (m : KeywordMatch) : Prop where
  role : roles.find? (fun r => decide (m.keyword ∈ d.words r)) = some m.role
  applies : Applies m.role m.keyword line m.payload
  longest : ∀ r ∈ roles, ∀ w ∈ d.words r, ∀ text, Applies r w line text →
    w = m.keyword ∨ w.length < m.keyword.length

theorem Applies.prefix_line {role : Role} {keyword text : Text}
    (h : Applies role keyword line text) : keyword <+: line := by
  obtain ⟨rest, rfl, -⟩ := h
  exact List.prefix_append keyword rest

/-- What a keyword leaves of a line depends on the kind of its role only. -/
theorem Applies.of_isStep_eq {r s : Role} (hkind : r.isStep = s.isStep) {keyword text : Text}
    (h : Applies r keyword line text) : Applies s keyword line text := by
  obtain ⟨rest, hline, hf⟩ := h
  rw [follows_iff] at hf
  refine ⟨rest, hline, follows_iff.2 ?_⟩
  simpa [isSeparated, payload, hkind] using hf

/-- Of several matches the first among the longest is taken. -/
theorem exists_append_of_longest? :
    ∀ {ms : List KeywordMatch} {m : KeywordMatch}, longest? ms = some m →
      ∃ front back, ms = front ++ m :: back ∧ ∀ n ∈ front, n.keyword.length < m.keyword.length
  | k :: ms, m, h => by
    rw [longest?] at h
    split at h
    next =>
      obtain rfl := Option.some.inj h
      exact ⟨[], ms, rfl, by simp⟩
    next l hl =>
      split at h
      next =>
        obtain rfl := Option.some.inj h
        exact ⟨[], ms, rfl, by simp⟩
      next hshort =>
        obtain rfl := Option.some.inj h
        obtain ⟨front, back, rfl, hfront⟩ := exists_append_of_longest? hl
        refine ⟨k :: front, back, rfl, List.forall_mem_cons.2 ⟨Nat.lt_of_not_le hshort, hfront⟩⟩

theorem candidates_append (rs ss : List Role) :
    candidates d (rs ++ ss) line = candidates d rs line ++ candidates d ss line := by
  simp [candidates, synonyms]

/-- The role of a match is the first that has its keyword. -/
theorem find?_of_match? (hkind : ∀ r ∈ roles, ∀ s ∈ roles, r.isStep = s.isStep) {m : KeywordMatch}
    (h : match? d roles line = some m) :
    roles.find? (fun r => decide (m.keyword ∈ d.words r)) = some m.role := by
  obtain ⟨front, back, hsplit, hfront⟩ := exists_append_of_longest? h
  obtain ⟨hrole, hword, hpayload⟩ := mem_candidates.1 (mem_of_longest? h)
  have hsome : (roles.find? fun r => decide (m.keyword ∈ d.words r)).isSome = true :=
    List.find?_isSome.2 ⟨m.role, hrole, decide_eq_true hword⟩
  obtain ⟨r, hr⟩ := Option.isSome_iff_exists.1 hsome
  obtain ⟨hlists, before, after, hroles, hbefore⟩ := List.find?_eq_some_iff_append.1 hr
  -- the first role that has the keyword makes a match of it too, and an equally long one
  have hfirst : KeywordMatch.mk r m.keyword m.payload ∈ candidates d (before ++ [r]) line := by
    refine mem_candidates.2 ⟨by simp, of_decide_eq_true hlists, ?_⟩
    rw [payloadAfter?_eq_some] at hpayload ⊢
    exact hpayload.of_isStep_eq (hkind m.role hrole r (by simp [hroles]))
  rw [hroles, List.append_cons, candidates_append] at hsplit
  have hmem : m ∈ candidates d (before ++ [r]) line := by
    rcases List.append_eq_append_iff.1 hsplit with ⟨_, hlong, -⟩ | ⟨rest, hshort, hrest⟩
    · rw [hlong] at hfront
      exact absurd (hfront _ (List.mem_append_left _ hfirst)) (Nat.lt_irrefl _)
    · cases rest with
      | nil =>
        rw [hshort, List.append_nil] at hfirst
        exact absurd (hfront _ hfirst) (Nat.lt_irrefl _)
      | cons n rest =>
        rw [hshort, (List.cons.inj hrest).1]
        simp
  rcases List.mem_append.1 (mem_candidates.1 hmem).1 with hrole | hrole
  · exact absurd (hbefore m.role hrole) (by simp [hword])
  · rw [hr, List.mem_singleton.1 hrole]

theorem isMeant_of_match? (hkind : ∀ r ∈ roles, ∀ s ∈ roles, r.isStep = s.isStep)
    {m : KeywordMatch} (h : match? d roles line = some m) : IsMeant d roles line m := by
  obtain ⟨-, -, hpayload⟩ := mem_candidates.1 (mem_of_longest? h)
  have happlies := payloadAfter?_eq_some.1 hpayload
  refine ⟨find?_of_match? hkind h, happlies, ?_⟩
  intro r hr w hw text htext
  have hle : w.length ≤ m.keyword.length :=
    length_le_of_longest? (n := ⟨r, w, text⟩) h
      (mem_candidates.2 ⟨hr, hw, payloadAfter?_eq_some.2 htext⟩)
  rcases Nat.lt_or_eq_of_le hle with hlt | heq
  · exact Or.inr hlt
  · exact Or.inl ((List.prefix_of_prefix_length_le htext.prefix_line happlies.prefix_line
      hle).eq_of_length heq)

theorem Applies.text_eq {role : Role} {keyword text text' : Text}
    (h : Applies role keyword line text) (h' : Applies role keyword line text') : text = text' :=
  Option.some.inj ((payloadAfter?_eq_some.2 h).symm.trans (payloadAfter?_eq_some.2 h'))

theorem IsMeant.mem_words {m : KeywordMatch} (h : IsMeant d roles line m) :
    m.role ∈ roles ∧ m.keyword ∈ d.words m.role := by
  have hword := List.find?_some h.role
  exact ⟨List.mem_of_find?_eq_some h.role, of_decide_eq_true hword⟩

/-- A line is meant in one way at most. -/
theorem IsMeant.unique {m n : KeywordMatch} (hm : IsMeant d roles line m)
    (hn : IsMeant d roles line n) : m = n := by
  have hword : m.keyword = n.keyword := by
    rcases hn.longest _ hm.mem_words.1 _ hm.mem_words.2 _ hm.applies with heq | hlt
    · exact heq
    · rcases hm.longest _ hn.mem_words.1 _ hn.mem_words.2 _ hn.applies with heq | hlt'
      · exact heq.symm
      · exact absurd hlt' (Nat.lt_asymm hlt)
  have hrole : m.role = n.role := by
    have hfind := hm.role
    rw [hword, hn.role] at hfind
    exact (Option.some.inj hfind).symm
  have htext : m.payload = n.payload := by
    have happlies := hm.applies
    rw [hword, hrole] at happlies
    exact happlies.text_eq hn.applies
  cases m
  cases n
  simp_all

/-- A line is meant in one way if and only if `match?` finds that way. -/
theorem match?_eq_some_iff (hkind : ∀ r ∈ roles, ∀ s ∈ roles, r.isStep = s.isStep)
    {m : KeywordMatch} : match? d roles line = some m ↔ IsMeant d roles line m := by
  constructor
  · exact isMeant_of_match? hkind
  · intro h
    cases hmatch : match? d roles line with
    | none =>
      have hmem : m ∈ candidates d roles line :=
        mem_candidates.2 ⟨h.mem_words.1, h.mem_words.2, payloadAfter?_eq_some.2 h.applies⟩
      rw [longest?_eq_none.1 hmatch] at hmem
      cases hmem
    | some n => rw [(isMeant_of_match? hkind hmatch).unique h]

theorem match?_eq_none_iff :
    match? d roles line = none ↔ ∀ r ∈ roles, ∀ w ∈ d.words r, ∀ text, ¬ Applies r w line text := by
  rw [match?, longest?_eq_none, List.eq_nil_iff_forall_not_mem]
  constructor
  · intro h r hr w hw text htext
    exact h ⟨r, w, text⟩ (mem_candidates.2 ⟨hr, hw, payloadAfter?_eq_some.2 htext⟩)
  · intro h m hm
    obtain ⟨hr, hw, hp⟩ := mem_candidates.1 hm
    exact h m.role hr m.keyword hw m.payload (payloadAfter?_eq_some.1 hp)

/-- The synonyms may be listed in any order, and any number of times. -/
theorem isMeant_congr {e : Dialect} (hwords : ∀ r ∈ roles, ∀ w, w ∈ e.words r ↔ w ∈ d.words r)
    {m : KeywordMatch} : IsMeant e roles line m ↔ IsMeant d roles line m := by
  have hrole : roles.find? (fun r => decide (m.keyword ∈ e.words r)) =
      roles.find? fun r => decide (m.keyword ∈ d.words r) :=
    List.find?_congr fun r hr => decide_eq_decide.2 (hwords r hr m.keyword)
  constructor
  · intro h
    exact ⟨hrole ▸ h.role, h.applies, fun r hr w hw => h.longest r hr w ((hwords r hr w).2 hw)⟩
  · intro h
    exact ⟨hrole ▸ h.role, h.applies, fun r hr w hw => h.longest r hr w ((hwords r hr w).1 hw)⟩

/-- **The longest keyword that applies is found.** -/
theorem firstCapture?_longest (d : Dialect) {roles : List Role}
    (hroles : roles = Role.structural ∨ roles = Role.steps) {line : Text}
    (hline : Text.trim line = line) :
    (firstCapture? d roles line = none ↔
      ∀ r ∈ roles, ∀ w ∈ d.words r, ∀ text, ¬ Applies r w line text) ∧
    (∀ m, firstCapture? d roles line = some m ↔ IsMeant d roles line m) ∧
    match? d roles line = firstCapture? d roles line ∧
    ∀ e : Dialect, (∀ r ∈ roles, ∀ w, w ∈ e.words r ↔ w ∈ d.words r) →
      firstCapture? e roles line = firstCapture? d roles line := by
  have hkind : ∀ r ∈ roles, ∀ s ∈ roles, r.isStep = s.isStep := by
    rcases hroles with rfl | rfl
    · intro r hr s hs
      rw [Role.mem_structural.1 hr, Role.mem_structural.1 hs]
    · intro r hr s hs
      rw [Role.mem_steps.1 hr, Role.mem_steps.1 hs]
  have hsome : ∀ (e : Dialect) m, firstCapture? e roles line = some m ↔ IsMeant e roles line m := by
    intro e m
    rw [← match?_eq_firstCapture? e roles hline, match?_eq_some_iff hkind]
  refine ⟨?_, hsome d, match?_eq_firstCapture? d roles hline, ?_⟩
  · rw [← match?_eq_firstCapture? d roles hline, match?_eq_none_iff]
  · intro e hwords
    ext m
    rw [hsome e m, hsome d m, isMeant_congr hwords]

/-- French has both `Et que` and `Et`. -/
theorem firstCapture?_longest_of_prefixes :
    Text.trim "Et que tout va bien".toList = "Et que tout va bien".toList ∧
      firstCapture? Dialect.french Role.steps "Et que tout va bien".toList =
        some ⟨.step .andStep, "Et que".toList, "tout va bien".toList⟩ ∧
      IsMeant Dialect.french Role.steps "Et que tout va bien".toList
        ⟨.step .andStep, "Et que".toList, "tout va bien".toList⟩ := by
  have hline : Text.trim "Et que tout va bien".toList = "Et que tout va bien".toList := by decide
  obtain ⟨-, hmeant, hmatch, -⟩ := firstCapture?_longest Dialect.french (Or.inr rfl) hline
  have hfound : firstCapture? Dialect.french Role.steps "Et que tout va bien".toList =
      some ⟨.step .andStep, "Et que".toList, "tout va bien".toList⟩ := by
    rw [← hmatch]
    decide
  exact ⟨hline, hfound, (hmeant _).1 hfound⟩

end Gherkin.Line
