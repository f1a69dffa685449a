import Gherkin.Proofs.Assembling

/-!
# Which tags a node bears

Tags reach their node in two ways: those in front of a feature are handed on
from the segment before, all others wait in the assembly.  By position the rule
is one: a tag goes to the next token that opens a node.  Only a feature wants
its tags directly before it, with nothing else between.

> `build_tags`: every node bears the tags at `tagPositions` of its token, all of
> them stand before that token, and no tag stands at the positions of two nodes.
-/

namespace Gherkin

/-- Where the tags stand that the node at position `j` bears: between such a tag
and the node no token opens another node, and before a feature there are only
tags. -/
def tagPositions (ts : List Token) (j : Nat) : List Nat :=
  match ts[j]? with
  | none => []
  | some node =>
    if node.opensNode then
      (List.range j).filter fun i =>
        (ts[i]?).any Token.isTag &&
          ((ts.take j).drop (i + 1)).all fun t =>
            if node.isFeature then t.isTag else !t.opensNode
    else []

/-- The tags at the given positions. -/
def tagsAt (ts : List Token) (positions : List Nat) : List Tag :=
  positions.filterMap fun i => ts[i]?.map fun t => ⟨t.text⟩

/-- The tags of the node at position `j`. -/
def tagsBorne (ts : List Token) (j : Nat) : List Tag := tagsAt ts (tagPositions ts j)

/-- The entry `i` of the scenario list, whose token stands at position `j` and
opens `q`, bears its tags, and so do its examples. -/
structure ScenarioItem.BearsTags (ts : List Token) (j : Nat) (q : Part Token)
    (i : ScenarioItem) : Prop where
  own : i.container.tags = tagsBorne ts j
  examples : ∀ es, i.examples? = some es →
    List.Forall₂ (fun r e => e.tags = tagsBorne ts (j + 1 + r.position))
      (parts Token.isExamples q.slice) es

/-- The feature `f`, whose token opens `q`, bears its tags, and so do the nodes
in it. -/
structure Feature.BearsTags (ts : List Token) (q : Part Token) (f : Feature) : Prop where
  own : f.tags = tagsBorne ts q.position
  background : Option.Rel (fun r c => c.tags = tagsBorne ts (q.position + 1 + r.position))
    ((parts Token.isContainer q.slice).filter (·.head.kind == .background)).getLast? f.background
  scenarios : List.Forall₂
    (fun r i => i.BearsTags ts (q.position + 1 + r.position) r)
    ((parts Token.isContainer q.slice).filter (·.head.kind != .background)) f.scenarios

theorem Token.opensNode_of_isTag {t : Token} (h : t.isTag = true) : t.opensNode = false := by
  have hk := kind_of_isTag h
  simp [opensNode, isFeature, isContainer, TokenKind.isContainer, isExamples, hk]

theorem Token.isTag_of_opensNode {t : Token} (h : t.opensNode = true) : t.isTag = false := by
  cases htag : t.isTag with
  | false => rfl
  | true => rw [opensNode_of_isTag htag] at h; cases h

/-! ## Positions and trailing runs -/

/-- The tags of a trailing run, found by position. -/
theorem tagsAt_filter_range {p : Token → Bool} (hp : ∀ t : Token, t.isTag = true → p t = true)
    (ts : List Token) :
    tagsAt ts ((List.range ts.length).filter fun i =>
        (ts[i]?).any Token.isTag && (ts.drop (i + 1)).all p) =
      ((takeTrailing p ts).filter Token.isTag).map fun t => ⟨t.text⟩ := by
  induction ts using List.reverseRecOn with
  | nil => rfl
  | append_singleton ts t ih =>
    have hlast : (tagsAt (ts ++ [t]) ([ts.length].filter fun i =>
        ((ts ++ [t])[i]?).any Token.isTag && ((ts ++ [t]).drop (i + 1)).all p)) =
          if t.isTag then [⟨t.text⟩] else [] := by
      cases ht : t.isTag <;> simp [tagsAt, ht]
    have hfilter : (List.range ts.length).filter (fun i =>
        ((ts ++ [t])[i]?).any Token.isTag && ((ts ++ [t]).drop (i + 1)).all p) =
          (List.range ts.length).filter fun i =>
            ((ts[i]?).any Token.isTag && (ts.drop (i + 1)).all p) && p t := by
      apply List.filter_congr
      intro i hi
      have hlt := List.mem_range.1 hi
      rw [List.getElem?_append_left hlt, List.drop_append_of_le_length hlt, List.all_append]
      simp [Bool.and_assoc]
    have hat (positions : List Nat) (hpos : ∀ i ∈ positions, i < ts.length) :
        tagsAt (ts ++ [t]) positions = tagsAt ts positions := by
      apply List.filterMap_congr
      intro i hi
      rw [List.getElem?_append_left (hpos i hi)]
    rw [List.length_append, List.length_singleton, List.range_succ, List.filter_append, tagsAt,
      List.filterMap_append]
    show tagsAt _ _ ++ tagsAt _ _ = _
    rw [hlast, hfilter, hat _ fun i hi => List.mem_range.1 (List.mem_of_mem_filter hi),
      takeTrailing_concat]
    cases hpt : p t with
    | true =>
      simp only [Bool.and_true, if_true, List.filter_append, List.map_append, ih]
      cases ht : t.isTag <;> simp [ht]
    | false =>
      -- a member that is no tag ends the run, and nothing before it counts
      have ht : t.isTag = false := by
        cases htag : t.isTag with
        | false => rfl
        | true => simp [hp t htag] at hpt
      simp [ht, tagsAt]

/-- The tags of a node, read off the tokens before it. -/
theorem tagsBorne_append_cons {node : Token} (hnode : node.opensNode = true)
    (before after : List Token) :
    tagsBorne (before ++ node :: after) before.length =
      ((takeTrailing (fun t => if node.isFeature then t.isTag else !t.opensNode) before).filter
        Token.isTag).map fun t => ⟨t.text⟩ := by
  have hp : ∀ t : Token, t.isTag = true →
      (if node.isFeature then t.isTag else !t.opensNode) = true := by
    intro t ht
    split
    · exact ht
    · rw [Token.opensNode_of_isTag ht]
      rfl
  rw [← tagsAt_filter_range hp]
  have hget : ∀ i < before.length, (before ++ node :: after)[i]? = before[i]? := fun i hi =>
    List.getElem?_append_left hi
  have hpositions : tagPositions (before ++ node :: after) before.length =
      (List.range before.length).filter fun i => (before[i]?).any Token.isTag &&
        (before.drop (i + 1)).all fun t => if node.isFeature then t.isTag else !t.opensNode := by
    simp only [tagPositions, List.getElem?_append_right (Nat.le_refl _), Nat.sub_self,
      List.getElem?_cons_zero, hnode, if_true, List.take_left]
    apply List.filter_congr
    intro i hi
    rw [hget i (List.mem_range.1 hi)]
  rw [tagsBorne, hpositions]
  apply List.filterMap_congr
  intro i hi
  rw [hget i (List.mem_range.1 (List.mem_of_mem_filter hi))]

/-- The tags of a node inside a feature are those that wait for it. -/
theorem tagsBorne_eq_waitingTags {opener node : Token} (hopener : opener.opensNode = true)
    (hnode : node.opensNode = true) (hf : node.isFeature = false)
    (front before after : List Token) :
    tagsBorne (front ++ opener :: before ++ node :: after) (front.length + 1 + before.length) =
      Reading.waitingTags before := by
  have hlength : front.length + 1 + before.length = (front ++ opener :: before).length := by
    simp only [List.length_append, List.length_cons]
    omega
  rw [hlength, tagsBorne_append_cons hnode, hf]
  exact Reading.waitingTags_append_cons hopener front before

/-! ## The tags of all nodes -/

namespace Reading

theorem feature_tags {ts : List Token} {q : Part Token} (hq : q ∈ parts Token.isFeature ts) :
    (featureHeading q).tags = tagsBorne ts q.position := by
  have hf := head_of_mem_parts hq
  obtain ⟨rest, hts⟩ := exists_append_of_mem_parts hq
  have hopen : q.head.opensNode = true := by simp [Token.opensNode, hf]
  have hall : (takeTrailing Token.isTag q.before).filter Token.isTag =
      takeTrailing Token.isTag q.before :=
    List.filter_eq_self.2 fun t ht => of_mem_takeTrailing ht
  have h := tagsBorne_append_cons hopen q.before (q.slice ++ rest)
  simp only [hf, if_true] at h
  rw [hall, ← hts] at h
  exact h.symm

/-- The tags of a node that opens a part of `l`, when `l` stands behind `front` and
the token of the node around it. -/
theorem heading_tags {p : Token → Bool} {opener : Token} {r : Part Token} {l : List Token}
    (hp : ∀ t : Token, p t = true → t.opensNode = true ∧ t.isFeature = false)
    (hopener : opener.opensNode = true) (hr : r ∈ parts p l) (front after : List Token) :
    (heading r).tags =
      tagsBorne (front ++ opener :: (l ++ after)) (front.length + 1 + r.position) := by
  obtain ⟨hopen, hf⟩ := hp r.head (head_of_mem_parts hr)
  obtain ⟨rest, hl⟩ := exists_append_of_mem_parts hr
  have h := tagsBorne_eq_waitingTags hopener hopen hf front r.before (r.slice ++ rest ++ after)
  rw [hl]
  simp only [List.append_assoc, List.cons_append] at h ⊢
  exact h.symm

theorem opensNode_of_isContainer (t : Token) (h : t.isContainer = true) :
    t.opensNode = true ∧ t.isFeature = false := by
  cases hk : t.kind <;>
    simp_all [Token.isContainer, TokenKind.isContainer, Token.isFeature, Token.opensNode]

theorem opensNode_of_isExamples (t : Token) (h : t.isExamples = true) :
    t.opensNode = true ∧ t.isFeature = false := by
  cases hk : t.kind <;> simp_all [Token.isExamples, Token.isFeature, Token.opensNode]

theorem item_bearsTags {ts : List Token} {q r : Part Token} (hq : q ∈ parts Token.isFeature ts)
    (hr : r ∈ parts Token.isContainer q.slice) :
    (item r).BearsTags ts (q.position + 1 + r.position) r := by
  obtain ⟨after, hts⟩ := exists_append_of_mem_parts hq
  obtain ⟨rest, hslice⟩ := exists_append_of_mem_parts hr
  have hfeature : q.head.opensNode = true := by simp [Token.opensNode, head_of_mem_parts hq]
  have hcontainer := opensNode_of_isContainer _ (head_of_mem_parts hr)
  have hown := heading_tags opensNode_of_isContainer hfeature hr q.before after
  rw [← hts] at hown
  have hexamples : List.Forall₂
      (fun e x => x.tags = tagsBorne ts (q.position + 1 + r.position + 1 + e.position))
      (parts Token.isExamples r.slice) (tables r.slice) := by
    rw [tables, List.forall₂_map_right_iff, List.forall₂_same]
    intro e he
    have h := heading_tags opensNode_of_isExamples hcontainer.1 he
      (q.before ++ q.head :: r.before) (rest ++ after)
    have hlength : (q.before ++ q.head :: r.before).length = q.position + 1 + r.position := by
      simp only [List.length_append, List.length_cons, Part.position]
      omega
    rw [hlength] at h
    rw [hslice] at hts
    simp only [List.append_assoc, List.cons_append] at h hts
    rw [← hts] at h
    exact h
  unfold item
  split
  · refine ⟨hown, fun es hes => ?_⟩
    obtain rfl := Option.some.inj hes
    exact hexamples
  · exact ⟨hown, fun es hes => by simp [ScenarioItem.examples?] at hes⟩

theorem feature_bearsTags {ts : List Token} {q : Part Token} (hq : q ∈ parts Token.isFeature ts) :
    (feature q).BearsTags ts q := by
  obtain ⟨after, hts⟩ := exists_append_of_mem_parts hq
  have hfeature : q.head.opensNode = true := by simp [Token.opensNode, head_of_mem_parts hq]
  refine ⟨feature_tags hq, ?_, ?_⟩
  · rw [feature_background]
    show Option.Rel _ ((parts Token.isContainer q.slice).filter isBackground).getLast? _
    cases hb : ((parts Token.isContainer q.slice).filter isBackground).getLast? with
    | none => exact .none
    | some r =>
      have hr : r ∈ parts Token.isContainer q.slice :=
        List.mem_of_mem_filter (List.mem_of_getLast? hb)
      have h := heading_tags opensNode_of_isContainer hfeature hr q.before after
      rw [← hts] at h
      exact .some h
  · rw [feature_scenarios, List.forall₂_map_right_iff]
    show List.Forall₂ _ ((parts Token.isContainer q.slice).filter (fun r => !isBackground r)) _
    rw [List.forall₂_same]
    intro r hr
    exact item_bearsTags hq (List.mem_of_mem_filter hr)

end Reading

/-! ## No tag has two nodes -/

theorem mem_tagPositions {ts : List Token} {i j : Nat} :
    i ∈ tagPositions ts j ↔ ∃ node, ts[j]? = some node ∧ node.opensNode = true ∧ i < j ∧
      (ts[i]?).any Token.isTag = true ∧ ∀ t ∈ (ts.take j).drop (i + 1),
        (if node.isFeature then t.isTag else !t.opensNode) = true := by
  unfold tagPositions
  cases ts[j]? with
  | none => simp
  | some node => by_cases hopen : node.opensNode = true <;> simp [hopen]

/-- Between a tag and its node no token opens a node. -/
theorem opensNode_of_between {ts : List Token} {i j : Nat} (h : i ∈ tagPositions ts j) :
    ∀ t ∈ (ts.take j).drop (i + 1), t.opensNode = false := by
  intro t ht
  obtain ⟨node, -, -, -, -, hbetween⟩ := mem_tagPositions.1 h
  have hb := hbetween t ht
  split at hb
  · exact Token.opensNode_of_isTag hb
  · simpa using hb

theorem lt_of_mem_tagPositions {ts : List Token} {i j : Nat} (h : i ∈ tagPositions ts j) :
    i < j ∧ (ts[i]?).any Token.isTag = true := by
  obtain ⟨node, -, -, hlt, htag, -⟩ := mem_tagPositions.1 h
  exact ⟨hlt, htag⟩

/-- A tag does not pass by a token that opens a node. -/
theorem not_mem_tagPositions_of_lt {ts : List Token} {i j k : Nat} (hj : i ∈ tagPositions ts j)
    (hjk : j < k) : i ∉ tagPositions ts k := by
  intro hk
  obtain ⟨node, hnode, hopen, hij, -, -⟩ := mem_tagPositions.1 hj
  -- the first of the two nodes stands between the tag and the second
  have hmem : node ∈ (ts.take k).drop (i + 1) := by
    have hindex : i + 1 + (j - (i + 1)) = j := by omega
    rw [List.mem_iff_getElem?]
    refine ⟨j - (i + 1), ?_⟩
    rw [List.getElem?_drop, List.getElem?_take, hindex, if_pos hjk, hnode]
  rw [opensNode_of_between hk node hmem] at hopen
  cases hopen

/-- **Every tag has its place.**  A feature bears the run of tags directly before
it; a background, scenario, outline or examples bear the tags since the last
token that opened a node.  A tag stands before its node, and it has one only. -/
theorem build_tags (ts : List Token) :
    List.Forall₂ (Feature.BearsTags ts) (parts Token.isFeature ts) (build ts) ∧
      (∀ i j, i ∈ tagPositions ts j → i < j ∧ (ts[i]?).any Token.isTag = true) ∧
      ∀ i j k, i ∈ tagPositions ts j → i ∈ tagPositions ts k → j = k := by
  refine ⟨forall₂_build fun q hq => Reading.feature_bearsTags hq,
    fun i j h => lt_of_mem_tagPositions h, fun i j k hj hk => ?_⟩
  rcases Nat.lt_trichotomy j k with hlt | heq | hgt
  · exact absurd hk (not_mem_tagPositions_of_lt hj hlt)
  · exact heq
  · exact absurd hj (not_mem_tagPositions_of_lt hk hgt)

end Gherkin
