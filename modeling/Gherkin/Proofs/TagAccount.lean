import Gherkin.Proofs.TagOwnership
import Mathlib.Data.List.Perm.Basic

/-!
# Where all tags are

> `tagsOf_perm`: the tags among the tokens are those in the features, those of
> backgrounds that are replaced, those of examples that stand in no outline, those in
> front of everything, and those that no node takes.

Examples outside of an outline take the tags that wait, as any node does, and are left
out together with them.

The account is kept token by token: with one more token, the tags that wait grow by one,
stay, or go to what opens (`tagsOf_body`).
-/

namespace Gherkin

/-! ## Where tags can be -/

/-- The tags among some tokens. -/
def tagsOf (ts : List Token) : List Tag := (ts.filter Token.isTag).map fun t => ⟨t.text⟩

/-- The tags of an entry in the scenario list and of its examples. -/
def ScenarioItem.allTags (i : ScenarioItem) : List Tag :=
  i.container.tags ++ (i.examples?.getD []).flatMap (·.tags)

/-- The tags of a feature and of all nodes in it. -/
def Feature.allTags (f : Feature) : List Tag :=
  f.tags ++ f.background.toList.flatMap (·.tags) ++ f.scenarios.flatMap ScenarioItem.allTags

def OpenContainer.allTags : OpenContainer → List Tag
  | background c => c.tags
  | scenario c => c.tags
  | outline o => o.tags ++ o.examples.flatMap (·.tags)

/-- The tokens behind each feature token, without the tags that belong to the next one. -/
def bodies (ts : List Token) : List (List Token) :=
  (parts Token.isFeature ts).map fun q => dropTrailing Token.isTag q.slice

/-- The backgrounds in a body. -/
def backgrounds (body : List Token) : List (Part Token) :=
  (parts Token.isContainer body).filter (·.head.kind == .background)

/-- The backgrounds in a body that another one follows. -/
def replacedBackgrounds (body : List Token) : List (Part Token) := (backgrounds body).dropLast

/-- Whether the last container before a place in a body is an outline. -/
def inOutline (before : List Token) : Bool :=
  ((before.filter Token.isContainer).getLast?).any (·.kind == .scenarioOutline)

/-- The examples in a body that stand in no outline. -/
def strayExamples (body : List Token) : List (Part Token) :=
  (parts Token.isExamples body).filter fun e => !inOutline e.before

/-- The tags of all backgrounds that are replaced. -/
def replacedTags (ts : List Token) : List Tag :=
  (bodies ts).flatMap fun body => (replacedBackgrounds body).flatMap fun r =>
    (Reading.heading r).tags

/-- The tags of all examples that stand in no outline. -/
def strayTags (ts : List Token) : List Tag :=
  (bodies ts).flatMap fun body => (strayExamples body).flatMap fun e => (Reading.heading e).tags

/-- The tags that no node takes: those behind the last node of a body, and the run of
tags at the end of all tokens. -/
def unclaimedTags (ts : List Token) : List Tag :=
  (bodies ts).flatMap Reading.waitingTags ++ tagsOf (ts.rtakeWhile Token.isTag)

/-! ## One body, by position -/

theorem tagsOf_append (ts us : List Token) : tagsOf (ts ++ us) = tagsOf ts ++ tagsOf us := by
  rw [tagsOf, List.filter_append, List.map_append, tagsOf, tagsOf]

theorem tagsOf_of_forall {ts : List Token} (h : ∀ t ∈ ts, t.isTag = true) :
    tagsOf ts = ts.map fun t => ⟨t.text⟩ := by
  rw [tagsOf, List.filter_eq_self.2 h]

theorem tagsOf_singleton (t : Token) : tagsOf [t] = if t.isTag then [⟨t.text⟩] else [] := by
  cases ht : t.isTag <;> simp [tagsOf, ht]

theorem inOutline_eq (body : List Token) :
    inOutline body =
      ((parts Token.isContainer body).getLast?).any (·.head.kind == .scenarioOutline) := by
  rw [inOutline, ← parts_map_head, List.getLast?_map, Option.any_map]

/-- One more token: what is said about each of the stray examples, slices apart. -/
theorem strayExamples_concat {β : Type} {g : Part Token → List β}
    (hg : ∀ (e : Part Token) (t : Token), g (e.snoc t) = g e) (body : List Token) (t : Token) :
    (strayExamples (body ++ [t])).flatMap g =
      (strayExamples body).flatMap g
        ++ if t.isExamples && !inOutline body then g ⟨body, t, []⟩ else [] := by
  rw [strayExamples]
  cases he : t.isExamples with
  | true =>
    rw [parts_concat_of_pos he, List.filter_append, List.flatMap_append, strayExamples]
    cases ho : inOutline body <;> simp [ho]
  | false =>
    rw [parts_concat_of_neg he, strayExamples]
    rcases List.eq_nil_or_concat' (parts Token.isExamples body) with hp | ⟨es, e, hp⟩
    · rw [hp]
      rfl
    · rw [hp, modifyLast_concat, List.filter_append, List.filter_append, List.flatMap_append,
        List.flatMap_append]
      cases ho : inOutline e.before <;> simp [ho, hg]

namespace Reading

/-- Only examples in an outline add to the tags of an open container. -/
theorem allTags_container_snoc (q : Part Token) (t : Token) :
    (container (q.snoc t)).allTags =
      (container q).allTags
        ++ if t.isExamples && q.head.kind == .scenarioOutline then waitingTags q.slice else [] := by
  by_cases hk : q.head.kind = .scenarioOutline
  · have htables : (tables (q.slice ++ [t])).flatMap (·.tags) =
        (tables q.slice).flatMap (·.tags) ++ if t.isExamples then waitingTags q.slice else [] := by
      cases he : t.isExamples with
      | true =>
        rw [tables_concat_of_examples he, List.flatMap_append]
        simp
      | false =>
        -- more rows, but the headings are the same
        have hmap := map_modifyLast_of_eq (g := fun e : Examples => e.tags)
          (f := fun e => { e with rows := e.rows ++ (tableShare (rowOwner q.slice) t).toList })
          (fun _ => rfl) (tables q.slice)
        rw [tables_concat_of_not_examples he, List.flatMap_def, hmap]
        simp [List.flatMap_def]
    simp only [container, Part.snoc_head, hk, OpenContainer.allTags, Part.snoc_slice, htables]
    simp [node, heading]
  · have hnone : (q.head.kind == .scenarioOutline) = false := by simpa using hk
    rw [hnone, Bool.and_false]
    simp only [container, Part.snoc_head, node, heading, Part.snoc_before, Part.snoc_slice]
    split <;> simp_all [OpenContainer.allTags]

/-- One more token: the tags of all containers. -/
theorem allTags_containers_concat (body : List Token) (t : Token) :
    (containers (body ++ [t])).flatMap OpenContainer.allTags =
      (containers body).flatMap OpenContainer.allTags
        ++ if t.isContainer || (t.isExamples && inOutline body) then waitingTags body else [] := by
  cases hc : t.isContainer with
  | true =>
    have hown : (container ⟨body, t, []⟩).allTags = waitingTags body := by
      unfold container
      split <;> simp [OpenContainer.allTags, node, heading, tables]
    rw [containers, parts_concat_of_pos hc, List.map_append, List.flatMap_append, containers]
    simp [hown]
  | false =>
    rw [containers, parts_concat_of_neg hc, containers, inOutline_eq]
    rcases List.eq_nil_or_concat' (parts Token.isContainer body) with hp | ⟨qs, q, hp⟩
    · rw [hp]
      simp [modifyLast]
    · have hlast : (parts Token.isContainer body).getLast? = some q := by simp [hp]
      obtain ⟨hbody, hq⟩ := eq_of_getLast?_parts hlast
      -- what waits for examples stands behind the token of the open container
      have hwait : waitingTags body = waitingTags q.slice := by
        rw [hbody, waitingTags_append_cons (by simp [Token.opensNode, hq])]
      rw [hlast, hp, modifyLast_concat, List.map_append, List.map_append, List.flatMap_append,
        List.flatMap_append, List.map_singleton, List.map_singleton, List.flatMap_singleton,
        List.flatMap_singleton, allTags_container_snoc, hwait, List.append_assoc]
      rfl

/-- Every tag of a body is on a container or its examples, on examples that stand in no
outline, or it waits. -/
theorem tagsOf_body {body : List Token} (h : ∀ t ∈ body, t.isFeature = false) :
    (tagsOf body).Perm ((containers body).flatMap OpenContainer.allTags
      ++ (strayExamples body).flatMap (fun e => (heading e).tags) ++ waitingTags body) := by
  induction body using List.reverseRecOn with
  | nil => exact List.Perm.refl _
  | append_singleton body t ih =>
    have hf := h t (by simp)
    have ih := ih fun u hu => h u (List.mem_append_left _ hu)
    rw [tagsOf_append, allTags_containers_concat, strayExamples_concat (fun _ _ => rfl),
      waitingTags_concat, List.perm_iff_count]
    intro x
    have hx := ih.count_eq x
    simp only [heading, List.count_append] at hx ⊢
    cases hopen : t.opensNode with
    | true =>
      -- the tags that wait go to the container or to the examples
      have htag : t.isTag = false := Token.isTag_of_opensNode hopen
      have hkinds : t.isContainer = !t.isExamples := by
        cases hk : t.kind <;> simp_all [Token.opensNode, Token.isFeature, Token.isContainer,
          TokenKind.isContainer, Token.isExamples]
      rw [tagsOf_singleton, htag, hkinds]
      cases t.isExamples <;> cases inOutline body <;> simp <;> omega
    | false =>
      have hkinds : t.isContainer = false ∧ t.isExamples = false := by
        simpa [Token.opensNode, hf] using hopen
      rw [tagsOf_singleton, hkinds.1, hkinds.2]
      cases t.isTag <;> simp <;> omega

/-- Of the tags of all containers a feature lacks those of the backgrounds before the
last one. -/
theorem allTags_featureOf (h : Heading) (d : Option Text) (cs : List OpenContainer) :
    (h.tags ++ cs.flatMap OpenContainer.allTags).Perm ((featureOf h d cs).allTags
      ++ ((cs.filterMap background?).dropLast).flatMap (·.tags)) := by
  have hkinds : (cs.flatMap OpenContainer.allTags).Perm
      ((cs.filterMap background?).flatMap (·.tags)
        ++ (cs.filterMap item?).flatMap ScenarioItem.allTags) := by
    induction cs with
    | nil => exact List.Perm.refl _
    | cons c cs ih =>
      rw [List.perm_iff_count] at ih ⊢
      intro x
      have hx := ih x
      cases c <;>
        simp only [background?, item?, List.flatMap_cons, List.filterMap_cons,
          OpenContainer.allTags, ScenarioItem.allTags, ScenarioItem.container,
          ScenarioItem.examples?, Option.getD_some, Option.getD_none, List.flatMap_nil,
          List.append_nil, List.count_append] at hx ⊢ <;> omega
  have hlast : (cs.filterMap background?).flatMap (·.tags) =
      ((cs.filterMap background?).dropLast).flatMap (·.tags)
        ++ (cs.filterMap background?).getLast?.toList.flatMap (·.tags) := by
    rcases List.eq_nil_or_concat' (cs.filterMap background?) with hb | ⟨bs, b, hb⟩
    · rw [hb]
      rfl
    · rw [hb, List.dropLast_concat, List.getLast?_concat, List.flatMap_append]
      rfl
  rw [hlast] at hkinds
  rw [List.perm_iff_count]
  intro x
  have hx := hkinds.count_eq x
  simp only [featureOf, Feature.allTags, List.count_append] at hx ⊢
  omega

theorem replacedBackgrounds_tags (body : List Token) :
    (((containers body).filterMap background?).dropLast).flatMap (·.tags) =
      (replacedBackgrounds body).flatMap fun r => (heading r).tags := by
  rw [containers_background?, ← List.map_dropLast, List.flatMap_map]
  rfl

/-- The tags that a segment leaves to the next one are not in its feature. -/
theorem feature_eq {ts : List Token} {q : Part Token} (hq : q ∈ parts Token.isFeature ts) :
    let body := dropTrailing Token.isTag q.slice
    feature q = featureOf (featureHeading q) (description body) (containers body) := by
  intro body
  have hbody : ∀ t ∈ body, t.isFeature = false := isFeature_of_mem_body hq
  have hfeature := ofTokens_segmentOf hq
  rw [ofTokens_eq (head_of_mem_parts hq), complete_feature,
    ((Reads.start (featureHeading q) []).foldl hbody).close_feature] at hfeature
  exact (Option.some.inj hfeature).symm

/-- The tags of a segment, by what becomes of them. -/
theorem tagsOf_segmentOf {ts : List Token} {q : Part Token} (hq : q ∈ parts Token.isFeature ts) :
    let body := dropTrailing Token.isTag q.slice
    (tagsOf (segmentOf q)).Perm ((feature q).allTags
      ++ ((replacedBackgrounds body).flatMap fun r => (heading r).tags)
      ++ ((strayExamples body).flatMap fun e => (heading e).tags) ++ waitingTags body) := by
  intro body
  have hbody : ∀ t ∈ body, t.isFeature = false := isFeature_of_mem_body hq
  have hsegment : tagsOf (segmentOf q) = (featureHeading q).tags ++ tagsOf body := by
    rw [segmentOf, List.append_cons, tagsOf_append, tagsOf_append, tagsOf_singleton,
      Token.isTag_of_isFeature (head_of_mem_parts hq),
      tagsOf_of_forall fun t ht => of_mem_takeTrailing ht]
    simp [featureHeading, body]
  have hfeature := allTags_featureOf (featureHeading q) (description body) (containers body)
  rw [← feature_eq hq, replacedBackgrounds_tags] at hfeature
  rw [hsegment, List.perm_iff_count]
  intro x
  have hx := hfeature.count_eq x
  have hy := (tagsOf_body hbody).count_eq x
  simp only [List.count_append] at hx hy ⊢
  omega

end Reading

/-! ## All tokens -/

theorem tagsOf_flatten (tss : List (List Token)) : tagsOf tss.flatten = tss.flatMap tagsOf := by
  induction tss with
  | nil => rfl
  | cons ts tss ih => rw [List.flatten_cons, tagsOf_append, ih, List.flatMap_cons]

/-- The tags of all segments, by what becomes of them. -/
theorem tagsOf_segments (ts : List Token) :
    (tagsOf (segments ts).flatten).Perm ((build ts).flatMap Feature.allTags ++ replacedTags ts
      ++ strayTags ts ++ (bodies ts).flatMap Reading.waitingTags) := by
  have hsegments := List.Perm.flatMap_left (parts Token.isFeature ts)
    fun q hq => Reading.tagsOf_segmentOf hq
  rw [tagsOf_flatten, segments_eq, List.flatMap_map, build_eq_features, Reading.features,
    List.flatMap_map, replacedTags, strayTags, bodies, List.flatMap_map, List.flatMap_map,
    List.flatMap_map]
  refine hsegments.trans ((List.flatMap_append_perm _ _ _).symm.trans (.append_right _ ?_))
  refine (List.flatMap_append_perm _ _ _).symm.trans (.append_right _ ?_)
  exact (List.flatMap_append_perm _ _ _).symm

/-- A tag is in the features, or it is lost in one of four ways. -/
theorem tagsOf_perm (ts : List Token) :
    (tagsOf ts).Perm ((build ts).flatMap Feature.allTags ++ replacedTags ts ++ strayTags ts
      ++ tagsOf (unsegmented ts) ++ unclaimedTags ts) := by
  have hsegments := tagsOf_segments ts
  have hall := congrArg tagsOf (segments_flatten ts)
  rw [tagsOf_append, tagsOf_append, segmentation_remaining, takeTrailing_eq_rtakeWhile] at hall
  rw [← hall, unclaimedTags, List.perm_iff_count]
  intro x
  have hx := hsegments.count_eq x
  simp only [List.count_append] at hx ⊢
  omega

end Gherkin
