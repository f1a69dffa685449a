import Gherkin.Proofs.BlockCapture
import Gherkin.Proofs.Layout
import Gherkin.Proofs.TagOwnership

/-!
# One more line of tags

A line of tags that is put in front of the line of a feature, a background, a
scenario or an outline adds its tags to those of that node.  Nothing else changes,
neither the tags of the nodes around nor what these hold.

> `parse_insert_tags`: the features are the same but for the tags of the node at
> `NodePlace.of?`, if this node is among them.

The line completes a pending description, but so does the line behind it, and
behind that one the scan is where it would have been.  So the tokens are the same
with some tags between them.  What follows the token of a node does not see the tags
in front of it (`containers_append_cons`, `features_append_feature`), and what stands before
it makes nothing of tags at its end (`container_append_tags`).
-/

namespace Gherkin

/-! ## Places of nodes -/

/-- The same heading with more tags. -/
def Heading.addTags (tags : List Tag) (h : Heading) : Heading := { h with tags := h.tags ++ tags }

def Container.addTags (tags : List Tag) (c : Container) : Container :=
  { c with toHeading := c.toHeading.addTags tags }

def ScenarioItem.addTags (tags : List Tag) : ScenarioItem → ScenarioItem
  | scenario c => scenario (c.addTags tags)
  | outline o => outline { o with toContainer := o.toContainer.addTags tags }

/-- Where a node stands in a list of features: the number of its feature, and that of
the entry in the scenario list. -/
inductive NodePlace where
  | feature (i : Nat)
  | background (i : Nat)
  | item (i j : Nat)
deriving DecidableEq, Repr

namespace NodePlace

/-- The heading of the node that stands at a place. -/
def heading? : NodePlace → List Feature → Option Heading
  | feature i, fs => fs[i]?.map Feature.toHeading
  | background i, fs => fs[i]?.bind fun f => f.background.map Container.toHeading
  | item i j, fs => fs[i]?.bind fun f => f.scenarios[j]?.map fun s => s.container.toHeading

/-- The features with more tags at the node that stands at a place. -/
def addTags (tags : List Tag) : NodePlace → List Feature → List Feature
  | feature i, fs => fs.modify i fun f => { f with toHeading := f.toHeading.addTags tags }
  | background i, fs =>
    fs.modify i fun f => { f with background := f.background.map (Container.addTags tags) }
  | item i j, fs =>
    fs.modify i fun f => { f with scenarios := f.scenarios.modify j (ScenarioItem.addTags tags) }

/-- The place of the node that a token of the given kind opens between other tokens.
A container in front of all features has none, nor has a background with another one
behind it in its feature. -/
def of? (before : List Token) (kind : TokenKind) (after : List Token) : Option NodePlace :=
  match kind, before.countP Token.isFeature with
  | .feature, i => some (feature i)
  | .background, i + 1 =>
    if (after.takeWhile (fun t => !t.isFeature)).any (fun t => t.kind == .background) then none
    else some (background i)
  | .scenario, i + 1 | .scenarioOutline, i + 1 =>
    some (item i ((takeTrailing (fun t => !t.isFeature) before).countP
      (fun t => t.kind == .scenario || t.kind == .scenarioOutline)))
  | _, _ => none

end NodePlace

/-- What the place of a node is counted from, if a feature stands before it. -/
theorem NodePlace.before_eq {before : List Token} {qs : List (Part Token)} {q : Part Token}
    (hq : parts Token.isFeature before = qs ++ [q]) :
    before.countP Token.isFeature = qs.length + 1 ∧
      takeTrailing (fun t => !t.isFeature) before = q.slice := by
  have hlast : (parts Token.isFeature before).getLast? = some q := by rw [hq]; simp
  obtain ⟨hbefore, hhead⟩ := eq_of_getLast?_parts hlast
  have hslice : ∀ t ∈ q.slice, (!t.isFeature) = true := by
    intro t ht
    rw [of_mem_slice (List.mem_of_getLast? hlast) t ht]
    rfl
  constructor
  · rw [← length_parts, hq, List.length_append, List.length_singleton]
  · have hrun := takeTrailing_append_of_forall hslice []
    rw [takeTrailing_nil, List.nil_append] at hrun
    rw [hbefore, takeTrailing_append_cons (by simp [hhead]), hrun]

/-! ## Tags in front of a node -/

namespace Reading

variable {tags : List Token}

theorem waitingTags_append_tags (htags : ∀ t ∈ tags, t.isTag = true) (ts : List Token) :
    waitingTags (ts ++ tags) = waitingTags ts ++ tags.map fun t => ⟨t.text⟩ := by
  induction tags using List.reverseRecOn with
  | nil => simp
  | append_singleton tags t ih =>
    have ht := htags t (by simp)
    rw [← List.append_assoc, waitingTags_concat, Token.opensNode_of_isTag ht, ht,
      ih fun u hu => htags u (List.mem_append_left _ hu)]
    simp

/-- Tags at the end of its slice leave a container as it is. -/
theorem container_append_tags (htags : ∀ t ∈ tags, t.isTag = true) (q : Part Token) :
    container { q with slice := q.slice ++ tags } = container q := by
  induction tags using List.reverseRecOn with
  | nil => rw [List.append_nil]
  | append_singleton tags t ih =>
    have hk := Token.kind_of_isTag (htags t (by simp))
    have hsnoc : container (Part.snoc { q with slice := q.slice ++ tags } t) =
        container { q with slice := q.slice ++ tags } := by
      apply Reads.container_snoc_of_share
      · simp [Token.isStep, TokenKind.isStep, hk]
      · simp [Token.isExamples, hk]
      · cases rowOwner (q.slice ++ tags) <;>
          simp [stepShare, Token.argument?, Token.block?, hk]
      · cases rowOwner (q.slice ++ tags) <;> simp [tableShare, Token.row?, hk]
    rw [← ih fun u hu => htags u (List.mem_append_left _ hu), ← hsnoc, Part.snoc,
      List.append_assoc]

theorem containers_append_tags (htags : ∀ t ∈ tags, t.isTag = true) (body : List Token) :
    containers (body ++ tags) = containers body := by
  have hnone : ∀ t ∈ tags, t.isContainer = false := by
    intro t ht
    have hk := Token.kind_of_isTag (htags t ht)
    simp [Token.isContainer, TokenKind.isContainer, hk]
  have htake : tags.takeWhile (fun t => !t.isContainer) = tags :=
    List.takeWhile_eq_self_iff.2 fun t ht => by simp [hnone t ht]
  rw [containers, parts_append, parts_eq_nil.2 hnone, List.map_nil, List.append_nil, htake,
    map_modifyLast_of_eq (container_append_tags htags), containers]

/-- What follows a container token does not see what stands before it. -/
theorem containers_append_cons {t : Token} (ht : t.isContainer = true) (ts us : List Token) :
    containers (ts ++ t :: us) =
      containers ts ++ container ⟨ts, t, us.takeWhile (fun u => !u.isContainer)⟩
        :: containers us := by
  have hopen := (opensNode_of_isContainer t ht).1
  rw [containers, parts_append_cons_of_pos ht, List.map_append, List.map_cons, List.map_map]
  congr 2
  -- the nodes behind have more tokens before them, but their tags start behind `t`
  apply List.map_congr_left
  intro q _
  simp only [Function.comp, container, node, heading, waitingTags_append_cons hopen]

theorem description_insert_tags (htags : ∀ t ∈ tags, t.isTag = true) (ts us : List Token) :
    description (ts ++ tags ++ us) = description (ts ++ us) := by
  have hnone : tags.filterMap Token.description? = [] := by
    rw [List.filterMap_eq_nil_iff]
    intro t ht
    have hk := Token.kind_of_isTag (htags t ht)
    simp [Token.description?, hk]
  simp only [description, List.filterMap_append, hnone, List.append_nil]

/-- Tags in front of a container token go to its node. -/
theorem node_insert_tags (htags : ∀ t ∈ tags, t.isTag = true) (ts : List Token) (t : Token)
    (slice : List Token) :
    node ⟨ts ++ tags, t, slice⟩ = (node ⟨ts, t, slice⟩).addTags (tags.map fun t => ⟨t.text⟩) := by
  simp only [node, heading, waitingTags_append_tags htags]
  rfl

/-- Tags in front of a feature token go to its feature, if they stand directly there. -/
theorem featureHeading_insert_tags (htags : ∀ t ∈ tags, t.isTag = true) (ts : List Token)
    (t : Token) (slice : List Token) :
    featureHeading ⟨ts ++ tags, t, slice⟩ =
      (featureHeading ⟨ts, t, slice⟩).addTags (tags.map fun t => ⟨t.text⟩) := by
  simp only [featureHeading, Heading.addTags, takeTrailing_append_of_forall htags,
    List.map_append]

/-- Tags at the end of its body leave a feature as it is. -/
theorem feature_append_tags (htags : ∀ t ∈ tags, t.isTag = true) (q : Part Token) :
    feature { q with slice := q.slice ++ tags } = feature q := by
  have hdescription := description_insert_tags htags q.slice []
  rw [List.append_nil, List.append_nil] at hdescription
  simp only [feature, featureHeading, hdescription, containers_append_tags htags]

/-- Behind a token that is no tag the features do not see what stands before it. -/
theorem feature_of_append_cons {t : Token} (ht : t.isTag = false) (ts : List Token)
    (q : Part Token) : feature { q with before := ts ++ t :: q.before } = feature q := by
  simp only [feature, featureHeading, takeTrailing_append_cons ht]

theorem features_append_feature {t : Token} (ht : t.isFeature = true) (ts us : List Token) :
    features (ts ++ t :: us) =
      features ts ++ feature ⟨ts, t, us.takeWhile (fun u => !u.isFeature)⟩ :: features us := by
  rw [features, parts_append_cons_of_pos ht, List.map_append, List.map_cons, List.map_map]
  congr 2
  apply List.map_congr_left
  intro q _
  exact feature_of_append_cons (Token.isTag_of_isFeature ht) ts q

/-- Any other token belongs to the last feature before it. -/
theorem features_append_other {t : Token} (hf : t.isFeature = false) (ht : t.isTag = false)
    (ts us : List Token) :
    features (ts ++ t :: us) =
      (modifyLast (fun q => { q with slice := q.slice ++ t :: us.takeWhile (fun u => !u.isFeature) })
          (parts Token.isFeature ts)).map feature
        ++ features us := by
  rw [features, parts_append_cons_of_neg hf, List.map_append, List.map_map]
  congr 1
  apply List.map_congr_left
  intro q _
  exact feature_of_append_cons ht ts q

theorem parts_append_tags (htags : ∀ t ∈ tags, t.isTag = true) (ts : List Token) :
    parts Token.isFeature (ts ++ tags) =
      modifyLast (fun q => { q with slice := q.slice ++ tags }) (parts Token.isFeature ts) := by
  have hnone : ∀ t ∈ tags, t.isFeature = false :=
    fun t ht => Token.isFeature_of_isTag (htags t ht)
  have htake : tags.takeWhile (fun t => !t.isFeature) = tags :=
    List.takeWhile_eq_self_iff.2 fun t ht => by simp [hnone t ht]
  rw [parts_append, parts_eq_nil.2 hnone, List.map_nil, List.append_nil, htake]

theorem features_append_tags (htags : ∀ t ∈ tags, t.isTag = true) (ts : List Token) :
    features (ts ++ tags) = features ts := by
  rw [features, parts_append_tags htags, map_modifyLast_of_eq (feature_append_tags htags), features]

theorem length_features (ts : List Token) : (features ts).length = ts.countP Token.isFeature := by
  rw [features, List.length_map, length_parts]

/-- The number of entries that the scenario list of a body has. -/
theorem length_containers_item? (body : List Token) :
    ((containers body).filterMap item?).length =
      body.countP fun t => t.kind == .scenario || t.kind == .scenarioOutline := by
  rw [containers_item?, List.length_map, ← List.countP_eq_length_filter]
  have hcount : (parts Token.isContainer body).countP (fun r => !isBackground r) =
      ((parts Token.isContainer body).map Part.head).countP (fun t => t.kind != .background) := by
    rw [List.countP_map]
    rfl
  rw [hcount, parts_map_head, List.countP_filter]
  apply List.countP_congr
  intro t _
  cases hk : t.kind <;> simp [Token.isContainer, TokenKind.isContainer, hk]

/-- A body has a background if one of its tokens opens one. -/
theorem containers_background?_eq_nil {body : List Token} :
    (containers body).filterMap background? = [] ↔
      body.any (fun t => t.kind == .background) = false := by
  rw [containers_background?, List.map_eq_nil_iff, List.filter_eq_nil_iff, List.any_eq_false]
  constructor
  · intro h t ht hk
    have hmem : t ∈ (parts Token.isContainer body).map Part.head := by
      rw [parts_map_head, List.mem_filter]
      exact ⟨ht, by simp_all [Token.isContainer, TokenKind.isContainer]⟩
    obtain ⟨r, hr, rfl⟩ := List.mem_map.1 hmem
    exact h r hr hk
  · intro h r hr
    obtain ⟨rest, hbody⟩ := exists_append_of_mem_parts hr
    exact h r.head (by rw [hbody]; simp)

/-- A container token takes its place in the last feature before it. -/
theorem features_append_container {t : Token} (ht : t.isContainer = true) {before : List Token}
    {qs : List (Part Token)} {q : Part Token} (hq : parts Token.isFeature before = qs ++ [q])
    (after : List Token) :
    let m := after.takeWhile (fun u => !u.isFeature)
    features (before ++ t :: after) =
      qs.map feature
        ++ featureOf (featureHeading q) (description (q.slice ++ t :: m))
            (containers q.slice
              ++ container ⟨q.slice, t, m.takeWhile (fun u => !u.isContainer)⟩ :: containers m)
          :: features after := by
  intro m
  obtain ⟨hopen, hf⟩ := opensNode_of_isContainer t ht
  rw [features_append_other hf (Token.isTag_of_opensNode hopen), hq, modifyLast_concat, List.map_append,
    List.append_assoc, List.map_singleton, List.singleton_append, feature,
    containers_append_cons ht]
  rfl

/-- With tags in front of the token, its node is the only one to change. -/
theorem features_insert_container (htags : ∀ u ∈ tags, u.isTag = true) {t : Token}
    (ht : t.isContainer = true) {before : List Token} {qs : List (Part Token)} {q : Part Token}
    (hq : parts Token.isFeature before = qs ++ [q]) (after : List Token) :
    let m := after.takeWhile (fun u => !u.isFeature)
    features (before ++ tags ++ t :: after) =
      qs.map feature
        ++ featureOf (featureHeading q) (description (q.slice ++ t :: m))
            (containers q.slice
              ++ container ⟨q.slice ++ tags, t, m.takeWhile (fun u => !u.isContainer)⟩
                :: containers m)
          :: features after := by
  intro m
  have hq' : parts Token.isFeature (before ++ tags) =
      qs ++ [{ q with slice := q.slice ++ tags }] := by
    rw [parts_append_tags htags, hq, modifyLast_concat]
  have h := features_append_container ht hq' after
  simp only [description_insert_tags htags, containers_append_tags htags] at h
  exact h

section FeatureOf

variable {h : Heading} {text : Option Text} {cs cs' : List OpenContainer}

/-- A background that another one follows leaves no trace. -/
theorem featureOf_background_of_ne_nil (hne : cs'.filterMap background? ≠ []) (b c : Container) :
    featureOf h text (cs ++ .background b :: cs') = featureOf h text (cs ++ .background c :: cs') := by
  have hlast (d : Container) : ((cs ++ .background d :: cs').filterMap background?).getLast? =
      (cs'.filterMap background?).getLast? := by
    obtain ⟨bs, e, hbs⟩ := (List.eq_nil_or_concat' _).resolve_left hne
    rw [List.filterMap_append, List.filterMap_cons_some (f := background?) rfl, hbs,
      ← List.cons_append, ← List.append_assoc, List.getLast?_concat, List.getLast?_concat]
  have hitems (d : Container) : (cs ++ .background d :: cs').filterMap item? =
      (cs ++ cs').filterMap item? := by
    rw [List.filterMap_append, List.filterMap_cons_none rfl, List.filterMap_append]
  rw [featureOf, featureOf, hlast, hlast, hitems, hitems]

/-- The last background is that of the feature. -/
theorem featureOf_background (hnil : cs'.filterMap background? = []) (c : Container) :
    featureOf h text (cs ++ .background c :: cs') =
      ⟨h, text, some c, (cs ++ cs').filterMap item?⟩ := by
  rw [featureOf, List.filterMap_append, List.filterMap_cons_some (f := background?) rfl, hnil,
    List.getLast?_concat, List.filterMap_append, List.filterMap_cons_none rfl,
    List.filterMap_append]

/-- A scenario or an outline is an entry of the scenario list. -/
theorem featureOf_item {c : OpenContainer} {i : ScenarioItem} (hi : item? c = some i) :
    featureOf h text (cs ++ c :: cs') =
      ⟨h, text, ((cs ++ cs').filterMap background?).getLast?,
        cs.filterMap item? ++ i :: cs'.filterMap item?⟩ := by
  have hnone : background? c = none := by cases c <;> first | rfl | cases hi
  rw [featureOf, List.filterMap_append, List.filterMap_cons_none hnone, List.filterMap_append,
    List.filterMap_append, List.filterMap_cons_some hi]

end FeatureOf

end Reading

/-! ## Features with more tags -/

theorem modify_append_cons {α : Type} (f : α → α) (l : List α) (a : α) (m : List α) :
    (l ++ a :: m).modify l.length f = l ++ f a :: m := by
  rw [List.modify_eq_take_cons_drop (by simp)]
  simp

theorem getElem?_append_cons {α : Type} (l : List α) (a : α) (m : List α) :
    (l ++ a :: m)[l.length]? = some a := by
  simp

/-- That `gs` are the features `fs` with more tags at the node which a token opens, and
that this node stands at the given place.  Without a place all is the same. -/
def TagsAdded (place : Option NodePlace) (token : Token) (tags : List Tag)
    (fs gs : List Feature) : Prop :=
  match place with
  | none => gs = fs
  | some place =>
    (∃ h, place.heading? fs = some h ∧ h.keyword = token.keyword ∧ h.name = token.text) ∧
      gs = place.addTags tags fs

namespace TagsAdded

open Reading

variable {tags : List Token} {t : Token}

/-- Tags in front of a feature token. -/
theorem of_feature (htags : ∀ u ∈ tags, u.isTag = true) (ht : t.isFeature = true)
    (before after : List Token) :
    TagsAdded (NodePlace.of? before t.kind after) t (tags.map fun u => ⟨u.text⟩)
      (build (before ++ t :: after)) (build (before ++ tags ++ t :: after)) := by
  have hk := Token.kind_of_isFeature ht
  have hplace : NodePlace.of? before t.kind after =
      some (.feature (features before).length) := by
    rw [hk, length_features]
    rfl
  rw [hplace, build_eq_features, build_eq_features, features_append_feature ht,
    features_append_feature ht, features_append_tags htags]
  constructor
  · refine ⟨featureHeading ⟨before, t, after.takeWhile (fun u => !u.isFeature)⟩, ?_, rfl, rfl⟩
    rw [NodePlace.heading?, getElem?_append_cons]
    rfl
  · rw [NodePlace.addTags, modify_append_cons]
    simp only [feature, featureOf, featureHeading_insert_tags htags]

/-- Tags in front of a background token. -/
theorem of_background (htags : ∀ u ∈ tags, u.isTag = true) (hk : t.kind = .background)
    {before : List Token} {qs : List (Part Token)} {q : Part Token}
    (hq : parts Token.isFeature before = qs ++ [q]) (after : List Token) :
    TagsAdded (NodePlace.of? before t.kind after) t (tags.map fun u => ⟨u.text⟩)
      (build (before ++ t :: after)) (build (before ++ tags ++ t :: after)) := by
  have ht : t.isContainer = true := by simp [Token.isContainer, TokenKind.isContainer, hk]
  have hcontainer (ts slice : List Token) :
      container ⟨ts, t, slice⟩ = .background (node ⟨ts, t, slice⟩) := by
    simp only [container, hk]
  have hplace : NodePlace.of? before t.kind after =
      if (after.takeWhile (fun u => !u.isFeature)).any (fun u => u.kind == .background) then none
      else some (.background (qs.map feature).length) := by
    rw [hk, List.length_map]
    simp only [NodePlace.of?, (NodePlace.before_eq hq).1]
  rw [hplace, build_eq_features, build_eq_features, features_append_container ht hq,
    features_insert_container htags ht hq, hcontainer, hcontainer, node_insert_tags htags]
  cases hany : (after.takeWhile (fun u => !u.isFeature)).any (fun u => u.kind == .background) with
  | true =>
    -- a later background replaces this one
    have hne : (containers (after.takeWhile fun u => !u.isFeature)).filterMap background? ≠ [] := by
      intro hnil
      rw [containers_background?_eq_nil, hany] at hnil
      cases hnil
    show _ = _
    rw [featureOf_background_of_ne_nil hne]
  | false =>
    have hnil := containers_background?_eq_nil.2 hany
    rw [featureOf_background hnil, featureOf_background hnil]
    constructor
    · exact ⟨_, by rw [NodePlace.heading?, getElem?_append_cons]; rfl, rfl, rfl⟩
    · rw [NodePlace.addTags, modify_append_cons]
      rfl

/-- Tags in front of the token of a scenario or an outline. -/
theorem of_item (htags : ∀ u ∈ tags, u.isTag = true)
    (hk : t.kind = .scenario ∨ t.kind = .scenarioOutline)
    {before : List Token} {qs : List (Part Token)} {q : Part Token}
    (hq : parts Token.isFeature before = qs ++ [q]) (after : List Token) :
    TagsAdded (NodePlace.of? before t.kind after) t (tags.map fun u => ⟨u.text⟩)
      (build (before ++ t :: after)) (build (before ++ tags ++ t :: after)) := by
  have ht : t.isContainer = true := by
    rcases hk with hk | hk <;> simp [Token.isContainer, TokenKind.isContainer, hk]
  have hitem (ts slice : List Token) :
      item? (container ⟨ts, t, slice⟩) = some (item ⟨ts, t, slice⟩) := by
    rcases hk with hk | hk <;> simp only [container, item, item?, hk]
  -- the entry of the scenario list is the only thing that sees the tags
  have hadd (slice : List Token) : item ⟨q.slice ++ tags, t, slice⟩ =
      (item ⟨q.slice, t, slice⟩).addTags (tags.map fun u => ⟨u.text⟩) := by
    rcases hk with hk | hk <;>
      simp only [item, hk, node_insert_tags htags, ScenarioItem.addTags]
  have hheading (slice : List Token) :
      (item ⟨q.slice, t, slice⟩).container.toHeading = heading ⟨q.slice, t, slice⟩ := by
    rcases hk with hk | hk <;> simp only [item, hk] <;> rfl
  obtain ⟨hcount, hslice⟩ := NodePlace.before_eq hq
  have hplace : NodePlace.of? before t.kind after =
      some (.item (qs.map feature).length ((containers q.slice).filterMap item?).length) := by
    rw [List.length_map, length_containers_item?, ← hslice]
    rcases hk with hk | hk <;> simp only [NodePlace.of?, hk, hcount]
  rw [hplace, build_eq_features, build_eq_features, features_append_container ht hq,
    features_insert_container htags ht hq, featureOf_item (hitem _ _),
    featureOf_item (hitem _ _), hadd]
  constructor
  · refine ⟨heading ⟨q.slice, t, (after.takeWhile fun u => !u.isFeature).takeWhile
      fun u => !u.isContainer⟩, ?_, rfl, rfl⟩
    rw [NodePlace.heading?, getElem?_append_cons, Option.bind_some, getElem?_append_cons,
      Option.map_some, hheading]
  · rw [NodePlace.addTags, modify_append_cons]
    simp only [modify_append_cons]

/-- Tags in front of the token of a container that no feature stands before. -/
theorem of_outside (htags : ∀ u ∈ tags, u.isTag = true) (ht : t.isContainer = true)
    {before : List Token} (hq : parts Token.isFeature before = []) (after : List Token) :
    TagsAdded (NodePlace.of? before t.kind after) t (tags.map fun u => ⟨u.text⟩)
      (build (before ++ t :: after)) (build (before ++ tags ++ t :: after)) := by
  obtain ⟨hopen, hf⟩ := opensNode_of_isContainer t ht
  have hplace : NodePlace.of? before t.kind after = none := by
    have hcount : before.countP Token.isFeature = 0 := by
      rw [← length_parts, hq]
      rfl
    unfold NodePlace.of?
    rw [hcount]
    cases hk : t.kind <;> simp_all [Token.isContainer, TokenKind.isContainer]
  have hq' : parts Token.isFeature (before ++ tags) = [] := by
    rw [parts_append_tags htags, hq]
    rfl
  rw [hplace, build_eq_features, build_eq_features,
    features_append_other hf (Token.isTag_of_opensNode hopen),
    features_append_other hf (Token.isTag_of_opensNode hopen), hq, hq']
  rfl

/-- Tags in front of the token of a node. -/
theorem of_node (htags : ∀ u ∈ tags, u.isTag = true)
    (hk : t.kind ∈ [.feature, .background, .scenario, .scenarioOutline])
    (before after : List Token) :
    TagsAdded (NodePlace.of? before t.kind after) t (tags.map fun u => ⟨u.text⟩)
      (build (before ++ t :: after)) (build (before ++ tags ++ t :: after)) := by
  by_cases hf : t.isFeature = true
  · exact of_feature htags hf before after
  · have ht : t.isContainer = true := by
      cases htk : t.kind <;> simp_all [Token.isFeature, Token.isContainer, TokenKind.isContainer]
    rcases List.eq_nil_or_concat' (parts Token.isFeature before) with hq | ⟨qs, q, hq⟩
    · exact of_outside htags ht hq after
    · by_cases hbackground : t.kind = .background
      · exact of_background htags hbackground hq after
      · refine of_item htags ?_ hq after
        cases htk : t.kind <;> simp_all [Token.isFeature]

end TagsAdded

/-! ## The line in a document -/

namespace Line

variable {d : Dialect} {words : List Text} {m : KeywordMatch} {line : Text} {xs ys : List Text}

/-- A line of tags with the given words. -/
structure IsTagLine (d : Dialect) (words : List Text) (line : Text) : Prop where
  mark : (Text.trim line).head? = some '@'
  structural : match? d Role.structural (Text.trim line) = none
  words_eq : tagWords (Text.trim line) = words
  ne_nil : words ≠ []

/-- A line that opens a node: a feature, a background, a scenario or an outline. -/
structure OpensNode (d : Dialect) (m : KeywordMatch) (line : Text) : Prop where
  effective : isEffective (Text.trim line) = true
  structural : match? d Role.structural (Text.trim line) = some m
  role : m.role ∈ [.feature, .background, .scenario, .scenarioOutline]

namespace IsTagLine

theorem shape_eq (h : IsTagLine d words line) : shape d (Text.trim line) = .tags words := by
  obtain ⟨rest, hrest⟩ := List.head?_eq_some_iff.1 h.mark
  have htags : tags (Text.trim line) = words := by
    rw [← h.words_eq, hrest]
    rfl
  obtain ⟨w, ws, rfl⟩ := List.exists_cons_of_ne_nil h.ne_nil
  simp only [shape, h.structural, htags]

theorem isEffective (h : IsTagLine d words line) : isEffective (Text.trim line) = true := by
  obtain ⟨rest, hrest⟩ := List.head?_eq_some_iff.1 h.mark
  rw [hrest]
  rfl

/-- A line of tags at the end of a document adds its tags to the tokens, and leaves
no block open. -/
theorem scan_concat (h : IsTagLine d words line) (hopen : leavesBlockOpen d xs = false) :
    leavesBlockOpen d (xs ++ [line]) = false ∧
      foundTokens (scan d (xs ++ [line])) =
        foundTokens (scan d xs) ++ words.map fun w => ⟨.tag, Token.tagMark, w, xs.length⟩ := by
  have heff : effective (xs ++ [line]) = effective xs ++ [⟨xs.length, Text.trim line⟩] :=
    effective_append_cons xs [] h.isEffective
  have hrun := ScanMode.run_append d .plain (effective xs) [⟨xs.length, Text.trim line⟩]
  rw [← heff, ScanMode.run, ScanMode.advance_of_tags h.shape_eq hopen] at hrun
  constructor
  · rw [leavesBlockOpen, hrun]
    rfl
  · rw [scan, hrun, scan, ScanMode.atEnd_of_not_isBlock hopen]
    simp only [ScanMode.run, ScanMode.atEnd, ScanMode.pending, foundTokens_append, foundTokens_tags,
      List.append_nil, List.append_assoc]

end IsTagLine

theorem OpensNode.shape_eq (h : OpensNode d m line) : shape d (Text.trim line) = .keyworded m := by
  simp only [shape, h.structural]

/-- The tokens below the line of a node, numbered from there. -/
def tokensBelow (d : Dialect) (m : KeywordMatch) (ys : List Text) : List Token :=
  ScanMode.tokensFrom d (ScanMode.afterKeyword m.role) (effective ys)

/-- The line of a node in the middle of a document: what is found below it depends
on the lines above through their number alone. -/
theorem foundTokens_scan_node (h : OpensNode d m line) (hopen : leavesBlockOpen d xs = false)
    (ys : List Text) :
    foundTokens (scan d (xs ++ line :: ys)) =
      foundTokens (scan d xs) ++ m.token xs.length
        :: (tokensBelow d m ys).map (Token.renumber (xs.length + 1 + ·)) := by
  have hmode : (ScanMode.afterKeyword m.role).renumber (xs.length + 1 + ·) =
      ScanMode.afterKeyword m.role := by
    cases m.role <;> rfl
  have hbelow := ScanMode.tokensFrom_renumber (g := (xs.length + 1 + ·)) d
    (ScanMode.afterKeyword m.role) (effective ys)
  rw [hmode] at hbelow
  rw [foundTokens_scan, effective_append_cons xs ys h.effective, ScanMode.tokensFrom_append,
    ScanMode.tokensFrom_cons, ScanMode.advance_of_keyworded h.shape_eq hopen, hbelow, scan,
    ScanMode.atEnd_of_not_isBlock hopen]
  simp only [foundTokens_append, foundTokens_token, foundTokens_nil, List.append_assoc,
    List.singleton_append, tokensBelow]

/-- With a line of tags above the line of a node its tags stand in front of the token,
and apart from line numbers this is all. -/
theorem build_insert_tags {tagLine : Text} (hopen : leavesBlockOpen d xs = false)
    (htags : IsTagLine d words tagLine) (hnode : OpensNode d m line) :
    build (foundTokens (scan d (xs ++ tagLine :: line :: ys))) =
      build (foundTokens (scan d xs)
        ++ (words.map fun w => ⟨.tag, Token.tagMark, w, xs.length⟩)
        ++ m.token xs.length
          :: (tokensBelow d m ys).map (Token.renumber (xs.length + 1 + ·))) := by
  obtain ⟨hopen', hfound⟩ := htags.scan_concat hopen
  have hsplit : xs ++ tagLine :: line :: ys = (xs ++ [tagLine]) ++ line :: ys := by simp
  rw [hsplit, foundTokens_scan_node hnode hopen', hfound]
  -- what stands below moves by a line, which features do not know
  rw [← build_renumber fun _ => 0]
  conv_rhs => rw [← build_renumber fun _ => 0]
  simp only [List.map_append, List.map_cons, List.map_map]
  rfl

end Line

namespace DialectTable

variable {t : DialectTable} {d : Dialect} {words : List Text} {m : KeywordMatch}
  {xs ys : List Text} {tagLine line : Text}

/-- **A line of tags changes one list of tags.**  Where no text block is open, a line of
tags right above the line of a node appends its words to the tags of that node, behind
those which it has already.  If the node is not among the features, since no feature
stands before it or another background replaces it, nothing changes at all. -/
theorem parse_insert_tags (hd : t.dialectOf (xs ++ line :: ys) = .ok d)
    (hopen : Line.leavesBlockOpen d xs = false) (htags : Line.IsTagLine d words tagLine)
    (hnode : Line.OpensNode d m line) :
    ∃ after fs gs,
      t.tokenize (xs ++ line :: ys) =
          .ok (foundTokens (Line.scan d xs) ++ m.token xs.length :: after) ∧
        t.parse (xs ++ line :: ys) = .ok fs ∧ t.parse (xs ++ tagLine :: line :: ys) = .ok gs ∧
        TagsAdded (NodePlace.of? (foundTokens (Line.scan d xs)) m.role.kind after)
          (m.token xs.length) (words.map Tag.mk) fs gs := by
  have hdirective : Line.directive? tagLine = none :=
    Line.directive?_of_isEffective htags.isEffective
  have hd' : t.dialectOf (xs ++ tagLine :: line :: ys) = .ok d :=
    (dialectOf_congr (Line.lastDirective?_insert hdirective _ _)).trans hd
  have hscan := Line.foundTokens_scan_node hnode hopen ys
  have hkind : (m.token xs.length).kind ∈
      [.feature, .background, .scenario, .scenarioOutline] :=
    List.mem_map_of_mem (f := Role.kind) hnode.role
  have hnew : ∀ u ∈ words.map fun w => Token.mk .tag Token.tagMark w xs.length,
      u.isTag = true := by
    simp [Token.isTag]
  have htagged := TagsAdded.of_node hnew hkind (foundTokens (Line.scan d xs))
    ((Line.tokensBelow d m ys).map (Token.renumber (xs.length + 1 + ·)))
  rw [← Line.build_insert_tags hopen htags hnode, ← hscan, List.map_map] at htagged
  exact ⟨_, _, _, by rw [tokenize_of_dialectOf hd, hscan], parse_of_dialectOf hd,
    parse_of_dialectOf hd', htagged⟩

/-- A scenario below a background that a later one replaces: the new tags stand behind
the one that it has. -/
theorem parse_insert_tags_scenario :
    let xs : List Text := ["@f", "Feature: A", "about", "@b", "Background:", "@x"]
    let tagLine : Text := "  @y, @z z"
    let line : Text := "Scenario: S"
    let ys : List Text := ["Given a", "Background: B"]
    let m : KeywordMatch := ⟨.scenario, "Scenario", "S"⟩
    Line.IsTagLine Dialect.english ["y", "z"] tagLine ∧ Line.OpensNode Dialect.english m line ∧
      Line.leavesBlockOpen Dialect.english xs = false ∧
      ∃ fs gs, standard.parse (xs ++ line :: ys) = .ok fs ∧
        standard.parse (xs ++ tagLine :: line :: ys) = .ok gs ∧
        gs = (NodePlace.item 0 0).addTags [⟨"y"⟩, ⟨"z"⟩] fs ∧
        ((NodePlace.item 0 0).heading? gs).map Heading.tags = some [⟨"x"⟩, ⟨"y"⟩, ⟨"z"⟩] := by
  intro xs tagLine line ys m
  have htags : Line.IsTagLine Dialect.english ["y", "z"] tagLine :=
    ⟨by decide, by decide, by decide, by decide⟩
  have hnode : Line.OpensNode Dialect.english m line := ⟨by decide, by decide, by decide⟩
  have hopen : Line.leavesBlockOpen Dialect.english xs = false := by decide
  have hd : standard.dialectOf (xs ++ line :: ys) = .ok Dialect.english := rfl
  obtain ⟨after, fs, gs, htokens, hfs, hgs, hadded⟩ := parse_insert_tags hd hopen htags hnode
  let below : List Token :=
    [⟨.step .givenStep, "Given", "a", 7⟩, ⟨.background, "Background", "B", 8⟩]
  have hlisted : standard.tokenize (xs ++ line :: ys) =
      .ok (foundTokens (Line.scan Dialect.english xs) ++ m.token xs.length :: below) := by decide
  have hafter : after = below :=
    (List.cons.inj (List.append_cancel_left (Except.ok.inj (htokens.symm.trans hlisted)))).2
  have hplace : NodePlace.of? (foundTokens (Line.scan Dialect.english xs)) m.role.kind below =
      some (.item 0 0) := by decide
  rw [hafter, hplace] at hadded
  have hall : (standard.parse (xs ++ tagLine :: line :: ys)).map
      (fun gs => ((NodePlace.item 0 0).heading? gs).map Heading.tags) =
      .ok (some [⟨"x"⟩, ⟨"y"⟩, ⟨"z"⟩]) := by decide
  rw [hgs] at hall
  exact ⟨htags, hnode, hopen, fs, gs, hfs, hgs, hadded.2, Except.ok.inj hall⟩

end DialectTable

end Gherkin
