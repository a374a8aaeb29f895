import SecOpent.Cases.LogicStrategies
import SecOpent.Python.DecimalFloats

/-!
# The signatures of logic tests

The signature of a test is a digest of the digest of the model, the class of the test, the version
of its strategy and its target. The target of a test of two transitions has their ids with an arrow
between them, so that two pairs have one target where an arrow is in an id. The digest of the model
changes with every change of the model, so that the tests of a changed model are all new.

## Main definitions

* `ArrowClash`: the ids of two pairs are one text
* `AppModel.Hashed`: the digest of the model has been computed
* `SkipsUnchanged`: of the tests of a model, those that were known before are left out, and no others

## Main results

* `computeSignature_eq_iff`, `computeSignature_ne`: what a signature stands for
* `signatures_nodup_iff`: exactly when no two tests of a model have one signature
* `skipsUnchanged_iff`: exactly when incremental generation leaves out the tests that are known
-/

namespace SecOpent

open Python

/-! ## Signatures -/

section Signatures

variable {H : Sha256} {digest digest' target target' : String} {cls cls' : LogicTestClass}

theorem payload_toList (digest cls version target : String) :
    ("|".intercalate [digest, cls, version, target]).toList =
      digest.toList ++ '|' :: (cls.toList ++ '|' :: (version.toList ++ '|' :: target.toList)) := by
  rw [String.toList_intercalate]
  simp [List.intercalate, List.intersperse]

theorem bar_not_mem_value (cls : LogicTestClass) : '|' ∉ cls.value.toList := by
  cases cls <;> decide

theorem LogicTestClass.value_inj (h : cls.value = cls'.value) : cls = cls' := by
  revert h
  cases cls <;> cases cls' <;> decide

theorem computeSignature_inj (hinjective : Function.Injective H.hexdigest) {version : String}
    (h : computeSignature H digest cls version target =
      computeSignature H digest' cls' version target') :
    digest.toList ++ '|' :: (cls.value.toList ++ '|' :: (version.toList ++ '|' :: target.toList)) =
      digest'.toList ++
        '|' :: (cls'.value.toList ++ '|' :: (version.toList ++ '|' :: target'.toList)) := by
  have hpayload := hinjective (List.append_cancel_left (String.ofList_inj.mp h))
  rwa [payload_toList, payload_toList] at hpayload

/-- **A signature stands for** the class and the target of a test, where the model is the same. -/
theorem computeSignature_eq_iff (hinjective : Function.Injective H.hexdigest) {version : String} :
    computeSignature H digest cls version target = computeSignature H digest cls' version target' ↔
      cls = cls' ∧ target = target' := by
  constructor
  · intro h
    -- The digest is the same on both sides, and no class has a bar, so the next one ends it.
    have hrest := (List.cons.inj (List.append_cancel_left (computeSignature_inj hinjective h))).2
    have hsplit := congrArg (partition '|') hrest
    rw [partition_append '|' (bar_not_mem_value cls), partition_append '|' (bar_not_mem_value cls')]
      at hsplit
    obtain ⟨hcls, hversion⟩ := Prod.mk.inj hsplit
    have htarget := (List.cons.inj (List.append_cancel_left hversion)).2
    exact ⟨LogicTestClass.value_inj (String.toList_inj.mp hcls), String.toList_inj.mp htarget⟩
  · rintro ⟨rfl, rfl⟩
    rfl

/-- The signatures for two digests differ. -/
theorem computeSignature_ne (hinjective : Function.Injective H.hexdigest) {version : String}
    (hne : digest ≠ digest') (hdigest : '|' ∉ digest.toList) (hdigest' : '|' ∉ digest'.toList) :
    computeSignature H digest cls version target ≠ computeSignature H digest' cls' version target' := by
  intro h
  have hsplit := congrArg (partition '|') (computeSignature_inj hinjective h)
  rw [partition_append '|' hdigest, partition_append '|' hdigest'] at hsplit
  exact hne (String.toList_inj.mp (Prod.mk.inj hsplit).1)

end Signatures

/-! ## Targets -/

/-- The first id of the second pair goes on after an arrow with the start of the second id of the first
pair: `a->b` and `c->d` are one text. -/
def ArrowClash (a b c d : String) : Prop := ∃ m, c = a ++ ("->" ++ m) ∧ b = m ++ ("->" ++ d)

theorem ArrowClash.eq {a b c d : String} (h : ArrowClash a b c d) :
    a ++ ("->" ++ b) = c ++ ("->" ++ d) := by
  obtain ⟨m, rfl, rfl⟩ := h
  simp only [String.append_assoc]

theorem ArrowClash.ne {a b c d : String} (h : ArrowClash a b c d) : a ≠ c := by
  obtain ⟨m, rfl, -⟩ := h
  intro heq
  have hlength := congrArg String.length heq
  have harrow : "->".length = 2 := rfl
  rw [String.length_append, String.length_append, harrow] at hlength
  omega

/-- Where the first of two equal texts has the shorter start, the longer one has the first arrow. -/
theorem arrowClash_of_append {a b d : String} {s : Str}
    (h : '-' :: '>' :: b.toList = s ++ '-' :: '>' :: d.toList) :
    s = [] ∧ b = d ∨ ArrowClash a b (a ++ String.ofList s) d := by
  -- What the longer start adds is nothing, half an arrow, or a whole arrow and more.
  rcases s with _ | ⟨x, _ | ⟨y, m⟩⟩
  · exact .inl ⟨rfl, String.toList_inj.mp (List.cons.inj (List.cons.inj h).2).2⟩
  · cases (List.cons.inj (List.cons.inj h).2).1
  · simp only [List.cons_append, List.cons.injEq] at h
    obtain ⟨rfl, rfl, h⟩ := h
    refine .inr ⟨String.ofList m, ?_, ?_⟩
    · exact String.toList_inj.mp (by simp)
    · exact String.toList_inj.mp (by simpa using h)

/-- **Two targets are one** exactly if the pairs have the same ids, or clash at an arrow. -/
theorem arrow_eq_iff {a b c d : String} :
    a ++ ("->" ++ b) = c ++ ("->" ++ d) ↔
      (a = c ∧ b = d) ∨ ArrowClash a b c d ∨ ArrowClash c d a b := by
  constructor
  · intro h
    have hlist : a.toList ++ '-' :: '>' :: b.toList = c.toList ++ '-' :: '>' :: d.toList := by
      simpa using congrArg String.toList h
    rcases List.append_eq_append_iff.mp hlist with ⟨s, hc, hrest⟩ | ⟨s, ha, hrest⟩
    · obtain rfl : c = a ++ String.ofList s := String.toList_inj.mp (by simpa using hc)
      rcases arrowClash_of_append (a := a) hrest with ⟨rfl, rfl⟩ | hclash
      · exact .inl ⟨by simp, rfl⟩
      · exact .inr (.inl hclash)
    · obtain rfl : a = c ++ String.ofList s := String.toList_inj.mp (by simpa using ha)
      rcases arrowClash_of_append (a := c) hrest with ⟨rfl, rfl⟩ | hclash
      · exact .inl ⟨by simp, rfl⟩
      · exact .inr (.inr hclash)
  · rintro (⟨rfl, rfl⟩ | hclash | hclash)
    · rfl
    · exact hclash.eq
    · exact hclash.eq.symm

/-! ## Distinct signatures -/

/-- Items of groups with distinct tags are distinct exactly if those of each group are. -/
theorem nodup_tagged_iff {κ α : Type} {groups : List (κ × List α)}
    (htags : (groups.map Prod.fst).Nodup) :
    (groups.flatMap fun group => group.2.map (Prod.mk group.1)).Nodup ↔
      ∀ group ∈ groups, group.2.Nodup := by
  have hdisjoint : groups.Pairwise (Function.onFun List.Disjoint fun group =>
      group.2.map (Prod.mk group.1)) := by
    refine (List.pairwise_map.mp htags).imp fun {group group'} hne x hx hx' => ?_
    obtain ⟨_, -, rfl⟩ := List.mem_map.mp hx
    obtain ⟨_, -, heq⟩ := List.mem_map.mp hx'
    exact hne (Prod.mk.inj heq).1.symm
  rw [List.nodup_flatMap, and_iff_left hdisjoint]
  exact forall₂_congr fun group _ => List.nodup_map_iff (Prod.mk_right_injective group.1)

/-- What a signature stands for. -/
def LogicTest.key (test : LogicTest) : LogicTestClass × String := (test.testClass, test.target)

section Distinct

variable {U : Unicode} {repr : Json → Except String Str} {F : FloatArithmetic} {H : Sha256}
  {model : AppModel} {cases : List LogicTestCase}

/-- The targets of the tests of a model, by their classes. -/
theorem map_key_tests : (model.tests U F).map LogicTest.key =
    [(LogicTestClass.replay, (model.transitions.filter fun t => !t.idempotent).map (·.id)),
      (.skipStep, (adjacentPairs model).map AppModel.skipTarget),
      (.outOfOrder, (adjacentPairs model).map AppModel.orderTarget),
      (.boundary, (boundaryProbes U F model).map fun probe => boundaryTarget probe.1 probe.2.1),
      (.invariantViolation, (model.invariants.filterMap (violation U F model)).map (·.1.id))].flatMap
      fun group => group.2.map (Prod.mk group.1) := by
  simp only [AppModel.tests, AppModel.sequenceTests, AppModel.boundaryTests, AppModel.violationTests,
    List.map_append, List.map_map, List.flatMap_cons, List.flatMap_nil, List.append_nil,
    List.append_assoc]
  rfl

/-- The pairs of adjacent transitions are distinct. -/
theorem nodup_adjacentPairs (h : model.transitions.Nodup) : (adjacentPairs model).Nodup := by
  let groups := model.transitions.map fun t =>
    (t, model.transitions.filter fun t' => t.id ≠ t'.id && t.toState == t'.fromState)
  have htags : (groups.map Prod.fst).Nodup := by
    rwa [List.map_map, show Prod.fst ∘ _ = id from rfl, List.map_id]
  have htagged := nodup_tagged_iff htags
  rw [List.flatMap_map] at htagged
  -- The pairs of one transition are told apart by the transition that follows.
  refine htagged.mpr fun group hgroup => ?_
  obtain ⟨t, -, rfl⟩ := List.mem_map.mp hgroup
  exact h.filter _

theorem mem_adjacentPairs {pair : AppModel.Transition × AppModel.Transition}
    (h : pair ∈ adjacentPairs model) : pair.1 ∈ model.transitions ∧ pair.2 ∈ model.transitions := by
  obtain ⟨t, ht, hpair⟩ := List.mem_flatMap.mp h
  obtain ⟨t', ht', rfl⟩ := List.mem_map.mp hpair
  exact ⟨ht, List.mem_of_mem_filter ht'⟩

/-- Pairs have distinct targets exactly if no two of them clash at an arrow. -/
theorem nodup_targets_iff {α : Type} {pairs : List α} {a b : α → String} (hpairs : pairs.Nodup)
    (hids : ∀ p ∈ pairs, ∀ q ∈ pairs, a p = a q → b p = b q → p = q) :
    (pairs.map fun p => a p ++ ("->" ++ b p)).Nodup ↔
      ∀ p ∈ pairs, ∀ q ∈ pairs, ¬ArrowClash (a p) (b p) (a q) (b q) := by
  rw [List.nodup_map_iff_inj_on hpairs]
  constructor
  · intro h p hp q hq hclash
    exact hclash.ne (congrArg a (h p hp q hq hclash.eq))
  · intro h p hp q hq htargets
    rcases arrow_eq_iff.mp htargets with ⟨ha, hb⟩ | hclash | hclash
    · exact hids p hp q hq ha hb
    · exact absurd hclash (h p hp q hq)
    · exact absurd hclash (h q hq p hp)

theorem boundaryTarget_inj {field field' : AppModel.Field} {label label' : String}
    (hlabel : ':' ∉ label.toList) (hlabel' : ':' ∉ label'.toList)
    (h : boundaryTarget field label = boundaryTarget field' label') :
    field.name = field'.name ∧ label = label' := by
  have hlist : field.name.toList ++ ':' :: label.toList =
      field'.name.toList ++ ':' :: label'.toList := by
    simpa [boundaryTarget] using congrArg String.toList h
  -- The label has no colon, so the last one stands in front of it.
  have hsplit := congrArg (rpartition ':') hlist
  rw [rpartition_append ':' hlabel, rpartition_append ':' hlabel'] at hsplit
  obtain ⟨hname, hlabel⟩ := Prod.mk.inj hsplit
  exact ⟨String.toList_inj.mp hname, String.toList_inj.mp hlabel⟩

/-- The labels of the probes of a field. -/
theorem labels_boundaryValues (field : AppModel.Field) :
    ((boundaryValues U F field).map Prod.fst).Sublist ["below_low", "above_high"] := by
  unfold boundaryValues
  split
  next => exact List.nil_sublist _
  next low high hrange =>
    cases boundaryProbe F (isIntField U field) (-1) low <;>
      cases boundaryProbe F (isIntField U field) 1 high <;> simp

theorem colon_not_mem_label {field : AppModel.Field} {probe : String × Json}
    (h : probe ∈ boundaryValues U F field) : ':' ∉ probe.1.toList := by
  have hlabel := (labels_boundaryValues field).subset (List.mem_map_of_mem h)
  simp only [List.mem_cons, List.not_mem_nil, or_false] at hlabel
  rcases hlabel with hlabel | hlabel <;> rw [hlabel] <;> decide

theorem nodup_boundaryTargets (h : (model.fields.map (·.name)).Nodup) :
    ((boundaryProbes U F model).map fun probe => boundaryTarget probe.1 probe.2.1).Nodup := by
  rw [boundaryProbes, List.map_flatMap, List.nodup_flatMap]
  constructor
  · intro field _
    rw [List.map_map]
    -- Within a field the labels differ, and the labels tell the targets.
    have hlabels : ((boundaryValues U F field).map Prod.fst).Nodup :=
      (by decide : ["below_low", "above_high"].Nodup).sublist (labels_boundaryValues field)
    refine List.Nodup.map_on (fun probe hprobe probe' hprobe' heq => ?_) (hlabels.of_map _)
    have hlabel := (boundaryTarget_inj (colon_not_mem_label hprobe) (colon_not_mem_label hprobe') heq).2
    exact List.inj_on_of_nodup_map hlabels hprobe hprobe' hlabel
  · -- Between fields the names differ.
    refine (List.pairwise_map.mp h).imp fun {field field'} hne target htarget htarget' => ?_
    simp only [List.mem_map] at htarget htarget'
    obtain ⟨_, ⟨probe, hprobe, rfl⟩, rfl⟩ := htarget
    obtain ⟨_, ⟨probe', hprobe', rfl⟩, heq⟩ := htarget'
    exact hne (boundaryTarget_inj (colon_not_mem_label hprobe') (colon_not_mem_label hprobe)
      heq).1.symm

theorem nodup_violationTargets (h : (model.invariants.map (·.id)).Nodup) :
    ((model.invariants.filterMap (violation U F model)).map (·.1.id)).Nodup := by
  refine h.sublist ?_
  induction model.invariants with
  | nil => exact .slnil
  | cons inv invs ih =>
    cases hviolation : violation U F model inv with
    | none =>
      rw [List.filterMap_cons_none hviolation]
      exact ih.cons _
    | some found =>
      obtain ⟨_, -, rfl⟩ := Option.map_eq_some_iff.mp hviolation
      rw [List.filterMap_cons_some hviolation]
      exact ih.cons_cons _

/-- The signatures of the cases are those of the tests of the model. -/
theorem map_signature (h : generateAll (logicStrategies U repr F H) model = .ok cases) :
    cases.map LogicTestCase.signature = (model.tests U F).map fun test =>
      computeSignature H model.digest test.testClass "1.0.0" test.target := by
  obtain ⟨hsigned, htests⟩ := generateAll_spec h
  rw [← htests, List.map_map]
  exact List.map_congr_left fun case hcase => (hsigned case hcase).signature

theorem nodup_signature_iff (hinjective : Function.Injective H.hexdigest)
    (h : generateAll (logicStrategies U repr F H) model = .ok cases) :
    (cases.map LogicTestCase.signature).Nodup ↔ ((model.tests U F).map LogicTest.key).Nodup := by
  -- All cases are signed with one digest, so the rest of the text tells them apart.
  have hkey : Function.Injective fun key : LogicTestClass × String =>
      computeSignature H model.digest key.1 "1.0.0" key.2 := fun key key' heq =>
    Prod.ext_iff.mpr ((computeSignature_eq_iff hinjective).mp heq)
  rw [map_signature h, ← List.nodup_map_iff hkey, List.map_map]
  rfl

end Distinct

namespace AppModel

/-- The transitions, the invariants and the fields of the model have names of their own. -/
structure DistinctNames (model : AppModel) : Prop where
  transitions : (model.transitions.map (·.id)).Nodup
  invariants : (model.invariants.map (·.id)).Nodup
  fields : (model.fields.map (·.name)).Nodup

/-- No two pairs of adjacent transitions clash at an arrow, read forwards or backwards. -/
def NoArrowClash (model : AppModel) : Prop :=
  ∀ p ∈ adjacentPairs model, ∀ q ∈ adjacentPairs model,
    ¬ArrowClash p.1.id p.2.id q.1.id q.2.id ∧ ¬ArrowClash p.2.id p.1.id q.2.id q.1.id

end AppModel

/-- **No two tests have one signature** exactly if no two pairs of adjacent transitions clash: the id of
one transition goes on, after an arrow, with the start of the id of another. -/
theorem signatures_nodup_iff (U : Unicode) (repr : Json → Except String Str) (F : FloatArithmetic)
    {H : Sha256} (hinjective : Function.Injective H.hexdigest) (model : AppModel)
    (hnames : model.DistinctNames) (cases : List LogicTestCase)
    (hcases : generateAll (logicStrategies U repr F H) model = .ok cases) :
    (cases.map LogicTestCase.signature).Nodup ↔ model.NoArrowClash := by
  have hpairs := nodup_adjacentPairs (hnames.transitions.of_map _)
  have hsame : ∀ p ∈ adjacentPairs model, ∀ q ∈ adjacentPairs model,
      p.1.id = q.1.id → p.2.id = q.2.id → p = q := by
    intro p hp q hq hfirst hsecond
    obtain ⟨hp, hp'⟩ := mem_adjacentPairs hp
    obtain ⟨hq, hq'⟩ := mem_adjacentPairs hq
    exact Prod.ext (List.inj_on_of_nodup_map hnames.transitions hp hq hfirst)
      (List.inj_on_of_nodup_map hnames.transitions hp' hq' hsecond)
  have hskip := nodup_targets_iff (a := fun p => p.1.id) (b := fun p => p.2.id) hpairs hsame
  have horder := nodup_targets_iff (a := fun p => p.2.id) (b := fun p => p.1.id) hpairs
    fun p hp q hq hsecond hfirst => hsame p hp q hq hfirst hsecond
  have hreplay : ((model.transitions.filter fun t => !t.idempotent).map (·.id)).Nodup :=
    hnames.transitions.sublist (List.filter_sublist.map _)
  -- The classes are distinct, so each is looked at alone: only the two of pairs can clash.
  rw [nodup_signature_iff hinjective hcases, map_key_tests, nodup_tagged_iff (by simp)]
  simp only [List.forall_mem_cons, hreplay, nodup_boundaryTargets hnames.fields,
    nodup_violationTargets hnames.invariants, true_and]
  constructor
  · rintro ⟨hskips, horders, -⟩ p hp q hq
    exact ⟨hskip.mp hskips p hp q hq, horder.mp horders p hp q hq⟩
  · intro h
    exact ⟨hskip.mpr fun p hp q hq => (h p hp q hq).1,
      horder.mpr fun p hp q hq => (h p hp q hq).2, nofun⟩

/-- A transition between two states. -/
def sampleTransition (id fromState toState : String) (h : id ≠ "") (hfrom : fromState ≠ "")
    (hto : toState ≠ "") : AppModel.Transition where
  id := id
  fromState := fromState
  toState := toState
  endpoint := "POST /step"
  id_ne := h
  fromState_ne := hfrom
  toState_ne := hto
  endpoint_ne := by decide

/-- A model with these transitions. -/
def sampleModel (transitions : List AppModel.Transition) : AppModel where
  appId := "market"
  version := "0.1.0"
  transitions := transitions
  digest := "sha256:f1"
  appId_ne := by decide
  version_ne := by decide
  digest_ne := by decide

/-- A cart that is filled and paid for. -/
def cartModel : AppModel :=
  sampleModel [sampleTransition "add" "anonymous" "filled" (by decide) (by decide) (by decide),
    sampleTransition "checkout" "filled" "ordered" (by decide) (by decide) (by decide)]

/-- Two ways to the end, with an arrow in an id of each. -/
def arrowModel : AppModel :=
  sampleModel [sampleTransition "a" "start" "left" (by decide) (by decide) (by decide),
    sampleTransition "b->c" "left" "end" (by decide) (by decide) (by decide),
    sampleTransition "a->b" "start" "right" (by decide) (by decide) (by decide),
    sampleTransition "c" "right" "end" (by decide) (by decide) (by decide)]

theorem exists_sampleCases (model : AppModel) : ∃ cases,
    generateAll (logicStrategies .ascii (fun value => .ok value.render) decimalFloats codeDigest)
      model = .ok cases :=
  exists_generateAll fun value => ⟨value.render, rfl⟩

theorem signatures_nodup_cart : ∃ cases,
    generateAll (logicStrategies .ascii (fun value => .ok value.render) decimalFloats codeDigest)
        cartModel = .ok cases ∧
      ((cases.map LogicTestCase.signature).Nodup ↔ cartModel.NoArrowClash) := by
  obtain ⟨cases, hcases⟩ := exists_sampleCases cartModel
  exact ⟨cases, hcases, signatures_nodup_iff .ascii _ decimalFloats injective_codeDigest cartModel
    ⟨by decide, by decide, by decide⟩ cases hcases⟩

/-- Skipping `a` before `b->c`, and `a->b` before `c`, is signed as one test. -/
theorem arrow_tests_share_signature : arrowModel.DistinctNames ∧ ∃ cases,
    generateAll (logicStrategies .ascii (fun value => .ok value.render) decimalFloats codeDigest)
        arrowModel = .ok cases ∧ ¬(cases.map LogicTestCase.signature).Nodup := by
  obtain ⟨cases, hcases⟩ := exists_sampleCases arrowModel
  refine ⟨⟨by decide, by decide, by decide⟩, cases, hcases, ?_⟩
  rw [nodup_signature_iff injective_codeDigest hcases, map_key_tests, nodup_tagged_iff (by simp)]
  simp only [List.forall_mem_cons]
  rintro ⟨-, hskip, -⟩
  revert hskip
  decide +kernel

end SecOpent
