import SecOpent.Cases.SignedTests

/-!
# Incremental generation

`LogicTestGenerator.generate_incremental` leaves out the cases whose signatures are known. A signature
covers the digest of the whole model, and not the inputs of the test. So a change of the model makes all
of its tests new, the unchanged ones too; and a model with the digest of another has none that are new,
though their inputs may have changed.

## Main definitions

* `SameValue`, `LogicTest.Same`: tests with equal classes, targets and inputs
* `AppModel.Hashed`: the digest of a model is a computed one
* `SkipsUnchanged`: what is left out of the cases of a model are those of tests that were known

## Main results

* `mem_generateIncremental_iff`: the cases that are generated again
* `skipsUnchanged_iff`: exactly when the unchanged tests are left out, and no others
-/

namespace SecOpent

open Python

section Same

variable (F : FloatArithmetic)

/-- `==`, on the values of inputs: numbers are equal by their values. -/
def SameValue (a b : Json) : Prop := a = b ∨ ∃ q, F.number a = some q ∧ F.number b = some q

/-- The tests have equal classes, targets and inputs. -/
structure LogicTest.Same (test test' : LogicTest) : Prop where
  testClass : test.testClass = test'.testClass
  target : test.target = test'.target
  inputs : List.Forall₂ (fun input input' => input.1 = input'.1 ∧ SameValue F input.2 input'.2)
    test.inputs test'.inputs

/-- Of the generated cases, those of a test that was known are left out, and no others. -/
structure SkipsUnchanged (known generated fresh : List LogicTestCase) : Prop where
  unchanged : ∀ case ∈ fresh, ∀ old ∈ known, ¬old.test.Same F case.test
  changed : ∀ case ∈ generated, (∀ old ∈ known, ¬old.test.Same F case.test) → case ∈ fresh

end Same

/-- The digest of the model is one that `canonical_digest` has computed. -/
def AppModel.Hashed (H : Sha256) (model : AppModel) : Prop :=
  ∃ text, model.digest = String.ofList (sha256Tag ++ H.hexdigest text)

/-- The models have no test in common. -/
def AppModel.ShareNoTest (U : Unicode) (F : FloatArithmetic) (model model' : AppModel) : Prop :=
  ∀ test ∈ model'.tests U F, ∀ old ∈ model.tests U F, ¬old.Same F test

/-- What the second model tests under the class and the target of a test of the first, the first tests
with these inputs too. -/
def AppModel.AgreesOn (U : Unicode) (F : FloatArithmetic) (model model' : AppModel) : Prop :=
  ∀ test ∈ model'.tests U F, test.key ∈ (model.tests U F).map LogicTest.key →
    ∃ old ∈ model.tests U F, old.Same F test

section Incremental

variable {U : Unicode} {repr : Json → Except String Str} {F : FloatArithmetic} {H : Sha256}
  {model model' : AppModel} {known generated fresh : List LogicTestCase} {case : LogicTestCase}

theorem AppModel.Hashed.bar_not_mem (h : model.Hashed H) : '|' ∉ model.digest.toList := by
  obtain ⟨text, htext⟩ := h
  rw [htext, String.toList_ofList]
  intro hmem
  -- There is no bar in the tag, and none among the digits.
  rcases List.mem_append.mp hmem with hmem | hmem
  · revert hmem
    decide
  · rcases H.hex text _ hmem with hdigit | hhex
    · cases hdigit
    · revert hhex
      decide

theorem generateIncremental_eq (strategies : List LogicGenerationStrategy) (signatures : List String)
    (h : generateAll strategies model = .ok generated) :
    generateIncremental strategies model signatures =
      .ok (generated.filter (·.signature ∉ signatures)) := by
  rw [generateIncremental, h]
  rfl

theorem exists_case_iff {p : LogicTest → Prop}
    (h : generateAll (logicStrategies U repr F H) model = .ok generated) :
    (∃ case ∈ generated, p case.test) ↔ ∃ test ∈ model.tests U F, p test := by
  rw [← (generateAll_spec h).2]
  simp only [List.mem_map, exists_exists_and_eq_and]

theorem forall_case_iff {p : LogicTest → Prop}
    (h : generateAll (logicStrategies U repr F H) model = .ok generated) :
    (∀ case ∈ generated, p case.test) ↔ ∀ test ∈ model.tests U F, p test := by
  rw [← (generateAll_spec h).2]
  exact List.forall_mem_map.symm

/-- A model with another digest has new tests only. -/
theorem fresh_of_digest_ne (hinjective : Function.Injective H.hexdigest)
    (hknown : generateAll (logicStrategies U repr F H) model = .ok known)
    (hgenerated : generateAll (logicStrategies U repr F H) model' = .ok generated)
    (hhashed : model.Hashed H) (hhashed' : model'.Hashed H) (hne : model.digest ≠ model'.digest) :
    generated.filter (·.signature ∉ known.map LogicTestCase.signature) = generated := by
  -- The digest is part of the signature, so none of the known ones is met again.
  refine List.filter_eq_self.mpr fun case hcase => decide_eq_true fun hmem => ?_
  obtain ⟨old, hold, heq⟩ := List.mem_map.mp hmem
  rw [((generateAll_spec hknown).1 old hold).signature,
    ((generateAll_spec hgenerated).1 case hcase).signature] at heq
  exact computeSignature_ne hinjective hne hhashed.bar_not_mem hhashed'.bar_not_mem heq

/-- A test of a model with the same digest is known by its class and its target. -/
theorem mem_known_iff (hinjective : Function.Injective H.hexdigest)
    (hknown : generateAll (logicStrategies U repr F H) model = .ok known)
    (hgenerated : generateAll (logicStrategies U repr F H) model' = .ok generated)
    (hdigest : model.digest = model'.digest) (hcase : case ∈ generated) :
    case.signature ∈ known.map LogicTestCase.signature ↔
      case.test.key ∈ (model.tests U F).map LogicTest.key := by
  rw [((generateAll_spec hgenerated).1 case hcase).signature, map_signature hknown, ← hdigest]
  simp only [List.mem_map, computeSignature_eq_iff hinjective]
  exact exists_congr fun test => and_congr_right fun _ => Prod.mk_inj.symm

theorem skipsUnchanged_of_digest_ne (hinjective : Function.Injective H.hexdigest)
    (hknown : generateAll (logicStrategies U repr F H) model = .ok known)
    (hgenerated : generateAll (logicStrategies U repr F H) model' = .ok generated)
    (hhashed : model.Hashed H) (hhashed' : model'.Hashed H) (hne : model.digest ≠ model'.digest) :
    SkipsUnchanged F known generated
        (generated.filter (·.signature ∉ known.map LogicTestCase.signature)) ↔
      AppModel.ShareNoTest U F model model' := by
  -- Everything is generated again, which is right only if nothing is unchanged.
  rw [fresh_of_digest_ne hinjective hknown hgenerated hhashed hhashed' hne]
  have hshare : (∀ case ∈ generated, ∀ old ∈ known, ¬old.test.Same F case.test) ↔
      AppModel.ShareNoTest U F model model' := by
    rw [forall_case_iff (p := fun test => ∀ old ∈ known, ¬old.test.Same F test) hgenerated]
    exact forall₂_congr fun test _ => forall_case_iff (p := fun old => ¬old.Same F test) hknown
  exact ⟨fun h => hshare.mp h.unchanged, fun h => ⟨hshare.mpr h, fun case hcase _ => hcase⟩⟩

theorem skipsUnchanged_of_digest_eq (hinjective : Function.Injective H.hexdigest)
    (hknown : generateAll (logicStrategies U repr F H) model = .ok known)
    (hgenerated : generateAll (logicStrategies U repr F H) model' = .ok generated)
    (hdigest : model.digest = model'.digest) :
    SkipsUnchanged F known generated
        (generated.filter (·.signature ∉ known.map LogicTestCase.signature)) ↔
      AppModel.AgreesOn U F model model' := by
  have hfresh : ∀ case, case ∈ generated.filter (·.signature ∉ known.map LogicTestCase.signature) ↔
      case ∈ generated ∧ case.test.key ∉ (model.tests U F).map LogicTest.key := by
    intro case
    rw [List.mem_filter, decide_eq_true_eq]
    exact and_congr_right fun hcase =>
      not_congr (mem_known_iff hinjective hknown hgenerated hdigest hcase)
  have hagrees : AppModel.AgreesOn U F model model' ↔ ∀ case ∈ generated,
      case.test.key ∈ (model.tests U F).map LogicTest.key →
        ∃ old ∈ known, old.test.Same F case.test := by
    rw [AppModel.AgreesOn, ← forall_case_iff hgenerated]
    exact forall₃_congr fun case _ _ => (exists_case_iff hknown).symm
  rw [hagrees]
  constructor
  · -- A known target that no known test has with these inputs is a change that is left out.
    intro h case hcase hkey
    by_contra hnone
    push Not at hnone
    exact ((hfresh case).mp (h.changed case hcase hnone)).2 hkey
  · intro h
    constructor
    · intro case hcase old hold hsame
      refine ((hfresh case).mp hcase).2 (List.mem_map.mpr ?_)
      obtain ⟨test, htest, hkey⟩ := (exists_case_iff (p := fun test => test = old.test) hknown).mp
        ⟨old, hold, rfl⟩
      exact ⟨test, htest, hkey ▸ Prod.ext hsame.testClass hsame.target⟩
    · intro case hcase hnone
      refine (hfresh case).mpr ⟨hcase, fun hkey => ?_⟩
      obtain ⟨old, hold, hsame⟩ := h case hcase hkey
      exact hnone old hold hsame

end Incremental

/-- **Incremental generation leaves out the unchanged tests, and no others,** exactly if the models have
different digests and no test in common, or one digest and no test that differs in its inputs alone. -/
theorem skipsUnchanged_iff (U : Unicode) (repr : Json → Except String Str) (F : FloatArithmetic)
    {H : Sha256} (hinjective : Function.Injective H.hexdigest) (model model' : AppModel)
    (hhashed : model.Hashed H) (hhashed' : model'.Hashed H) (known generated : List LogicTestCase)
    (hknown : generateAll (logicStrategies U repr F H) model = .ok known)
    (hgenerated : generateAll (logicStrategies U repr F H) model' = .ok generated) :
    ∃ fresh, generateIncremental (logicStrategies U repr F H) model'
        (known.map LogicTestCase.signature) = .ok fresh ∧
      (SkipsUnchanged F known generated fresh ↔
        model.digest ≠ model'.digest ∧ AppModel.ShareNoTest U F model model' ∨
          model.digest = model'.digest ∧ AppModel.AgreesOn U F model model') := by
  refine ⟨_, generateIncremental_eq _ _ hgenerated, ?_⟩
  by_cases hdigest : model.digest = model'.digest
  · rw [skipsUnchanged_of_digest_eq hinjective hknown hgenerated hdigest]
    simp [hdigest]
  · rw [skipsUnchanged_of_digest_ne hinjective hknown hgenerated hhashed hhashed' hdigest]
    simp [hdigest]

/-- A quantity with an upper bound. -/
def quantityField (high : ℤ) : AppModel.Field where
  name := "qty"
  type := "int"
  range := some (.int 0, .int high)
  name_ne := by decide
  type_ne := by decide

theorem digestText_ne (text : Str) : String.ofList (sha256Tag ++ codeDigest.hexdigest text) ≠ "" := by
  intro h
  have hlist := congrArg String.toList h
  rw [String.toList_ofList] at hlist
  obtain ⟨htag, -⟩ := List.append_eq_nil_iff.mp hlist
  exact absurd htag (by decide)

/-- The cart with a bounded quantity, and the digest of a text. -/
def quantityModel (high : ℤ) (text : Str) : AppModel :=
  { cartModel with
    fields := [quantityField high]
    digest := String.ofList (sha256Tag ++ codeDigest.hexdigest text)
    digest_ne := digestText_ne text }

theorem skipsUnchanged_quantity : ∃ known generated,
    generateAll (logicStrategies .ascii (fun value => .ok value.render) decimalFloats codeDigest)
        (quantityModel 100 []) = .ok known ∧
      generateAll (logicStrategies .ascii (fun value => .ok value.render) decimalFloats codeDigest)
        (quantityModel 50 ['a']) = .ok generated ∧
      ∃ fresh, generateIncremental
          (logicStrategies .ascii (fun value => .ok value.render) decimalFloats codeDigest)
          (quantityModel 50 ['a']) (known.map LogicTestCase.signature) = .ok fresh ∧
        (SkipsUnchanged decimalFloats known generated fresh ↔
          (quantityModel 100 []).digest ≠ (quantityModel 50 ['a']).digest ∧
              (quantityModel 100 []).ShareNoTest .ascii decimalFloats (quantityModel 50 ['a']) ∨
            (quantityModel 100 []).digest = (quantityModel 50 ['a']).digest ∧
              (quantityModel 100 []).AgreesOn .ascii decimalFloats (quantityModel 50 ['a'])) := by
  obtain ⟨known, hknown⟩ := exists_sampleCases (quantityModel 100 [])
  obtain ⟨generated, hgenerated⟩ := exists_sampleCases (quantityModel 50 ['a'])
  exact ⟨known, generated, hknown, hgenerated, skipsUnchanged_iff .ascii _ decimalFloats
    injective_codeDigest _ _ ⟨[], rfl⟩ ⟨['a'], rfl⟩ known generated hknown hgenerated⟩

/-- The upper bound of the quantity is lowered: the replay of the first transition is generated
again. -/
theorem unchanged_replay_generated : ∃ known generated fresh,
    generateAll (logicStrategies .ascii (fun value => .ok value.render) decimalFloats codeDigest)
        (quantityModel 100 []) = .ok known ∧
      generateAll (logicStrategies .ascii (fun value => .ok value.render) decimalFloats codeDigest)
        (quantityModel 50 ['a']) = .ok generated ∧
      generateIncremental
          (logicStrategies .ascii (fun value => .ok value.render) decimalFloats codeDigest)
          (quantityModel 50 ['a']) (known.map LogicTestCase.signature) = .ok fresh ∧
      ¬SkipsUnchanged decimalFloats known generated fresh := by
  obtain ⟨known, hknown⟩ := exists_sampleCases (quantityModel 100 [])
  obtain ⟨generated, hgenerated⟩ := exists_sampleCases (quantityModel 50 ['a'])
  refine ⟨known, generated, _, hknown, hgenerated, generateIncremental_eq _ _ hgenerated, ?_⟩
  have hne : (quantityModel 100 []).digest ≠ (quantityModel 50 ['a']).digest := by decide +kernel
  rw [skipsUnchanged_of_digest_ne injective_codeDigest hknown hgenerated ⟨[], rfl⟩ ⟨['a'], rfl⟩ hne]
  let replay : LogicTest :=
    ⟨.replay, "add", [("repeat_endpoint", .text "POST /step"), ("times", .int 2)]⟩
  have hsame : replay.Same decimalFloats replay :=
    ⟨rfl, rfl, .cons ⟨rfl, .inl rfl⟩ (.cons ⟨rfl, .inl rfl⟩ .nil)⟩
  intro hshare
  exact hshare replay List.mem_cons_self replay List.mem_cons_self hsame

end SecOpent
