import SecOpent.AppModels.Service
import SecOpent.Assessments.LlmPlanner

/-!
# Imported models

The import endpoint of `routers/appmodels.py`: an importer constructs a draft, to which a language model
may propose states and invariants. What it proposes is merged in by `replace`, which keeps the digest of
the draft.

## Main definitions

* `mergeStates`, `mergeInvariants`: the loops over a reply
* `proposeEnrichment`: `_llm_propose_enrichment`
* `AppModelImports.importAppModel`: the endpoint

## Main results

* `importAppModel_eq_ok`: what the endpoint stores
-/

namespace SecOpent

open Python

/-! ## Reading a reply -/

/-- The type of a decoded value, as it stands in the text of an error. -/
def jsonTypeName : Json → String
  | .null => "NoneType"
  | .bool _ => "bool"
  | .int _ => "int"
  | .float _ => "float"
  | .text _ => "str"
  | .list _ => "list"
  | .object _ => "dict"

/-- `value.get(key)`, of a decoded object, whose keys are distinct. -/
def jsonField? (key : String) : Json → Option Json
  | .object fields => fields.lookup key
  | _ => none

/-- What the loop over `data.get(key, [])` sees. -/
def replyItems (key : String) : Json → Except String (List Json)
  | .object fields =>
    match fields.lookup key with
    | none => .ok []
    | some value =>
      match iterate value with
      | some items => .ok items
      | none => .error ("'" ++ jsonTypeName value ++ "' object is not iterable")
  | data => .error ("'" ++ jsonTypeName data ++ "' object has no attribute 'get'")

/-- The loop over the states of a reply. -/
def mergeStates (states : List String) : List Json → List String
  | [] => states
  | .text state :: items =>
    mergeStates (if state ≠ "" ∧ state ∉ states then states ++ [state] else states) items
  | _ :: items => mergeStates states items

/-- `Invariant(…)`. -/
def constructInvariant (id expr : String) : Except String AppModel.Invariant :=
  if hid : id = "" then .error "Invariant.id must be non-empty"
  else if hexpr : expr = "" then .error "Invariant.expr must be non-empty"
  else .ok ⟨id, expr, hid, hexpr⟩

/-- The invariant of an item, if it has an id and an expression and the id is new. A set looks up its
items by their hash, which lists and objects do not have. -/
def proposedInvariant (repr : Json → Str) (ids : List String) (item : Json) :
    Except String (Option AppModel.Invariant) :=
  match jsonField? "id" item, jsonField? "expr" item with
  | some id, some expr =>
    if truthy id && truthy expr then
      match id with
      | .list _ => .error "unhashable type: 'list'"
      | .object _ => .error "unhashable type: 'dict'"
      | id =>
        if (Json.text? id).any (ids.contains ·) then .ok none
        else (constructInvariant (String.ofList (strOf repr id)) (String.ofList (strOf repr expr))).map
          some
    else .ok none
  | _, _ => .ok none

/-- The loop over the invariants of a reply. -/
def mergeInvariants (repr : Json → Str) (invariants : List AppModel.Invariant) :
    List Json → Except String (List AppModel.Invariant)
  | [] => .ok invariants
  | item :: items => do
    let found ← proposedInvariant repr (invariants.map (·.id)) item
    mergeInvariants repr (invariants ++ found.toList) items

/-- A reply only adds states. -/
theorem mergeStates_extends (states : List String) (items : List Json) :
    states <+: mergeStates states items := by
  induction items generalizing states with
  | nil => exact List.prefix_rfl
  | cons item items ih =>
    cases item with
    | text state =>
      rw [mergeStates]
      split
      · exact (List.prefix_append states [state]).trans (ih _)
      · exact ih states
    | _ => exact ih states

theorem mergeStates_ne {states : List String} (h : states ≠ []) (items : List Json) :
    mergeStates states items ≠ [] := by
  intro hnil
  have hprefix := mergeStates_extends states items
  rw [hnil] at hprefix
  exact h (List.prefix_nil.mp hprefix)

/-! ## The enrichment -/

/-- The content of a draft with what a reply proposes. -/
def enrichedContent (repr : Json → Str) (draft : AppModelContent) (data : Json) :
    Except String AppModelContent := do
  let states ← replyItems "states" data
  let items ← replyItems "invariants" data
  let invariants ← mergeInvariants repr draft.invariants items
  .ok { draft with
    states := mergeStates draft.states states
    invariants
    states_ne := mergeStates_ne draft.states_ne states }

/-- What `gateway.call` raises: an error that the enrichment catches, or another one. -/
inductive GatewayError
  | caught
  | other (error : String)

/-- A `RemoteModelGateway`: the text of its response to a prompt. -/
abbrev RemoteModelGateway := String → Except GatewayError String

/-- The prompt. -/
def enrichmentPrompt (draft : AppModelContent) : String :=
  "You assist a security engineer modeling an application. From these API endpoints, propose " ++
  "business states and invariants. Reply ONLY with JSON " ++
  "\x7b\"states\": [\"...\"], \"invariants\": [\x7b\"id\": \"...\", \"expr\": \"...\"\x7d]\x7d.\n" ++
  "Endpoints: " ++ ", ".intercalate (draft.transitions.map (·.endpoint))

/-- An importer: the content of the draft that it constructs. -/
abbrev ModelImporter := Dict String Json → Except String AppModelContent

/-- The endpoint, over the service. `loads` is `json.loads`, which may raise. -/
structure AppModelImports extends AppModelService where
  loads : String → Option Json
  reprJson : Json → Str
  importers : String → Option ModelImporter

namespace AppModelImports

variable (imports : AppModelImports)

/-- The content that `_llm_propose_enrichment` ends with. -/
def proposedContent (gateway : RemoteModelGateway) (draft : AppModelContent) :
    Except String AppModelContent :=
  match gateway (enrichmentPrompt draft) with
  | .error .caught => .ok draft
  | .error (.other error) => .error error
  | .ok text =>
    match imports.loads text with
    | none => .ok draft
    | some data => enrichedContent imports.reprJson draft data

/-- `_llm_propose_enrichment`: `replace` keeps the digest of the draft. -/
def proposeEnrichment (gateway : RemoteModelGateway) (draft : AppModelRecord) :
    Except String AppModelRecord := do
  let content ← imports.proposedContent gateway draft.content
  .ok { draft with content }

/-- `import_app_model`. -/
def importAppModel (sourceType : String) (spec : Dict String Json) (useLlm : Bool)
    (gateway : RemoteModelGateway) : AppModelCall :=
  match imports.importers sourceType with
  | none => .raise ("unknown source_type: " ++ sourceType)
  | some importer => do
    let content ← .ofExcept id (importer spec)
    if useLlm then do
      let enriched ← .ofExcept id
        (imports.proposeEnrichment gateway (.construct imports.digest content .draft))
      AppModelService.createProposed enriched
    else AppModelService.create (.construct imports.digest content .draft) false

variable {imports} {sourceType : String} {spec : Dict String Json} {useLlm : Bool}
  {gateway : RemoteModelGateway} {registry after : AppModelRegistry} {new : AppModelRecord}

/-- The enrichment keeps everything but the content. -/
theorem proposeEnrichment_eq_ok {draft enriched : AppModelRecord} :
    imports.proposeEnrichment gateway draft = .ok enriched ↔
      ∃ content, imports.proposedContent gateway draft.content = .ok content ∧
        enriched = { draft with content } := by
  unfold proposeEnrichment
  rw [bind_eq_ok_iff]
  constructor
  · rintro ⟨content, hcontent, hrecord⟩
    cases hrecord
    exact ⟨content, hcontent, rfl⟩
  · rintro ⟨content, hcontent, rfl⟩
    exact ⟨content, hcontent, rfl⟩

/-- The endpoint stores the draft, or the draft with another content and its old digest. -/
theorem importAppModel_eq_ok :
    imports.importAppModel sourceType spec useLlm gateway registry = (.ok new, after) ↔
      ∃ importer content, imports.importers sourceType = some importer ∧
        importer spec = .ok content ∧ after = registry.put new ∧
        ((useLlm = false ∧ new = .construct imports.digest content .draft) ∨
          (useLlm = true ∧ ∃ proposed, imports.proposedContent gateway content = .ok proposed ∧
            new = { AppModelRecord.construct imports.digest content .llmProposed with
              content := proposed })) := by
  unfold importAppModel
  cases imports.importers sourceType with
  | none => simp
  | some importer =>
    cases useLlm with
    | false =>
      simp only [Call.bind_eq_ok, Call.ofExcept_eq_ok, Option.some.injEq, Bool.false_eq_true,
        if_false]
      constructor
      · rintro ⟨content, _, ⟨hcontent, rfl⟩, hcreate⟩
        cases hcreate
        exact ⟨importer, content, rfl, hcontent, rfl, .inl ⟨trivial, rfl⟩⟩
      · rintro ⟨_, content, rfl, hcontent, rfl, ⟨-, rfl⟩ | ⟨hfalse, -⟩⟩
        · exact ⟨content, registry, ⟨hcontent, rfl⟩, rfl⟩
        · cases hfalse
    | true =>
      simp only [Call.bind_eq_ok, Call.ofExcept_eq_ok, Option.some.injEq, if_true,
        proposeEnrichment_eq_ok]
      constructor
      · rintro ⟨content, _, ⟨hcontent, rfl⟩, _, _, ⟨⟨proposed, hproposed, rfl⟩, rfl⟩, hcreate⟩
        cases hcreate
        exact ⟨importer, content, rfl, hcontent, rfl, .inr ⟨trivial, proposed, hproposed, rfl⟩⟩
      · rintro ⟨_, content, rfl, hcontent, rfl, ⟨htrue, -⟩ | ⟨-, proposed, hproposed, rfl⟩⟩
        · cases htrue
        · exact ⟨content, registry, ⟨hcontent, rfl⟩, _, registry, ⟨⟨proposed, hproposed, rfl⟩, rfl⟩,
            rfl⟩

theorem importAppModel_clean :
    (imports.importAppModel sourceType spec useLlm gateway).Clean := by
  unfold importAppModel
  cases imports.importers sourceType with
  | none => exact (Call.Silent.raise _).clean
  | some importer =>
    refine (Call.Silent.ofExcept _ _).bind_clean fun content => ?_
    split
    · exact (Call.Silent.ofExcept _ _).bind_clean fun _ => Call.Returns.clean fun _ => ⟨_, _, rfl⟩
    · exact Call.Returns.clean fun _ => ⟨_, _, rfl⟩

end AppModelImports

end SecOpent
