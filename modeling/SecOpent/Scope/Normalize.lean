import SecOpent.Python.Url

/-!
# Target normalisation

`domain/scope/normalize.py`: domains, addresses, URLs, ports and cloud accounts brought to the
one spelling the scope rules are compared in.

## Main definitions

* `PyError`: the two error classes scope code raises
* `normalizeDomain`, `normalizeIpOrNetwork`, `normalizeUrl`, `normalizePort`,
  `normalizeCloudAccount`
-/

namespace SecOpent

open Python

/-- The errors scope code raises. `DomainValidationError` is a subclass of `ValueError`; a plain
`ValueError` comes from the standard library and is not caught as a `DomainValidationError`. -/
inductive PyError
  | domainValidation (message : String)
  | valueError
  deriving DecidableEq, Repr

/-- A standard-library result whose failure is a `ValueError`. -/
def orValueError {α : Type} : Option α → Except PyError α
  | some a => .ok a
  | none => .error .valueError

/-- `value.startswith(("http://", "https://"))`. -/
def isHttp (value : Str) : Bool :=
  startsWith value "http://".toList || startsWith value "https://".toList

/-- `normalize_domain`. -/
def normalizeDomain (U : Unicode) (value : Str) : Except PyError Str :=
  let domain := lower U (rstrip (· == '.') (strip value))
  let wildcard := startsWith domain ['*', '.']
  let raw := if wildcard then domain.drop 2 else domain
  match encodeIdna U raw with
  | none => .error (.domainValidation "invalid domain")
  | some encoded =>
    if encoded.isEmpty || (encoded.splitOn '.').any List.isEmpty then
      .error (.domainValidation "invalid domain")
    else .ok ((if wildcard then ['*', '.'] else []) ++ encoded)

/-- `normalize_ip_or_network`. -/
def normalizeIpOrNetwork (value : Str) : Except PyError Str :=
  let text :=
    if '/' ∈ value then (ipNetwork (strip value)).map IpNetwork.str
    else (ipAddress (strip value)).map IpAddress.str
  match text with
  | some s => .ok s
  | none => .error (.domainValidation "invalid IP or CIDR")

/-- `normalize_url`: the default port is dropped, the path is normalised below the root and keeps
its trailing slash. -/
def normalizeUrl (U : Unicode) (value : Str) : Except PyError Str := do
  let parsed ← orValueError (urlsplit U (strip value))
  let scheme := lower U parsed.scheme
  match parsed.hostname U with
  | none => .error (.domainValidation "URL must use http or https")
  | some hostname =>
    if scheme != "http".toList && scheme != "https".toList then
      .error (.domainValidation "URL must use http or https")
    else do
      let host ← normalizeDomain U hostname
      let port ← orValueError parsed.port
      let default := if scheme == "https".toList then 443 else 80
      let netloc :=
        match port with
        | none => host
        | some n => if n == default then host else host ++ ':' :: Nat.toDigits 10 n
      let path := normpath ('/' :: lstrip (· == '/') parsed.path)
      let path := if endsWith parsed.path ['/'] && !endsWith path ['/'] then path ++ ['/'] else path
      .ok (urlunsplit ⟨scheme, netloc, path, parsed.query, []⟩)

/-- `normalize_port`. -/
def normalizePort (value : ℤ) : Except PyError ℤ :=
  if 1 ≤ value ∧ value ≤ 65535 then .ok value
  else .error (.domainValidation "port must be between 1 and 65535")

/-- `normalize_cloud_account`: the provider in lower case, the account id as it is. -/
def normalizeCloudAccount (U : Unicode) (value : Str) : Except PyError Str :=
  let raw := strip value
  if ':' ∉ raw then .error (.domainValidation "cloud account must be provider:account_id")
  else
    let provider := lower U (strip (partition ':' raw).1)
    let account := strip (partition ':' raw).2
    if provider.isEmpty || account.isEmpty then
      .error (.domainValidation "cloud account provider and id must be non-empty")
    else if !isAlnum U (provider.filter fun c => c != '-' && c != '_') then
      .error (.domainValidation "invalid cloud provider")
    else .ok (provider ++ ':' :: account)

end SecOpent
