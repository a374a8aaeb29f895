import SecOpent.Python.IpAddress

/-!
# `urllib.parse` and `posixpath`

`urlsplit` and the derived attributes of its result, as CPython 3.12 computes them, and
`posixpath.normpath`. `none` is a `ValueError`.

## Main definitions

* `urlsplit U url`: the five components of a URL
* `SplitResult.hostname`, `SplitResult.port`: the attributes computed from the network location
* `urlunsplit`: the text of a result that has a network location
* `normpath`: `posixpath.normpath`

## Main results

* `urlsplit_eq_some_iff`: the steps of `urlsplit`
-/

namespace Python

/-- `urllib.parse.SplitResult`. -/
structure SplitResult where
  scheme : Str
  netloc : Str
  path : Str
  query : Str
  fragment : Str
  deriving DecidableEq

/-- The characters of a scheme. -/
def isSchemeChar (c : Char) : Bool :=
  c.isAlphanum || c == '+' || c == '-' || c == '.'

/-- The scheme of a URL and what follows its colon; no scheme is the empty text. -/
def splitScheme (U : Unicode) (url : Str) : Str × Str :=
  let head := (partition ':' url).1
  if ':' ∈ url && head.head?.any Char.isAlpha && head.all isSchemeChar then
    (lower U head, (partition ':' url).2)
  else ([], url)

/-- `_splitnetloc(url, 2)`, on the text after the two slashes. -/
def splitNetloc (url : Str) : Str × Str :=
  let inside := fun c => c != '/' && c != '?' && c != '#'
  (url.takeWhile inside, url.dropWhile inside)

/-- `_check_bracketed_host`: an `IPvFuture` text or an IPv6 address. -/
def checkBracketedHost : Str → Bool
  | 'v' :: rest =>
    !(rest.takeWhile isHexDigit).isEmpty &&
      match rest.dropWhile isHexDigit with
      | '.' :: _ :: _ => true
      | _ => false
  | host =>
    match ipAddress host with
    | some (.v6 _ _) => true
    | _ => false

/-- The bracket checks `urlsplit` makes on a network location. -/
def checkBrackets (netloc : Str) : Bool :=
  if '[' ∈ netloc && ']' ∈ netloc then
    checkBracketedHost (partition ']' (partition '[' netloc).2).1
  else !('[' ∈ netloc || ']' ∈ netloc)

/-- `_checknetloc`: a non-ASCII network location must not gain a delimiter under NFKC. -/
def checkNetloc (U : Unicode) (netloc : Str) : Bool :=
  let bare := netloc.filter fun c => c != '@' && c != ':' && c != '#' && c != '?'
  netloc.isEmpty || isAscii netloc || U.nfkc bare == bare ||
    (U.nfkc bare).all fun c => c != '/' && c != '?' && c != '#' && c != '@' && c != ':'

/-- `urlsplit(url)`. -/
def urlsplit (U : Unicode) (url : Str) : Option SplitResult :=
  -- Leading C0 controls and blanks are stripped, tabs and newlines removed everywhere.
  let url := lstrip (fun c => c.toNat ≤ 32) url
  let url := url.filter fun c => c != '\t' && c != '\r' && c != '\n'
  let (scheme, url) := splitScheme U url
  let (netloc, url) := if startsWith url ['/', '/'] then splitNetloc (url.drop 2) else ([], url)
  if !checkBrackets netloc || !checkNetloc U netloc then none
  else
    let (url, fragment) := partition '#' url
    let (path, query) := partition '?' url
    some ⟨scheme, netloc, path, query, fragment⟩

/-- `SplitResult._hostinfo`: the host and the port text of a network location. -/
def SplitResult.hostinfo (r : SplitResult) : Str × Option Str :=
  let info := (rpartition '@' r.netloc).2
  let (host, port) :=
    if '[' ∈ info then
      let (host, rest) := partition ']' (partition '[' info).2
      (host, (partition ':' rest).2)
    else partition ':' info
  (host, if port.isEmpty then none else some port)

/-- `SplitResult.hostname`: lower case, except for a scope id. -/
def SplitResult.hostname (U : Unicode) (r : SplitResult) : Option Str :=
  let host := r.hostinfo.1
  if host.isEmpty then none
  else if '%' ∈ host then
    some (lower U (partition '%' host).1 ++ '%' :: (partition '%' host).2)
  else some (lower U host)

/-- `SplitResult.port`: the outer `none` is a `ValueError`. -/
def SplitResult.port (r : SplitResult) : Option (Option ℕ) :=
  match r.hostinfo.2 with
  | none => some none
  | some text =>
    if text.all Char.isDigit && text.length ≤ maxStrDigits then
      let n := Nat.ofDigitChars 10 text 0
      if n ≤ 65535 then some (some n) else none
    else none

/-- `urlunsplit`, for a result with a network location. -/
def urlunsplit (r : SplitResult) : Str :=
  let path := if r.path.isEmpty || r.path.head? == some '/' then r.path else '/' :: r.path
  (if r.scheme.isEmpty then [] else r.scheme ++ [':']) ++ '/' :: '/' :: r.netloc ++ path ++
    (if r.query.isEmpty then [] else '?' :: r.query) ++
    (if r.fragment.isEmpty then [] else '#' :: r.fragment)

/-- One component of the `normpath` loop: `new` holds the components kept so far. -/
def normStep (rooted : Bool) (new : List Str) (comp : Str) : List Str :=
  if comp == [] || comp == ['.'] then new
  else if comp != ['.', '.'] || (!rooted && new.isEmpty) || new.getLast? == some ['.', '.'] then
    new ++ [comp]
  else new.dropLast

/-- `posixpath.normpath(path)`. -/
def normpath (path : Str) : Str :=
  if path.isEmpty then ['.']
  else
    let slashes :=
      if startsWith path ['/', '/'] && !startsWith path ['/', '/', '/'] then 2
      else if startsWith path ['/'] then 1 else 0
    let comps := (path.splitOn '/').foldl (normStep (slashes != 0)) []
    let result := List.replicate slashes '/' ++ ['/'].intercalate comps
    if result.isEmpty then ['.'] else result

/-! ## The steps of `urlsplit` -/

/-- The text that `urlsplit` takes apart. -/
def cleanUrl (url : Str) : Str :=
  (lstrip (fun c => c.toNat ≤ 32) url).filter fun c => c != '\t' && c != '\r' && c != '\n'

/-- The network location of what follows the scheme, and the rest. -/
def splitAuthority (url : Str) : Str × Str :=
  if startsWith url ['/', '/'] then splitNetloc (url.drop 2) else ([], url)

/-- The parts that `urlsplit` returns, and the checks of the network location. -/
theorem urlsplit_eq_some_iff {U : Unicode} {url : Str} {parsed : SplitResult} :
    urlsplit U url = some parsed ↔
      ∃ rest path, splitScheme U (cleanUrl url) = (parsed.scheme, rest) ∧
        splitAuthority rest = (parsed.netloc, path) ∧
        checkBrackets parsed.netloc = true ∧ checkNetloc U parsed.netloc = true ∧
        parsed.path = (partition '?' (partition '#' path).1).1 ∧
        parsed.query = (partition '?' (partition '#' path).1).2 ∧
        parsed.fragment = (partition '#' path).2 := by
  have hsplit : urlsplit U url =
      if !checkBrackets (splitAuthority (splitScheme U (cleanUrl url)).2).1 ||
        !checkNetloc U (splitAuthority (splitScheme U (cleanUrl url)).2).1 then none
      else some
        ⟨(splitScheme U (cleanUrl url)).1, (splitAuthority (splitScheme U (cleanUrl url)).2).1,
          (partition '?' (partition '#' (splitAuthority (splitScheme U (cleanUrl url)).2).2).1).1,
          (partition '?' (partition '#' (splitAuthority (splitScheme U (cleanUrl url)).2).2).1).2,
          (partition '#' (splitAuthority (splitScheme U (cleanUrl url)).2).2).2⟩ := rfl
  rw [hsplit]
  constructor
  · intro h
    split at h
    · cases h
    next hchecks =>
      obtain rfl := Option.some.inj h
      simp only [Bool.or_eq_true, Bool.not_eq_true', not_or, Bool.not_eq_false] at hchecks
      exact ⟨_, _, rfl, rfl, hchecks.1, hchecks.2, rfl, rfl, rfl⟩
  · rintro ⟨rest, path, hscheme, hauthority, hbrackets, hnetloc, hpath, hquery, hfragment⟩
    simp only [hscheme, hauthority, hbrackets, hnetloc, Bool.not_true, Bool.or_self,
      Bool.false_eq_true, if_false, ← hpath, ← hquery, ← hfragment]

/-- The path ends before the query. -/
theorem question_not_mem_path {U : Unicode} {url : Str} {parsed : SplitResult}
    (h : urlsplit U url = some parsed) : '?' ∉ parsed.path := by
  obtain ⟨rest, path, -, -, -, -, hpath, -, -⟩ := urlsplit_eq_some_iff.mp h
  intro hmem
  rw [hpath, partition] at hmem
  have hchar := List.mem_takeWhile_imp hmem
  simp at hchar

/-! ## A rebuilt URL -/

/-- The port of a network location, with its colon. -/
def netlocPort : Option ℕ → Str
  | none => []
  | some n => ':' :: Nat.toDigits 10 n

/-- A character that may stand in a network location that is split off unchanged. -/
def isNetlocChar (c : Char) : Bool :=
  c.toNat < 128 && !(['/', '?', '#', '[', ']', '@', '\t', '\r', '\n'].contains c)

theorem isNetlocChar_netlocPort {port : Option ℕ} : ∀ c ∈ netlocPort port, isNetlocChar c = true := by
  have hdigit : ∀ n < 128, (Char.ofNat n).isDigit = true → isNetlocChar (Char.ofNat n) = true := by
    decide
  intro c hc
  cases port with
  | none => simp [netlocPort] at hc
  | some n =>
    rcases List.mem_cons.mp hc with rfl | hc
    · decide
    · have h := Nat.isDigit_of_mem_toDigits (by norm_num) (by norm_num) hc
      have hlt : c.toNat < 128 := by
        simp only [Char.isDigit, Bool.and_eq_true, decide_eq_true_eq, UInt32.le_iff_toNat_le] at h
        simp at h
        omega
      simpa using hdigit c.toNat hlt (by simpa using h)

end Python
