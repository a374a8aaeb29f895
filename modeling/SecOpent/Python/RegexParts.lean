import SecOpent.Python.Regex

/-!
# Patterns in parts

`re.match` for a pattern that is a sequence of groups and other parts and ends with `$`, which is at the
end of the text or before a line break there. The matches of the parts are listed in the order in which
they are tried.

## Main definitions

* `Regex.runParts`: the matches of the parts, one after another
* `Regex.matchParts`: the texts of the parts, in the first match that ends at the end
-/

namespace Python

namespace Regex

variable (word : Char → Bool)

/-- The matches of parts that stand one after another, each with the text after it. -/
def runParts : List Regex → Option Char → Str → List (List Str × Str)
  | [], _, s => [([], s)]
  | r :: parts, before, s =>
    (run word r before s).flatMap fun found =>
      (runParts parts (lastChar before found.1) found.2).map fun rest => (found.1 :: rest.1, rest.2)

/-- `$`. -/
def atEnd (rest : Str) : Bool := rest == [] || rest == ['\n']

/-- `re.match`, for parts up to `$`. -/
def matchParts (parts : List Regex) (s : Str) : Option (List Str) :=
  ((runParts word parts none s).find? fun found => atEnd found.2).map Prod.fst

end Regex

end Python
