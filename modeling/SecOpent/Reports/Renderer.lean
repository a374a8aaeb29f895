import SecOpent.Reports.Coverage

/-!
# Rendering a report

`application/report_renderer.py`, with the templates of `infrastructure/report_templates`: a report has
eight sections, put together from the data of the assessment. A template puts in its values as they are;
a block tag takes the line break after it, and a template ends before its last one.

## Main definitions

* `FullReportData`, `FindingContext`: what is rendered, and what a template sees of a finding
* `executiveSummaryTemplate`, `findingsTemplate`, `coverageMatrixTemplate`: the templates
* `ReportRenderer.render`: the report
-/

namespace SecOpent

/-- `Severity.value`. -/
def Severity.value : Severity → String
  | .info => "info"
  | .low => "low"
  | .medium => "medium"
  | .high => "high"
  | .critical => "critical"

/-- `FindingStatus.value`. -/
def FindingStatus.value : FindingStatus → String
  | .draft => "draft"
  | .candidate => "candidate"
  | .validated => "validated"
  | .reported => "reported"
  | .closed => "closed"
  | .falsePositive => "false_positive"

/-- `ReportData`, with all its fields. -/
structure FullReportData extends ReportData where
  scopeSummary : String
  method : String
  assets : List String := []

/-- `ReportSection`. -/
structure ReportSection where
  name : String
  content : String
  deriving DecidableEq, Repr

/-- `Report`, without its status and digest. -/
structure SectionedReport extends RenderedReport where
  sections : List ReportSection

/-! ## Remediation -/

/-- `_REMEDIATION`. -/
def remediation : List (String × String) :=
  [("CWE-89",
      "Use parameterized queries / prepared statements; never concatenate input into SQL."),
    ("CWE-79", "Contextually encode output and apply a Content-Security-Policy."),
    ("CWE-918", "Allow-list request destinations; block internal and cloud-metadata ranges."),
    ("CWE-200", "Minimize disclosed information; set secure response headers."),
    ("CWE-287", "Enforce strong authentication and MFA; protect credential storage."),
    ("CWE-732", "Restrict permissions to least privilege; remove public access."),
    ("CWE-284", "Enforce access controls; segment network exposure.")]

/-- `_GENERIC_REMEDIATION`. -/
def genericRemediation : String := "Review and remediate per the referenced CWE guidance."

/-- `_remediation_for`: the first code of the table. -/
def remediationFor (cwe : List String) : String :=
  (cwe.findSome? fun code => remediation.lookup code).getD genericRemediation

/-! ## The templates -/

/-- What `findings.md.j2` sees of a finding. -/
structure FindingContext where
  title : String
  severity : String
  asset : String
  cwe : List String
  cve : List String
  remediation : String
  evidence : String
  status : String

/-- `executive_summary.md.j2`. -/
def executiveSummaryTemplate (percent : ℚ → String) (title assessmentId : String) (findingCount : ℕ)
    (coverageRate : ℚ) (completenessOk : Bool) : String :=
  "# " ++ title ++ "\n\nAssessment: " ++ assessmentId ++ "\n\n- Findings: " ++ toString findingCount ++
    "\n- Coverage: " ++ percent coverageRate ++ "%\n- Completeness gate: " ++
    (if completenessOk then "PASS" else "FAIL")

/-- The body of the loop of `findings.md.j2`. -/
def findingEntry (f : FindingContext) : String :=
  "### " ++ f.title ++ "\n\n- **Severity**: " ++ f.severity ++ "\n- **Asset**: " ++ f.asset ++
    "\n- **CWE**: " ++ ", ".intercalate f.cwe ++ "\n- **CVE**: " ++ ", ".intercalate f.cve ++
    "\n- **Remediation**: " ++ f.remediation ++ "\n- **Evidence**: " ++ f.evidence ++
    "\n- **Status**: " ++ f.status ++ "\n\n"

/-- `findings.md.j2`. -/
def findingsTemplate (findings : List FindingContext) : String :=
  String.join (findings.map findingEntry) ++ (if findings.isEmpty then "_No findings._\n" else "")

/-- `coverage_matrix.md.j2`. -/
def coverageMatrixTemplate (percent : ℚ → String) (coverageRate : ℚ) (uncoveredClasses : List String) :
    String :=
  "Coverage rate: " ++ percent coverageRate ++ "%\n\n" ++
    (if uncoveredClasses.isEmpty then "All required test classes covered.\n"
    else "Uncovered required classes:\n" ++
      String.join (uncoveredClasses.map fun c => "- " ++ c ++ "\n"))

/-! ## The renderer -/

/-- `ReportRenderer`: the text that the redactor leaves, and the text of a rate as a percentage,
`'%.0f' | format(coverage_rate * 100)`. -/
structure ReportRenderer where
  redact : String → String
  percent : ℚ → String

namespace ReportRenderer

variable (renderer : ReportRenderer)

/-- `_bullet`. -/
def bullet (items : List String) : String :=
  if items.isEmpty then "_None._" else "\n".intercalate (items.map fun item => "- " ++ item)

/-- What `_findings_context` makes of a finding: of its texts only the title is redacted. -/
def findingContext (finding : Finding) : FindingContext where
  title := renderer.redact finding.title
  severity := finding.severity.value
  asset := finding.asset
  cwe := finding.cwe
  cve := finding.cve
  remediation := remediationFor finding.cwe
  evidence :=
    let evidence := ", ".intercalate finding.evidenceIds
    if evidence = "" then "n/a" else evidence
  status := finding.status.value

/-- The sections of `render`. -/
def sections (data : FullReportData) (reportId : String) : List ReportSection :=
  [⟨"executive_summary", executiveSummaryTemplate renderer.percent data.title data.assessmentId
      data.findings.length data.coverageRate data.completeness⟩,
    ⟨"scope", "## Scope\n\n" ++ renderer.redact data.scopeSummary⟩,
    ⟨"method", "## Method\n\n" ++ data.method⟩,
    ⟨"asset_inventory", "## Asset Inventory\n\n" ++ bullet data.assets⟩,
    ⟨"findings", "## Findings\n\n" ++ findingsTemplate (data.findings.map renderer.findingContext)⟩,
    ⟨"evidence", "## Evidence\n\n" ++ bullet data.evidenceDigests⟩,
    ⟨"coverage_matrix", "## Coverage Matrix\n\n" ++
      coverageMatrixTemplate renderer.percent data.coverageRate data.uncoveredClasses⟩,
    ⟨"appendix", "## Appendix\n\n" ++ "Report ID: " ++ reportId ++ "\nAssessment: " ++
      data.assessmentId ++ "\n"⟩]

/-- `render`. -/
def render (data : FullReportData) (reportId : String) : SectionedReport where
  toRenderedReport := data.toReportData.render reportId
  sections := renderer.sections data reportId

end ReportRenderer

end SecOpent
