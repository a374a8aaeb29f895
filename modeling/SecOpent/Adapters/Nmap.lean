import SecOpent.Adapters.ContainerRunner
import SecOpent.Evidence.Redaction
import SecOpent.Findings.Correlation
import SecOpent.Python.Xml

/-!
# The parser of nmap reports

`integrations/adapters/nmap`: an open port of a host becomes an observation, with what the service and
the scripts say about it. An observation is known by the address of the host and the number of the port,
and the address is the first one of IPv4.

## Main definitions

* `cvePattern`, `extractCves`: the CVE ids in the output of a script
* `NmapObservation`, `portObservation`: what is made of a port
* `NmapParser.parse`: `parse`
-/

namespace SecOpent

open Python Regex

/-! ## CVE ids -/

section Cves

variable (U : Unicode) (upperTable : Str → Str)

/-- A letter in either case. -/
def anyCase (capital small : Char) : Regex :=
  chars (fun c => c == capital || c == small) 1 (some 1) false

/-- `_CVE_RE`. -/
def cvePattern : Regex :=
  seq (anyCase 'C' 'c') (seq (anyCase 'V' 'v') (seq (anyCase 'E' 'e') (seq (char '-')
    (seq (times (isDecimal U) 4) (seq (char '-') (chars (isDecimal U) 4 (some 7) false))))))

/-- `_extract_cves`. -/
def extractCves (text : String) : List String :=
  ((Regex.findall (isWord U) (cvePattern U) text.toList).map fun m =>
    String.ofList (upper upperTable m)).eraseDups

end Cves

/-! ## Observations -/

/-- `AdapterSource`. -/
structure AdapterSource where
  name : String
  version : String
  templateVersion : String
  deriving DecidableEq, Repr

/-- A script with its output. -/
structure NmapScript where
  id : String
  output : String
  deriving DecidableEq, Repr

/-- The `raw` of an observation. -/
structure NmapRaw where
  ip : String
  port : String
  protocol : String
  hostname : String
  service : List (String × String)
  scripts : List NmapScript
  deriving DecidableEq, Repr

/-- The `Observation` of an open port. -/
structure NmapObservation extends Observation where
  source : AdapterSource
  ruleId : String := "nmap.open_port"
  ruleVersion : String := "7.94"
  coverageDomain : CoverageDomain := .network
  confidence : ℚ := 95 / 100
  raw : NmapRaw
  deriving DecidableEq

/-- `_VULN_SCRIPT_IDS`. -/
def vulnScriptIds : List String :=
  ["ssl-heartbleed", "ssl-ccs", "ssl-poodle", "smb-vuln", "vulners", "http-vuln-cve",
    "ftp-vsftpd-backdoor", "ssh-hostkey", "ms-sql-empty-password"]

/-- `_host_addresses`: the addresses of IPv4, and the first name that is not empty. -/
def hostAddresses (host : Element) : List String × Option String :=
  (((host.findall "address").filter fun address => (address.get "addrtype").getD "" = "ipv4").map
      fun address => (address.get "addr").getD "",
    (host.iter "hostname").findSome? fun hostname => (hostname.get "name").filter (· ≠ ""))

/-- `_parse_service`. -/
def parseService (port : Element) : List (String × String) :=
  match port.find "service" with
  | none => []
  | some service => ["name", "product", "version", "extrainfo", "tunnel"].filterMap fun key =>
    ((service.get key).filter (· ≠ "")).map fun value => (key, value)

/-- `_parse_scripts`. -/
def parseScripts (port : Element) : List NmapScript :=
  (port.findall "script").map fun script =>
    ⟨(script.get "id").getD "", (script.get "output").getD ""⟩

/-- The parser, with the tables of characters and the XML parser, which fails on a text that is no
document or is refused. -/
structure NmapParser where
  unicode : Unicode
  upperTable : Str → Str
  fromstring : String → Option Element

namespace NmapParser

variable (parser : NmapParser)

/-- The CVE ids in the outputs of the scripts, sorted. -/
def cvesOf (scripts : List NmapScript) : List String :=
  let scanned := scripts.filter fun script => script.id ∈ vulnScriptIds || script.output ≠ ""
  sortedTexts (scanned.flatMap fun script =>
    extractCves parser.unicode parser.upperTable script.output).dedup

/-- The CWE ids of the scripts, of which there is one. -/
def cwesOf (scripts : List NmapScript) : List String :=
  if scripts.any fun script => startsWith script.id.toList "ssl-".toList && script.output ≠ "" then
    ["CWE-310"]
  else []

/-- `f"{ip}:{portid}"`. -/
def assetIdentityOf (ip portid : String) : String := ip ++ (":" ++ portid)

/-- The observation of a port. -/
def portObservation (source : AdapterSource) (ip : String) (hostname : Option String) (port : Element)
    (portid : String) (idx : ℕ) : NmapObservation :=
  let assetIdentity := assetIdentityOf ip portid
  let service := parseService port
  let scripts := parseScripts port
  { externalId := "nmap:" ++ assetIdentity ++ ":" ++ toString idx
    assetIdentity
    title :=
      match service.lookup "name" with
      | some name => "open " ++ name ++ " port: " ++ assetIdentity
      | none => "open port: " ++ assetIdentity
    severity := .info
    cwe := cwesOf scripts
    cve := parser.cvesOf scripts
    source
    raw :=
      { ip, port := portid, protocol := (port.get "protocol").getD "tcp"
        hostname := hostname.getD "", service, scripts } }

/-- The observations so far, and the hosts and ports that they are about. -/
structure Progress where
  observations : List NmapObservation := []
  seen : List String := []
  idx : ℕ := 0

/-- The state of a port is not one that rules it out. -/
def portOpen (port : Element) : Bool :=
  match port.find "state" with
  | some state => state.get "state" == some "open"
  | none => true

/-- The status of a host does not rule it out. -/
def hostUp (host : Element) : Bool :=
  match host.find "status" with
  | some status => status.get "state" != some "down"
  | none => true

/-- The body of the loop over the ports of a host. -/
def visitPort (source : AdapterSource) (ip : String) (hostname : Option String) (progress : Progress)
    (port : Element) : Progress :=
  if !portOpen port then progress
  else
    match (port.get "portid").filter (· ≠ "") with
    | none => progress
    | some portid =>
      if assetIdentityOf ip portid ∈ progress.seen then progress
      else
        { observations := progress.observations ++
            [parser.portObservation source ip hostname port portid progress.idx]
          seen := assetIdentityOf ip portid :: progress.seen
          idx := progress.idx + 1 }

/-- The body of the loop over the hosts. -/
def visitHost (source : AdapterSource) (progress : Progress) (host : Element) : Progress :=
  if !hostUp host then progress
  else
    match hostAddresses host with
    | ([], _) => progress
    | (ip :: _, hostname) => (host.iter "port").foldl (parser.visitPort source ip hostname) progress

/-- `parse`. -/
def parse (stdout : String) (source : AdapterSource) : List NmapObservation :=
  if strip stdout.toList = [] then []
  else
    match parser.fromstring stdout with
    | none => []
    | some root => ((root.iter "host").foldl (parser.visitHost source) {}).observations

end NmapParser

end SecOpent
