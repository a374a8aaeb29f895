import Mathlib.Data.List.Find
import SecOpent.Adapters.Nmap

/-!
# The observations of a report

The loops of the parser of nmap reports are one loop over the open ports of the hosts that are not down.
A port is known by the first address of its host and by its number, and what is kept is the first port
under each key. The CVE ids of an observation are those in the output of the scripts of its port.

## Main definitions

* `CveIn`: the CVE ids in a text
* `openPorts`, `WellFormedReport`: the ports of a report, and what nmap writes of them
* `Keeps`: what the loops keep
* `Reports`: the observations are those of the ports that are found first

## Main results

* `mem_extractCves_iff`: the ids that are extracted are those in the text
* `Keeps.visit`, `Keeps.foldl`: what one port, and what the loops keep
* `observations_spec`: the observations of a report
-/

namespace SecOpent

open Python Regex

/-! ## CVE ids -/

/-- The id is in the text: at some place of the text the pattern takes it. -/
def CveIn (U : Unicode) (upperTable : Str → Str) (text id : String) : Prop :=
  ∃ a m b, text.toList = a ++ (m ++ b) ∧
    first (isWord U) (cvePattern U) (lastChar none a) (m ++ b) = some (m, b) ∧
    id = String.ofList (upper upperTable m)

section Cves

variable {U : Unicode} {upperTable : Str → Str}

theorem opens_cvePattern : (cvePattern U).Opens fun c => c = 'C' ∨ c = 'c' :=
  ⟨Nat.one_pos, fun _ hc => by simpa using hc⟩

/-- No CVE id starts within another one. -/
theorem tail_cvePattern (before : Option Char) (m after : Str)
    (h : Matches (isWord U) (cvePattern U) before m after) : ∀ c ∈ m.tail, ¬(c = 'C' ∨ c = 'c') := by
  obtain ⟨a, b, rfl, ha, hb⟩ := h
  obtain ⟨c, rfl⟩ := List.length_eq_one_iff.mp (le_antisymm (ha.2.2 1 rfl) ha.2.1)
  -- After its first letter an id has `V`, `E`, dashes and digits only.
  refine Matches.within (p := fun c => ¬(c = 'C' ∨ c = 'c')) ?_ hb
  have hletter : ∀ {capital small c : Char}, c == capital || c == small →
      capital ∉ ['C', 'c'] → small ∉ ['C', 'c'] → ¬(c = 'C' ∨ c = 'c') := by
    intro capital small c hc hcapital hsmall
    simp only [Bool.or_eq_true, beq_iff_eq] at hc
    rcases hc with rfl | rfl
    · simpa using hcapital
    · simpa using hsmall
  have hdash : (char '-').Within fun c => ¬(c = 'C' ∨ c = 'c') := by
    intro c hc
    rw [beq_iff_eq.mp hc]
    decide
  have hdigit : ∀ c, isDecimal U c = true → ¬(c = 'C' ∨ c = 'c') := by
    rintro _ hc (rfl | rfl) <;> cases hc
  exact ⟨fun _ hc => hletter hc (by decide) (by decide), fun _ hc => hletter hc (by decide) (by decide),
    hdash, hdigit, hdash, hdigit⟩

/-- **The ids that are extracted** are those in the text. -/
theorem mem_extractCves_iff {text id : String} :
    id ∈ extractCves U upperTable text ↔ CveIn U upperTable text id := by
  simp only [extractCves, List.mem_eraseDups, List.mem_map,
    mem_findall_iff opens_cvePattern tail_cvePattern]
  constructor
  · rintro ⟨m, ⟨a, b, htext, hfirst⟩, rfl⟩
    exact ⟨a, m, b, htext, hfirst, rfl⟩
  · rintro ⟨a, m, b, htext, hfirst, rfl⟩
    exact ⟨m, ⟨a, b, htext, hfirst⟩, rfl⟩

end Cves

/-! ## Reports -/

/-- The open ports of the hosts that are not down, each with its host, in the order of the report. -/
def openPorts (root : Element) : List (Element × Element) :=
  ((root.iter "host").filter NmapParser.hostUp).flatMap fun host =>
    ((host.iter "port").filter NmapParser.portOpen).map fun port => (host, port)

/-- What nmap writes of every address and of every port. -/
structure WellFormedReport (root : Element) : Prop where
  address : ∀ host ∈ root.iter "host", ∀ address ∈ host.findall "address",
    (∃ addr, address.get "addr" = some addr ∧ addr ≠ "") ∧
      ∃ kind ∈ ["ipv4", "ipv6", "mac"], address.get "addrtype" = some kind
  protocol : ∀ host ∈ root.iter "host", ∀ port ∈ host.iter "port",
    ∃ protocol, port.get "protocol" = some protocol
  portid : ∀ host ∈ root.iter "host", ∀ port ∈ host.iter "port",
    ∃ number : ℕ, port.get "portid" = some (toString number)
  state : ∀ host ∈ root.iter "host", ∀ port ∈ host.iter "port",
    ∃ state, port.find "state" = some state ∧ ∃ value, state.get "state" = some value

namespace NmapParser

variable (parser : NmapParser)

/-- A script of the port has the id in its output. -/
def PortCve (port : Element) (id : String) : Prop :=
  ∃ script ∈ parseScripts port, CveIn parser.unicode parser.upperTable script.output id

/-- The parser knows the port under this address and number. -/
def knownAs (address : String) (portid : Option String) (listing : Element × Element) : Bool :=
  (hostAddresses listing.1).1.head? == some address && listing.2.get "portid" == portid

/-! ## What the loops keep -/

/-- The host and the port as the parser knows them, `ip:port`. -/
def identityOf (listing : Element × Element) : Option String :=
  match (hostAddresses listing.1).1.head?, (listing.2.get "portid").filter (· ≠ "") with
  | some ip, some portid => some (assetIdentityOf ip portid)
  | _, _ => none

/-- The body of both loops, for a port with its host. -/
def visit (source : AdapterSource) (progress : Progress) (listing : Element × Element) : Progress :=
  match hostAddresses listing.1 with
  | ([], _) => progress
  | (ip :: _, hostname) => parser.visitPort source ip hostname progress listing.2

/-- The observation has been made of the port. -/
def MadeOf (source : AdapterSource) (listing : Element × Element) (o : NmapObservation) : Prop :=
  ∃ ip portid idx, (hostAddresses listing.1).1.head? = some ip ∧ listing.2.get "portid" = some portid ∧
    o = parser.portObservation source ip (hostAddresses listing.1).2 listing.2 portid idx

/-- The observations are those of the ports that were found first. -/
structure Keeps (source : AdapterSource) (listings : List (Element × Element)) (progress : Progress) :
    Prop where
  seen : ∀ identity, identity ∈ progress.seen ↔ ∃ listing ∈ listings, identityOf listing = some identity
  nodup : (progress.observations.map (·.assetIdentity)).Nodup
  first : ∀ o ∈ progress.observations, ∃ listing,
    listings.find? (identityOf · == some o.assetIdentity) = some listing ∧
      parser.MadeOf source listing o
  all : ∀ listing ∈ listings, ∀ identity, identityOf listing = some identity →
    ∃ o ∈ progress.observations, o.assetIdentity = identity

section Loops

variable {parser} {source : AdapterSource} {progress : Progress} {listing : Element × Element}
  {listings : List (Element × Element)}

/-- The loop over the ports of a host that is not down. -/
theorem visitHost_eq {host : Element} (hup : hostUp host = true) (progress : Progress) :
    parser.visitHost source progress host =
      (((host.iter "port").filter portOpen).map fun port => (host, port)).foldl (parser.visit source)
        progress := by
  rw [visitHost, hup, Bool.not_true, if_neg Bool.false_ne_true, List.foldl_map, List.foldl_filter]
  rcases haddresses : hostAddresses host with ⟨_ | ⟨ip, ips⟩, hostname⟩
  · -- Without an address the ports of the host change nothing.
    simp only [visit, haddresses, ite_self]
    exact (List.foldl_fixed' (fun _ => rfl) _).symm
  · simp only [visit, haddresses]
    refine congrArg (fun f => List.foldl f progress (host.iter "port")) ?_
    funext progress port
    cases hopen : portOpen port with
    | true => rfl
    | false => simp [visitPort, hopen]

/-- The loops are one over the open ports. -/
theorem foldl_visitHost (hosts : List Element) (progress : Progress) :
    hosts.foldl (parser.visitHost source) progress =
      ((hosts.filter hostUp).flatMap fun host =>
        ((host.iter "port").filter portOpen).map fun port => (host, port)).foldl (parser.visit source)
          progress := by
  induction hosts generalizing progress with
  | nil => rfl
  | cons host hosts ih =>
    rw [List.foldl_cons, ih]
    cases hup : hostUp host with
    -- The ports of the host come before those of the hosts after it.
    | true => rw [List.filter_cons_of_pos hup, List.flatMap_cons, List.foldl_append, visitHost_eq hup]
    | false =>
      rw [List.filter_cons_of_neg (by simp [hup]), visitHost, hup, Bool.not_false, if_pos rfl]

/-- What a port adds: nothing, if it has no address or no number, or is known already. -/
theorem visit_cases (hopen : portOpen listing.2 = true) :
    (parser.visit source progress listing = progress ∧
      ∀ identity, identityOf listing = some identity → identity ∈ progress.seen) ∨
    ∃ identity o, identityOf listing = some identity ∧ identity ∉ progress.seen ∧
      o.assetIdentity = identity ∧ parser.MadeOf source listing o ∧
      parser.visit source progress listing =
        ⟨progress.observations ++ [o], identity :: progress.seen, progress.idx + 1⟩ := by
  rcases haddresses : hostAddresses listing.1 with ⟨_ | ⟨ip, ips⟩, hostname⟩
  · -- Without an address there is no key.
    refine .inl ⟨by simp only [visit, haddresses], fun identity hidentity => ?_⟩
    simp [identityOf, haddresses] at hidentity
  · have hvisit : parser.visit source progress listing =
        parser.visitPort source ip hostname progress listing.2 := by simp only [visit, haddresses]
    rw [hvisit, visitPort, hopen, Bool.not_true, if_neg Bool.false_ne_true]
    cases hportid : (listing.2.get "portid").filter (· ≠ "") with
    | none =>
      refine .inl ⟨rfl, fun identity hidentity => ?_⟩
      simp only [identityOf, haddresses, List.head?_cons, hportid] at hidentity
      cases hidentity
    | some portid =>
      have hidentity : identityOf listing = some (assetIdentityOf ip portid) := by
        simp only [identityOf, haddresses, List.head?_cons, hportid]
      -- The key decides: a port under a known key is dropped, whatever its protocol.
      by_cases hseen : assetIdentityOf ip portid ∈ progress.seen
      · refine .inl ⟨if_pos hseen, fun identity heq => ?_⟩
        obtain rfl := Option.some.inj (hidentity.symm.trans heq)
        exact hseen
      · refine .inr ⟨_, parser.portObservation source ip hostname listing.2 portid progress.idx,
          hidentity, hseen, rfl, ⟨ip, portid, progress.idx, ?_, ?_, ?_⟩, if_neg hseen⟩
        · rw [haddresses]
          rfl
        · exact (Option.filter_eq_some_iff.mp hportid).1
        · rw [haddresses]

/-- A port that adds nothing. -/
theorem Keeps.skip (h : parser.Keeps source listings progress)
    (hseen : ∀ identity, identityOf listing = some identity → identity ∈ progress.seen) :
    parser.Keeps source (listings ++ [listing]) progress where
  seen identity := by
    rw [h.seen]
    constructor
    · rintro ⟨other, hother, hidentity⟩
      exact ⟨other, List.mem_append_left _ hother, hidentity⟩
    · rintro ⟨other, hother, hidentity⟩
      rcases List.mem_append.mp hother with hother | hother
      · exact ⟨other, hother, hidentity⟩
      · obtain rfl := List.mem_singleton.mp hother
        exact (h.seen identity).mp (hseen identity hidentity)
  nodup := h.nodup
  first o ho := by
    obtain ⟨other, hfind, hmade⟩ := h.first o ho
    exact ⟨other, by rw [List.find?_append, hfind, Option.some_or], hmade⟩
  all other hother identity hidentity := by
    rcases List.mem_append.mp hother with hother | hother
    · exact h.all other hother identity hidentity
    · obtain rfl := List.mem_singleton.mp hother
      obtain ⟨known, hknown, hsame⟩ := (h.seen identity).mp (hseen identity hidentity)
      exact h.all known hknown identity hsame

/-- A port that has not been known before. -/
theorem Keeps.add {identity : String} {o : NmapObservation} {idx : ℕ}
    (h : parser.Keeps source listings progress) (hidentity : identityOf listing = some identity)
    (hnew : identity ∉ progress.seen) (ho : o.assetIdentity = identity)
    (hmade : parser.MadeOf source listing o) :
    parser.Keeps source (listings ++ [listing])
      ⟨progress.observations ++ [o], identity :: progress.seen, idx⟩ where
  seen other := by
    simp only [List.mem_cons, h.seen, List.mem_append, List.not_mem_nil, or_false, or_and_right,
      exists_or, exists_eq_left, hidentity, Option.some.injEq]
    rw [or_comm, eq_comm]
  nodup := by
    rw [List.map_append, List.nodup_append]
    refine ⟨h.nodup, List.nodup_singleton _, ?_⟩
    rintro _ hold _ hlast rfl
    obtain rfl := List.mem_singleton.mp hlast
    -- An older observation under the key would have made it known.
    obtain ⟨old, hmem, hsame⟩ := List.mem_map.mp hold
    obtain ⟨known, hfind, -⟩ := h.first old hmem
    have hidentity' : old.assetIdentity = identity := hsame.trans ho
    refine hnew ((h.seen _).mpr ⟨known, List.mem_of_find?_eq_some hfind, ?_⟩)
    rw [← hidentity']
    simpa using List.find?_some hfind
  first other hother := by
    rcases List.mem_append.mp hother with hother | hother
    · obtain ⟨known, hfind, hmade⟩ := h.first other hother
      exact ⟨known, by rw [List.find?_append, hfind, Option.some_or], hmade⟩
    · obtain rfl := List.mem_singleton.mp hother
      refine ⟨listing, ?_, hmade⟩
      -- The key is new, so no port before this one is found under it.
      have hnone : listings.find? (identityOf · == some other.assetIdentity) = none := by
        refine List.find?_eq_none.mpr fun known hknown hsame => ?_
        refine hnew ((h.seen _).mpr ⟨known, hknown, ?_⟩)
        rw [← ho]
        simpa using hsame
      rw [List.find?_append, hnone, Option.none_or, List.find?_cons_of_pos]
      rw [hidentity, ho, beq_self_eq_true]
  all known hknown other hother := by
    rcases List.mem_append.mp hknown with hknown | hknown
    · obtain ⟨old, hold, hsame⟩ := h.all known hknown other hother
      exact ⟨old, List.mem_append_left _ hold, hsame⟩
    · obtain rfl := List.mem_singleton.mp hknown
      obtain rfl := Option.some.inj (hidentity.symm.trans hother)
      exact ⟨o, List.mem_append_right _ (List.mem_singleton_self o), ho⟩

/-- **What one port keeps.** -/
theorem Keeps.visit (h : parser.Keeps source listings progress) (hopen : portOpen listing.2 = true) :
    parser.Keeps source (listings ++ [listing]) (parser.visit source progress listing) := by
  rcases @visit_cases parser source progress listing hopen with
    ⟨hsame, hseen⟩ | ⟨identity, o, hidentity, hnew, ho, hmade, hnext⟩
  · rw [hsame]
    exact h.skip hseen
  · rw [hnext]
    exact h.add hidentity hnew ho hmade

/-- **What the loops keep.** -/
theorem Keeps.foldl {rest : List (Element × Element)} (h : parser.Keeps source listings progress)
    (hopen : ∀ listing ∈ rest, portOpen listing.2 = true) :
    parser.Keeps source (listings ++ rest) (rest.foldl (parser.visit source) progress) := by
  induction rest generalizing listings progress with
  | nil => rwa [List.append_nil]
  | cons listing rest ih =>
    obtain ⟨hlisting, hrest⟩ := List.forall_mem_cons.mp hopen
    rw [List.append_cons]
    exact ih (h.visit hlisting) hrest

theorem keeps_empty : parser.Keeps source [] {} := by
  refine ⟨fun identity => ?_, List.nodup_nil, nofun, nofun⟩
  simp

end Loops

/-! ## The observations of a report -/

section Report

variable {parser} {source : AdapterSource} {root : Element} {listing : Element × Element}

theorem not_cveIn_empty {U : Unicode} {upperTable : Str → Str} {id : String} :
    ¬CveIn U upperTable "" id := by
  rintro ⟨a, m, b, htext, hfirst, -⟩
  obtain ⟨c, t, rfl, -⟩ := (matches_of_first hfirst).2.opens opens_cvePattern
  have hlength := congrArg List.length htext
  simp at hlength

/-- The CVE ids of an observation are those of its port. -/
theorem mem_cvesOf_iff {port : Element} {id : String} :
    id ∈ parser.cvesOf (parseScripts port) ↔ parser.PortCve port id := by
  simp only [cvesOf, sortedTexts, List.mem_mergeSort, List.mem_dedup, List.mem_flatMap,
    mem_extractCves_iff, PortCve]
  constructor
  · rintro ⟨script, hscript, hid⟩
    exact ⟨script, List.mem_of_mem_filter hscript, hid⟩
  · rintro ⟨script, hscript, hid⟩
    -- A script with an id in its output is scanned, whatever its own name.
    have houtput : script.output ≠ "" := fun hempty => not_cveIn_empty (hempty ▸ hid)
    exact ⟨script, List.mem_filter.mpr ⟨hscript, by simp [houtput]⟩, hid⟩

theorem colon_not_mem_number (number : ℕ) : ':' ∉ (toString number).toList := by
  intro hmem
  have hdigit : Char.isDigit ':' = true :=
    Nat.isDigit_of_mem_toDigits (b := 10) (n := number) (by decide) (by decide) (by simpa using hmem)
  cases hdigit

theorem assetIdentityOf_inj {ip ip' portid portid' : String} (hportid : ':' ∉ portid.toList)
    (hportid' : ':' ∉ portid'.toList) :
    assetIdentityOf ip portid = assetIdentityOf ip' portid' ↔ ip = ip' ∧ portid = portid' := by
  constructor
  · intro h
    have hlist : ip.toList ++ ':' :: portid.toList = ip'.toList ++ ':' :: portid'.toList := by
      simpa [assetIdentityOf] using congrArg String.toList h
    -- The number has no colon, so the last colon is the one between the parts.
    have hsplit := congrArg (rpartition ':') hlist
    rw [rpartition_append ':' hportid, rpartition_append ':' hportid'] at hsplit
    obtain ⟨hip, hport⟩ := Prod.mk.inj hsplit
    exact ⟨String.toList_inj.mp hip, String.toList_inj.mp hport⟩
  · rintro ⟨rfl, rfl⟩
    rfl

theorem mem_openPorts : listing ∈ openPorts root ↔
    listing.1 ∈ root.iter "host" ∧ hostUp listing.1 = true ∧
      listing.2 ∈ listing.1.iter "port" ∧ portOpen listing.2 = true := by
  simp only [openPorts, List.mem_flatMap, List.mem_map, List.mem_filter]
  constructor
  · rintro ⟨host, ⟨hhost, hup⟩, port, ⟨hport, hopen⟩, rfl⟩
    exact ⟨hhost, hup, hport, hopen⟩
  · rintro ⟨hhost, hup, hport, hopen⟩
    exact ⟨listing.1, ⟨hhost, hup⟩, listing.2, ⟨hport, hopen⟩, rfl⟩

/-- In a report, the parser's key of a port stands for an address and a number. -/
theorem identityOf_eq_iff (hroot : WellFormedReport root) (hlisting : listing ∈ openPorts root)
    (address : String) (number : ℕ) :
    (identityOf listing == some (assetIdentityOf address (toString number))) =
      knownAs address (some (toString number)) listing := by
  obtain ⟨hhost, -, hport, -⟩ := mem_openPorts.mp hlisting
  obtain ⟨own, hown⟩ := hroot.portid _ hhost _ hport
  -- A number is not the empty text, so the parser does not skip the port.
  have hne : toString own ≠ "" := by
    intro hempty
    have hdigits : (toString own).toList = Nat.toDigits 10 own := by simp
    rw [hempty] at hdigits
    exact Nat.toDigits_ne_nil hdigits.symm
  have hportid : (listing.2.get "portid").filter (· ≠ "") = some (toString own) := by
    rw [hown, Option.filter_some, if_pos (decide_eq_true hne)]
  rw [Bool.eq_iff_iff, beq_iff_eq, knownAs, Bool.and_eq_true, beq_iff_eq, beq_iff_eq, identityOf,
    hportid, hown]
  cases (hostAddresses listing.1).1.head? with
  | none => simp
  | some ip =>
    simp only [Option.some.injEq]
    exact assetIdentityOf_inj (colon_not_mem_number own) (colon_not_mem_number number)

/-- The observations are those of the ports that are found first under their addresses and numbers, one
for each. -/
structure Reports (parser : NmapParser) (source : AdapterSource) (root : Element)
    (observations : List NmapObservation) : Prop where
  nodup : (observations.map (·.assetIdentity)).Nodup
  made : ∀ o ∈ observations, ∃ listing, ∃ number : ℕ, parser.MadeOf source listing o ∧
    o.raw.port = toString number ∧ o.assetIdentity = assetIdentityOf o.raw.ip (toString number) ∧
    (openPorts root).find? (knownAs o.raw.ip (some (toString number))) = some listing
  all : ∀ address (number : ℕ) listing,
    (openPorts root).find? (knownAs address (some (toString number))) = some listing →
      ∃ o ∈ observations, parser.MadeOf source listing o ∧ o.raw.ip = address

/-- **The observations of a report.** -/
theorem observations_spec (hroot : WellFormedReport root) :
    parser.Reports source root
      ((root.iter "host").foldl (parser.visitHost source) {}).observations := by
  have hkeeps : parser.Keeps source ([] ++ openPorts root)
      ((openPorts root).foldl (parser.visit source) {}) :=
    keeps_empty.foldl fun listing hlisting => (mem_openPorts.mp hlisting).2.2.2
  rw [foldl_visitHost]
  -- To look for a key is to look for an address and a number.
  have hfind : ∀ address (number : ℕ),
      (openPorts root).find? (identityOf · == some (assetIdentityOf address (toString number))) =
        (openPorts root).find? (knownAs address (some (toString number))) := fun address number =>
    List.find?_congr fun listing hlisting => identityOf_eq_iff hroot hlisting address number
  refine ⟨hkeeps.nodup, fun o ho => ?_, fun address number listing hlisting => ?_⟩
  · obtain ⟨listing, hfirst, hmade⟩ := hkeeps.first o ho
    have hlisting := List.mem_of_find?_eq_some hfirst
    obtain ⟨hhost, -, hport, -⟩ := mem_openPorts.mp hlisting
    obtain ⟨number, hnumber⟩ := hroot.portid _ hhost _ hport
    obtain ⟨ip, portid, idx, hip, hportid, rfl⟩ := hmade
    obtain rfl := Option.some.inj (hportid.symm.trans hnumber)
    refine ⟨listing, number, ⟨ip, _, idx, hip, hportid, rfl⟩, rfl, rfl, ?_⟩
    exact (hfind ip number).symm.trans hfirst
  · have hidentity := List.find?_some ((hfind address number).trans hlisting)
    obtain ⟨o, ho, hsame⟩ := hkeeps.all listing (List.mem_of_find?_eq_some hlisting) _
      (beq_iff_eq.mp hidentity)
    -- The observation under the key has been made of the first port under it.
    obtain ⟨first, hfirst, hmade⟩ := hkeeps.first o ho
    rw [hsame] at hfirst
    obtain rfl := Option.some.inj (hfirst.symm.trans ((hfind address number).trans hlisting))
    refine ⟨o, ho, hmade, ?_⟩
    obtain ⟨ip, portid, idx, hip, -, rfl⟩ := hmade
    have hknown := List.find?_some hlisting
    rw [knownAs, Bool.and_eq_true, beq_iff_eq, hip] at hknown
    exact Option.some.inj hknown.1

theorem parse_eq {stdout : String} (hstdout : parser.fromstring stdout = some root)
    (hblank : ∀ text, strip text.toList = [] → parser.fromstring text = none) :
    parser.parse stdout source =
      ((root.iter "host").foldl (parser.visitHost source) {}).observations := by
  have htext : strip stdout.toList ≠ [] := by
    intro hstrip
    rw [hblank stdout hstrip] at hstdout
    cases hstdout
  rw [parse, if_neg htext, hstdout]

end Report

end NmapParser

end SecOpent
