import SecOpent.Adapters.NmapReports

/-!
# What the parser of nmap reports leaves out

An open port of a host is known in a report by an address of the host, the protocol and the number. The
parser knows it by the first IPv4 address and the number, and keeps the first port that it finds under
these. So it leaves out hosts of IPv6, the further addresses of a host, and ports with the number of
another one; and of a port that is reported twice it reads the first report.

## Main definitions

* `Endpoint`, `Lists`: an open port, and where a report has it
* `CompleteFor`: every open port has one observation, with its CVE ids, and there are no others
* `Covered`: under each address of a port, the parser finds its report or one that says as much

## Main results

* `Reports.covered`, `Reports.complete`: both directions, for the observations of a report
* `parse_complete_iff`: exactly when the parser is complete
-/

namespace SecOpent

open Python

/-- The addresses of a host, of IPv4 and of IPv6. -/
def ipAddresses (host : Element) : List String :=
  ((host.findall "address").filter fun address =>
      address.get "addrtype" = some "ipv4" ∨ address.get "addrtype" = some "ipv6").map
    fun address => (address.get "addr").getD ""

/-- An open port: the address of its host, its protocol and its number. -/
structure Endpoint where
  address : String
  protocol : String
  number : ℕ
  deriving DecidableEq

/-- A port of a report, with its host, is this endpoint. -/
def Lists (listing : Element × Element) (e : Endpoint) : Prop :=
  e.address ∈ ipAddresses listing.1 ∧ listing.2.get "protocol" = some e.protocol ∧
    listing.2.get "portid" = some (toString e.number)

/-- The observation is about this endpoint. -/
def NmapObservation.isOf (o : NmapObservation) (e : Endpoint) : Bool :=
  o.raw.ip == e.address && o.raw.protocol == e.protocol && o.raw.port == toString e.number

namespace NmapParser

variable (parser : NmapParser)

/-- Every open port has exactly one observation, which has its CVE ids, and there are no others. -/
structure CompleteFor (root : Element) (observations : List NmapObservation) : Prop where
  exactly : ∀ listing ∈ openPorts root, ∀ e, Lists listing e →
    observations.countP (·.isOf e) = 1
  only : ∀ o ∈ observations, ∃ listing ∈ openPorts root, ∃ e, Lists listing e ∧ o.isOf e = true
  cves : ∀ listing ∈ openPorts root, ∀ e, Lists listing e → ∀ o ∈ observations, o.isOf e = true →
    ∀ id, parser.PortCve listing.2 id → id ∈ o.cve

/-- Under each address of an open port, the first port that the parser knows under the address and the
number has the same protocol, and the CVE ids of the port. -/
def Covered (root : Element) : Prop :=
  ∀ listing ∈ openPorts root, ∀ address ∈ ipAddresses listing.1, ∃ first,
    (openPorts root).find? (knownAs address (listing.2.get "portid")) = some first ∧
      first.2.get "protocol" = listing.2.get "protocol" ∧
      ∀ id, parser.PortCve listing.2 id → parser.PortCve first.2 id

section Report

variable {parser} {source : AdapterSource} {root : Element}

theorem headAddress_mem {host : Element} {ip : String} (h : (hostAddresses host).1.head? = some ip)
    (haddress : ∀ address ∈ host.findall "address", ∃ kind, address.get "addrtype" = some kind) :
    ip ∈ ipAddresses host := by
  obtain ⟨address, hmem, rfl⟩ := List.mem_map.mp (List.mem_of_mem_head? h)
  obtain ⟨hmem, hkind⟩ := List.mem_filter.mp hmem
  obtain ⟨kind, hget⟩ := haddress address hmem
  refine List.mem_map_of_mem (List.mem_filter.mpr ⟨hmem, ?_⟩)
  rw [hget, Option.getD_some, decide_eq_true_eq] at hkind
  rw [hget, hkind]
  rfl

/-- One item satisfies a property that decides its key, where the keys are distinct. -/
theorem countP_eq_one {α κ : Type} [DecidableEq κ] {items : List α} {key : α → κ} {p : α → Bool} {k : κ}
    {item : α} (hnodup : (items.map key).Nodup) (hkey : ∀ x ∈ items, p x = true → key x = k)
    (hitem : item ∈ items) (hp : p item = true) : items.countP p = 1 := by
  refine le_antisymm ?_ (List.countP_pos_iff.mpr ⟨item, hitem, hp⟩)
  -- What satisfies the property has the one key, which occurs once at most.
  calc items.countP p ≤ items.countP (key · == k) :=
        List.countP_mono_left fun x hx hpx => beq_iff_eq.mpr (hkey x hx hpx)
    _ = (items.map key).count k := by rw [List.count, List.countP_map]; rfl
    _ ≤ 1 := List.nodup_iff_count_le_one.mp hnodup k

theorem exists_get {listing : Element × Element} (hroot : WellFormedReport root)
    (hlisting : listing ∈ openPorts root) : ∃ protocol, ∃ number : ℕ,
      listing.2.get "protocol" = some protocol ∧ listing.2.get "portid" = some (toString number) := by
  obtain ⟨hhost, -, hport, -⟩ := mem_openPorts.mp hlisting
  obtain ⟨protocol, hprotocol⟩ := hroot.protocol _ hhost _ hport
  obtain ⟨number, hnumber⟩ := hroot.portid _ hhost _ hport
  exact ⟨protocol, number, hprotocol, hnumber⟩

theorem isOf_iff {o : NmapObservation} {e : Endpoint} : o.isOf e = true ↔
    o.raw.ip = e.address ∧ o.raw.protocol = e.protocol ∧ o.raw.port = toString e.number := by
  simp only [NmapObservation.isOf, Bool.and_eq_true, beq_iff_eq, and_assoc]

variable {observations : List NmapObservation}

/-- The observation of an endpoint has been made of the port that is found first. -/
theorem Reports.found (h : parser.Reports source root observations) (hroot : WellFormedReport root)
    {o : NmapObservation} (ho : o ∈ observations) {e : Endpoint} (hof : o.isOf e = true) :
    o.assetIdentity = assetIdentityOf e.address (toString e.number) ∧ ∃ first,
      (openPorts root).find? (knownAs e.address (some (toString e.number))) = some first ∧
        first.2.get "protocol" = some e.protocol ∧
        ∀ id, id ∈ o.cve ↔ parser.PortCve first.2 id := by
  obtain ⟨hip, hprotocol, hport⟩ := isOf_iff.mp hof
  obtain ⟨first, number, ⟨_, _, _, _, _, rfl⟩, hnumber, hidentity, hfind⟩ := h.made o ho
  rw [← hnumber, hport, hip] at hfind
  obtain ⟨protocol, -, hfirst, -⟩ := exists_get hroot (List.mem_of_find?_eq_some hfind)
  have hsame : (first.2.get "protocol").getD "tcp" = e.protocol := hprotocol
  rw [hfirst, Option.getD_some] at hsame
  refine ⟨?_, first, hfind, hsame ▸ hfirst, fun id => mem_cvesOf_iff⟩
  rw [hidentity, ← hnumber, hport, hip]

/-- An observation is about an endpoint of the port that it has been made of. -/
theorem MadeOf.isOf {listing : Element × Element} {o : NmapObservation} {e : Endpoint}
    (h : parser.MadeOf source listing o) (hip : o.raw.ip = e.address)
    (hprotocol : listing.2.get "protocol" = some e.protocol)
    (hnumber : listing.2.get "portid" = some (toString e.number)) : o.isOf e = true := by
  obtain ⟨ip, portid, idx, -, hportid, rfl⟩ := h
  have hprotocol' : (listing.2.get "protocol").getD "tcp" = e.protocol := by
    rw [hprotocol, Option.getD_some]
  exact isOf_iff.mpr ⟨hip, hprotocol', Option.some.inj (hportid.symm.trans hnumber)⟩

theorem Reports.covered (h : parser.Reports source root observations) (hroot : WellFormedReport root)
    (hcomplete : parser.CompleteFor root observations) : parser.Covered root := by
  intro listing hlisting address haddress
  obtain ⟨protocol, number, hprotocol, hnumber⟩ := exists_get hroot hlisting
  have hlists : Lists listing ⟨address, protocol, number⟩ := ⟨haddress, hprotocol, hnumber⟩
  -- Completeness gives an observation of the endpoint, made of the port that is found.
  obtain ⟨o, ho, hof⟩ := List.countP_pos_iff.mp
    ((hcomplete.exactly listing hlisting _ hlists).symm ▸ Nat.one_pos)
  obtain ⟨-, first, hfind, hfirst, hcves⟩ := h.found hroot ho hof
  refine ⟨first, hnumber ▸ hfind, hfirst.trans hprotocol.symm, fun id hid => ?_⟩
  exact (hcves id).mp (hcomplete.cves listing hlisting _ hlists o ho hof id hid)

theorem Reports.complete (h : parser.Reports source root observations) (hroot : WellFormedReport root)
    (hcovered : parser.Covered root) : parser.CompleteFor root observations where
  exactly listing hlisting e hlists := by
    obtain ⟨haddress, hprotocol, hnumber⟩ := hlists
    obtain ⟨first, hfind, hfirst, -⟩ := hcovered listing hlisting e.address haddress
    rw [hnumber] at hfind
    -- The observation is of the first port, which has the protocol of this one.
    obtain ⟨o, ho, hmade, hip⟩ := h.all e.address e.number first hfind
    have hportid : first.2.get "portid" = some (toString e.number) := by
      have hknown := List.find?_some hfind
      rw [knownAs, Bool.and_eq_true, beq_iff_eq, beq_iff_eq] at hknown
      exact hknown.2
    exact countP_eq_one h.nodup (fun x hx hof => (h.found hroot hx hof).1) ho
      (hmade.isOf hip (hfirst.trans hprotocol) hportid)
  only o ho := by
    obtain ⟨first, number, hmade, -, -, hfind⟩ := h.made o ho
    have hfirst := List.mem_of_find?_eq_some hfind
    obtain ⟨protocol, number, hprotocol, hnumber⟩ := exists_get hroot hfirst
    have hhead : (hostAddresses first.1).1.head? = some o.raw.ip := by
      obtain ⟨ip, portid, idx, hip, -, rfl⟩ := hmade
      exact hip
    have haddress : o.raw.ip ∈ ipAddresses first.1 := headAddress_mem hhead fun address haddress => by
      obtain ⟨-, kind, -, hkind⟩ := hroot.address _ (mem_openPorts.mp hfirst).1 address haddress
      exact ⟨kind, hkind⟩
    exact ⟨first, hfirst, ⟨o.raw.ip, protocol, number⟩, ⟨haddress, hprotocol, hnumber⟩,
      hmade.isOf rfl hprotocol hnumber⟩
  cves listing hlisting e hlists o ho hof id hid := by
    obtain ⟨haddress, -, hnumber⟩ := hlists
    obtain ⟨first, hfind, -, hcves⟩ := hcovered listing hlisting e.address haddress
    obtain ⟨-, first', hfind', -, hcves'⟩ := h.found hroot ho hof
    rw [hnumber] at hfind
    -- One port is found under the address and the number, and it has the ids.
    obtain rfl := Option.some.inj (hfind.symm.trans hfind')
    exact (hcves' id).mpr (hcves id hid)

end Report

end NmapParser

/-- **The parser is complete** exactly if each address of an open port is one under which the parser
finds, for the number, a port of the same protocol with the CVE ids of the port. -/
theorem parse_complete_iff (parser : NmapParser)
    (hblank : ∀ text, strip text.toList = [] → parser.fromstring text = none) (source : AdapterSource)
    (stdout : String) (root : Element) (hstdout : parser.fromstring stdout = some root)
    (hroot : WellFormedReport root) :
    parser.CompleteFor root (parser.parse stdout source) ↔ parser.Covered root := by
  have hreports := @NmapParser.observations_spec parser source root hroot
  rw [NmapParser.parse_eq hstdout hblank]
  exact ⟨hreports.covered hroot, hreports.complete hroot⟩

/-- An open port with the output of a script. -/
def portElement (protocol : String) (number : ℕ) (output : String) : Element :=
  .node "port" [("protocol", protocol), ("portid", toString number)]
    [.node "state" [("state", "open")] [], .node "script" [("id", "vulners"), ("output", output)] []]

/-- A host that is up, with an address. -/
def hostElement (addr addrtype : String) (ports : List Element) : Element :=
  .node "host" [] [.node "status" [("state", "up")] [],
    .node "address" [("addr", addr), ("addrtype", addrtype)] [], .node "ports" [] ports]

/-- A web server. -/
def webReport : Element :=
  .node "nmaprun" [] [hostElement "10.0.0.1" "ipv4"
    [portElement "tcp" 80 "", portElement "tcp" 443 "VULNERABLE: CVE-2014-0160"]]

/-- A name server that answers on both protocols, and a host of IPv6. -/
def nameServerReport : Element :=
  .node "nmaprun" [] [hostElement "10.0.0.2" "ipv4" [portElement "tcp" 53 "", portElement "udp" 53 ""],
    hostElement "2001:db8::1" "ipv6" [portElement "tcp" 80 ""]]

/-- A parser that reads the texts of these reports, on ASCII text. -/
def sampleParser : NmapParser where
  unicode := .ascii
  upperTable := id
  fromstring text :=
    if text = "<web/>" then some webReport
    else if text = "<names/>" then some nameServerReport
    else none

theorem sampleParser_blank (text : String) (h : strip text.toList = []) :
    sampleParser.fromstring text = none := by
  have hne : ∀ other : String, strip other.toList ≠ [] → text ≠ other := by
    rintro _ hother rfl
    exact hother h
  exact (if_neg (hne _ (by decide))).trans (if_neg (hne _ (by decide)))

/-- A source. -/
def nmapSource : AdapterSource := ⟨"nmap", "7.94", ""⟩

/-- The hosts and the ports of the report are as above. -/
theorem wellFormedReport_of_samples {root : Element}
    (h : ∀ host ∈ root.iter "host", ∃ addr addrtype ports, host = hostElement addr addrtype ports ∧
      addr ≠ "" ∧ addrtype ∈ ["ipv4", "ipv6", "mac"] ∧
      ∀ port ∈ host.iter "port", ∃ protocol number output, port = portElement protocol number output) :
    WellFormedReport root where
  address host hhost address haddress := by
    obtain ⟨addr, addrtype, ports, rfl, haddr, hkind, -⟩ := h host hhost
    obtain rfl : address = .node "address" [("addr", addr), ("addrtype", addrtype)] [] := by
      simpa [hostElement, Element.findall, Element.children, Element.tag] using haddress
    exact ⟨⟨addr, rfl, haddr⟩, addrtype, hkind, rfl⟩
  protocol host hhost port hport := by
    obtain ⟨_, _, _, -, -, -, hports⟩ := h host hhost
    obtain ⟨protocol, _, _, rfl⟩ := hports port hport
    exact ⟨protocol, rfl⟩
  portid host hhost port hport := by
    obtain ⟨_, _, _, -, -, -, hports⟩ := h host hhost
    obtain ⟨_, number, _, rfl⟩ := hports port hport
    exact ⟨number, rfl⟩
  state host hhost port hport := by
    obtain ⟨_, _, _, -, -, -, hports⟩ := h host hhost
    obtain ⟨_, _, _, rfl⟩ := hports port hport
    exact ⟨_, rfl, _, rfl⟩

theorem wellFormed_webReport : WellFormedReport webReport := by
  refine wellFormedReport_of_samples fun host hhost => ?_
  obtain rfl := List.mem_singleton.mp (show host ∈ [hostElement "10.0.0.1" "ipv4"
    [portElement "tcp" 80 "", portElement "tcp" 443 "VULNERABLE: CVE-2014-0160"]] from hhost)
  refine ⟨_, _, _, rfl, by decide, by decide, fun port hport => ?_⟩
  replace hport : port ∈ [portElement "tcp" 80 "", portElement "tcp" 443 "VULNERABLE: CVE-2014-0160"] :=
    hport
  rcases List.mem_cons.mp hport with rfl | hport
  · exact ⟨_, _, _, rfl⟩
  · obtain rfl := List.mem_singleton.mp hport
    exact ⟨_, _, _, rfl⟩

theorem parse_complete_web :
    sampleParser.CompleteFor webReport (sampleParser.parse "<web/>" nmapSource) ↔
      sampleParser.Covered webReport :=
  parse_complete_iff sampleParser sampleParser_blank nmapSource "<web/>" webReport rfl
    wellFormed_webReport

theorem wellFormed_nameServerReport : WellFormedReport nameServerReport := by
  refine wellFormedReport_of_samples fun host hhost => ?_
  replace hhost : host ∈ [
      hostElement "10.0.0.2" "ipv4" [portElement "tcp" 53 "", portElement "udp" 53 ""],
      hostElement "2001:db8::1" "ipv6" [portElement "tcp" 80 ""]] := hhost
  rcases List.mem_cons.mp hhost with rfl | hhost
  · refine ⟨_, _, _, rfl, by decide, by decide, fun port hport => ?_⟩
    replace hport : port ∈ [portElement "tcp" 53 "", portElement "udp" 53 ""] := hport
    rcases List.mem_cons.mp hport with rfl | hport
    · exact ⟨_, _, _, rfl⟩
    · obtain rfl := List.mem_singleton.mp hport
      exact ⟨_, _, _, rfl⟩
  · obtain rfl := List.mem_singleton.mp hhost
    refine ⟨_, _, _, rfl, by decide, by decide, fun port hport => ?_⟩
    obtain rfl := List.mem_singleton.mp (show port ∈ [portElement "tcp" 80 ""] from hport)
    exact ⟨_, _, _, rfl⟩

/-- Of the name server one port is observed, and of the host of IPv6 none. -/
theorem name_server_incomplete : WellFormedReport nameServerReport ∧
    (sampleParser.parse "<names/>" nmapSource).map (fun o => (o.raw.ip, o.raw.protocol, o.raw.port)) =
      [("10.0.0.2", "tcp", "53")] ∧
    ¬sampleParser.CompleteFor nameServerReport (sampleParser.parse "<names/>" nmapSource) := by
  refine ⟨wellFormed_nameServerReport, by decide +kernel, fun hcomplete => ?_⟩
  -- The port of the host of IPv6 is open, and nothing is observed of it.
  have hport : (hostElement "2001:db8::1" "ipv6" [portElement "tcp" 80 ""], portElement "tcp" 80 "") ∈
      openPorts nameServerReport := List.mem_of_getElem? (i := 2) rfl
  have hone := hcomplete.exactly _ hport ⟨"2001:db8::1", "tcp", 80⟩
    ⟨List.mem_singleton_self _, rfl, rfl⟩
  revert hone
  decide +kernel

end SecOpent
