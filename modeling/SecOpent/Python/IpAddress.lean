import Mathlib.Data.List.Basic
import Mathlib.Data.List.Intervals
import Mathlib.Tactic.Linarith
import Mathlib.Tactic.Ring
import SecOpent.Python.Text

/-!
# The `ipaddress` module

Addresses and networks as CPython 3.12's `ipaddress` reads and prints them: dotted quads without
leading zeros, hextets with one `::`, an IPv4 suffix, a scope id after `%`, networks in prefix,
netmask or hostmask form with host bits cleared (`strict=False`).

## Main definitions

* `IpAddress`, `IpNetwork`: the two versions of an address and of a network
* `ipAddress s`, `ipNetwork s`: `ip_address(s)` and `ip_network(s, strict=False)`; `none` is a
  `ValueError`
* `IpAddress.str`, `IpNetwork.str`: the canonical text
* `IpNetwork.contains`: `address in network`

## Main results

* `ofBase_toBase`, `toDigits_sixteen_spec`: digits are read back as the number they print
* `ofBase_append_ne`: a literal extended by a nonzero group denotes another number
-/

namespace Python

/-! ## Positional digits -/

/-- The number a big-endian list of digits denotes in base `b`. -/
def ofBase (b : ℕ) (ds : List ℕ) : ℕ := ds.foldl (b * · + ·) 0

/-- The `k` big-endian digits of `n` in base `b`. -/
def toBase (b : ℕ) : ℕ → ℕ → List ℕ
  | 0, _ => []
  | k + 1, n => toBase b k (n / b) ++ [n % b]

@[simp] theorem ofBase_nil (b : ℕ) : ofBase b [] = 0 := rfl

@[simp] theorem ofBase_concat (b : ℕ) (ds : List ℕ) (d : ℕ) :
    ofBase b (ds ++ [d]) = b * ofBase b ds + d := by
  simp [ofBase]

@[simp] theorem length_toBase (b k n : ℕ) : (toBase b k n).length = k := by
  induction k generalizing n with
  | zero => rfl
  | succ k ih => simp [toBase, ih]

theorem lt_of_mem_toBase {b : ℕ} (hb : 0 < b) {k n d : ℕ} (h : d ∈ toBase b k n) : d < b := by
  induction k generalizing n with
  | zero => simp [toBase] at h
  | succ k ih =>
    rcases List.mem_append.mp h with h | h
    · exact ih h
    · rw [List.mem_singleton.mp h]
      exact Nat.mod_lt _ hb

theorem ofBase_toBase (b k n : ℕ) : ofBase b (toBase b k n) = n % b ^ k := by
  induction k generalizing n with
  | zero => simp [toBase, Nat.mod_one]
  | succ k ih =>
    rw [toBase, ofBase_concat, ih, pow_succ', Nat.mod_mul]
    ring

theorem ofBase_append (b : ℕ) (xs ys : List ℕ) :
    ofBase b (xs ++ ys) = ofBase b xs * b ^ ys.length + ofBase b ys := by
  induction ys using List.reverseRecOn with
  | nil => simp
  | append_singleton ys y ih =>
    rw [← List.append_assoc, ofBase_concat, ofBase_concat, ih, List.length_append,
      List.length_singleton, pow_succ]
    ring

theorem ofBase_lt {b : ℕ} {ds : List ℕ} (h : ∀ d ∈ ds, d < b) : ofBase b ds < b ^ ds.length := by
  induction ds using List.reverseRecOn with
  | nil => simp
  | append_singleton ds d ih =>
    have hd : d < b := h d (by simp)
    have hds := ih fun x hx => h x (by simp [hx])
    rw [ofBase_concat, List.length_append, List.length_singleton, pow_succ]
    nlinarith

/-- Inserting a nonzero digit at the end changes the number, whatever zeros it pushes out. -/
theorem ofBase_append_ne {b : ℕ} (hb : 1 < b) (xs ys : List ℕ) (k d : ℕ) (hd : 0 < d) :
    ofBase b (xs ++ List.replicate k 0 ++ (ys ++ [d])) ≠
      ofBase b (xs ++ List.replicate (k + 1) 0 ++ ys) := by
  have hsplit : xs ++ List.replicate (k + 1) 0 ++ ys =
      xs ++ List.replicate k 0 ++ ([0] ++ ys) := by
    simp [List.replicate_succ']
  rw [hsplit, ofBase_append, ofBase_append b _ ([0] ++ ys), ofBase_append b [0] ys,
    ofBase_concat]
  simp only [List.length_append, List.singleton_append, List.length_cons, List.length_nil, zero_add]
  have h0 : ofBase b [0] = 0 := by simp [ofBase]
  have hmul : ofBase b ys ≤ b * ofBase b ys := Nat.le_mul_of_pos_left _ (by omega)
  rw [h0]
  omega

/-! ## Digit characters -/

/-- The digits `ipaddress` accepts in a hextet. -/
def isHexDigit (c : Char) : Bool :=
  c.isDigit || ('a' ≤ c && c ≤ 'f') || ('A' ≤ c && c ≤ 'F')

/-- The value of a hexadecimal digit. -/
def hexValue (c : Char) : ℕ :=
  if c.isDigit then c.toNat - 48
  else if 'a' ≤ c && c ≤ 'f' then c.toNat - 87
  else c.toNat - 55

theorem isHexDigit_digitChar : ∀ n < 16, isHexDigit n.digitChar = true := by decide

theorem hexValue_digitChar : ∀ n < 16, hexValue n.digitChar = n := by decide

/-- `int(s, 16)` on hexadecimal digits. -/
def ofHex (s : Str) : ℕ := ofBase 16 (s.map hexValue)

theorem toDigits_sixteen_spec (n : ℕ) :
    (∀ c ∈ Nat.toDigits 16 n, isHexDigit c = true) ∧ ofHex (Nat.toDigits 16 n) = n := by
  induction n using Nat.strong_induction_on with
  | _ n ih =>
    rw [Nat.toDigits_eq_if (by norm_num)]
    split
    case isTrue h =>
      simp [ofHex, ofBase, isHexDigit_digitChar n h, hexValue_digitChar n h]
    case isFalse h =>
      have hmod : n % 16 < 16 := Nat.mod_lt _ (by norm_num)
      obtain ⟨hhex, hval⟩ := ih (n / 16) (by omega)
      refine ⟨?_, ?_⟩
      · intro c hc
        rcases List.mem_append.mp hc with hc | hc
        · exact hhex c hc
        · rw [List.mem_singleton.mp hc]
          exact isHexDigit_digitChar _ hmod
      · rw [ofHex, List.map_append, List.map_singleton, ofBase_concat, hexValue_digitChar _ hmod,
          ← ofHex, hval]
        omega

/-! ## Addresses -/

/-- The scope id of an IPv6 address: the nonempty text after its `%`. -/
abbrev ScopeId := {z : Str // z ≠ [] ∧ '%' ∉ z ∧ '/' ∉ z}

/-- `IPv4Address` and `IPv6Address`. -/
inductive IpAddress
  | v4 (ip : BitVec 32)
  | v6 (ip : BitVec 128) (scopeId : Option ScopeId)
  deriving DecidableEq

/-- `IPv4Address._parse_octet`. -/
def parseOctet (s : Str) : Option ℕ :=
  if s.isEmpty || !s.all Char.isDigit || 3 < s.length then none
  else if s != ['0'] && s.head? == some '0' then none
  else
    let n := Nat.ofDigitChars 10 s 0
    if 255 < n then none else some n

/-- `IPv4Address._ip_int_from_string`. -/
def ipv4FromString (s : Str) : Option (BitVec 32) :=
  let octets := s.splitOn '.'
  if octets.length != 4 then none
  else (octets.mapM parseOctet).map fun ns => BitVec.ofNat 32 (ofBase 256 ns)

/-- `IPv6Address._parse_hextet`. -/
def parseHextet (s : Str) : Option ℕ :=
  if s.isEmpty || !s.all isHexDigit || 4 < s.length then none else some (ofHex s)

/-- The positions of an empty part with a part on either side: where a `::` stands. -/
def skipIndices (parts : List Str) : List ℕ :=
  (List.range parts.length).filter fun i =>
    0 < i && i + 1 < parts.length && parts[i]? == some []

/-- The eight hextets that the parts of an IPv6 literal stand for. -/
def hextetsOfParts (parts : List Str) : Option (List ℕ) :=
  if 9 < parts.length then none
  else
    match skipIndices parts with
    | [] => if parts.length != 8 then none else parts.mapM parseHextet
    | [i] =>
      -- A `::` at either end of the literal leaves one more empty part there.
      let openHead := parts.head? == some []
      let openTail := parts.getLast? == some []
      let hi := if openHead then i - 1 else i
      let lo := if openTail then parts.length - i - 2 else parts.length - i - 1
      if (openHead && hi != 0) || (openTail && lo != 0) || 8 < hi + lo + 1 then none
      else do
        let high ← (parts.take hi).mapM parseHextet
        let low ← (parts.drop (parts.length - lo)).mapM parseHextet
        some (high ++ List.replicate (8 - (hi + lo)) 0 ++ low)
    | _ => none

/-- An IPv4 suffix is rewritten as the two hextets it stands for. -/
def expandSuffix (parts : List Str) : Option (List Str) :=
  match parts.getLast? with
  | none => none
  | some suffix =>
    if '.' ∈ suffix then
      (ipv4FromString suffix).map fun ip =>
        parts.dropLast ++
          [Nat.toDigits 16 (ip.toNat / 65536 % 65536), Nat.toDigits 16 (ip.toNat % 65536)]
    else some parts

/-- `IPv6Address._ip_int_from_string`. -/
def ipv6FromString (s : Str) : Option (BitVec 128) :=
  let parts := s.splitOn ':'
  if parts.length < 3 then none
  else ((expandSuffix parts).bind hextetsOfParts).map fun hs => BitVec.ofNat 128 (ofBase 65536 hs)

/-- `IPv4Address(s)`. -/
def ipv4Address (s : Str) : Option IpAddress :=
  if '/' ∈ s then none else (ipv4FromString s).map .v4

/-- `IPv6Address(s)`, with `_split_scope_id`. -/
def ipv6Address (s : Str) : Option IpAddress :=
  if '/' ∈ s then none
  else if '%' ∈ s then
    let z := (partition '%' s).2
    if h : z ≠ [] ∧ '%' ∉ z ∧ '/' ∉ z then
      (ipv6FromString (partition '%' s).1).map fun ip => .v6 ip (some ⟨z, h⟩)
    else none
  else (ipv6FromString s).map fun ip => .v6 ip none

/-- `ip_address(s)`. -/
def ipAddress (s : Str) : Option IpAddress := (ipv4Address s).or (ipv6Address s)

/-! ## Canonical text -/

/-- The longest run of zero hextets, as its start and its length: `best` so far, and the run
`cur` that ends at index `i`. -/
def longestZeroRun : List Str → ℕ → ℕ × ℕ → ℕ × ℕ → ℕ × ℕ
  | [], _, best, _ => best
  | h :: hs, i, best, cur =>
    if h = ['0'] then
      let run := (if cur.2 = 0 then i else cur.1, cur.2 + 1)
      longestZeroRun hs (i + 1) (if best.2 < run.2 then run else best) run
    else longestZeroRun hs (i + 1) best (0, 0)

/-- `IPv6Address._compress_hextets`. -/
def compressHextets (hs : List Str) : List Str :=
  let (start, len) := longestZeroRun hs 0 (0, 0) (0, 0)
  if len ≤ 1 then hs
  else
    let padded := if start + len = hs.length then hs ++ [[]] else hs
    let cut := padded.take start ++ [] :: padded.drop (start + len)
    if start = 0 then [] :: cut else cut

/-- `IPv4Address._string_from_ip_int`. -/
def ipv4Str (ip : BitVec 32) : Str :=
  ['.'].intercalate ((toBase 256 4 ip.toNat).map (Nat.toDigits 10))

/-- The hextets of an address, as printed before compression. -/
def hextetTexts (ip : BitVec 128) : List Str := (toBase 65536 8 ip.toNat).map (Nat.toDigits 16)

/-- `IPv6Address._string_from_ip_int`. -/
def ipv6Str (ip : BitVec 128) : Str := [':'].intercalate (compressHextets (hextetTexts ip))

/-- `str(address)`. -/
def IpAddress.str : IpAddress → Str
  | .v4 ip => ipv4Str ip
  | .v6 ip none => ipv6Str ip
  | .v6 ip (some z) => ipv6Str ip ++ '%' :: z.1

/-- The version and the number of an address, without its scope id. -/
def IpAddress.bits : IpAddress → BitVec 32 ⊕ BitVec 128
  | .v4 ip => .inl ip
  | .v6 ip _ => .inr ip

/-! ## Networks -/

/-- The netmask of a prefix length. -/
def netmask (w p : ℕ) : BitVec w := BitVec.allOnes w ^^^ (BitVec.allOnes w >>> p)

/-- A network of `w`-bit addresses: its prefix length and its address with no host bit set. -/
structure Prefix (w : ℕ) where
  address : BitVec w
  prefixlen : ℕ
  prefixlen_le : prefixlen ≤ w
  address_masked : address &&& netmask w prefixlen = address
  deriving DecidableEq

/-- The network of an address, host bits cleared. -/
def Prefix.of {w : ℕ} (ip : BitVec w) (p : ℕ) (hp : p ≤ w) : Prefix w :=
  ⟨ip &&& netmask w p, p, hp, by rw [BitVec.and_assoc, BitVec.and_self]⟩

/-- `IPv4Network` and `IPv6Network`. -/
inductive IpNetwork
  | v4 (net : Prefix 32)
  | v6 (net : Prefix 128) (scopeId : Option ScopeId)
  deriving DecidableEq

/-- `network.version == 4`. -/
def IpNetwork.isV4 : IpNetwork → Bool
  | .v4 _ => true
  | .v6 _ _ => false

/-- `_prefix_from_prefix_string`. -/
def prefixFromPrefixString (w : ℕ) (s : Str) : Option {p : ℕ // p ≤ w} :=
  if s.isEmpty || !s.all Char.isDigit || maxStrDigits < s.length then none
  else
    let p := Nat.ofDigitChars 10 s 0
    if h : p ≤ w then some ⟨p, h⟩ else none

/-- `_prefix_from_ip_int`: the prefix length of which `ip` is the netmask. -/
def prefixFromIpInt (ip : BitVec 32) : Option {p : ℕ // p ≤ 32} :=
  ((List.range 33).attach.find? fun p => netmask 32 p.1 == ip).map fun p =>
    ⟨p.1, Nat.lt_succ_iff.mp (List.mem_range.mp p.2)⟩

/-- `_prefix_from_ip_string`: a netmask, else a hostmask. -/
def prefixFromIpString (s : Str) : Option {p : ℕ // p ≤ 32} :=
  (ipv4FromString s).bind fun ip => (prefixFromIpInt ip).or (prefixFromIpInt (~~~ip))

/-- `IPv4Network(s, strict=False)`, on the address and the optional mask. -/
def ipv4Network (addr : Str) (mask : Option Str) : Option IpNetwork :=
  match ipv4FromString addr with
  | none => none
  | some ip =>
    match mask with
    | none => some (.v4 (.of ip 32 le_rfl))
    | some m =>
      ((prefixFromPrefixString 32 m).or (prefixFromIpString m)).map fun p =>
        .v4 (.of ip p.1 p.2)

/-- `IPv6Network(s, strict=False)`, on the address and the optional mask: clearing host bits also
drops the scope id. -/
def ipv6Network (addr : Str) (mask : Option Str) : Option IpNetwork :=
  match ipv6Address addr with
  | some (.v6 ip z) =>
    let network : {p : ℕ // p ≤ 128} → IpNetwork := fun p =>
      .v6 (.of ip p.1 p.2) (if ip &&& netmask 128 p.1 = ip then z else none)
    match mask with
    | none => some (network ⟨128, le_rfl⟩)
    | some m => (prefixFromPrefixString 128 m).map network
  | _ => none

/-- `ip_network(s, strict=False)`. -/
def ipNetwork (s : Str) : Option IpNetwork :=
  match s.splitOn '/' with
  | [addr] => (ipv4Network addr none).or (ipv6Network addr none)
  | [addr, mask] => (ipv4Network addr (some mask)).or (ipv6Network addr (some mask))
  | _ => none

/-- `address in network`. -/
def IpNetwork.contains : IpNetwork → IpAddress → Bool
  | .v4 net, .v4 ip => ip &&& netmask 32 net.prefixlen == net.address
  | .v6 net _, .v6 ip _ => ip &&& netmask 128 net.prefixlen == net.address
  | _, _ => false

/-- The network whose only address is `a`. -/
def IpAddress.network : IpAddress → IpNetwork
  | .v4 ip => .v4 (.of ip 32 le_rfl)
  | .v6 ip z => .v6 (.of ip 128 le_rfl) z

/-- `str(network)`. -/
def IpNetwork.str : IpNetwork → Str
  | .v4 net => ipv4Str net.address ++ '/' :: Nat.toDigits 10 net.prefixlen
  | .v6 net z => (IpAddress.v6 net.address z).str ++ '/' :: Nat.toDigits 10 net.prefixlen

end Python
