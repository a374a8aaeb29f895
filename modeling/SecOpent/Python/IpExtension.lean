import SecOpent.Python.IpRoundTrip

/-!
# Extending an IPv6 literal by a group

A literal may end in a group that also reads as a decimal number: `2001:db8::1:80` is an address,
and so is what is left of it before its last colon. The two are never the same address, because
the group that was taken off is not zero.

## Main results

* `hextetsOfParts_cases`: the two shapes of the parts of an IPv6 literal
* `bits_ne_of_extended`: a literal and the literal before its last, nonzero group differ
-/

namespace Python

/-! ## Inverting the parser -/

theorem hextetsOfParts_cases {parts : List Str} {hs : List ℕ}
    (h : hextetsOfParts parts = some hs) :
    (parts.length = 8 ∧ parts.mapM parseHextet = some hs) ∨
      ∃ A B as bs, parts = side A ++ [] :: side B ∧ A.mapM parseHextet = some as ∧
        B.mapM parseHextet = some bs ∧ A.length + B.length ≤ 7 ∧
        hs = as ++ List.replicate (8 - (A.length + B.length)) 0 ++ bs := by
  unfold hextetsOfParts at h
  split at h
  · cases h
  split at h
  · -- No `::`: all eight groups are written.
    left
    split at h
    · cases h
    next hlen => exact ⟨by simpa using hlen, h⟩
  · next i hskip =>
    right
    have hi : i ∈ skipIndices parts := by simp [hskip]
    simp only [skipIndices, List.mem_filter, List.mem_range, Bool.and_eq_true, decide_eq_true_eq,
      beq_iff_eq] at hi
    obtain ⟨hlt, ⟨hpos, hinner⟩, hempty⟩ := hi
    have hget : parts[i] = [] := by simpa [List.getElem?_eq_getElem hlt] using hempty
    -- The parts around the `::`.
    have hsplit : parts = parts.take i ++ [] :: parts.drop (i + 1) := by
      conv_lhs => rw [← List.take_append_drop i parts, List.drop_eq_getElem_cons hlt, hget]
    dsimp only at h
    generalize hhi : (if parts.head? == some [] then i - 1 else i) = hi at h
    generalize hlo : (if parts.getLast? == some [] then parts.length - i - 2
      else parts.length - i - 1) = lo at h
    split at h
    · cases h
    next hok =>
    simp only [Bool.or_eq_true, Bool.and_eq_true, bne_iff_ne, ne_eq, decide_eq_true_eq, not_or,
      not_and, Decidable.not_not] at hok
    obtain ⟨⟨hhead, htail⟩, htotal⟩ := hok
    simp only [Option.bind_eq_bind, Option.bind_eq_some_iff, Option.some.injEq] at h
    obtain ⟨as, has, bs, hbs, rfl⟩ := h
    -- A literal that opens with `::` has an empty first part, and nothing before the `::`.
    have hA : side (parts.take hi) = parts.take i := by
      by_cases hopen : parts.head? = some []
      · have h0 : hi = 0 := hhead (by simp [hopen])
        have h1 : i = 1 := by
          rw [if_pos (by simp [hopen])] at hhi
          omega
        subst h1
        cases parts with
        | nil => simp at hlt
        | cons p ps => simpa [h0] using hopen.symm
      · rw [if_neg (by simpa using hopen)] at hhi
        rw [← hhi, side_of_ne_nil]
        intro hnil
        have hzero := congrArg List.length hnil
        rw [List.length_take, List.length_nil] at hzero
        omega
    -- The same at the other end.
    have hB : side (parts.drop (parts.length - lo)) = parts.drop (i + 1) := by
      by_cases hopen : parts.getLast? = some []
      · have h0 : lo = 0 := htail (by simp [hopen])
        rw [if_pos (by simp [hopen])] at hlo
        have hlen : (parts.drop (i + 1)).length = 1 := by simp; omega
        obtain ⟨p, hp⟩ := List.length_eq_one_iff.mp hlen
        have hlast : (parts.drop (i + 1)).getLast? = parts.getLast? := by
          rw [List.getLast?_drop, if_neg (by omega)]
        rw [hp, hopen] at hlast
        rw [hp, h0]
        simpa using hlast.symm
      · rw [if_neg (by simpa using hopen)] at hlo
        have hcut : parts.length - lo = i + 1 := by omega
        rw [hcut, side_of_ne_nil]
        intro hnil
        have hzero := congrArg List.length hnil
        rw [List.length_drop, List.length_nil] at hzero
        omega
    have hlenA : (parts.take hi).length = hi := by
      rw [List.length_take, Nat.min_eq_left]
      split at hhi <;> omega
    have hlenB : (parts.drop (parts.length - lo)).length = lo := by
      rw [List.length_drop]
      split at hlo <;> omega
    refine ⟨parts.take hi, parts.drop (parts.length - lo), as, bs, ?_, has, hbs, ?_, ?_⟩
    · rw [hA, hB]
      exact hsplit
    · omega
    · rw [hlenA, hlenB]
  · cases h

theorem hexValue_lt {c : Char} (h : isHexDigit c = true) : hexValue c < 16 := by
  unfold hexValue
  simp only [isHexDigit, Char.isDigit, Bool.or_eq_true, Bool.and_eq_true, decide_eq_true_eq,
    Char.le_def, UInt32.le_iff_toNat_le, Char.toNat] at *
  split <;> [skip; split] <;> simp_all <;> omega

theorem parseHextet_lt {s : Str} {n : ℕ} (h : parseHextet s = some n) : n < 65536 := by
  unfold parseHextet at h
  split at h
  · cases h
  next hs =>
  simp only [Bool.or_eq_true, Bool.not_eq_true', List.isEmpty_iff, decide_eq_true_eq, not_or,
    Bool.not_eq_false, List.all_eq_true] at hs
  obtain ⟨⟨-, hhex⟩, hlen⟩ := hs
  cases h
  have hlt : ofHex s < 16 ^ (s.map hexValue).length := by
    refine ofBase_lt ?_
    intro d hd
    obtain ⟨c, hc, rfl⟩ := List.mem_map.mp hd
    exact hexValue_lt (hhex c hc)
  calc ofHex s < 16 ^ (s.map hexValue).length := hlt
    _ ≤ 16 ^ 4 := Nat.pow_le_pow_right (by norm_num) (by simpa using hlen)

/-! ## Literals without a scope id -/

/-- A literal with a colon and without a scope id is an IPv6 one. -/
theorem ipAddress_of_colon {s : Str} {a : IpAddress} (h : ipAddress s = some a) (hc : ':' ∈ s)
    (hz : '%' ∉ s) : ∃ ip, a = .v6 ip none ∧ ipv6FromString s = some ip := by
  have hslash := slash_not_mem_of_ipAddress h
  have h4 : ipv4FromString s = none := ipv4FromString_of_mem hc (by decide) (by decide)
  simp only [ipAddress, ipv4Address, ipv6Address, hslash, hz, if_false, h4, Option.map_none,
    Option.none_or, Option.map_eq_some_iff] at h
  obtain ⟨ip, hip, rfl⟩ := h
  exact ⟨ip, rfl, hip⟩

theorem ipv6FromString_parts {s : Str} {ip : BitVec 128} (h : ipv6FromString s = some ip) :
    3 ≤ (s.splitOn ':').length ∧ ∃ parts hs, expandSuffix (s.splitOn ':') = some parts ∧
      hextetsOfParts parts = some hs ∧ ip = BitVec.ofNat 128 (ofBase 65536 hs) := by
  simp only [ipv6FromString] at h
  split at h
  · cases h
  next hlen =>
  obtain ⟨hs, hbind, hval⟩ := Option.map_eq_some_iff.mp h
  obtain ⟨parts, hparts, hhs⟩ := Option.bind_eq_some_iff.mp hbind
  exact ⟨by omega, parts, hs, hparts, hhs, hval.symm⟩

theorem isHexDigit_of_parseHextet {s : Str} {n : ℕ} (h : parseHextet s = some n) :
    ∀ c ∈ s, isHexDigit c = true := by
  unfold parseHextet at h
  split at h
  · cases h
  next hs =>
  simp only [Bool.or_eq_true, Bool.not_eq_true', not_or, Bool.not_eq_false,
    List.all_eq_true] at hs
  exact hs.1.2

/-- Every part of a literal is empty or a hextet. -/
theorem eq_nil_or_parseHextet {parts : List Str} {hs : List ℕ}
    (h : hextetsOfParts parts = some hs) : ∀ p ∈ parts, p = [] ∨ ∃ n, parseHextet p = some n := by
  have hside : ∀ {A : List Str} {as : List ℕ}, A.mapM parseHextet = some as →
      ∀ p ∈ side A, p = [] ∨ ∃ n, parseHextet p = some n := by
    intro A as hA p hp
    unfold side at hp
    split at hp
    · exact .inl (List.mem_singleton.mp hp)
    · exact .inr (exists_of_mapM hA p hp)
  intro p hp
  rcases hextetsOfParts_cases h with ⟨-, hall⟩ | ⟨A, B, as, bs, rfl, hA, hB, -, -⟩
  · exact .inr (exists_of_mapM hall p hp)
  · rcases List.mem_append.mp hp with hp | hp
    · exact hside hA p hp
    · rcases List.mem_cons.mp hp with rfl | hp
      · exact .inl rfl
      · exact hside hB p hp

/-- The characters of an IPv6 literal. -/
theorem ipv6FromString_chars {s : Str} {ip : BitVec 128} (h : ipv6FromString s = some ip) :
    ∀ c ∈ s, isHexDigit c = true ∨ c = ':' ∨ c = '.' := by
  obtain ⟨-, parts, hs, hparts, hhs, -⟩ := ipv6FromString_parts h
  have hpart := eq_nil_or_parseHextet hhs
  have hhex : ∀ p ∈ parts, ∀ c ∈ p, isHexDigit c = true := by
    intro p hp c hc
    rcases hpart p hp with rfl | ⟨n, hn⟩
    · simp at hc
    · exact isHexDigit_of_parseHextet hn c hc
  intro c hc
  rcases mem_splitOn ':' hc with rfl | ⟨p, hp, hc⟩
  · exact .inr (.inl rfl)
  · rw [expandSuffix] at hparts
    split at hparts
    · cases hparts
    next suffix hlast =>
    split at hparts
    · obtain ⟨ip4, hip4, rfl⟩ := Option.map_eq_some_iff.mp hparts
      have hp' : p ∈ (s.splitOn ':').dropLast ++ [suffix] := by
        rwa [List.dropLast_append_getLast? suffix hlast]
      rcases List.mem_append.mp hp' with hp' | hp'
      · exact .inl (hhex p (by simp [hp']) c hc)
      · rw [List.mem_singleton.mp hp'] at hc
        rcases ipv4FromString_chars hip4 c hc with hd | rfl
        · exact .inl (by simp [isHexDigit, hd])
        · exact .inr (.inr rfl)
    · cases hparts
      exact .inl (hhex p hp c hc)

/-- The characters an address or a network is written with, apart from its scope id. -/
def isAddressChar (c : Char) : Bool :=
  isHexDigit c || c == ':' || c == '.' || c == '%' || c == '/'

theorem ipv4FromString_cons {c : Char} (h : isAddressChar c = false) (s : Str) :
    ipv4FromString (c :: s) = none := by
  simp only [isAddressChar, isHexDigit, Bool.or_eq_false_iff, beq_eq_false_iff_ne] at h
  exact ipv4FromString_of_mem (by simp) h.1.1.1.1.1.1 h.1.1.2

theorem ipv6Address_cons {c : Char} (h : isAddressChar c = false) (s : Str) :
    ipv6Address (c :: s) = none := by
  simp only [isAddressChar, Bool.or_eq_false_iff, beq_eq_false_iff_ne] at h
  obtain ⟨⟨⟨⟨hhex, hcolon⟩, hdot⟩, hpercent⟩, -⟩ := h
  have hnone : ∀ t : Str, ipv6FromString (c :: t) = none := by
    intro t
    by_contra hne
    obtain ⟨ip, hip⟩ := Option.ne_none_iff_exists'.mp hne
    rcases ipv6FromString_chars hip c (by simp) with h | h | h
    · simp [hhex] at h
    · exact hcolon h
    · exact hdot h
  have hhead : (partition '%' (c :: s)).1 = c :: s.takeWhile (· != '%') := by
    simp [partition, hpercent]
  simp [ipv6Address, hhead, hnone]

/-- A text that starts with a character of no address is no address. -/
theorem ipAddress_cons {c : Char} (h : isAddressChar c = false) (s : Str) :
    ipAddress (c :: s) = none := by
  simp [ipAddress, ipv4Address, ipv4FromString_cons h, ipv6Address_cons h]

/-- Nor is it a network. -/
theorem ipNetwork_cons {c : Char} (h : isAddressChar c = false) (s : Str) :
    ipNetwork (c :: s) = none := by
  have hslash : c ≠ '/' := by
    simp only [isAddressChar, Bool.or_eq_false_iff, beq_eq_false_iff_ne] at h
    exact h.2
  obtain ⟨t, ts, hsplit⟩ : ∃ t ts, (c :: s).splitOn '/' = (c :: t) :: ts := by
    rw [List.splitOn_cons_eq_if_modifyHead]
    cases hs : s.splitOn '/' with
    | nil => simp at hs
    | cons t ts => exact ⟨t, ts, by simp [hslash]⟩
  rw [ipNetwork, hsplit]
  rcases ts with _ | ⟨mask, _ | ⟨_, _⟩⟩
  · simp [ipv4Network, ipv4FromString_cons h, ipv6Network, ipv6Address_cons h]
  · simp [ipv4Network, ipv4FromString_cons h, ipv6Network, ipv6Address_cons h]
  · rfl

theorem isSpace_eq_false_of_literal {c : Char}
    (h : isHexDigit c = true ∨ c = ':' ∨ c = '.') : isSpace c = false := by
  rcases h with h | rfl | rfl
  · simp only [isHexDigit, Char.isDigit, Bool.or_eq_true, Bool.and_eq_true, decide_eq_true_eq,
      Char.le_def, UInt32.le_iff_toNat_le] at h
    have hrange : 48 ≤ c.toNat ∧ c.toNat ≤ 102 := by
      rcases h with (h | h) | h <;> simp at h <;> omega
    simp only [isSpace]
    simp
    omega
  · rfl
  · rfl

theorem strip_eq_self {s : Str} (h : ∀ c ∈ s, isSpace c = false) : strip s = s := by
  have hl : lstrip isSpace s = s := by
    cases s with
    | nil => rfl
    | cons c s => simp [lstrip, h c (by simp)]
  rw [strip, hl, rstrip, List.rdropWhile_eq_self_iff]
  intro hne
  simp [h _ (List.getLast_mem hne)]

/-- An address literal without a scope id has no blanks to strip. -/
theorem strip_of_ipAddress {s : Str} {a : IpAddress} (h : ipAddress s = some a) (hz : '%' ∉ s) :
    strip s = s := by
  refine strip_eq_self fun c hc => isSpace_eq_false_of_literal ?_
  have hslash := slash_not_mem_of_ipAddress h
  cases h4 : ipv4FromString s with
  | some ip =>
    rcases ipv4FromString_chars h4 c hc with hd | hd
    · exact .inl (by simp [isHexDigit, hd])
    · exact .inr (.inr hd)
  | none =>
    simp only [ipAddress, ipv4Address, ipv6Address, hslash, hz, if_false, h4, Option.map_none,
      Option.none_or, Option.map_eq_some_iff] at h
    obtain ⟨ip, hip, -⟩ := h
    exact ipv6FromString_chars hip c hc

/-! ## A group taken off the end -/

theorem ofBase_eq_zero {b : ℕ} {ds : List ℕ} (h : ∀ d ∈ ds, d = 0) : ofBase b ds = 0 := by
  induction ds using List.reverseRecOn with
  | nil => rfl
  | append_singleton ds d ih =>
    rw [ofBase_concat, ih fun x hx => h x (by simp [hx]), h d (by simp), Nat.mul_zero]

theorem eq_zero_of_ofBase {b : ℕ} (hb : 0 < b) {ds : List ℕ} (h : ofBase b ds = 0) :
    ∀ d ∈ ds, d = 0 := by
  induction ds using List.reverseRecOn with
  | nil => simp
  | append_singleton ds d ih =>
    rw [ofBase_concat, Nat.add_eq_zero_iff, Nat.mul_eq_zero] at h
    intro x hx
    rcases List.mem_append.mp hx with hx | hx
    · exact ih (h.1.resolve_left (by omega)) x hx
    · rw [List.mem_singleton.mp hx, h.2]

/-- A hextet that also reads as a positive decimal number is not zero. -/
theorem parseHextet_pos {U : Unicode} {s : Str} {v : ℕ} {n : ℤ} (hv : parseHextet s = some v)
    (hn : int U s = some n) (hpos : 1 ≤ n) : 0 < v := by
  have hhex := isHexDigit_of_parseHextet hv
  by_contra hzero
  have hv0 : ofHex s = 0 := by
    unfold parseHextet at hv
    split at hv
    · cases hv
    · cases hv
      omega
  -- A hextet of value zero is written in zeros, which `int` reads as zero too.
  have hall : ∀ c ∈ s, c = '0' := by
    intro c hc
    have hc0 := eq_zero_of_ofBase (by norm_num) hv0 (hexValue c) (List.mem_map_of_mem hc)
    have := hhex c hc
    simp only [isHexDigit, hexValue, Char.isDigit, Bool.or_eq_true, Bool.and_eq_true,
      decide_eq_true_eq, Char.le_def, UInt32.le_iff_toNat_le, Char.toNat] at this hc0
    apply Char.toNat_inj.mp
    simp only [Char.toNat]
    split at hc0 <;> [skip; split at hc0] <;> simp_all <;> omega
  have hstrip : strip s = s :=
    strip_eq_self fun c hc => isSpace_eq_false_of_literal (.inl (hhex c hc))
  have hdigits : digits U s = none ∨ digits U s = some 0 := by
    have hunder : '_' ∉ s := fun h => by simpa using hall _ h
    have hmap : s.mapM (digit U) = some (s.map fun _ => 0) := by
      clear hv hn hhex hv0 hstrip hunder
      induction s with
      | nil => rfl
      | cons c s ih =>
        rw [List.mapM_cons, hall c (by simp), ih fun d hd => hall d (by simp [hd])]
        rfl
    rw [digits, List.splitOn_eq_singleton hunder]
    simp only [List.flatten_cons, List.flatten_nil, List.append_nil, hmap]
    split
    · exact .inl rfl
    · split
      · exact .inl rfl
      · right
        exact congrArg some (ofBase_eq_zero (b := 10) (by simp))
  have hint : int U s = (digits U s).map fun n : ℕ => (n : ℤ) := by
    unfold int
    rw [hstrip]
    cases s with
    | nil => rfl
    | cons c s =>
      rw [hall c (by simp)]
      rfl
  rw [hint] at hn
  rcases hdigits with h | h
  · simp [h] at hn
  · simp [h] at hn
    omega

/-- What is not a digit, a blank, a sign or an underscore makes `int` fail. -/
theorem int_eq_none_of_mem {U : Unicode} {s : Str} {c : Char} (hc : c ∈ s)
    (hspace : isSpace c = false) (hsign : c ≠ '+' ∧ c ≠ '-') (hunder : c ≠ '_')
    (hdigit : digit U c = none) : int U s = none := by
  -- The character is no blank, so it is not stripped.
  have hstrip : c ∈ strip s := by
    have hl : c ∈ lstrip isSpace s := by
      rw [← List.takeWhile_append_dropWhile (p := isSpace) (l := s)] at hc
      rcases List.mem_append.mp hc with hc | hc
      · simp [List.mem_takeWhile_imp hc] at hspace
      · exact hc
    have hr : c ∈ (lstrip isSpace s).reverse.dropWhile isSpace := by
      rw [← List.mem_reverse,
        ← List.takeWhile_append_dropWhile (p := isSpace) (l := (lstrip isSpace s).reverse)] at hl
      rcases List.mem_append.mp hl with hl | hl
      · simp [List.mem_takeWhile_imp hl] at hspace
      · exact hl
    simpa [strip, rstrip, List.rdropWhile] using hr
  have hdigits : ∀ body : Str, c ∈ body → digits U body = none := by
    intro body hbody
    obtain ⟨group, hgroup, hcg⟩ := (mem_splitOn '_' hbody).resolve_left hunder
    have hmap : (body.splitOn '_').flatten.mapM (digit U) = none := by
      by_contra hne
      obtain ⟨ds, hds⟩ := Option.ne_none_iff_exists'.mp hne
      obtain ⟨d, hd⟩ := exists_of_mapM hds c (List.mem_flatten.mpr ⟨group, hgroup, hcg⟩)
      rw [hdigit] at hd
      cases hd
    simp [digits, hmap]
  unfold int
  split
  · next body heq =>
    rw [heq] at hstrip
    rw [hdigits body ((List.mem_cons.mp hstrip).resolve_left hsign.1)]
    rfl
  · next body heq =>
    rw [heq] at hstrip
    rw [hdigits body ((List.mem_cons.mp hstrip).resolve_left hsign.2)]
    rfl
  · rw [hdigits _ hstrip]
    rfl

theorem ofBase_lt_of_hextets {parts : List Str} {hs : List ℕ}
    (h : hextetsOfParts parts = some hs) : ofBase 65536 hs < 2 ^ 128 := by
  have hlt : ∀ {A : List Str} {as : List ℕ}, A.mapM parseHextet = some as → ∀ d ∈ as, d < 65536 := by
    intro A as hA d hd
    obtain ⟨x, -, hx⟩ := exists_of_mem_mapM hA d hd
    exact parseHextet_lt hx
  have hpow : (2 : ℕ) ^ 128 = 65536 ^ 8 := by norm_num
  rcases hextetsOfParts_cases h with ⟨hlen, hall⟩ | ⟨A, B, as, bs, -, hA, hB, hle, rfl⟩
  · rw [hpow, ← hlen, ← length_of_mapM hall]
    exact ofBase_lt (hlt hall)
  · have hlen : (as ++ List.replicate (8 - (A.length + B.length)) 0 ++ bs).length = 8 := by
      simp [length_of_mapM hA, length_of_mapM hB]
      omega
    refine lt_of_lt_of_eq (ofBase_lt fun d hd => ?_) (by rw [hlen, hpow])
    rcases List.mem_append.mp hd with hd | hd
    · rcases List.mem_append.mp hd with hd | hd
      · exact hlt hA d hd
      · simp [List.eq_of_mem_replicate hd]
    · exact hlt hB d hd

/-- The parts of a literal, when a part is taken off their end and a literal is left. -/
theorem hextetsOfParts_concat {parts : List Str} {group : Str} {hs hs' : List ℕ}
    (hne : group ≠ []) (hlen : 3 ≤ parts.length) (h : hextetsOfParts parts = some hs)
    (h' : hextetsOfParts (parts ++ [group]) = some hs') :
    ∃ (as bs : List ℕ) (k v : ℕ), parseHextet group = some v ∧
      hs = as ++ List.replicate (k + 1) 0 ++ bs ∧ hs' = as ++ List.replicate k 0 ++ (bs ++ [v]) := by
  rcases hextetsOfParts_cases h' with ⟨hlen', hall⟩ | ⟨A, B, as, bs, heq, hA, hB, hle, rfl⟩
  · -- Eight groups without `::`: what is left has seven and no `::` either.
    have hseven : parts.length = 7 := by simpa using hlen'
    have hparts := ne_nil_of_mapM_parseHextet hall
    rcases hextetsOfParts_cases h with ⟨hlen8, -⟩ | ⟨A, B, -, -, rfl, -⟩
    · omega
    · exact absurd rfl (hparts [] (by simp))
  · rcases List.eq_nil_or_concat B with rfl | ⟨B', q, rfl⟩
    · have hlast := congrArg List.getLast? heq
      exact absurd (by simpa using hlast) hne
    · have hBne : B' ++ [q] ≠ [] := by simp
      rw [List.concat_eq_append] at *
      rw [side_of_ne_nil hBne, ← List.cons_append, ← List.append_assoc] at heq
      obtain ⟨hparts, hq⟩ := List.append_inj' heq rfl
      obtain rfl : group = q := by simpa using hq
      obtain ⟨bs', hB', v, hv, rfl⟩ : ∃ bs', B'.mapM parseHextet = some bs' ∧
          ∃ v, parseHextet group = some v ∧ bs = bs' ++ [v] := by
        simp only [List.mapM_append, List.mapM_cons, List.mapM_nil, Option.bind_eq_bind,
          Option.pure_def, Option.bind_some, Option.bind_eq_some_iff, Option.some.injEq] at hB
        obtain ⟨bs', hB', c, ⟨v, hv, rfl⟩, rfl⟩ := hB
        exact ⟨bs', hB', v, hv, rfl⟩
      have hcount : 8 - (A.length + (B' ++ [group]).length) + 1 = 8 - (A.length + B'.length) := by
        simp only [List.length_append, List.length_singleton] at hle ⊢
        omega
      cases B' with
      | nil =>
        -- The `::` stood right before the group: what is left ends in one colon.
        have hAne := ne_nil_of_mapM_parseHextet hA
        by_cases hnil : A = []
        · simp [hparts, hnil] at hlen
        · rw [side_of_ne_nil hnil] at hparts
          exfalso
          rcases hextetsOfParts_cases h with ⟨-, hall⟩ | ⟨A₁, B₁, as₁, bs₁, heq₁, -⟩
          · exact ne_nil_of_mapM_parseHextet hall [] (hparts ▸ by simp) rfl
          · have hsplit : A = side A₁ ++ ([] :: side B₁).dropLast := by
              rw [hparts] at heq₁
              have hdrop := congrArg List.dropLast heq₁
              rwa [List.dropLast_concat,
                List.dropLast_append_of_ne_nil (List.cons_ne_nil _ _)] at hdrop
            refine hAne [] ?_ rfl
            rw [hsplit, List.dropLast_cons_of_ne_nil (side_ne_nil B₁)]
            simp
      | cons b B'' =>
        have hle' : A.length + (b :: B'').length ≤ 7 := by
          rw [List.length_append] at hle
          omega
        have hside := hextetsOfParts_side hA hB' hle'
        rw [side_of_ne_nil (List.cons_ne_nil b B''), ← hparts, h] at hside
        refine ⟨as, bs', 8 - (A.length + (b :: B'' ++ [group]).length), v, hv, ?_, rfl⟩
        rw [hcount]
        exact Option.some.inj hside

/-- **A literal and what is left of it before its last group, when that group reads as a positive
number, are two different addresses.** -/
theorem bits_ne_of_extended {U : Unicode} {host group : Str} {n : ℤ} {a b : IpAddress}
    (ha : ipAddress (host ++ ':' :: group) = some a) (hb : ipAddress host = some b)
    (hz : '%' ∉ host ++ ':' :: group) (hc : ':' ∉ group) (hn : int U group = some n)
    (hpos : 1 ≤ n) : a.bits ≠ b.bits := by
  obtain ⟨ip, rfl, hip⟩ := ipAddress_of_colon ha (by simp) hz
  obtain ⟨hlen, parts, hs', hparts, hhs', rfl⟩ := ipv6FromString_parts hip
  have hsplit : (host ++ ':' :: group).splitOn ':' = host.splitOn ':' ++ [group] := by
    rw [List.splitOn_append_cons_self, List.splitOn_eq_singleton hc]
  have hdot : '.' ∉ group := by
    intro hmem
    rw [int_eq_none_of_mem hmem rfl (by decide) (by decide) rfl] at hn
    cases hn
  have hne : group ≠ [] := by
    rintro rfl
    cases hn
  rw [hsplit] at hparts hlen
  obtain rfl : host.splitOn ':' ++ [group] = parts := by
    simpa [expandSuffix, hdot] using hparts
  have hcolon : ':' ∈ host := by
    by_contra hno
    rw [List.splitOn_eq_singleton hno] at hlen
    simp at hlen
  have hzh : '%' ∉ host := fun h => hz (by simp [h])
  obtain ⟨ip₂, rfl, hip₂⟩ := ipAddress_of_colon hb hcolon hzh
  obtain ⟨hlen₂, parts₂, hs, hparts₂, hhs, rfl⟩ := ipv6FromString_parts hip₂
  -- The last part of the host is a part of the longer literal, so it has no dots.
  obtain rfl : host.splitOn ':' = parts₂ := by
    rw [expandSuffix] at hparts₂
    split at hparts₂
    · cases hparts₂
    next suffix hlast =>
    have hmem : suffix ∈ host.splitOn ':' ++ [group] := by
      simp [List.mem_of_getLast? hlast]
    have hnodot : '.' ∉ suffix := by
      intro hd
      rcases eq_nil_or_parseHextet hhs' suffix hmem with rfl | ⟨n, hn⟩
      · simp at hd
      · exact absurd (isHexDigit_of_parseHextet hn '.' hd) (by decide)
    simpa [hnodot] using hparts₂
  obtain ⟨as, bs, k, v, hv, rfl, rfl⟩ := hextetsOfParts_concat hne hlen₂ hhs hhs'
  have hvpos := parseHextet_pos hv hn hpos
  have hdiff := ofBase_append_ne (b := 65536) (by norm_num) as bs k v hvpos
  have hlt := ofBase_lt_of_hextets hhs
  have hlt' := ofBase_lt_of_hextets hhs'
  intro hbits
  simp only [IpAddress.bits, Sum.inr.injEq] at hbits
  apply hdiff
  have hnat := congrArg BitVec.toNat hbits
  rwa [BitVec.toNat_ofNat, BitVec.toNat_ofNat, Nat.mod_eq_of_lt hlt, Nat.mod_eq_of_lt hlt'] at hnat

end Python
