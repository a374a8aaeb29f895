import SecOpent.Python.IpAddress
import SecOpent.Python.Traversal

/-!
# Addresses read back from their canonical text

`str(address)` is read back by `ip_address` as the same address. For IPv4 this is the decimal
text of four octets; for IPv6 the longest run of zero hextets is printed as `::`, and the reader
finds that one inner empty part again.

## Main definitions

* `side A`: the parts on one side of a `::`
* `IsZeroRun hs run`: a run of zero hextets

## Main results

* `hextetsOfParts_side`: a literal with one `::` reads as its two sides with zeros between
* `ipAddress_str`: `ip_address(str(a)) == a`
* `ipNetwork_of_ipAddress`: the text of an address is the text of its one-address network
-/

namespace Python

theorem mem_intercalate_singleton {a c : Char} {ls : List Str} (h : c ∈ [a].intercalate ls) :
    c = a ∨ ∃ l ∈ ls, c ∈ l := by
  induction ls with
  | nil => simp at h
  | cons l ls ih =>
    cases ls with
    | nil => exact .inr ⟨l, by simp, by simpa using h⟩
    | cons l' ls =>
      rw [List.intercalate_cons_cons] at h
      rcases List.mem_append.mp h with h | h
      · rcases List.mem_append.mp h with h | h
        · exact .inr ⟨l, by simp, h⟩
        · exact .inl (by simpa using h)
      · rcases ih h with h | ⟨m, hm, hc⟩
        · exact .inl h
        · exact .inr ⟨m, List.mem_cons_of_mem _ hm, hc⟩

/-- A character of a text is the separator or stands in one of the parts. -/
theorem mem_splitOn {s : Str} {c : Char} (a : Char) (h : c ∈ s) :
    c = a ∨ ∃ part ∈ s.splitOn a, c ∈ part :=
  mem_intercalate_singleton (by rwa [List.intercalate_splitOn])

/-! ## IPv4 -/

theorem parseOctet_toDigits : ∀ n < 256, parseOctet (Nat.toDigits 10 n) = some n := by
  decide +kernel

theorem dot_not_mem_toDigits (n : ℕ) : '.' ∉ Nat.toDigits 10 n := by
  intro h
  have := Nat.isDigit_of_mem_toDigits (by norm_num) (by norm_num) h
  simp [Char.isDigit] at this

theorem ipv4FromString_ipv4Str (ip : BitVec 32) : ipv4FromString (ipv4Str ip) = some ip := by
  have hsplit : (ipv4Str ip).splitOn '.' = (toBase 256 4 ip.toNat).map (Nat.toDigits 10) := by
    refine List.splitOn_intercalate _ ?_ (by simp [toBase])
    simp only [List.mem_map, forall_exists_index, and_imp]
    rintro _ n - rfl
    exact dot_not_mem_toDigits n
  have hmap : ((toBase 256 4 ip.toNat).map (Nat.toDigits 10)).mapM parseOctet =
      some (toBase 256 4 ip.toNat) :=
    mapM_map_of_inverse fun n hn => parseOctet_toDigits n (lt_of_mem_toBase (by norm_num) hn)
  have hlt : ip.toNat % 4294967296 = ip.toNat := Nat.mod_eq_of_lt ip.isLt
  simp [ipv4FromString, hsplit, hmap, ofBase_toBase, hlt]

/-- Every character of an IPv4 literal is a digit or a dot. -/
theorem ipv4FromString_chars {s : Str} {ip : BitVec 32} (h : ipv4FromString s = some ip) :
    ∀ c ∈ s, c.isDigit = true ∨ c = '.' := by
  simp only [ipv4FromString] at h
  split at h
  · simp at h
  · obtain ⟨ns, hns, -⟩ := Option.map_eq_some_iff.mp h
    intro c hc
    rcases mem_splitOn '.' hc with rfl | ⟨octet, ho, hc⟩
    · exact .inr rfl
    · obtain ⟨n, hn⟩ := exists_of_mapM hns octet ho
      rw [parseOctet] at hn
      split at hn
      · simp at hn
      · rename_i hcond
        simp only [Bool.or_eq_true, not_or, Bool.not_eq_true, Bool.not_eq_false'] at hcond
        exact .inl (List.all_eq_true.mp hcond.1.2 c hc)

theorem ipv4FromString_of_mem {s : Str} {c : Char} (hc : c ∈ s) (hd : c.isDigit = false)
    (hdot : c ≠ '.') : ipv4FromString s = none := by
  by_contra hne
  obtain ⟨ip, hip⟩ := Option.ne_none_iff_exists'.mp hne
  rcases ipv4FromString_chars hip c hc with h | h
  · simp [hd] at h
  · exact hdot h

/-! ## IPv6 -/

theorem parseHextet_toDigits {n : ℕ} (hn : n < 65536) : parseHextet (Nat.toDigits 16 n) = some n := by
  obtain ⟨hhex, hval⟩ := toDigits_sixteen_spec n
  have hlen : (Nat.toDigits 16 n).length ≤ 4 :=
    (Nat.length_toDigits_le_iff (by norm_num) (by norm_num)).mpr hn
  have hne : (Nat.toDigits 16 n).isEmpty = false := by
    simp [Nat.toDigits_ne_nil]
  have hall : (Nat.toDigits 16 n).all isHexDigit = true := List.all_eq_true.mpr hhex
  simp [parseHextet, hne, hall, hval, Nat.not_lt.mpr hlen]

/-- The parts of a literal around its one `::`: neither side has an inner empty part. -/
theorem skipIndices_append {a : Str} {A B : List Str} (hA : ∀ x ∈ A, x ≠ []) (hB : B ≠ [])
    (hB' : ∀ x ∈ B.dropLast, x ≠ []) : skipIndices (a :: A ++ [] :: B) = [A.length + 1] := by
  have hBpos : 0 < B.length := List.length_pos_iff.mpr hB
  have hlen : (a :: A ++ [] :: B).length = A.length + B.length + 2 := by simp; omega
  have hcongr : ∀ i ∈ List.range (a :: A ++ [] :: B).length,
      (0 < i && i + 1 < (a :: A ++ [] :: B).length && (a :: A ++ [] :: B)[i]? == some []) =
        (i == A.length + 1) := by
    intro i hi
    rw [List.mem_range, hlen] at hi
    rw [hlen]
    cases i with
    | zero => simp
    | succ k =>
      rw [List.cons_append, List.getElem?_cons_succ]
      -- Before the empty part, at it, or behind it.
      rcases lt_trichotomy k A.length with h | rfl | h
      · rw [List.getElem?_append_left h, List.getElem?_eq_getElem h]
        have hne : A[k].isEmpty = false := by simpa using hA _ (List.getElem_mem h)
        simp [hne, Nat.ne_of_lt h]
      · have hinner : A.length + 1 + 1 < A.length + B.length + 2 := by omega
        rw [decide_eq_true hinner]
        simp
      · obtain ⟨j, rfl⟩ : ∃ j, k = A.length + (j + 1) := ⟨k - A.length - 1, by omega⟩
        have hj : j < B.length := by omega
        rw [List.getElem?_append_right (by omega), Nat.add_sub_cancel_left,
          List.getElem?_cons_succ, List.getElem?_eq_getElem hj]
        by_cases hlast : j + 1 < B.length
        · have hmem : B[j] ∈ B.dropLast := by
            rw [← List.getElem_dropLast (i := j) (by simp; omega)]
            exact List.getElem_mem _
          have hne : B[j].isEmpty = false := by simpa using hB' _ hmem
          simp [hne]
        · -- The last part may be empty, but it is not inside.
          have hend : ¬ A.length + (j + 1) + 1 + 1 < A.length + B.length + 2 := by omega
          rw [decide_eq_false hend]
          simp
  rw [skipIndices, List.filter_congr hcongr, List.filter_beq, List.count_range]
  simp

/-- A literal without inner empty part has no `::`. -/
theorem skipIndices_eq_nil {parts : List Str} (h : ∀ x ∈ parts, x ≠ []) :
    skipIndices parts = [] := by
  rw [skipIndices, List.filter_eq_nil_iff]
  intro i hi
  have hlt : i < parts.length := List.mem_range.mp hi
  rw [List.getElem?_eq_getElem hlt]
  simp [h _ (List.getElem_mem hlt)]

theorem ne_nil_of_parseHextet {s : Str} {n : ℕ} (h : parseHextet s = some n) : s ≠ [] := by
  rintro rfl
  simp [parseHextet] at h

theorem ne_nil_of_mapM_parseHextet {A : List Str} {ns : List ℕ}
    (h : A.mapM parseHextet = some ns) : ∀ x ∈ A, x ≠ [] := by
  intro x hx
  obtain ⟨n, hn⟩ := exists_of_mapM h x hx
  exact ne_nil_of_parseHextet hn

/-- One side of a `::` at the end of a literal: an empty side leaves one empty part. -/
def side (A : List Str) : List Str := if A = [] then [[]] else A

@[simp] theorem side_nil : side [] = [[]] := rfl

theorem side_of_ne_nil {A : List Str} (h : A ≠ []) : side A = A := if_neg h

theorem side_ne_nil (A : List Str) : side A ≠ [] := by
  cases A <;> simp [side]

/-- The parts of a literal with one `::` read as the hextets on its two sides and zeros between. -/
theorem hextetsOfParts_side {A B : List Str} {as bs : List ℕ}
    (hA : A.mapM parseHextet = some as) (hB : B.mapM parseHextet = some bs)
    (hlen : A.length + B.length ≤ 7) :
    hextetsOfParts (side A ++ [] :: side B) =
      some (as ++ List.replicate (8 - (A.length + B.length)) 0 ++ bs) := by
  have hAne := ne_nil_of_mapM_parseHextet hA
  have hBne := ne_nil_of_mapM_parseHextet hB
  have hskip : skipIndices (side A ++ [] :: side B) = [(side A).length] := by
    have hB' : ∀ x ∈ (side B).dropLast, x ≠ [] := by
      intro x hx
      unfold side at hx
      split at hx
      · simp at hx
      · exact hBne x (List.dropLast_subset _ hx)
    cases A with
    | nil => exact skipIndices_append (by simp) (side_ne_nil B) hB'
    | cons a A =>
      exact skipIndices_append (fun x hx => hAne x (by simp [hx])) (side_ne_nil B) hB'
  have hhead : ((side A ++ [] :: side B).head? == some []) = decide (A = []) := by
    cases A with
    | nil => simp [side]
    | cons a A => simpa [side] using hAne a (by simp)
  have htail : ((side A ++ [] :: side B).getLast? == some []) = decide (B = []) := by
    rw [List.getLast?_append_of_ne_nil _ (by simp), List.getLast?_cons]
    rcases List.eq_nil_or_concat B with rfl | ⟨B', b, rfl⟩
    · simp [side]
    · simpa [side] using hBne b (by simp)
  have hlenA : (side A).length = if A = [] then 1 else A.length := by
    unfold side; split <;> simp
  have hlenB : (side B).length = if B = [] then 1 else B.length := by
    unfold side; split <;> simp
  have htotal : (side A ++ [] :: side B).length = (side A).length + (side B).length + 1 := by
    simp; omega
  -- An empty side leaves a part that the parser does not count.
  have hhi : (if decide (A = []) = true then (side A).length - 1 else (side A).length) =
      A.length := by
    by_cases h : A = []
    · simp [h]
    · simp [h, side_of_ne_nil h]
  have hlo : (if decide (B = []) = true then (side A ++ [] :: side B).length - (side A).length - 2
      else (side A ++ [] :: side B).length - (side A).length - 1) = B.length := by
    rw [htotal]
    by_cases h : B = []
    · simp [h]
      omega
    · simp [h, side_of_ne_nil h]
      omega
  have hlong : ¬ 9 < (side A ++ [] :: side B).length := by
    rw [htotal, hlenA, hlenB]
    split <;> split <;> simp_all <;> omega
  have hhigh : (side A ++ [] :: side B).take A.length = A := by
    by_cases h : A = []
    · simp [h]
    · simp [side, h]
  have hlow : (side A ++ [] :: side B).drop ((side A ++ [] :: side B).length - B.length) = B := by
    by_cases h : B = []
    · simp [h]
    · have hcut : (side A ++ [] :: side B).length - B.length = (side A ++ [[]]).length := by
        rw [htotal, side_of_ne_nil h]
        simp
        omega
      rw [hcut, side_of_ne_nil h, ← List.singleton_append (l := B), ← List.append_assoc,
        List.drop_left]
  have hok : ((decide (A = []) && A.length != 0) || (decide (B = []) && B.length != 0) ||
      decide (8 < A.length + B.length + 1)) = false := by
    by_cases h : A = [] <;> by_cases h' : B = [] <;> simp [h, h'] <;> omega
  simp only [hextetsOfParts, if_neg hlong, hskip, hhead, htail, hhi, hlo, hhigh, hlow, hok, hA, hB]
  rfl

/-- A run of zero hextets inside `hs`: it starts at `run.1` and has length `run.2`. -/
def IsZeroRun (hs : List Str) (run : ℕ × ℕ) : Prop :=
  run.1 + run.2 ≤ hs.length ∧ ∀ k, run.1 ≤ k → k < run.1 + run.2 → hs[k]? = some ['0']

/-- The scan returns a run of zeros, whatever runs it starts from. -/
theorem isZeroRun_longestZeroRun {L : List Str} :
    ∀ (hs pre : List Str) (best cur : ℕ × ℕ), L = pre ++ hs → IsZeroRun L best →
      (cur.2 ≠ 0 → IsZeroRun L cur ∧ cur.1 + cur.2 = pre.length) →
      IsZeroRun L (longestZeroRun hs pre.length best cur) := by
  intro hs
  induction hs with
  | nil =>
    intro pre best cur _ hbest _
    exact hbest
  | cons h hs ih =>
    intro pre best cur hL hbest hcur
    have hL' : L = (pre ++ [h]) ++ hs := by simp [hL]
    have hlen : (pre ++ [h]).length = pre.length + 1 := by simp
    rw [longestZeroRun]
    split
    case isTrue hzero =>
      have hget : L[pre.length]? = some ['0'] := by simp [hL, hzero]
      have hbound : pre.length + 1 ≤ L.length := by simp [hL]
      -- A zero starts a new run, or makes the current one longer.
      have hrun : IsZeroRun L (if cur.2 = 0 then pre.length else cur.1, cur.2 + 1) ∧
          (if cur.2 = 0 then pre.length else cur.1) + (cur.2 + 1) = pre.length + 1 := by
        split
        case isTrue h0 =>
          refine ⟨⟨by simp [h0]; omega, ?_⟩, by omega⟩
          intro k hk hk'
          have : k = pre.length := by simp only [h0] at hk'; omega
          rw [this]
          exact hget
        case isFalse h0 =>
          obtain ⟨⟨hle, hall⟩, hend⟩ := hcur h0
          refine ⟨⟨by simp only; omega, ?_⟩, by omega⟩
          intro k hk hk'
          by_cases hlast : k < cur.1 + cur.2
          · exact hall k hk hlast
          · have : k = pre.length := by simp only at hk'; omega
            rw [this]
            exact hget
      rw [← hlen]
      refine ih (pre ++ [h]) _ _ hL' ?_ (fun _ => ⟨hrun.1, by rw [hlen]; exact hrun.2⟩)
      by_cases hb : best.2 < cur.2 + 1
      · rw [if_pos hb]
        exact hrun.1
      · rw [if_neg hb]
        exact hbest
    case isFalse =>
      rw [← hlen]
      exact ih (pre ++ [h]) best (0, 0) hL' hbest (by simp)

/-- A run of zeros splits the hextets into what precedes it, the zeros, and what follows. -/
theorem IsZeroRun.eq_append {hs : List Str} {run : ℕ × ℕ} (h : IsZeroRun hs run) :
    hs = hs.take run.1 ++ List.replicate run.2 ['0'] ++ hs.drop (run.1 + run.2) := by
  obtain ⟨hle, hall⟩ := h
  have hmid : (hs.drop run.1).take run.2 = List.replicate run.2 ['0'] := by
    refine List.eq_replicate_iff.mpr ⟨by simp; omega, ?_⟩
    intro x hx
    obtain ⟨k, hk, rfl⟩ := List.getElem_of_mem hx
    have hk' : k < run.2 := by simp at hk; omega
    have := hall (run.1 + k) (by omega) (by omega)
    rw [List.getElem_take, List.getElem_drop]
    exact Option.some.inj ((List.getElem?_eq_getElem _).symm.trans this)
  rw [← hmid, List.append_assoc, ← List.drop_drop, List.take_append_drop, List.take_append_drop]

/-- Compression replaces the run of zeros by the empty part of a `::`. -/
theorem compressHextets_cases (hs : List Str) :
    compressHextets hs = hs ∨
      ∃ run, IsZeroRun hs run ∧ 2 ≤ run.2 ∧
        compressHextets hs = side (hs.take run.1) ++ [] :: side (hs.drop (run.1 + run.2)) := by
  have hrun : IsZeroRun hs (longestZeroRun hs 0 (0, 0) (0, 0)) :=
    isZeroRun_longestZeroRun hs [] (0, 0) (0, 0) rfl ⟨by simp, by simp⟩ (by simp)
  rw [compressHextets]
  generalize longestZeroRun hs 0 (0, 0) (0, 0) = run at hrun
  obtain ⟨start, len⟩ := run
  obtain ⟨hle, -⟩ := id hrun
  -- A run of one zero is not compressed.
  by_cases hlen : len ≤ 1
  · exact .inl (if_pos hlen)
  refine .inr ⟨(start, len), hrun, by simp only; omega, ?_⟩
  simp only [if_neg hlen]
  -- A run at the end gets one more empty part, which is that of its empty side.
  have htake : (if start + len = hs.length then hs ++ [[]] else hs).take start = hs.take start := by
    split
    · exact List.take_append_of_le_length (by omega)
    · rfl
  have hdrop : (if start + len = hs.length then hs ++ [[]] else hs).drop (start + len) =
      side (hs.drop (start + len)) := by
    split
    case isTrue h => simp [h]
    case isFalse h => rw [side_of_ne_nil (by simp at hle ⊢; omega)]
  rw [htake, hdrop]
  by_cases h0 : start = 0
  · simp [h0]
  · have hne : hs.take start ≠ [] := by
      intro hnil
      have hlen0 := congrArg List.length hnil
      rw [List.length_take, List.length_nil] at hlen0
      simp only at hle
      omega
    rw [if_neg h0, side_of_ne_nil hne]

theorem hextetsOfParts_compressHextets {ns : List ℕ} (hlen : ns.length = 8)
    (hlt : ∀ n ∈ ns, n < 65536) :
    hextetsOfParts (compressHextets (ns.map (Nat.toDigits 16))) = some ns := by
  have hinv : ∀ l : List ℕ, (∀ n ∈ l, n < 65536) →
      (l.map (Nat.toDigits 16)).mapM parseHextet = some l :=
    fun l hl => mapM_map_of_inverse fun n hn => parseHextet_toDigits (hl n hn)
  rcases compressHextets_cases (ns.map (Nat.toDigits 16)) with h | ⟨⟨start, len⟩, hrun, hlen2, h⟩
  · have hskip := skipIndices_eq_nil (ne_nil_of_mapM_parseHextet (hinv ns hlt))
    simp [h, hextetsOfParts, hskip, hlen, hinv ns hlt]
  · have hle := hrun.1
    rw [h, ← List.map_take, ← List.map_drop]
    simp only [List.length_map] at hle hlen2
    rw [hextetsOfParts_side (hinv _ fun n hn => hlt n (List.mem_of_mem_take hn))
      (hinv _ fun n hn => hlt n (List.mem_of_mem_drop hn)) (by simp; omega)]
    -- Reading the hextets back as numbers turns the run of "0" texts into zeros.
    have hback : ∀ l : List ℕ, (l.map (Nat.toDigits 16)).map ofHex = l := by
      intro l
      rw [List.map_map]
      exact (List.map_congr_left fun n _ => (toDigits_sixteen_spec n).2).trans (List.map_id l)
    have hsplit := congrArg (List.map ofHex) hrun.eq_append
    rw [List.map_append, List.map_append, List.map_replicate, ← List.map_take, ← List.map_drop,
      hback, hback, hback] at hsplit
    have hcount : 8 - ((List.map (Nat.toDigits 16) (ns.take start)).length +
        (List.map (Nat.toDigits 16) (ns.drop (start + len))).length) = len := by
      simp
      omega
    rw [hcount]
    exact congrArg some hsplit.symm

theorem mem_compressHextets {hs : List Str} {x : Str} (hx : x ∈ compressHextets hs) :
    x = [] ∨ x ∈ hs := by
  have hside : ∀ {A : List Str}, A ⊆ hs → x ∈ side A → x = [] ∨ x ∈ hs := by
    intro A hA hx
    by_cases h : A = []
    · exact .inl (by simpa [h] using hx)
    · exact .inr (hA (side_of_ne_nil h ▸ hx))
  rcases compressHextets_cases hs with h | ⟨run, -, -, h⟩
  · exact .inr (h ▸ hx)
  · rw [h] at hx
    rcases List.mem_append.mp hx with hx | hx
    · exact hside (List.take_subset _ _) hx
    · rcases List.mem_cons.mp hx with hx | hx
      · exact .inl hx
      · exact hside (List.drop_subset _ _) hx

theorem isHexDigit_of_mem_hextetTexts {ip : BitVec 128} {x : Str}
    (hx : x ∈ compressHextets (hextetTexts ip)) : ∀ c ∈ x, isHexDigit c = true := by
  rcases mem_compressHextets hx with rfl | hx
  · simp
  · obtain ⟨n, -, rfl⟩ := List.mem_map.mp hx
    exact (toDigits_sixteen_spec n).1

theorem length_compressHextets_ge {hs : List Str} (h : hs.length = 8) :
    3 ≤ (compressHextets hs).length := by
  have hside : ∀ A : List Str, 1 ≤ (side A).length := by
    intro A
    by_cases hA : A = []
    · simp [hA]
    · rw [side_of_ne_nil hA]
      exact List.length_pos_iff.mpr hA
  rcases compressHextets_cases hs with h' | ⟨run, -, -, h'⟩
  · rw [h']
    omega
  · have h₁ := hside (hs.take run.1)
    have h₂ := hside (hs.drop (run.1 + run.2))
    rw [h', List.length_append, List.length_cons]
    omega

theorem not_mem_of_hexDigits {x : Str} {c : Char} (h : ∀ d ∈ x, isHexDigit d = true)
    (hc : isHexDigit c = false) : c ∉ x := by
  intro hmem
  have := h c hmem
  simp [hc] at this

theorem ipv6FromString_ipv6Str (ip : BitVec 128) : ipv6FromString (ipv6Str ip) = some ip := by
  have hlen : (toBase 65536 8 ip.toNat).length = 8 := length_toBase _ _ _
  have hge : 3 ≤ (compressHextets (hextetTexts ip)).length :=
    length_compressHextets_ge (by simp [hextetTexts])
  have hsplit : (ipv6Str ip).splitOn ':' = compressHextets (hextetTexts ip) := by
    refine List.splitOn_intercalate _ (fun x hx => ?_) ?_
    · exact not_mem_of_hexDigits (isHexDigit_of_mem_hextetTexts hx) (by decide)
    · exact List.ne_nil_of_length_pos (Nat.lt_of_lt_of_le (by norm_num) hge)
  have hsuffix : expandSuffix (compressHextets (hextetTexts ip)) =
      some (compressHextets (hextetTexts ip)) := by
    obtain ⟨pre, x, hx⟩ := List.eq_nil_or_concat (compressHextets (hextetTexts ip)) |>.resolve_left
      (List.ne_nil_of_length_pos (by omega))
    have hmem : x ∈ compressHextets (hextetTexts ip) := by simp [hx]
    have hdot : '.' ∉ x :=
      not_mem_of_hexDigits (isHexDigit_of_mem_hextetTexts hmem) (by decide)
    rw [expandSuffix, hx, List.concat_eq_append, List.getLast?_concat]
    simp [hdot]
  have hread : hextetsOfParts (compressHextets (hextetTexts ip)) =
      some (toBase 65536 8 ip.toNat) :=
    hextetsOfParts_compressHextets hlen fun n hn => lt_of_mem_toBase (by norm_num) hn
  have hlt : ip.toNat % 65536 ^ 8 = ip.toNat := Nat.mod_eq_of_lt (by simpa using ip.isLt)
  simp only [ipv6FromString, hsplit, hsuffix, Option.bind_some, hread, Option.map_some,
    ofBase_toBase, hlt, BitVec.ofNat_toNat, BitVec.setWidth_eq]
  rw [if_neg (by omega)]

theorem mem_ipv6Str {ip : BitVec 128} {c : Char} (h : c ∈ ipv6Str ip) :
    isHexDigit c = true ∨ c = ':' := by
  rcases mem_intercalate_singleton h with h | ⟨x, hx, hc⟩
  · exact .inr h
  · exact .inl (isHexDigit_of_mem_hextetTexts hx c hc)

theorem colon_mem_ipv6Str (ip : BitVec 128) : ':' ∈ ipv6Str ip := by
  by_contra hno
  have hread := ipv6FromString_ipv6Str ip
  rw [ipv6FromString, List.splitOn_eq_singleton hno] at hread
  simp at hread

theorem not_mem_ipv6Str {ip : BitVec 128} {c : Char} (h : isHexDigit c = false) (hc : c ≠ ':') :
    c ∉ ipv6Str ip := by
  intro hmem
  rcases mem_ipv6Str hmem with h' | h'
  · simp [h] at h'
  · exact hc h'

/-- **`ip_address(str(a)) == a`**. -/
theorem ipAddress_str (a : IpAddress) : ipAddress a.str = some a := by
  have hslash : ∀ ip : BitVec 128, '/' ∉ ipv6Str ip := fun ip =>
    not_mem_ipv6Str (by decide) (by decide)
  have hpercent : ∀ ip : BitVec 128, '%' ∉ ipv6Str ip := fun ip =>
    not_mem_ipv6Str (by decide) (by decide)
  -- A colon rules the IPv4 reading out.
  have hv4 : ∀ s : Str, ':' ∈ s → ipv4Address s = none := by
    intro s hs
    simp [ipv4Address, ipv4FromString_of_mem hs (by decide) (by decide)]
  rcases a with ip | ⟨ip, _ | ⟨z, hz⟩⟩
  · have hslash4 : '/' ∉ ipv4Str ip := by
      intro hmem
      rcases ipv4FromString_chars (ipv4FromString_ipv4Str ip) _ hmem with h | h
      · simp [Char.isDigit] at h
      · simp at h
    simp [ipAddress, IpAddress.str, ipv4Address, hslash4, ipv4FromString_ipv4Str]
  · rw [ipAddress, IpAddress.str, hv4 _ (colon_mem_ipv6Str ip)]
    simp [ipv6Address, hslash, hpercent, ipv6FromString_ipv6Str]
  · have hmem : ':' ∈ ipv6Str ip ++ '%' :: z := by simp [colon_mem_ipv6Str]
    have hns : '/' ∉ ipv6Str ip ++ '%' :: z := by simp [hslash, hz.2.2]
    rw [ipAddress, IpAddress.str, hv4 _ hmem, ipv6Address, if_neg hns, if_pos (by simp),
      partition_append '%' (hpercent ip)]
    simp [hz, ipv6FromString_ipv6Str]

/-! ## The network of one address -/

/-- The full-length mask keeps every bit. -/
theorem and_netmask_full {w : ℕ} (ip : BitVec w) : ip &&& netmask w w = ip := by
  have hmask : netmask w w = BitVec.allOnes w := by
    rw [netmask, BitVec.ushiftRight_eq_zero le_rfl, BitVec.xor_zero]
  rw [hmask, BitVec.and_allOnes]

theorem slash_not_mem_of_ipAddress {s : Str} {a : IpAddress} (h : ipAddress s = some a) :
    '/' ∉ s := by
  intro hmem
  simp [ipAddress, ipv4Address, ipv6Address, hmem] at h

/-- The text of an address is also the text of its one-address network. -/
theorem ipNetwork_of_ipAddress {s : Str} {a : IpAddress} (h : ipAddress s = some a) :
    ipNetwork s = some a.network := by
  have hslash := slash_not_mem_of_ipAddress h
  rw [ipNetwork, List.splitOn_eq_singleton hslash]
  simp only
  rw [ipAddress] at h
  cases h4 : ipv4FromString s with
  | some ip =>
    simp only [ipv4Address, hslash, if_false, h4, Option.map_some, Option.some_or,
      Option.some.injEq] at h
    simp [ipv4Network, h4, ← h, IpAddress.network]
  | none =>
    simp only [ipv4Address, hslash, if_false, h4, Option.map_none, Option.none_or] at h
    cases a with
    | v4 ip =>
      simp only [ipv6Address, hslash, if_false] at h
      split at h
      · split at h
        · simp at h
        · simp at h
      · simp at h
    | v6 ip z =>
      simp [ipv4Network, h4, ipv6Network, h, and_netmask_full, IpAddress.network]

theorem contains_network (a b : IpAddress) : a.network.contains b = true ↔ b.bits = a.bits := by
  cases a <;> cases b <;>
    simp [IpAddress.network, IpNetwork.contains, IpAddress.bits, Prefix.of, and_netmask_full]

/-! ## The text of a network -/

theorem prefixFromPrefixString_toDigits {w p : ℕ} (h : p ≤ w) (hw : w < 1000) :
    prefixFromPrefixString w (Nat.toDigits 10 p) = some ⟨p, h⟩ := by
  have hdigits : (Nat.toDigits 10 p).all Char.isDigit = true := by
    rw [List.all_eq_true]
    exact fun c hc => Nat.isDigit_of_mem_toDigits (by norm_num) (by norm_num) hc
  have hlength : (Nat.toDigits 10 p).length ≤ 3 :=
    Nat.length_toDigits_le_iff (by norm_num) (by norm_num) |>.mpr (lt_of_le_of_lt h hw)
  have hshort : ¬maxStrDigits < (Nat.toDigits 10 p).length := by
    rw [maxStrDigits]
    omega
  have hempty : (Nat.toDigits 10 p).isEmpty = false := by
    simp [Nat.toDigits_ne_nil]
  simp [prefixFromPrefixString, hdigits, hempty, hshort, h]

theorem slash_not_mem_toDigits (n : ℕ) : '/' ∉ Nat.toDigits 10 n := by
  intro hmem
  have hdigit := Nat.isDigit_of_mem_toDigits (by norm_num) (by norm_num) hmem
  revert hdigit
  decide

theorem Prefix.of_address {w : ℕ} (net : Prefix w) :
    Prefix.of net.address net.prefixlen net.prefixlen_le = net := by
  obtain ⟨address, p, hp, hmasked⟩ := net
  simp [Prefix.of, hmasked]

/-- **`ip_network(str(net)) == net`**. -/
theorem ipNetwork_str (net : IpNetwork) : ipNetwork net.str = some net := by
  have hsplit : ∀ (a : IpAddress) (p : ℕ), (a.str ++ '/' :: Nat.toDigits 10 p).splitOn '/' =
      [a.str, Nat.toDigits 10 p] := by
    intro a p
    rw [List.splitOn_append_cons_self,
      List.splitOn_eq_singleton (slash_not_mem_of_ipAddress (ipAddress_str a)),
      List.splitOn_eq_singleton (slash_not_mem_toDigits p)]
    rfl
  cases net with
  | v4 net =>
    have hstr : (IpNetwork.v4 net).str = (IpAddress.v4 net.address).str ++ '/' ::
        Nat.toDigits 10 net.prefixlen := rfl
    rw [hstr, ipNetwork, hsplit]
    simp [IpAddress.str, ipv4Network, ipv4FromString_ipv4Str,
      prefixFromPrefixString_toDigits net.prefixlen_le, Prefix.of_address]
  | v6 net z =>
    have hcolon : ':' ∈ (IpAddress.v6 net.address z).str := by
      cases z <;> simp [IpAddress.str, colon_mem_ipv6Str]
    have hv4 : ipv4FromString (IpAddress.v6 net.address z).str = none :=
      ipv4FromString_of_mem hcolon (by decide) (by decide)
    have hv6 : ipv6Address (IpAddress.v6 net.address z).str = some (.v6 net.address z) := by
      simpa [ipAddress, ipv4Address, hv4] using ipAddress_str (.v6 net.address z)
    rw [IpNetwork.str, ipNetwork, hsplit]
    simp [ipv4Network, hv4, ipv6Network, hv6, prefixFromPrefixString_toDigits net.prefixlen_le,
      Prefix.of_address, net.address_masked]

end Python
