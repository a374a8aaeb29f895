import SecOpent.Python.JsonDecoder
import SecOpent.Python.Strip

/-!
# Records on the lines of a tool's output

`safe_jsonl_load` decodes an output line by line. One line that is no JSON empties the result, so that a
malformed stream never takes down the runner. An output that gives no record on its lines is decoded
as a whole; when each of its lines is decoded, there is no record in the whole either.

## Main definitions

* `splitlines`: `str.splitlines`
* `safeJsonlLoad`: `safe_jsonl_load`
* `recordLines`: the lines that are decoded

## Main results

* `recordLines_eq_cons`: where the first line that is decoded stands
* `safe_jsonl_load_lines`: what is loaded from lines that are decoded, and from lines that are not
-/

namespace SecOpent

namespace JsonLines

open Python Python.JsonDecoder

/-- An object of an output. -/
abbrev Record : Type := List (List ℕ × Value)

/-! ## Lines -/

/-- What ends a line. -/
def isLineBreak (c : Char) : Bool :=
  let n := c.toNat
  (10 ≤ n && n ≤ 13) || (28 ≤ n && n ≤ 30) || n == 0x85 || n == 0x2028 || n == 0x2029

/-- `str.splitlines`. -/
def splitlines : Str → List Str
  | [] => []
  | '\r' :: '\n' :: s => [] :: splitlines s
  | c :: s =>
    if isLineBreak c then [] :: splitlines s
    else match splitlines s with
      | [] => [[c]]
      | line :: lines => (c :: line) :: lines

/-- The lines that `safe_jsonl_load` decodes: those that are not blank, stripped. -/
def recordLines (stdout : Str) : List Str := ((splitlines stdout).map strip).filter (· ≠ [])

theorem isSpace_of_isLineBreak {c : Char} (h : isLineBreak c = true) : isSpace c = true := by
  simp only [isLineBreak, isSpace, Bool.or_eq_true, Bool.and_eq_true, decide_eq_true_eq,
    beq_iff_eq] at h ⊢
  omega

/-- The first line of a text, and what ends it. -/
theorem splitlines_first {s : Str} (hs : s ≠ []) : ∃ line mark rest, s = line ++ (mark ++ rest) ∧
    splitlines s = line :: splitlines rest ∧ mark.all isSpace = true ∧ Ends (mark ++ rest) ∧
    rest.length < s.length := by
  induction s using splitlines.induct with
  | case1 => exact absurd rfl hs
  | case2 s => exact ⟨[], ['\r', '\n'], s, rfl, by rw [splitlines], by decide,
      by rintro c ⟨⟩; decide, Nat.lt_succ_of_lt (Nat.lt_succ_self _)⟩
  | case3 c s hcrlf hbreak =>
    have hspace := isSpace_of_isLineBreak hbreak
    refine ⟨[], [c], s, rfl, ?_, by simp [hspace], ?_, Nat.lt_succ_self _⟩
    · rw [splitlines, if_pos hbreak]
      exact hcrlf
    · rintro d ⟨⟩
      exact hspace
  | case4 c s hcrlf hbreak hlines ih =>
    refine ⟨[c], [], [], ?_, ?_, rfl, nofun, Nat.succ_pos _⟩
    · cases s with
      | nil => rfl
      | cons d s =>
        obtain ⟨line, mark, rest, -, hsplit, -⟩ := ih (List.cons_ne_nil d s)
        rw [hlines] at hsplit
        cases hsplit
    · change splitlines (c :: s) = [[c]]
      rw [splitlines, if_neg hbreak, hlines]
      exact hcrlf
  | case5 c s hcrlf hbreak line lines hlines ih =>
    cases s with
    | nil => cases hlines
    | cons d s =>
      obtain ⟨line', mark, rest, heq, hsplit, hmark, hends, hlength⟩ := ih (List.cons_ne_nil d s)
      refine ⟨c :: line', mark, rest, by rw [heq]; rfl, ?_, hmark, hends,
        hlength.trans (Nat.lt_succ_self _)⟩
      rw [splitlines, if_neg hbreak, hsplit]
      exact hcrlf

/-- A text is what is stripped before it, the stripped text and what is stripped after it. -/
theorem exists_strip (s : Str) : ∃ before after, s = before ++ (strip s ++ after) ∧
    before.all isSpace = true ∧ after.all isSpace = true := by
  refine ⟨s.takeWhile isSpace, (lstrip isSpace s).rtakeWhile isSpace, ?_, ?_, ?_⟩
  · rw [strip, rstrip, List.rdropWhile_append_rtakeWhile]
    exact List.takeWhile_append_dropWhile.symm
  · exact List.all_takeWhile
  · rw [List.all_eq_true]
    exact fun c hc => List.mem_rtakeWhile_imp hc

/-- A stripped text does not start with a blank. -/
theorem isSpace_head_strip {s : Str} : ∀ c ∈ (strip s).head?, isSpace c = false := by
  intro c hc
  have hstrip := lstrip_strip s
  cases hs : strip s with
  | nil =>
    rw [hs] at hc
    cases hc
  | cons d t =>
    rw [hs] at hc hstrip
    obtain rfl : d = c := by simpa using hc
    rw [Bool.eq_false_iff]
    intro hspace
    rw [lstrip, List.dropWhile_cons_of_pos hspace] at hstrip
    have := hstrip ▸ List.length_dropWhile_le isSpace t
    simp at this

/-- Nothing is left of a blank text, and of no other. -/
theorem strip_eq_nil_iff {s : Str} : strip s = [] ↔ s.all isSpace = true := by
  rw [strip, rstrip, List.rdropWhile_eq_nil_iff, List.all_eq_true]
  constructor
  · intro h c hc
    by_contra hspace
    have hne : lstrip isSpace s ≠ [] := fun hnil => hspace (List.dropWhile_eq_nil_iff.mp hnil c hc)
    obtain ⟨d, t, ht⟩ := List.exists_cons_of_ne_nil hne
    have hd := List.head?_dropWhile_not isSpace s
    have hspace' : isSpace d = true := h d (ht ▸ List.mem_cons_self)
    rw [lstrip] at ht
    rw [ht] at hd
    exact Bool.false_ne_true (Eq.trans (Eq.symm hd) hspace')
  · exact fun h c hc => h c ((List.dropWhile_sublist _).subset hc)

theorem recordLines_nil : recordLines [] = [] := rfl

/-- **The first line that is decoded** stands after white space and before white space. -/
theorem recordLines_eq_cons {s line : Str} {lines : List Str} (h : recordLines s = line :: lines) :
    ∃ before after, s = before ++ (line ++ after) ∧ before.all isSpace = true ∧ Ends after ∧
      (∀ c ∈ line.head?, isSpace c = false) ∧ line ≠ [] := by
  induction hn : s.length using Nat.strong_induction_on generalizing s with
  | _ n ih =>
    subst hn
    by_cases hs : s = []
    · rw [hs, recordLines_nil] at h
      cases h
    · obtain ⟨first, mark, rest, heq, hsplit, hmark, hends, hlength⟩ := splitlines_first hs
      obtain ⟨left, right, hfirst, hleft, hright⟩ := exists_strip first
      rw [recordLines, hsplit, List.map_cons, List.filter_cons] at h
      by_cases hblank : strip first = []
      · -- A blank line is part of the white space before the line.
        rw [if_neg (by simpa using hblank)] at h
        obtain ⟨before, after, hrest, hbefore, hafter⟩ := ih rest.length hlength h rfl
        refine ⟨left ++ right ++ mark ++ before, after, ?_, ?_, hafter⟩
        · rw [hblank, List.nil_append] at hfirst
          rw [heq, hfirst, hrest]
          simp only [List.append_assoc]
        · rw [List.all_append, List.all_append, List.all_append, hleft, hright, hmark, hbefore]
          rfl
      · rw [if_pos (by simpa using hblank)] at h
        obtain ⟨rfl, -⟩ := List.cons.inj h
        refine ⟨left, right ++ (mark ++ rest), ?_, hleft, ?_, isSpace_head_strip, hblank⟩
        · rw [heq]
          conv_lhs => rw [hfirst]
          simp only [List.append_assoc]
        · cases right with
          | nil => exact hends
          | cons c right =>
            rintro d ⟨⟩
            exact List.all_eq_true.mp hright c List.mem_cons_self

/-- A text without lines to decode is blank. -/
theorem strip_eq_nil_of_recordLines {s : Str} (h : recordLines s = []) : strip s = [] := by
  rw [strip_eq_nil_iff]
  induction hn : s.length using Nat.strong_induction_on generalizing s with
  | _ n ih =>
    subst hn
    by_cases hs : s = []
    · rw [hs]
      rfl
    · obtain ⟨first, mark, rest, heq, hsplit, hmark, -, hlength⟩ := splitlines_first hs
      rw [recordLines, hsplit, List.map_cons, List.filter_cons] at h
      by_cases hblank : strip first = []
      · rw [if_neg (by simpa using hblank)] at h
        rw [heq, List.all_append, List.all_append, strip_eq_nil_iff.mp hblank, hmark,
          ih rest.length hlength h rfl]
        rfl
      · rw [if_pos (by simpa using hblank)] at h
        cases h

theorem strip_ne_nil_of_recordLines {s line : Str} {lines : List Str}
    (h : recordLines s = line :: lines) : strip s ≠ [] := by
  obtain ⟨before, after, rfl, -, -, hhead, hline⟩ := recordLines_eq_cons h
  cases line with
  | nil => exact absurd rfl hline
  | cons c line =>
    rw [List.cons_append, strip_around (hhead c rfl)]
    exact List.append_ne_nil_of_right_ne_nil _ (List.cons_ne_nil _ _)

/-! ## `safe_jsonl_load` -/

/-- The objects of a decoded text. -/
def recordsOf : Value → List Record
  | .dict items => [items]
  | .list values => values.filterMap fun
    | .dict items => some items
    | _ => none
  | _ => []

/-- The loop over the lines: the records, or `none` where a line empties the result. -/
def loadLines (depth : ℕ) (records : List Record) :
    List Str → Except LoadError (Option (List Record))
  | [] => .ok (some records)
  | line :: lines =>
    if strip line = [] then loadLines depth records lines
    else match loads depth (strip line) with
      -- `except json.JSONDecodeError: return []`; whatever else is raised is passed on.
      | .error .decodeError => .ok none
      | .error error => .error error
      | .ok value => loadLines depth (records ++ recordsOf value) lines

/-- The output as a single array or object. -/
def loadWhole (depth : ℕ) (stdout : Str) : Except LoadError (List Record) :=
  match loads depth stdout with
  | .error .decodeError => .ok []
  | .error error => .error error
  | .ok value => .ok (recordsOf value)

/-- `safe_jsonl_load`, with room for `depth` containers in each other. -/
def safeJsonlLoad (depth : ℕ) (stdout : Str) : Except LoadError (List Record) :=
  if strip stdout = [] then .ok []
  else match loadLines depth [] (splitlines stdout) with
    | .error error => .error error
    | .ok none => .ok []
    -- Only an output that gives no record on its lines is decoded as a whole.
    | .ok (some []) => loadWhole depth stdout
    | .ok (some records) => .ok records

/-- The lines are decoded to the values, one by one. -/
def Decoded (depth : ℕ) (lines : List Str) (values : List Value) : Prop :=
  List.Forall₂ (fun line value => loads depth line = .ok value) lines values

variable {depth : ℕ}

/-- Only the lines that are not blank count, and their blanks do not. -/
theorem loadLines_filter (lines : List Str) (records : List Record) :
    loadLines depth records ((lines.map strip).filter (· ≠ [])) = loadLines depth records lines := by
  induction lines generalizing records with
  | nil => rfl
  | cons line lines ih =>
    have hstrip : strip (strip line) = strip line :=
      strip_eq_self_iff.mpr ⟨lstrip_strip line, rstrip_strip line⟩
    rw [List.map_cons, List.filter_cons, loadLines]
    by_cases hblank : strip line = []
    · rw [if_neg (by simpa using hblank), if_pos hblank, ih]
    · rw [if_pos (by simpa using hblank), if_neg hblank, loadLines, hstrip, if_neg hblank]
      simp only [ih]

theorem loadLines_splitlines (stdout : Str) (records : List Record) :
    loadLines depth records (splitlines stdout) = loadLines depth records (recordLines stdout) :=
  (loadLines_filter (splitlines stdout) records).symm

theorem mem_recordLines {stdout line : Str} (h : line ∈ recordLines stdout) :
    strip line = line ∧ line ≠ [] := by
  obtain ⟨hmem, hne⟩ := List.mem_filter.mp h
  obtain ⟨first, -, rfl⟩ := List.mem_map.mp hmem
  exact ⟨strip_eq_self_iff.mpr ⟨lstrip_strip first, rstrip_strip first⟩, by simpa using hne⟩

/-- Lines that are decoded add their objects. -/
theorem loadLines_append {before : List Str} {values : List Value}
    (hbefore : Decoded depth before values) (hlines : ∀ line ∈ before, strip line = line ∧ line ≠ [])
    (records : List Record) (after : List Str) :
    loadLines depth records (before ++ after) =
      loadLines depth (records ++ values.flatMap recordsOf) after := by
  induction hbefore generalizing records with
  | nil => rw [List.flatMap_nil, List.append_nil, List.nil_append]
  | cons hvalue _ ih =>
    obtain ⟨⟨hstrip, hne⟩, hlines⟩ := List.forall_mem_cons.mp hlines
    rw [List.cons_append, loadLines, hstrip, if_neg hne, hvalue, List.flatMap_cons, ← List.append_assoc]
    exact ih hlines _

/-- **Nothing is in the whole** that is not on the lines: where the first line is decoded and gives no
record, the output as a whole gives none. -/
theorem loadWhole_of_decoded {stdout line : Str} {lines : List Str} {value : Value}
    (hlines : recordLines stdout = line :: lines) (hline : loads depth line = .ok value)
    (hvalue : recordsOf value = []) : loadWhole depth stdout = .ok [] := by
  obtain ⟨before, after, rfl, hbefore, hafter, hhead, -⟩ := recordLines_eq_cons hlines
  rw [loadWhole]
  rcases loads_around hbefore hafter hhead hline with hwhole | hwhole
  · rw [hwhole]
    exact congrArg Except.ok hvalue
  · rw [hwhole]

end JsonLines

open Python Python.JsonDecoder JsonLines in
/-- **What is loaded from the lines of an output**: if each line is decoded, the objects on the lines,
in their order; if the first line that is not decoded is no JSON, and the output is none either,
nothing. -/
theorem safe_jsonl_load_lines (depth : ℕ) (stdout : Str) :
    (∀ values, Decoded depth (recordLines stdout) values →
        safeJsonlLoad depth stdout = .ok (values.flatMap recordsOf)) ∧
      ∀ before line after values, recordLines stdout = before ++ line :: after →
        Decoded depth before values → loads depth line = .error .decodeError →
        (∀ whole, loads depth stdout ≠ .ok whole) → safeJsonlLoad depth stdout = .ok [] := by
  constructor
  · intro values hdecoded
    cases hlines : recordLines stdout with
    | nil =>
      rw [hlines] at hdecoded
      cases hdecoded
      rw [safeJsonlLoad, if_pos (strip_eq_nil_of_recordLines hlines)]
      rfl
    | cons line lines =>
      have hload : loadLines depth [] (splitlines stdout) = .ok (some (values.flatMap recordsOf)) := by
        rw [loadLines_splitlines, ← List.append_nil (recordLines stdout),
          loadLines_append hdecoded fun _ => mem_recordLines]
        rfl
      rw [safeJsonlLoad, if_neg (strip_ne_nil_of_recordLines hlines), hload]
      cases hrecords : values.flatMap recordsOf with
      | cons record records => rfl
      | nil =>
        -- No object is on a line, in particular none is on the first.
        rw [hlines] at hdecoded
        cases hdecoded with
        | cons hvalue _ =>
          exact loadWhole_of_decoded hlines hvalue (List.append_eq_nil_iff.mp hrecords).1
  · intro before line after values hlines hbefore hline _
    have hmem : ∀ line' ∈ before ++ line :: after, strip line' = line' ∧ line' ≠ [] := by
      rw [← hlines]
      exact fun _ => mem_recordLines
    obtain ⟨hstrip, hne⟩ := hmem line (List.mem_append_right _ List.mem_cons_self)
    have hload : loadLines depth [] (splitlines stdout) = .ok none := by
      rw [loadLines_splitlines, hlines,
        loadLines_append hbefore fun line' h => hmem line' (List.mem_append_left _ h), loadLines,
        hstrip, if_neg hne, hline]
    rw [safeJsonlLoad, hload]
    split <;> rfl

namespace JsonLines

open Python Python.JsonDecoder

/-- No record is lost: each line that is an object is among what is loaded. -/
def LosesNoRecord (depth : ℕ) : Prop :=
  ∀ stdout line record, line ∈ recordLines stdout → loads depth line = .ok (.dict record) →
    ∃ records, safeJsonlLoad depth stdout = .ok records ∧ record ∈ records

/-- A record, and a line of a log. -/
def noisyOutput : Str := "\x7b\"host\": \"a\"\x7d\nnoise".toList

end JsonLines

open Python Python.JsonDecoder JsonLines in
/-- A line that is no JSON loses the record on the line before it. -/
theorem noise_loses_record : ¬ LosesNoRecord 900 := by
  intro hlaw
  have hlines : recordLines noisyOutput = ["\x7b\"host\": \"a\"\x7d".toList, "noise".toList] := by
    decide +kernel
  obtain ⟨records, hload, hmem⟩ := hlaw noisyOutput "\x7b\"host\": \"a\"\x7d".toList
    [("host".toList.map Char.toNat, .text ("a".toList.map Char.toNat))]
    (by rw [hlines]; exact List.mem_cons_self) rfl
  obtain rfl : [] = records := Except.ok.inj (Eq.trans (b := safeJsonlLoad 900 noisyOutput) rfl hload)
  cases hmem

end SecOpent
