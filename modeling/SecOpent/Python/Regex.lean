import SecOpent.Python.Text

/-!
# Regular expressions

`re`, for patterns of repeated classes, word boundaries, sequences and alternatives. A match is a part
of a text between a character before it and a text after it; of these only the word boundaries take
notice. The matcher lists the matches at a place in the order in which they are tried.

## Main definitions

* `Regex`, `Regex.Matches`: patterns, and what they match
* `Regex.run`, `Regex.first`: the matches at a place, and the first one
* `Regex.NoMatch`: no part of a text is a match
* `Regex.Within`, `Regex.Free`, `Regex.Opens`, `Regex.Closes`, `Regex.Requires`: what is seen of a match
  from its pattern
* `Regex.WordEdged`: the matches are words, or start and end with one

## Main results

* `Regex.mem_run`: the matcher lists what matches
* `Regex.Matches.congr`: a match depends on its sides through the word boundaries
* `Regex.noMatch_around_iff`: a text cut at a character that no match has
-/

namespace Python

/-- A pattern: `minimum` to `maximum` characters of a class, as many as possible or as few as possible
(`lazy`); a word boundary; a sequence; alternatives. -/
inductive Regex
  | chars (cls : Char → Bool) (minimum : ℕ) (maximum : Option ℕ) (lazy : Bool)
  | boundary
  | seq (left right : Regex)
  | alt (left right : Regex)

namespace Regex

/-- `c`. -/
def char (c : Char) : Regex := chars (· == c) 1 (some 1) false

/-- `[...]{n}`. -/
def times (cls : Char → Bool) (n : ℕ) : Regex := chars cls n (some n) false

/-- `[...]+`. -/
def plus (cls : Char → Bool) : Regex := chars cls 1 none false

/-- A text, character by character. -/
def literal : Str → Regex
  | [] => chars (fun _ => false) 0 (some 0) false
  | [c] => char c
  | c :: s => seq (char c) (literal s)

/-- `\b...\b`. -/
def bounded (r : Regex) : Regex := seq boundary (seq r boundary)

/-- `...[\s\S]*?...`. -/
def between (r r' : Regex) : Regex := seq r (seq (chars (fun _ => true) 0 none true) r')

/-! ## The character before a place -/

/-- The character before what follows `s`. -/
def lastChar (before : Option Char) : Str → Option Char
  | [] => before
  | c :: s => lastChar (some c) s

theorem lastChar_append (before : Option Char) (a b : Str) :
    lastChar before (a ++ b) = lastChar (lastChar before a) b := by
  induction a generalizing before with
  | nil => rfl
  | cons c a ih => exact ih (some c)

theorem lastChar_of_ne_nil {s : Str} (h : s ≠ []) (before before' : Option Char) :
    lastChar before s = lastChar before' s := by
  cases s with
  | nil => exact absurd rfl h
  | cons c s => rfl

/-- The last character of a text that has one does not depend on what is before the text. -/
theorem lastChar_of_eq_some {s : Str} {c : Char} (h : lastChar none s = some c)
    (before : Option Char) : lastChar before s = some c := by
  have hne : s ≠ [] := by
    rintro rfl
    cases h
  rw [lastChar_of_ne_nil hne before none, h]

theorem exists_lastChar {s : Str} (h : s ≠ []) : ∃ a c, s = a ++ [c] ∧ lastChar none s = some c := by
  obtain ⟨a, c, rfl⟩ := List.eq_nil_or_concat s |>.resolve_left h
  exact ⟨a, c, List.concat_eq_append, by rw [List.concat_eq_append, lastChar_append]; rfl⟩

/-! ## Matches -/

variable (word : Char → Bool)

/-- A character of a word is there. -/
def atWord (c : Option Char) : Bool := c.any word

/-- The pattern matches `m` between `before` and `after`. -/
def Matches : Regex → Option Char → Str → Str → Prop
  | chars cls minimum maximum _, _, m, _ =>
    (∀ c ∈ m, cls c = true) ∧ minimum ≤ m.length ∧ ∀ n ∈ maximum, m.length ≤ n
  | boundary, before, m, after => m = [] ∧ atWord word before ≠ atWord word after.head?
  | seq r r', before, m, after =>
    ∃ a b, m = a ++ b ∧ Matches r before a (b ++ after) ∧ Matches r' (lastChar before a) b after
  | alt r r', before, m, after => Matches r before m after ∨ Matches r' before m after

/-- The numbers of characters that are tried, where there are `n` at most. -/
def lengths (minimum n : ℕ) (lazy : Bool) : List ℕ :=
  (List.range (n + 1 - minimum)).map fun i => if lazy then minimum + i else n - i

/-- The matches at the start of a text, each with the text after it, in the order they are tried. -/
def run : Regex → Option Char → Str → List (Str × Str)
  | chars cls minimum maximum lazy, _, s =>
    -- The characters of the class at the start, as far as the bound goes.
    let available := (s.takeWhile cls).length
    (lengths minimum ((maximum.map (min available)).getD available) lazy).map
      fun n => (s.take n, s.drop n)
  | boundary, before, s => if atWord word before != atWord word s.head? then [([], s)] else []
  | seq r r', before, s =>
    -- The right part is tried after each match of the left one before that one is given up.
    (run r before s).flatMap fun left =>
      (run r' (lastChar before left.1) left.2).map fun right => (left.1 ++ right.1, right.2)
  | alt r r', before, s => run r before s ++ run r' before s

variable {word} {r r' : Regex} {before before' : Option Char} {s m after after' rest : Str}

theorem mem_lengths {minimum n k : ℕ} {lazy : Bool} :
    k ∈ lengths minimum n lazy ↔ minimum ≤ k ∧ k ≤ n := by
  rw [lengths, List.mem_map]
  constructor
  · rintro ⟨i, hi, rfl⟩
    rw [List.mem_range] at hi
    split <;> omega
  · rintro ⟨hmin, hmax⟩
    cases lazy with
    | true => exact ⟨k - minimum, List.mem_range.mpr (by omega), by simp; omega⟩
    | false => exact ⟨n - k, List.mem_range.mpr (by omega), by simp; omega⟩

/-- **The matcher lists what matches.** -/
theorem mem_run :
    (m, rest) ∈ run word r before s ↔ s = m ++ rest ∧ Matches word r before m rest := by
  induction r generalizing before s m rest with
  | chars cls minimum maximum lazy =>
    simp only [run, List.mem_map, mem_lengths, Prod.mk.injEq]
    constructor
    · rintro ⟨n, ⟨hmin, hmax⟩, rfl, rfl⟩
      have havailable : n ≤ (s.takeWhile cls).length ∧ ∀ k ∈ maximum, n ≤ k := by
        cases maximum with
        | none => exact ⟨hmax, nofun⟩
        | some k =>
          obtain ⟨hle, hle'⟩ := Nat.le_min.mp hmax
          exact ⟨hle, by rintro _ ⟨⟩; exact hle'⟩
      have hlength : (s.take n).length = n := by
        rw [List.length_take]
        exact Nat.min_eq_left (havailable.1.trans (List.takeWhile_prefix cls).length_le)
      refine ⟨(List.take_append_drop n s).symm, fun c hc => ?_, hlength.symm ▸ hmin,
        hlength.symm ▸ havailable.2⟩
      have hsub : s.take n <+: s.takeWhile cls :=
        List.prefix_of_prefix_length_le (List.take_prefix n s) (List.takeWhile_prefix cls)
          (hlength.symm ▸ havailable.1)
      exact List.mem_takeWhile_imp (hsub.subset hc)
    · rintro ⟨rfl, hall, hmin, hmax⟩
      have hwhile : m.length ≤ ((m ++ rest).takeWhile cls).length := by
        rw [List.takeWhile_append_of_pos hall, List.length_append]
        exact Nat.le_add_right _ _
      refine ⟨m.length, ⟨hmin, ?_⟩, List.take_left, List.drop_left⟩
      cases maximum with
      | none => exact hwhile
      | some k => exact Nat.le_min.mpr ⟨hwhile, hmax k rfl⟩
  | boundary =>
    simp only [run, Matches]
    constructor
    · intro h
      split at h
      next hne =>
        obtain ⟨rfl, rfl⟩ := Prod.mk.inj (List.mem_singleton.mp h)
        exact ⟨rfl, rfl, bne_iff_ne.mp hne⟩
      next => cases h
    · rintro ⟨rfl, rfl, hne⟩
      rw [List.nil_append, if_pos (bne_iff_ne.mpr hne)]
      exact List.mem_singleton_self _
  | seq r r' ihr ihr' =>
    simp only [run, Matches, List.mem_flatMap, List.mem_map, Prod.mk.injEq]
    constructor
    · rintro ⟨⟨a, rest'⟩, hleft, ⟨b, _⟩, hright, rfl, rfl⟩
      obtain ⟨rfl, ha⟩ := ihr.mp hleft
      obtain ⟨rfl, hb⟩ := ihr'.mp hright
      exact ⟨(List.append_assoc _ _ _).symm, a, b, rfl, ha, hb⟩
    · rintro ⟨rfl, a, b, rfl, ha, hb⟩
      exact ⟨(a, b ++ rest), ihr.mpr ⟨List.append_assoc _ _ _, ha⟩, (b, rest), ihr'.mpr ⟨rfl, hb⟩,
        rfl, rfl⟩
  | alt r r' ihr ihr' =>
    rw [run, List.mem_append, ihr, ihr', Matches, ← and_or_left]

/-- The match that is taken at the start of a text, with the text after it. -/
def first (word : Char → Bool) (r : Regex) (before : Option Char) (s : Str) : Option (Str × Str) :=
  (run word r before s).head?

theorem matches_of_first (h : first word r before s = some (m, rest)) :
    s = m ++ rest ∧ Matches word r before m rest :=
  mem_run.mp (List.mem_of_mem_head? h)

theorem first_eq_none_iff :
    first word r before s = none ↔ ∀ m rest, s = m ++ rest → ¬Matches word r before m rest := by
  rw [first, List.head?_eq_none_iff, List.eq_nil_iff_forall_not_mem]
  constructor
  · exact fun h m rest hs hm => h (m, rest) (mem_run.mpr ⟨hs, hm⟩)
  · rintro h ⟨m, rest⟩ hmem
    obtain ⟨hs, hm⟩ := mem_run.mp hmem
    exact h m rest hs hm

/-- **A match depends on its sides** through the word boundaries. -/
theorem Matches.congr (h : Matches word r before m after)
    (hbefore : atWord word before = atWord word before')
    (hafter : atWord word after.head? = atWord word after'.head?) :
    Matches word r before' m after' := by
  induction r generalizing before before' m after after' with
  | chars cls minimum maximum lazy => exact h
  | boundary => exact ⟨h.1, hbefore ▸ hafter ▸ h.2⟩
  | seq r r' ihr ihr' =>
    obtain ⟨a, b, rfl, ha, hb⟩ := h
    refine ⟨a, b, rfl, ihr ha hbefore ?_, ihr' hb ?_ hafter⟩
    · cases b with
      | nil => exact hafter
      | cons c b => rfl
    · cases a with
      | nil => exact hbefore
      | cons c a => rfl
  | alt r r' ihr ihr' => exact h.imp (ihr · hbefore hafter) (ihr' · hbefore hafter)

/-! ## What is seen of a match -/

/-- Each character of a match has the property. -/
def Within (p : Char → Prop) : Regex → Prop
  | chars cls _ _ _ => ∀ c, cls c = true → p c
  | boundary => True
  | seq r r' | alt r r' => r.Within p ∧ r'.Within p

/-- There is no boundary in the pattern. -/
def Free : Regex → Prop
  | chars _ _ _ _ => True
  | boundary => False
  | seq r r' | alt r r' => r.Free ∧ r'.Free

/-- A match starts with a character that has the property. -/
def Opens (p : Char → Prop) : Regex → Prop
  | chars cls minimum _ _ => 0 < minimum ∧ ∀ c, cls c = true → p c
  | boundary => False
  | seq r _ => r.Opens p
  | alt r r' => r.Opens p ∧ r'.Opens p

/-- A match ends with a character that has the property. -/
def Closes (p : Char → Prop) : Regex → Prop
  | chars cls minimum _ _ => 0 < minimum ∧ ∀ c, cls c = true → p c
  | boundary => False
  | seq _ r' => r'.Closes p
  | alt r r' => r.Closes p ∧ r'.Closes p

/-- A match has a character that has the property. -/
def Requires (p : Char → Prop) : Regex → Prop
  | chars cls minimum _ _ => 0 < minimum ∧ ∀ c, cls c = true → p c
  | boundary => False
  | seq r r' => r.Requires p ∨ r'.Requires p
  | alt r r' => r.Requires p ∧ r'.Requires p

/-- The pattern does not match the empty text. -/
def Consumes (word : Char → Bool) (r : Regex) : Prop :=
  ∀ before m after, Matches word r before m after → m ≠ []

variable {p : Char → Prop}

theorem Matches.within (hr : r.Within p) (h : Matches word r before m after) : ∀ c ∈ m, p c := by
  induction r generalizing before m after with
  | chars cls minimum maximum lazy => exact fun c hc => hr c (h.1 c hc)
  | boundary =>
    rw [h.1]
    nofun
  | seq r r' ihr ihr' =>
    obtain ⟨a, b, rfl, ha, hb⟩ := h
    intro c hc
    exact (List.mem_append.mp hc).elim (ihr hr.1 ha c) (ihr' hr.2 hb c)
  | alt r r' ihr ihr' => exact h.elim (ihr hr.1) (ihr' hr.2)

theorem Within.mono {p' : Char → Prop} (hr : r.Within p) (h : ∀ c, p c → p' c) : r.Within p' := by
  induction r with
  | chars cls minimum maximum lazy => exact fun c hc => h c (hr c hc)
  | boundary => trivial
  | seq r r' ihr ihr' => exact ⟨ihr hr.1, ihr' hr.2⟩
  | alt r r' ihr ihr' => exact ⟨ihr hr.1, ihr' hr.2⟩

/-- Without boundaries a match is a match everywhere. -/
theorem Matches.anywhere (hr : r.Free) (h : Matches word r before m after) :
    Matches word r before' m after' := by
  induction r generalizing before before' m after after' with
  | chars cls minimum maximum lazy => exact h
  | boundary => exact hr.elim
  | seq r r' ihr ihr' =>
    obtain ⟨a, b, rfl, ha, hb⟩ := h
    exact ⟨a, b, rfl, ihr hr.1 ha, ihr' hr.2 hb⟩
  | alt r r' ihr ihr' => exact h.imp (ihr hr.1) (ihr' hr.2)

theorem Matches.opens (hr : r.Opens p) (h : Matches word r before m after) :
    ∃ c s, m = c :: s ∧ p c := by
  induction r generalizing before m after with
  | chars cls minimum maximum lazy =>
    obtain ⟨c, s, rfl⟩ := List.exists_cons_of_length_pos (hr.1.trans_le h.2.1)
    exact ⟨c, s, rfl, hr.2 c (h.1 c List.mem_cons_self)⟩
  | boundary => exact hr.elim
  | seq r r' ihr ihr' =>
    obtain ⟨a, b, rfl, ha, -⟩ := h
    obtain ⟨c, s, rfl, hc⟩ := ihr hr ha
    exact ⟨c, s ++ b, rfl, hc⟩
  | alt r r' ihr ihr' => exact h.elim (ihr hr.1) (ihr' hr.2)

theorem Matches.closes (hr : r.Closes p) (h : Matches word r before m after) :
    ∃ s c, m = s ++ [c] ∧ p c := by
  induction r generalizing before m after with
  | chars cls minimum maximum lazy =>
    have hne : m ≠ [] := List.ne_nil_of_length_pos (hr.1.trans_le h.2.1)
    obtain ⟨s, c, rfl, -⟩ := exists_lastChar hne
    exact ⟨s, c, rfl, hr.2 c (h.1 c (List.mem_append_right _ (List.mem_singleton_self c)))⟩
  | boundary => exact hr.elim
  | seq r r' ihr ihr' =>
    obtain ⟨a, b, rfl, -, hb⟩ := h
    obtain ⟨s, c, rfl, hc⟩ := ihr' hr hb
    exact ⟨a ++ s, c, (List.append_assoc _ _ _).symm, hc⟩
  | alt r r' ihr ihr' => exact h.elim (ihr hr.1) (ihr' hr.2)

theorem Matches.requires (hr : r.Requires p) (h : Matches word r before m after) :
    ∃ c ∈ m, p c := by
  induction r generalizing before m after with
  | chars cls minimum maximum lazy =>
    obtain ⟨c, s, rfl⟩ := List.exists_cons_of_length_pos (hr.1.trans_le h.2.1)
    exact ⟨c, List.mem_cons_self, hr.2 c (h.1 c List.mem_cons_self)⟩
  | boundary => exact hr.elim
  | seq r r' ihr ihr' =>
    obtain ⟨a, b, rfl, ha, hb⟩ := h
    rcases hr with hr | hr
    · obtain ⟨c, hc, hpc⟩ := ihr hr ha
      exact ⟨c, List.mem_append_left _ hc, hpc⟩
    · obtain ⟨c, hc, hpc⟩ := ihr' hr hb
      exact ⟨c, List.mem_append_right _ hc, hpc⟩
  | alt r r' ihr ihr' => exact h.elim (ihr hr.1) (ihr' hr.2)

theorem consumes_of_requires (hr : r.Requires p) : r.Consumes word := by
  rintro before m after h rfl
  obtain ⟨c, hc, -⟩ := h.requires hr
  cases hc

/-- The character is in no class of the pattern. -/
def avoids (c : Char) : Regex → Bool
  | chars cls _ _ _ => !cls c
  | boundary => true
  | seq r r' | alt r r' => r.avoids c && r'.avoids c

theorem within_of_avoids {c : Char} (h : r.avoids c = true) : r.Within (· ≠ c) := by
  induction r with
  | chars cls minimum maximum lazy =>
    rintro d hd rfl
    rw [avoids, hd] at h
    cases h
  | boundary => trivial
  | seq r r' ihr ihr' =>
    obtain ⟨hr, hr'⟩ := (Bool.and_eq_true _ _).mp h
    exact ⟨ihr hr, ihr' hr'⟩
  | alt r r' ihr ihr' =>
    obtain ⟨hr, hr'⟩ := (Bool.and_eq_true _ _).mp h
    exact ⟨ihr hr, ihr' hr'⟩

/-- The pattern ends with as many characters of the class as there are. -/
def Greedy (cls : Char → Bool) : Regex → Prop
  | chars cls' _ none false => cls' = cls
  | seq _ r' => r'.Greedy cls
  | _ => False

/-- After the match that is taken there is no character of its last class. -/
theorem first_greedy {cls : Char → Bool} (hr : r.Greedy cls)
    (h : first word r before s = some (m, rest)) : ∀ c ∈ rest.head?, cls c = false := by
  induction r generalizing before s m rest with
  | chars cls' minimum maximum lazy =>
    cases maximum with
    | some n => exact hr.elim
    | none =>
      cases lazy with
      | true => exact hr.elim
      | false =>
        obtain rfl : cls' = cls := hr
        simp only [first, run, lengths, List.head?_map, Option.map_none, Option.getD_none,
          Option.map_map, Option.map_eq_some_iff, Bool.false_eq_true, if_false] at h
        obtain ⟨i, hi, heq⟩ := h
        -- The first number that is tried is the largest.
        obtain rfl : i = 0 := by
          cases hn : (s.takeWhile cls').length + 1 - minimum with
          | zero =>
            rw [hn] at hi
            cases hi
          | succ n =>
            rw [hn, List.range_succ_eq_map] at hi
            exact (Option.some.inj hi).symm
        obtain ⟨-, rfl⟩ := Prod.mk.inj heq
        have hdrop : s.drop ((s.takeWhile cls').length - 0) = s.dropWhile cls' := by
          nth_rewrite 2 [← List.takeWhile_append_dropWhile (p := cls') (l := s)]
          exact List.drop_left
        change ∀ c ∈ (s.drop ((s.takeWhile cls').length - 0)).head?, cls' c = false
        rw [hdrop]
        intro c hc
        have hnot := List.head?_dropWhile_not cls' s
        rw [Option.mem_def.mp hc] at hnot
        exact hnot
  | boundary => exact hr.elim
  | seq r r' ihr ihr' =>
    rw [first, run, List.head?_flatMap] at h
    obtain ⟨left, -, hleft⟩ := List.exists_of_findSome?_eq_some h
    rw [List.head?_map] at hleft
    obtain ⟨⟨b, rest'⟩, hright, heq⟩ := Option.map_eq_some_iff.mp hleft
    obtain ⟨-, rfl⟩ := Prod.mk.inj heq
    exact ihr' hr hright
  | alt r r' => exact hr.elim

/-! ## Texts without a match -/

/-- No part of the text is a match. -/
def NoMatch (word : Char → Bool) (r : Regex) (s : Str) : Prop :=
  ∀ a m b, s = a ++ (m ++ b) → ¬Matches word r (lastChar none a) m b

theorem noMatch_nil (hr : r.Consumes word) : NoMatch word r [] := by
  intro a m b hs h
  exact hr _ _ _ h (List.append_eq_nil_iff.mp (List.append_eq_nil_iff.mp hs.symm).2).1

/-- There is no match in a text without a character that a match has. -/
theorem noMatch_of_requires (hr : r.Requires p) (hs : ∀ c ∈ s, ¬p c) : NoMatch word r s := by
  rintro a m b rfl h
  obtain ⟨c, hc, hpc⟩ := h.requires hr
  exact hs c (List.mem_append_right _ (List.mem_append_left _ hc)) hpc

/-- There is no match in a text that is too short. -/
theorem noMatch_of_length_lt {n : ℕ}
    (hr : ∀ before m after, Matches word r before m after → n ≤ m.length) (hs : s.length < n) :
    NoMatch word r s := by
  rintro a m b rfl h
  have hle := hr _ _ _ h
  rw [List.length_append, List.length_append] at hs
  omega

/-- A part of a text without a match has none. -/
theorem NoMatch.of_append (hr : r.Free) {a b : Str} (h : NoMatch word r (a ++ (s ++ b))) :
    NoMatch word r s := by
  rintro x m y rfl hm
  refine h (a ++ x) m (y ++ b) ?_ (hm.anywhere hr)
  simp only [List.append_assoc]

/-- A part of a text without a character stands before the character or after it. -/
theorem append_cons_eq_append {a b x y : Str} {c : Char} (hne : m ≠ []) (hc : c ∉ m)
    (h : a ++ c :: b = x ++ (m ++ y)) :
    (∃ y', a = x ++ (m ++ y') ∧ y = y' ++ c :: b) ∨ ∃ x', b = x' ++ (m ++ y) ∧ x = a ++ c :: x' := by
  rcases List.append_eq_append_iff.mp h with ⟨x', rfl, hcons⟩ | ⟨a', rfl, hcons⟩
  · cases x' with
    | nil =>
      cases m with
      | nil => exact absurd rfl hne
      | cons d m =>
        obtain ⟨rfl, -⟩ := List.cons.inj hcons
        exact absurd List.mem_cons_self hc
    | cons d x' =>
      obtain ⟨rfl, rfl⟩ := List.cons.inj hcons
      exact Or.inr ⟨x', rfl, rfl⟩
  · rcases List.append_eq_append_iff.mp hcons with ⟨y', rfl, rfl⟩ | ⟨m', rfl, hrest⟩
    · exact Or.inl ⟨y', rfl, rfl⟩
    · cases m' with
      | nil => exact Or.inl ⟨[], by rw [List.append_nil, List.append_nil], hrest.symm⟩
      | cons d m' =>
        obtain ⟨rfl, -⟩ := List.cons.inj hrest
        exact absurd (List.mem_append_right _ List.mem_cons_self) hc

/-- **A text cut at a character** that is no part of a word, and of no match: its matches are those of
the two sides. -/
theorem noMatch_around_iff {a b : Str} {c : Char} (hr : r.Consumes word) (hc : r.Within (· ≠ c))
    (hword : word c = false) :
    NoMatch word r (a ++ c :: b) ↔ NoMatch word r a ∧ NoMatch word r b := by
  have hside : ∀ x : Str,
      atWord word (lastChar none (a ++ c :: x)) = atWord word (lastChar none x) := by
    intro x
    cases x with
    | nil =>
      rw [lastChar_append]
      exact hword
    | cons d x => rw [lastChar_append]; rfl
  have hside' : ∀ y : Str, atWord word (y ++ c :: b).head? = atWord word y.head? := by
    intro y
    cases y with
    | nil => exact hword
    | cons d y => rfl
  constructor
  · intro h
    constructor
    · rintro x m y rfl hm
      exact h x m (y ++ c :: b) (by simp only [List.append_assoc]) (hm.congr rfl (hside' y).symm)
    · rintro x m y rfl hm
      exact h (a ++ c :: x) m y (by simp only [List.append_assoc, List.cons_append])
        (hm.congr (hside x).symm rfl)
  · rintro ⟨ha, hb⟩ x m y hs hm
    rcases append_cons_eq_append (hr _ _ _ hm) (fun hmem => hm.within hc c hmem rfl) hs with
      ⟨y', rfl, rfl⟩ | ⟨x', rfl, rfl⟩
    · exact ha x m y' rfl (hm.congr rfl (hside' y'))
    · exact hb x' m y rfl (hm.congr (hside x') rfl)

/-! ## Words -/

/-- A match starts and ends with a character of a word, at the ends of the word. -/
structure WordEdged (word : Char → Bool) (r : Regex) : Prop where
  opens : ∀ {before m after}, Matches word r before m after → ∃ c s, m = c :: s ∧ word c = true
  closes : ∀ {before m after}, Matches word r before m after → ∃ s c, m = s ++ [c] ∧ word c = true
  before : ∀ {before m after}, Matches word r before m after → atWord word before = false
  after : ∀ {before m after}, Matches word r before m after → atWord word after.head? = false

theorem WordEdged.consumes (hr : r.WordEdged word) : r.Consumes word := by
  rintro before m after h rfl
  obtain ⟨c, s, hnil, -⟩ := hr.opens h
  cases hnil

theorem matches_bounded_iff : Matches word (bounded r) before m after ↔
    Matches word r before m after ∧ atWord word before ≠ atWord word (m ++ after).head? ∧
      atWord word (lastChar before m) ≠ atWord word after.head? := by
  constructor
  · rintro ⟨_, _, rfl, ⟨rfl, hbefore⟩, a, _, rfl, ha, rfl, hafter⟩
    rw [List.append_nil] at hbefore ⊢
    exact ⟨ha, hbefore, hafter⟩
  · rintro ⟨h, hbefore, hafter⟩
    exact ⟨[], m, rfl, ⟨rfl, hbefore⟩, m, [], (List.append_nil m).symm, h, rfl, hafter⟩

theorem wordEdged_bounded (hopens : r.Opens (word · = true)) (hcloses : r.Closes (word · = true)) :
    (bounded r).WordEdged word where
  opens h := (matches_bounded_iff.mp h).1.opens hopens
  closes h := (matches_bounded_iff.mp h).1.closes hcloses
  before {before m after} h := by
    obtain ⟨hm, hbefore, -⟩ := matches_bounded_iff.mp h
    obtain ⟨c, s, rfl, hc⟩ := hm.opens hopens
    rw [show atWord word (c :: s ++ after).head? = true from hc] at hbefore
    exact eq_false_of_ne_true hbefore
  after {before m after} h := by
    obtain ⟨hm, -, hafter⟩ := matches_bounded_iff.mp h
    obtain ⟨s, c, rfl, hc⟩ := hm.closes hcloses
    rw [lastChar_append, show atWord word (lastChar (lastChar before s) [c]) = true from hc] at hafter
    exact eq_false_of_ne_true hafter.symm

/-! ## Literals -/

theorem matches_char_iff {c : Char} : Matches word (char c) before m after ↔ m = [c] := by
  constructor
  · rintro ⟨hall, hmin, hmax⟩
    have hlength : m.length = 1 := le_antisymm (hmax 1 rfl) hmin
    obtain ⟨d, rfl⟩ := List.length_eq_one_iff.mp hlength
    rw [beq_iff_eq.mp (hall d (List.mem_singleton_self d))]
  · rintro rfl
    refine ⟨fun d hd => beq_iff_eq.mpr (List.mem_singleton.mp hd), le_rfl, ?_⟩
    rintro _ ⟨⟩
    exact le_rfl

theorem free_literal (t : Str) : (literal t).Free := by
  induction t with
  | nil => trivial
  | cons c t ih =>
    cases t with
    | nil => trivial
    | cons d t => exact ⟨trivial, ih⟩

theorem requires_char {c : Char} : (char c).Requires (· = c) :=
  ⟨Nat.one_pos, fun _ h => beq_iff_eq.mp h⟩

theorem requires_literal {t : Str} {c : Char} (hc : c ∈ t) : (literal t).Requires (· = c) := by
  induction t with
  | nil => cases hc
  | cons d t ih =>
    cases t with
    | nil =>
      obtain rfl := List.mem_singleton.mp hc
      exact requires_char
    | cons e t =>
      rcases List.mem_cons.mp hc with rfl | hc
      · exact Or.inl requires_char
      · exact Or.inr (ih hc)

theorem matches_literal_iff {t : Str} : Matches word (literal t) before m after ↔ m = t := by
  induction t generalizing before m with
  | nil =>
    constructor
    · rintro ⟨hall, -, -⟩
      cases m with
      | nil => rfl
      | cons c m => exact absurd (hall c List.mem_cons_self) Bool.false_ne_true
    · rintro rfl
      exact ⟨nofun, le_rfl, by rintro _ ⟨⟩; exact le_rfl⟩
  | cons c t ih =>
    cases t with
    | nil => exact matches_char_iff
    | cons d t =>
      rw [literal, Matches]
      · constructor
        · rintro ⟨a, b, rfl, ha, hb⟩
          rw [matches_char_iff.mp ha, ih.mp hb]
          rfl
        · rintro rfl
          exact ⟨[c], d :: t, rfl, matches_char_iff.mpr rfl, ih.mpr rfl⟩
      · exact List.cons_ne_nil d t

end Regex

end Python
