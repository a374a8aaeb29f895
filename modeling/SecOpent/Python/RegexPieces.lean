import SecOpent.Python.Regex

/-!
# The pieces of a text between its matches

`re.search`, `re.split` and `re.sub`, for patterns that do not match the empty text: the matches are
taken from the left, each where the one before it ends, and the pieces are what is between them. A
match put in brackets cuts a text in two, so that what is left to be found is what is found in the
pieces, each read alone. A piece read alone is not the piece in its text: its ends are ends of words.

## Main definitions

* `Regex.cuts`: the pieces and the matches, in their order
* `Regex.search`, `Regex.split`, `Regex.sub`
* `Regex.Cuts`, `Regex.IsPiece`: how the matches are taken, and where a piece stands

## Main results

* `Regex.cuts_spec`: the matches are taken from the left
* `Regex.mem_findall_iff`: what `re.findall` finds, where matches do not overlap
* `Regex.noMatch_sub_iff`: what is found after a substitution
* `Regex.IsPiece.noMatch`: when there is no match in a piece read alone
* `Regex.noMatch_sub_of_free`, `Regex.noMatch_sub_of_wordEdged`: a substitution leaves no match
* `Regex.noMatch_between_sub`, `Regex.NoMatch.between_sub`: matches with a start and an end
-/

namespace Python

namespace Regex

variable (word : Char → Bool)

/-! ## Matches from the left -/

/-- The next match: the text before it, the match and the text after it. -/
def nextMatch (r : Regex) : Option Char → Str → Option (Str × Str × Str)
  | _, [] => none
  | before, c :: s =>
    match first word r before (c :: s) with
    | some found => some ([], found)
    | none => (nextMatch r (some c) s).map fun found => (c :: found.1, found.2)

/-- The matches, each with the text before it, and the text after the last; `n` bounds their number. -/
def cutsUpTo (r : Regex) : ℕ → Option Char → Str → List (Str × Str) × Str
  | 0, _, s => ([], s)
  | n + 1, before, s =>
    match nextMatch word r before s with
    | none => ([], s)
    -- The next search starts where the match ends, and sees its last character.
    | some (piece, m, rest) =>
      let found := cutsUpTo r n (lastChar (lastChar before piece) m) rest
      ((piece, m) :: found.1, found.2)

/-- The matches in a text, each with the text before it, and the text after the last. -/
def cuts (r : Regex) (s : Str) : List (Str × Str) × Str := cutsUpTo word r s.length none s

/-- `re.search`, with the text of the match. -/
def search (r : Regex) (s : Str) : Option Str := (nextMatch word r none s).map fun found => found.2.1

/-- `re.split`: the texts between the matches. -/
def split (r : Regex) (s : Str) : List Str := (cuts word r s).1.map Prod.fst ++ [(cuts word r s).2]

/-- `re.findall`. -/
def findall (r : Regex) (s : Str) : List Str := (cuts word r s).1.map Prod.snd

/-- The pieces, with something in the place of each match. -/
def fill (repl : Str → Str) (found : List (Str × Str)) (tail : Str) : Str :=
  found.flatMap (fun cut => cut.1 ++ repl cut.2) ++ tail

/-- `re.sub`. -/
def sub (r : Regex) (repl : Str → Str) (s : Str) : Str :=
  fill repl (cuts word r s).1 (cuts word r s).2

/-! ## How the matches are taken -/

/-- No match starts in `piece`, where `rest` follows it. -/
def NoStart (r : Regex) (before : Option Char) (piece rest : Str) : Prop :=
  ∀ a b m after, piece = a ++ b → b ≠ [] → b ++ rest = m ++ after →
    ¬Matches word r (lastChar before a) m after

/-- The matches are taken from the left, and as the pattern prefers them. -/
inductive Cuts (r : Regex) : Option Char → Str → List (Str × Str) → Str → Prop
  | last {before s} : NoStart word r before s [] → Cuts r before s [] s
  | cut {before piece m rest found tail} : NoStart word r before piece (m ++ rest) →
      first word r (lastChar before piece) (m ++ rest) = some (m, rest) →
      Cuts r (lastChar (lastChar before piece) m) rest found tail →
      Cuts r before (piece ++ (m ++ rest)) ((piece, m) :: found) tail

variable {word} {r q : Regex} {before : Option Char} {s m rest piece tail : Str}
  {found : List (Str × Str)}

theorem noStart_nil : NoStart word r before [] rest := by
  intro a b m after hnil hb
  exact absurd (List.append_eq_nil_iff.mp hnil.symm).2 hb

theorem noStart_cons {c : Char} (hfirst : first word r before (c :: (piece ++ rest)) = none)
    (h : NoStart word r (some c) piece rest) : NoStart word r before (c :: piece) rest := by
  intro a b m after hpiece hb hrest
  cases a with
  | nil =>
    obtain rfl : b = c :: piece := hpiece.symm
    exact first_eq_none_iff.mp hfirst m after hrest
  | cons d a =>
    obtain ⟨rfl, rfl⟩ := List.cons.inj hpiece
    exact h a b m after rfl hb hrest

theorem noStart_of_nextMatch (h : nextMatch word r before s = none) : NoStart word r before s [] := by
  induction s generalizing before with
  | nil => exact noStart_nil
  | cons c s ih =>
    rw [nextMatch] at h
    cases hfirst : first word r before (c :: s) with
    | some found =>
      rw [hfirst] at h
      cases h
    | none =>
      rw [hfirst] at h
      refine noStart_cons ?_ (ih (Option.map_eq_none_iff.mp h))
      rw [List.append_nil]
      exact hfirst

theorem nextMatch_eq_some (h : nextMatch word r before s = some (piece, m, rest)) :
    s = piece ++ (m ++ rest) ∧ NoStart word r before piece (m ++ rest) ∧
      first word r (lastChar before piece) (m ++ rest) = some (m, rest) := by
  induction s generalizing before piece with
  | nil => cases h
  | cons c s ih =>
    rw [nextMatch] at h
    cases hfirst : first word r before (c :: s) with
    | some found =>
      rw [hfirst] at h
      obtain ⟨rfl, rfl⟩ := Prod.mk.inj (Option.some.inj h)
      have hs := (matches_of_first hfirst).1
      refine ⟨hs, noStart_nil, ?_⟩
      rw [← hs]
      exact hfirst
    | none =>
      rw [hfirst] at h
      obtain ⟨⟨piece', m', rest'⟩, hnext, heq⟩ := Option.map_eq_some_iff.mp h
      obtain ⟨rfl, hmatch⟩ := Prod.mk.inj heq
      obtain ⟨rfl, rfl⟩ := Prod.mk.inj hmatch
      obtain ⟨rfl, hnone, hnextfirst⟩ := ih hnext
      exact ⟨rfl, noStart_cons hfirst hnone, hnextfirst⟩

/-- **There is nothing to find** exactly if no part of the text is a match. -/
theorem search_eq_none_iff (hr : r.Consumes word) : search word r s = none ↔ NoMatch word r s := by
  rw [search, Option.map_eq_none_iff]
  constructor
  · rintro h a m b rfl hm
    refine noStart_of_nextMatch h a (m ++ b) m b rfl ?_ (List.append_nil _) hm
    exact List.append_ne_nil_of_left_ne_nil (hr _ _ _ hm) b
  · intro h
    by_contra hne
    obtain ⟨⟨piece, m, rest⟩, hnext⟩ := Option.ne_none_iff_exists'.mp hne
    obtain ⟨hs, -, hfirst⟩ := nextMatch_eq_some hnext
    exact h piece m rest hs (matches_of_first hfirst).2

theorem cuts_cutsUpTo (hr : r.Consumes word) {n : ℕ} (hn : s.length ≤ n) :
    Cuts word r before s (cutsUpTo word r n before s).1 (cutsUpTo word r n before s).2 := by
  induction n generalizing before s with
  | zero =>
    obtain rfl := List.length_eq_zero_iff.mp (Nat.le_zero.mp hn)
    exact .last noStart_nil
  | succ n ih =>
    rw [cutsUpTo]
    cases hnext : nextMatch word r before s with
    | none => exact .last (noStart_of_nextMatch hnext)
    | some next =>
      obtain ⟨piece, m, rest⟩ := next
      obtain ⟨rfl, hnone, hfirst⟩ := nextMatch_eq_some hnext
      -- A match takes at least one character.
      have hm : 0 < m.length := List.length_pos_of_ne_nil (hr _ _ _ (matches_of_first hfirst).2)
      rw [List.length_append, List.length_append] at hn
      exact .cut hnone hfirst (ih (by omega))

/-- **The matches are taken from the left**, and no match is left out. -/
theorem cuts_spec (hr : r.Consumes word) :
    Cuts word r none s (cuts word r s).1 (cuts word r s).2 := cuts_cutsUpTo hr le_rfl

/-! ## What is found -/

/-- A match is found where the pattern takes it, if no match starts within another one: no character but
the first is one that a match starts with. -/
theorem Cuts.mem_iff (h : Cuts word r before s found tail) {p : Char → Prop} (hopens : r.Opens p)
    (hrest : ∀ before m after, Matches word r before m after → ∀ c ∈ m.tail, ¬p c) :
    m ∈ found.map Prod.snd ↔
      ∃ a b, s = a ++ (m ++ b) ∧ first word r (lastChar before a) (m ++ b) = some (m, b) := by
  induction h with
  | @last before s hnone =>
    refine iff_of_false List.not_mem_nil ?_
    rintro ⟨a, b, rfl, hfirst⟩
    obtain ⟨c, t, rfl, -⟩ := (matches_of_first hfirst).2.opens hopens
    exact hnone a _ _ b rfl (List.cons_ne_nil _ _) (List.append_nil _) (matches_of_first hfirst).2
  | @cut before piece m' rest found tail hnone hfirst _ ih =>
    rw [List.map_cons, List.mem_cons, ih]
    constructor
    · rintro (rfl | ⟨a, b, rfl, hfirst'⟩)
      · exact ⟨piece, rest, rfl, hfirst⟩
      · refine ⟨piece ++ (m' ++ a), b, by simp only [List.append_assoc], ?_⟩
        rw [lastChar_append, lastChar_append]
        exact hfirst'
    · rintro ⟨a, b, htext, hfirst'⟩
      have hmatch := (matches_of_first hfirst').2
      obtain ⟨c, t, rfl, hc⟩ := hmatch.opens hopens
      rcases List.append_eq_append_iff.mp htext with ⟨x, rfl, hx⟩ | ⟨x, rfl, hx⟩
      · rw [lastChar_append] at hfirst'
        rcases List.append_eq_append_iff.mp hx with ⟨y, rfl, rfl⟩ | ⟨y, rfl, hy⟩
        · -- After the first match.
          rw [lastChar_append] at hfirst'
          exact .inr ⟨y, b, rfl, hfirst'⟩
        · cases y with
          | nil =>
            rw [List.append_nil] at hfirst
            rw [List.append_nil]
            exact .inr ⟨[], b, hy.symm, hfirst'⟩
          | cons d y =>
            obtain ⟨rfl, -⟩ := List.cons.inj hy
            cases x with
            | nil =>
              -- At the first match.
              rw [hy] at hfirst'
              exact .inl (Prod.mk.inj (Option.some.inj (hfirst'.symm.trans hfirst))).1
            | cons e x =>
              -- Within the first match.
              refine absurd hc (hrest _ _ _ (matches_of_first hfirst).2 c ?_)
              exact List.mem_append_right _ List.mem_cons_self
      · cases x with
        | nil =>
          rw [List.append_nil] at hfirst
          have hx : c :: t ++ b = m' ++ rest := hx
          rw [hx] at hfirst'
          exact .inl (Prod.mk.inj (Option.some.inj (hfirst'.symm.trans hfirst))).1
        | cons e x => exact absurd hmatch (hnone a _ _ b rfl (List.cons_ne_nil _ _) hx.symm)

/-- **What is found** is what the pattern takes at some place. -/
theorem mem_findall_iff {p : Char → Prop} (hopens : r.Opens p)
    (hrest : ∀ before m after, Matches word r before m after → ∀ c ∈ m.tail, ¬p c) :
    m ∈ findall word r s ↔
      ∃ a b, s = a ++ (m ++ b) ∧ first word r (lastChar none a) (m ++ b) = some (m, b) := by
  refine (cuts_spec fun _ _ _ hm hnil => ?_).mem_iff hopens hrest
  obtain ⟨c, t, rfl, -⟩ := hm.opens hopens
  cases hnil

/-! ## Where a piece stands -/

/-- A piece of a text between two matches: it is at the start of the text or follows a match, no match
starts in it, and it is at the end of the text or before a match. -/
structure IsPiece (word : Char → Bool) (q : Regex) (s a piece rest : Str) : Prop where
  text : s = a ++ (piece ++ rest)
  noStart : NoStart word q (lastChar none a) piece rest
  left : a = [] ∨ ∃ b m, a = b ++ m ∧
    first word q (lastChar none b) (m ++ (piece ++ rest)) = some (m, piece ++ rest)
  right : rest = [] ∨ ∃ m rest', rest = m ++ rest' ∧
    first word q (lastChar none (a ++ piece)) rest = some (m, rest')

theorem Cuts.isPiece {a : Str} (h : Cuts word q before s found tail)
    (hbefore : before = lastChar none a)
    (hleft : a = [] ∨ ∃ b m, a = b ++ m ∧ first word q (lastChar none b) (m ++ s) = some (m, s)) :
    ∀ piece ∈ found.map Prod.fst ++ [tail], ∃ b rest, IsPiece word q (a ++ s) b piece rest := by
  induction h generalizing a with
  | @last before s hnone =>
    subst hbefore
    intro piece hpiece
    obtain rfl := List.mem_singleton.mp hpiece
    refine ⟨a, [], by rw [List.append_nil], hnone, ?_, Or.inl rfl⟩
    rw [List.append_nil]
    exact hleft
  | @cut before piece m rest found tail hnone hfirst hcuts ih =>
    subst hbefore
    intro piece' hpiece'
    rcases List.mem_cons.mp hpiece' with rfl | hpiece'
    · refine ⟨a, m ++ rest, rfl, hnone, hleft, Or.inr ⟨m, rest, rfl, ?_⟩⟩
      rw [lastChar_append]
      exact hfirst
    · have hbefore :
          lastChar (lastChar (lastChar none a) piece) m = lastChar none (a ++ piece ++ m) := by
        rw [lastChar_append, lastChar_append]
      have hfirst' : first word q (lastChar none (a ++ piece)) (m ++ rest) = some (m, rest) := by
        rw [lastChar_append]
        exact hfirst
      obtain ⟨b, rest', hpiece⟩ := ih hbefore (Or.inr ⟨a ++ piece, m, rfl, hfirst'⟩) piece' hpiece'
      rw [List.append_assoc, List.append_assoc] at hpiece
      exact ⟨b, rest', hpiece⟩

theorem exists_isPiece (hq : q.Consumes word) (h : piece ∈ split word q s) :
    ∃ a rest, IsPiece word q s a piece rest :=
  (cuts_spec hq).isPiece rfl (Or.inl rfl) piece h

/-- No match of a second pattern is in a piece: it has none in its text, or none that starts with the
first character of the piece where a word ends there, or none that ends with the last one. -/
theorem IsPiece.noMatch {a : Str} {L R : Char → Prop} (hpiece : IsPiece word q s a piece rest)
    (hopens : ∀ {before m after}, Matches word r before m after → ∃ c t, m = c :: t ∧ L c)
    (hcloses : ∀ {before m after}, Matches word r before m after → ∃ t c, m = t ++ [c] ∧ R c)
    (hinside : ∀ x m y, piece = x ++ (m ++ y) →
      ¬Matches word r (lastChar none (a ++ x)) m (y ++ rest))
    (hleft : a = [] ∨ ∀ c ∈ piece.head?, ¬L c)
    (hright : rest = [] ∨ ∀ c, lastChar none piece = some c → ¬R c) : NoMatch word r piece := by
  rintro x m y rfl hm
  refine hinside x m y rfl (hm.congr ?_ ?_)
  · cases x with
    | cons d x => rw [lastChar_append]; rfl
    | nil =>
      rcases hleft with rfl | hleft
      · rfl
      · -- The match would start the piece.
        obtain ⟨c, t, rfl, hc⟩ := hopens hm
        exact absurd hc (hleft c rfl)
  · cases y with
    | cons d y => rfl
    | nil =>
      rcases hright with rfl | hright
      · rfl
      · -- The match would end the piece.
        obtain ⟨t, c, rfl, hc⟩ := hcloses hm
        refine absurd hc (hright c ?_)
        rw [List.append_nil, lastChar_append, lastChar_append]
        rfl

/-! ## What is found in the pieces -/

theorem IsPiece.not_matches_of_noStart {a x y : Str} (hpiece : IsPiece word q s a (x ++ (m ++ y)) rest)
    (hm : m ≠ []) : ¬Matches word q (lastChar none (a ++ x)) m (y ++ rest) := by
  rw [lastChar_append]
  exact hpiece.noStart x (m ++ y) m (y ++ rest) rfl (List.append_ne_nil_of_left_ne_nil hm y)
    (List.append_assoc _ _ _)

theorem IsPiece.not_matches_of_noMatch {a x y : Str} (hpiece : IsPiece word q s a (x ++ (m ++ y)) rest)
    (hs : NoMatch word r s) : ¬Matches word r (lastChar none (a ++ x)) m (y ++ rest) := by
  refine hs (a ++ x) m (y ++ rest) ?_
  rw [hpiece.text]
  simp only [List.append_assoc]

/-- After a match that ends with a word no word goes on. -/
theorem IsPiece.left_of_wordEdged {a : Str} (hpiece : IsPiece word q s a piece rest)
    (hq : q.WordEdged word) : a = [] ∨ ∀ c ∈ piece.head?, ¬word c = true := by
  rcases hpiece.left with rfl | ⟨b, m, -, hfirst⟩
  · exact Or.inl rfl
  · right
    intro c hc hword
    have hafter := hq.after (matches_of_first hfirst).2
    cases piece with
    | nil => cases hc
    | cons d piece =>
      obtain rfl : d = c := Option.some.inj hc
      exact Bool.false_ne_true (Eq.trans (Eq.symm hafter) hword)

/-- Before a match that starts with a word no word begins. -/
theorem IsPiece.right_of_wordEdged {a : Str} (hpiece : IsPiece word q s a piece rest)
    (hq : q.WordEdged word) : rest = [] ∨ ∀ c, lastChar none piece = some c → ¬word c = true := by
  rcases hpiece.right with rfl | ⟨m, rest', -, hfirst⟩
  · exact Or.inl rfl
  · right
    intro c hc hword
    have hbefore := hq.before (matches_of_first hfirst).2
    have hne : piece ≠ [] := by
      rintro rfl
      cases hc
    rw [lastChar_append, lastChar_of_ne_nil hne _ none, hc] at hbefore
    exact Bool.false_ne_true (Eq.trans (Eq.symm hbefore) hword)

/-- After a match that takes what it can no character of its last class follows. -/
theorem IsPiece.left_of_greedy {a : Str} {cls : Char → Bool} (hpiece : IsPiece word q s a piece rest)
    (hq : q.Greedy cls) : a = [] ∨ ∀ c ∈ piece.head?, cls c = false := by
  rcases hpiece.left with rfl | ⟨b, m, -, hfirst⟩
  · exact Or.inl rfl
  · right
    intro c hc
    refine first_greedy hq hfirst c ?_
    cases piece with
    | nil => cases hc
    | cons d piece => exact hc

/-- Before a match that starts with characters of a class there is none of them: the match would have
been taken there. -/
theorem IsPiece.right_of_plus {a : Str} {cls : Char → Bool}
    (hpiece : IsPiece word (seq (plus cls) q) s a piece rest) (hq : q.Free) :
    rest = [] ∨ ∀ c, lastChar none piece = some c → cls c = false := by
  rcases hpiece.right with rfl | ⟨m, rest', rfl, hfirst⟩
  · exact Or.inl rfl
  · right
    intro c hc
    by_contra hcls
    have hne : piece ≠ [] := by
      rintro rfl
      cases hc
    obtain ⟨piece', d, rfl, hlast⟩ := exists_lastChar hne
    obtain rfl : d = c := Option.some.inj (hlast.symm.trans hc)
    obtain ⟨x, y, rfl, hx, hy⟩ := (matches_of_first hfirst).2
    -- With the last character of the piece the match is a match as well.
    refine hpiece.noStart piece' [d] (d :: (x ++ y)) rest' rfl (List.cons_ne_nil d []) rfl
      ⟨d :: x, y, rfl, ⟨?_, Nat.succ_pos _, nofun⟩, hy.anywhere hq⟩
    exact List.forall_mem_cons.mpr ⟨eq_true_of_ne_false hcls, hx.1⟩

theorem noMatch_split_of_free (hq : q.Consumes word) (hfree : q.Free) :
    ∀ piece ∈ split word q s, NoMatch word q piece := by
  rintro piece hpiece x m y rfl hm
  obtain ⟨a, rest, hpiece⟩ := exists_isPiece hq hpiece
  exact hpiece.not_matches_of_noStart (hq _ _ _ hm) (hm.anywhere hfree)

theorem noMatch_split_of_wordEdged (hq : q.WordEdged word) :
    ∀ piece ∈ split word q s, NoMatch word q piece := by
  intro piece hpiece
  obtain ⟨a, rest, hpiece⟩ := exists_isPiece hq.consumes hpiece
  refine hpiece.noMatch hq.opens hq.closes ?_ (hpiece.left_of_wordEdged hq)
    (hpiece.right_of_wordEdged hq)
  rintro x m y rfl hm
  exact hpiece.not_matches_of_noStart (hq.consumes _ _ _ hm) hm

theorem NoMatch.split_of_free (hs : NoMatch word r s) (hq : q.Consumes word) (hfree : r.Free) :
    ∀ piece ∈ split word q s, NoMatch word r piece := by
  intro piece hpiece
  obtain ⟨a, rest, hpiece⟩ := exists_isPiece hq hpiece
  rw [hpiece.text] at hs
  exact hs.of_append hfree

theorem NoMatch.split_of_wordEdged (hs : NoMatch word r s) (hq : q.WordEdged word)
    (hr : r.WordEdged word) : ∀ piece ∈ split word q s, NoMatch word r piece := by
  intro piece hpiece
  obtain ⟨a, rest, hpiece⟩ := exists_isPiece hq.consumes hpiece
  refine hpiece.noMatch hr.opens hr.closes ?_ (hpiece.left_of_wordEdged hq)
    (hpiece.right_of_wordEdged hq)
  rintro x m y rfl
  exact hpiece.not_matches_of_noMatch hs

/-- A text is cut where no word goes on. -/
theorem noMatch_append_iff {a b : Str} (hr : r.Consumes word) (hwithin : r.Within (word · = true))
    (ha : atWord word (lastChar none a) = false) :
    NoMatch word r (a ++ b) ↔ NoMatch word r a ∧ NoMatch word r b := by
  by_cases hnil : a = []
  · rw [hnil]
    exact (and_iff_right (noMatch_nil hr)).symm
  · obtain ⟨a', c, rfl, hlast⟩ := exists_lastChar hnil
    have hword : word c = false := by
      rw [hlast] at ha
      exact ha
    have hc : r.Within (· ≠ c) := by
      refine hwithin.mono fun d hd => ?_
      rintro rfl
      rw [hword] at hd
      cases hd
    rw [List.append_assoc, List.singleton_append, noMatch_around_iff hr hc hword,
      noMatch_around_iff hr hc hword]
    simp only [noMatch_nil hr, and_true]

/-- **Words are found in the pieces or in the matches.** -/
theorem Cuts.noMatch (h : Cuts word q before s found tail) (hq : q.WordEdged word)
    (hr : r.Consumes word) (hwithin : r.Within (word · = true))
    (hmatch : ∀ {before m after}, Matches word q before m after → NoMatch word r m)
    (hpieces : ∀ piece ∈ found.map Prod.fst ++ [tail], NoMatch word r piece) : NoMatch word r s := by
  induction h with
  | last => exact hpieces _ (List.mem_singleton_self _)
  | @cut before piece m rest found tail hnone hfirst hcuts ih =>
    obtain ⟨-, hm⟩ := matches_of_first hfirst
    obtain ⟨hpiece, hpieces⟩ := List.forall_mem_cons.mp hpieces
    have hleft : atWord word (lastChar none piece) = false := by
      by_cases hnil : piece = []
      · rw [hnil]
        rfl
      · rw [lastChar_of_ne_nil hnil none before]
        exact hq.before hm
    rw [noMatch_append_iff hr hwithin hleft]
    refine ⟨hpiece, ?_⟩
    -- No word goes on after the match.
    cases rest with
    | nil =>
      rw [List.append_nil]
      exact hmatch hm
    | cons c rest =>
      have hword : word c = false := hq.after hm
      have hc : r.Within (· ≠ c) := by
        refine hwithin.mono fun d hd => ?_
        rintro rfl
        rw [hword] at hd
        cases hd
      have hrest := ih hpieces
      rw [noMatch_around_iff hr hc hword]
      exact ⟨hmatch hm, ((noMatch_around_iff (a := []) hr hc hword).mp hrest).2⟩

/-! ## Brackets -/

/-- No match has a bracket, and there is none in the text between the two. -/
structure Fenced (word : Char → Bool) (r : Regex) (c d : Char) (body : Str) : Prop where
  consumes : r.Consumes word
  left : r.Within (· ≠ c)
  right : r.Within (· ≠ d)
  left_word : word c = false
  right_word : word d = false
  body : NoMatch word r body

section Brackets

variable {c d : Char} {body : Str}

theorem fill_cons (repl : Str → Str) (cut : Str × Str) (found : List (Str × Str)) (tail : Str) :
    fill repl (cut :: found) tail = cut.1 ++ (repl cut.2 ++ fill repl found tail) := by
  rw [fill, fill, List.flatMap_cons, List.append_assoc, List.append_assoc]

theorem fill_bracket (cut : Str × Str) :
    fill (fun _ => c :: (body ++ [d])) (cut :: found) tail =
      cut.1 ++ c :: (body ++ d :: fill (fun _ => c :: (body ++ [d])) found tail) := by
  rw [fill_cons]
  simp only [List.append_assoc, List.cons_append, List.nil_append]

/-- What is found around a text in brackets. -/
theorem Fenced.noMatch_iff {a b : Str} (hr : Fenced word r c d body) :
    NoMatch word r (a ++ c :: (body ++ d :: b)) ↔ NoMatch word r a ∧ NoMatch word r b := by
  rw [noMatch_around_iff hr.consumes hr.left hr.left_word,
    noMatch_around_iff hr.consumes hr.right hr.right_word]
  exact and_congr_right' (and_iff_right hr.body)

/-- What is found where texts in brackets are between the pieces. -/
theorem Fenced.noMatch_fill_iff (hr : Fenced word r c d body) :
    NoMatch word r (fill (fun _ => c :: (body ++ [d])) found tail) ↔
      ∀ piece ∈ found.map Prod.fst ++ [tail], NoMatch word r piece := by
  induction found with
  | nil => simp [fill]
  | cons cut found ih =>
    rw [List.map_cons, List.cons_append, List.forall_mem_cons, ← ih, fill_bracket, hr.noMatch_iff]

/-- **What is found after a substitution** by a text in brackets is found in a piece. -/
theorem Fenced.noMatch_sub_iff (hr : Fenced word r c d body) :
    NoMatch word r (sub word q (fun _ => c :: (body ++ [d])) s) ↔
      ∀ piece ∈ split word q s, NoMatch word r piece :=
  hr.noMatch_fill_iff

/-! ## Matches with a start and an end -/

variable {r' : Regex}

theorem not_noMatch_iff (hr : r.Free) :
    ¬NoMatch word r s ↔ ∃ a m b, s = a ++ (m ++ b) ∧ Matches word r none m [] := by
  simp only [NoMatch, not_forall, not_not]
  constructor
  · rintro ⟨a, m, b, hs, hm⟩
    exact ⟨a, m, b, hs, hm.anywhere hr⟩
  · rintro ⟨a, m, b, hs, hm⟩
    exact ⟨a, m, b, hs, hm.anywhere hr⟩

theorem matches_between_iff (hr : r.Free) (hr' : r'.Free) {after : Str} :
    Matches word (between r r') before m after ↔ ∃ x y z, m = x ++ (y ++ z) ∧
      Matches word r none x [] ∧ Matches word r' none z [] := by
  constructor
  · rintro ⟨x, _, rfl, hx, y, z, rfl, -, hz⟩
    exact ⟨x, y, z, rfl, hx.anywhere hr, hz.anywhere hr'⟩
  · rintro ⟨x, y, z, rfl, hx, hz⟩
    exact ⟨x, y ++ z, rfl, hx.anywhere hr, y, z, rfl, ⟨fun _ _ => rfl, Nat.zero_le _, nofun⟩,
      hz.anywhere hr'⟩

theorem free_between (hr : r.Free) (hr' : r'.Free) : (between r r').Free := ⟨hr, trivial, hr'⟩

theorem consumes_between (hr : r.Consumes word) : (between r r').Consumes word := by
  rintro before m after ⟨x, y, rfl, hx, -⟩
  exact List.append_ne_nil_of_left_ne_nil (hr _ _ _ hx) y

/-- Without a start there is no match. -/
theorem noMatch_between_of_left (hr : r.Free) (hr' : r'.Free) (h : NoMatch word r s) :
    NoMatch word (between r r') s := by
  intro a m b hs hm
  obtain ⟨x, y, z, rfl, hx, -⟩ := (matches_between_iff hr hr').mp hm
  refine h a x (y ++ (z ++ b)) ?_ (hx.anywhere hr)
  simpa only [List.append_assoc] using hs

/-- A match around a character that neither its start nor its end has starts before the character and
ends after it. -/
theorem noMatch_between_around {a b : Str} (hr : r.Free) (hr' : r'.Free)
    (hconsumes : r.Consumes word) (hconsumes' : r'.Consumes word) (hc : r.Within (· ≠ c))
    (hc' : r'.Within (· ≠ c)) (ha : NoMatch word (between r r') a)
    (hb : NoMatch word (between r r') b) (hab : NoMatch word r a ∨ NoMatch word r' b) :
    NoMatch word (between r r') (a ++ c :: b) := by
  intro u m v hs hm
  obtain ⟨x, y, z, rfl, hx, hz⟩ := (matches_between_iff hr hr').mp hm
  simp only [List.append_assoc] at hs
  rcases append_cons_eq_append (hconsumes _ _ _ hx) (fun hmem => hx.within hc c hmem rfl) hs with
    ⟨w, rfl, hrest⟩ | ⟨u', rfl, rfl⟩
  · rcases append_cons_eq_append (hconsumes' _ _ _ hz) (fun hmem => hz.within hc' c hmem rfl)
      hrest.symm with
      ⟨w', rfl, rfl⟩ | ⟨y', rfl, rfl⟩
    · refine ha u (x ++ (y ++ z)) w' ?_ ((matches_between_iff hr hr').mpr ⟨x, y, z, rfl, hx, hz⟩)
      simp only [List.append_assoc]
    -- It starts before the character and ends after it.
    · rcases hab with hleft | hright
      · exact hleft u x w rfl (hx.anywhere hr)
      · exact hright y' z v rfl (hz.anywhere hr')
  · refine hb u' (x ++ (y ++ z)) v ?_ ((matches_between_iff hr hr').mpr ⟨x, y, z, rfl, hx, hz⟩)
    simp only [List.append_assoc]

/-- The start and the end of a match, which have no bracket. -/
structure Delimiters (word : Char → Bool) (r r' : Regex) (c d : Char) (body : Str) : Prop where
  start : Fenced word r c d body
  stop : Fenced word r' c d body
  start_free : r.Free
  stop_free : r'.Free

/-- Matches around a text in brackets: they are on one side of it, or start and end on the two. -/
theorem Delimiters.noMatch {a b : Str} (h : Delimiters word r r' c d body)
    (ha : NoMatch word (between r r') a) (hb : NoMatch word (between r r') b)
    (hab : NoMatch word r a ∨ NoMatch word r' b) :
    NoMatch word (between r r') (a ++ c :: (body ++ d :: b)) := by
  have hbody := noMatch_between_of_left h.start_free h.stop_free h.start.body
  refine noMatch_between_around h.start_free h.stop_free h.start.consumes h.stop.consumes h.start.left
    h.stop.left ha ?_ (hab.imp_right fun hright => ?_)
  · exact noMatch_between_around h.start_free h.stop_free h.start.consumes h.stop.consumes
      h.start.right h.stop.right hbody hb (Or.inl h.start.body)
  · rw [noMatch_around_iff h.stop.consumes h.stop.right h.stop.right_word]
    exact ⟨h.stop.body, hright⟩

theorem Delimiters.free (h : Delimiters word r r' c d body) : (between r r').Free :=
  free_between h.start_free h.stop_free

theorem Delimiters.consumes (h : Delimiters word r r' c d body) : (between r r').Consumes word :=
  consumes_between h.start.consumes

/-- The text that is cut up. -/
theorem Cuts.text (h : Cuts word q before s found tail) : s = fill id found tail := by
  induction h with
  | last => rfl
  | cut _ _ _ ih =>
    rw [fill_cons, ← ih]
    rfl

/-- What is not found in a text is not found in its pieces. -/
theorem NoMatch.of_fill (hr : r.Free) (h : NoMatch word r (fill id found tail)) :
    ∀ piece ∈ found.map Prod.fst ++ [tail], NoMatch word r piece := by
  induction found with
  | nil =>
    intro piece hpiece
    obtain rfl := List.mem_singleton.mp hpiece
    exact h
  | cons cut found ih =>
    rw [fill_cons] at h
    refine List.forall_mem_cons.mpr ⟨NoMatch.of_append (a := []) hr h, ih ?_⟩
    refine NoMatch.of_append (a := cut.1 ++ cut.2) (b := []) hr ?_
    simpa only [List.append_assoc, List.append_nil, id] using h

/-- A text in brackets in the place of other text makes no match. -/
theorem Delimiters.noMatch_fill (h : Delimiters word r r' c d body)
    (hs : NoMatch word (between r r') (fill id found tail)) :
    NoMatch word (between r r') (fill (fun _ => c :: (body ++ [d])) found tail) := by
  induction found with
  | nil => exact hs
  | cons cut found ih =>
    obtain ⟨piece, m⟩ := cut
    rw [fill_cons] at hs
    rw [fill_bracket]
    have hpiece : NoMatch word (between r r') piece := hs.of_append (a := []) h.free
    have hrest : NoMatch word (between r r') (fill id found tail) := by
      refine NoMatch.of_append (a := piece ++ m) (b := []) h.free ?_
      simpa only [List.append_assoc, List.append_nil, id] using hs
    refine h.noMatch hpiece (ih hrest) ?_
    by_contra hnot
    obtain ⟨hstart, hstop⟩ := not_or.mp hnot
    -- An end in what follows is in a piece, so it is in the text.
    have hend : ¬NoMatch word r' (fill id found tail) := fun hend =>
      hstop (h.stop.noMatch_fill_iff.mpr (hend.of_fill h.stop_free))
    obtain ⟨a, x, b, rfl, hx⟩ := (not_noMatch_iff h.start_free).mp hstart
    obtain ⟨a', z, b', hz', hz⟩ := (not_noMatch_iff h.stop_free).mp hend
    -- The start in the piece and the end after it are those of a match of the text.
    refine hs a (x ++ (b ++ (m ++ a') ++ z)) b' ?_
      ((matches_between_iff h.start_free h.stop_free).mpr ⟨x, b ++ (m ++ a'), z, rfl, hx, hz⟩)
    rw [hz']
    simp only [List.append_assoc, id]

/-- **A later substitution** makes no match with a start and an end. -/
theorem NoMatch.between_sub (hs : NoMatch word (between r r') s)
    (h : Delimiters word r r' c d body) (hq : q.Consumes word) :
    NoMatch word (between r r') (sub word q (fun _ => c :: (body ++ [d])) s) := by
  refine h.noMatch_fill ?_
  rw [← (cuts_spec hq).text]
  exact hs

/-- What is left when each match with a start and an end is put in brackets. -/
theorem Delimiters.noMatch_of_cuts (h : Delimiters word r r' c d body)
    (hcuts : Cuts word (between r r') before s found tail) :
    NoMatch word (between r r') (fill (fun _ => c :: (body ++ [d])) found tail) := by
  induction hcuts with
  | @last before s hnone =>
    rintro a m b rfl hm
    exact hnone a (m ++ b) m b rfl (List.append_ne_nil_of_left_ne_nil (h.consumes _ _ _ hm) b)
      (List.append_nil _) (hm.anywhere h.free)
  | @cut before piece m rest found tail hnone hfirst hcuts ih =>
    rw [fill_bracket]
    refine h.noMatch ?_ ih (Or.inl ?_)
    · rintro a m' b rfl hm
      exact hnone a (m' ++ b) m' (b ++ (m ++ rest)) rfl
        (List.append_ne_nil_of_left_ne_nil (h.consumes _ _ _ hm) b) (List.append_assoc _ _ _)
        (hm.anywhere h.free)
    · -- A start before the match goes with the end of the match.
      obtain ⟨x, y, z, rfl, -, hz⟩ :=
        (matches_between_iff h.start_free h.stop_free).mp (matches_of_first hfirst).2
      rintro a x' b rfl hx'
      refine hnone a (x' ++ b) (x' ++ (b ++ (x ++ y) ++ z)) rest rfl
        (List.append_ne_nil_of_left_ne_nil (h.start.consumes _ _ _ hx') b) ?_
        ((matches_between_iff h.start_free h.stop_free).mpr
          ⟨x', b ++ (x ++ y), z, rfl, hx'.anywhere h.start_free, hz⟩)
      simp only [List.append_assoc]

/-- **A substitution leaves no match** with a start and an end. -/
theorem noMatch_between_sub (h : Delimiters word r r' c d body) :
    NoMatch word (between r r')
      (sub word (between r r') (fun _ => c :: (body ++ [d])) s) :=
  h.noMatch_of_cuts (cuts_spec h.consumes)

/-- A substitution that finds nothing changes nothing. -/
theorem sub_of_search (h : search word r s = none) (repl : Str → Str) : sub word r repl s = s := by
  rw [search, Option.map_eq_none_iff] at h
  have hcuts : cuts word r s = ([], s) := by
    rw [cuts]
    cases s with
    | nil => rfl
    | cons a s => rw [List.length_cons, cutsUpTo, h]
  rw [sub, hcuts]
  rfl

end Brackets

end Regex

end Python
