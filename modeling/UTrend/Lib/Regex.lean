/-
Regular expressions with lookahead, matched against a whole text.

A pattern is a sequence of parts, each a class of characters, a repeated class, the
anchor `^` or a lookahead.  `ends` is the backtracking matcher: every place at which a
match can end, the greedy one first.  `Reads` says without an order or a search what a
pattern reads of a text, and `mem_ends` is that the matcher finds just that.  Proofs
about a pattern go through `isMatch_iff` and never look at the search.

`reads_pieces` is about one kind of pattern: a class that has the separator in it,
repeated, then the separator and a last piece.  Where the class stops is for the
search to find, but the pieces between separators say what is read.

A place in a text is what has been read, last first, and what is left.  Only the
anchor looks at the former.
-/
import Mathlib.Data.List.Basic

variable {α : Type*}

/-- A pattern. -/
inductive Regex (α : Type*)
  /-- one character of a class -/
  | chars (p : α → Bool)
  /-- `^` -/
  | start
  /-- one pattern and then another -/
  | seq (r s : Regex α)
  /-- a class, at least `lo` times and, if there is a bound, at most `hi` times -/
  | rep (p : α → Bool) (lo : Nat) (hi : Option Nat)
  /-- `(?=r)` -/
  | ahead (r : Regex α)

namespace Regex

/-- A place in a text. -/
structure Place (α : Type*) where
  /-- what has been read, last first -/
  before : List α
  /-- what is left -/
  after : List α

/-! ### The matcher -/

/-- Where a repeated class can end: as far on as possible first. -/
def repEnds (p : α → Bool) : Nat → Option Nat → List α → List α → List (Place α)
  | lo, _, before, [] => if lo = 0 then [⟨before, []⟩] else []
  | lo, hi, before, c :: cs =>
      (if hi ≠ some 0 ∧ p c = true then repEnds p (lo - 1) (hi.map (· - 1)) (c :: before) cs
        else []) ++ if lo = 0 then [⟨before, c :: cs⟩] else []

/-- Where a match from a place can end. -/
def ends : Regex α → Place α → List (Place α)
  | chars p, ⟨before, after⟩ =>
      match after with
      | [] => []
      | c :: cs => if p c then [⟨c :: before, cs⟩] else []
  | start, at' => if at'.before.isEmpty then [at'] else []
  | seq r s, at' => (r.ends at').flatMap s.ends
  | rep p lo hi, at' => repEnds p lo hi at'.before at'.after
  | ahead r, at' => if (r.ends at').isEmpty then [] else [at']

/-- The pattern matches the text, all of it. -/
def isMatch (r : Regex α) (text : List α) : Bool :=
  (r.ends ⟨[], text⟩).any fun end' => end'.after.isEmpty

/-! ### What a pattern reads -/

/-- After `before`, the pattern reads `word` where `rest` comes next. -/
def Reads : Regex α → List α → List α → List α → Prop
  | chars p, _, word, _ => ∃ c, p c = true ∧ word = [c]
  | start, before, word, _ => before = [] ∧ word = []
  | seq r s, before, word, rest => ∃ u v, word = u ++ v ∧ r.Reads before u (v ++ rest) ∧
      s.Reads (u.reverse ++ before) v rest
  | rep p lo hi, _, word, _ => (∀ c ∈ word, p c = true) ∧ lo ≤ word.length ∧
      ∀ h ∈ hi, word.length ≤ h
  | ahead r, before, word, rest => word = [] ∧ ∃ u v, rest = u ++ v ∧ r.Reads before u v

theorem mem_repEnds {p : α → Bool} {end' : Place α} : ∀ {after : List α} {lo : Nat}
    {hi : Option Nat} {before : List α}, end' ∈ repEnds p lo hi before after ↔
      ∃ word, after = word ++ end'.after ∧ end'.before = word.reverse ++ before ∧
        (∀ c ∈ word, p c = true) ∧ lo ≤ word.length ∧ ∀ h ∈ hi, word.length ≤ h := by
  intro after
  induction after with
  | nil =>
      intro lo hi before
      unfold repEnds
      constructor
      · intro hmem
        split at hmem
        · rename_i hlo
          obtain rfl := List.mem_singleton.mp hmem
          exact ⟨[], rfl, rfl, by simp, by simp [hlo], by simp⟩
        · simp at hmem
      · rintro ⟨word, hword, hbefore, -, hlo, -⟩
        obtain ⟨rfl, hafter⟩ := List.append_eq_nil_iff.mp hword.symm
        have hlo : lo = 0 := by simpa using hlo
        rw [if_pos hlo, List.mem_singleton]
        obtain ⟨before', after'⟩ := end'
        simp only [List.reverse_nil, List.nil_append] at hbefore
        rw [hbefore, show after' = [] from hafter]
  | cons c cs ih =>
      intro lo hi before
      rw [repEnds, List.mem_append]
      constructor
      · rintro (hmem | hmem)
        · split at hmem
          · rename_i hmore
            obtain ⟨word, hword, hbefore, hall, hlo, hhi⟩ := ih.mp hmem
            refine ⟨c :: word, by rw [hword]; rfl, by simp [hbefore], ?_, ?_, ?_⟩
            · exact List.forall_mem_cons.mpr ⟨hmore.2, hall⟩
            · simp only [List.length_cons]
              omega
            · intro h hh
              obtain rfl : hi = some h := hh
              have hpos : h ≠ 0 := fun h0 => hmore.1 (congrArg some h0)
              have := hhi (h - 1) rfl
              simp only [List.length_cons]
              omega
          · simp at hmem
        · split at hmem
          · rename_i hlo
            obtain rfl := List.mem_singleton.mp hmem
            exact ⟨[], rfl, rfl, by simp, by simp [hlo], by simp⟩
          · simp at hmem
      · rintro ⟨word, hword, hbefore, hall, hlo, hhi⟩
        cases word with
        | nil =>
            have hlo : lo = 0 := by simpa using hlo
            rw [if_pos hlo (c := lo = 0), List.mem_singleton]
            obtain ⟨before', after'⟩ := end'
            simp only [List.reverse_nil, List.nil_append] at hbefore hword
            exact Or.inr (by rw [hbefore, hword])
        | cons d word =>
            obtain ⟨rfl, hcs⟩ := List.cons.inj hword
            have hmore : hi ≠ some 0 ∧ p c = true := by
              refine ⟨?_, hall c (by simp)⟩
              rintro rfl
              have := hhi 0 rfl
              simp at this
            rw [if_pos hmore]
            refine Or.inl (ih.mpr ⟨word, hcs, by simp [hbefore], ?_, ?_, ?_⟩)
            · exact fun x hx => hall x (by simp [hx])
            · simp only [List.length_cons] at hlo
              omega
            · intro h hh
              obtain ⟨k, hk, rfl⟩ := Option.map_eq_some_iff.mp hh
              have := hhi k hk
              simp only [List.length_cons] at this
              omega

/-- **The matcher finds what the pattern reads, and nothing else.** -/
theorem mem_ends {r : Regex α} {at' end' : Place α} : end' ∈ r.ends at' ↔
    ∃ word, at'.after = word ++ end'.after ∧ end'.before = word.reverse ++ at'.before ∧
      r.Reads at'.before word end'.after := by
  induction r generalizing at' end' with
  | chars p =>
      obtain ⟨before, after⟩ := at'
      obtain ⟨before', after'⟩ := end'
      cases after with
      | nil =>
          simp only [ends, Reads, List.not_mem_nil, false_iff]
          rintro ⟨word, hword, -, c, -, rfl⟩
          simp at hword
      | cons c cs =>
          simp only [ends, Reads]
          constructor
          · intro hmem
            split at hmem
            · rename_i hc
              obtain ⟨rfl, rfl⟩ := Place.mk.inj (List.mem_singleton.mp hmem)
              exact ⟨[c], rfl, rfl, c, hc, rfl⟩
            · simp at hmem
          · rintro ⟨word, hword, hbefore, d, hd, rfl⟩
            obtain ⟨rfl, rfl⟩ := List.cons.inj hword
            rw [if_pos hd, hbefore]
            exact List.mem_singleton.mpr rfl
  | start =>
      obtain ⟨before, after⟩ := at'
      obtain ⟨before', after'⟩ := end'
      simp only [ends, Reads, List.isEmpty_iff]
      constructor
      · intro hmem
        split at hmem
        · rename_i hnil
          obtain ⟨rfl, rfl⟩ := Place.mk.inj (List.mem_singleton.mp hmem)
          exact ⟨[], rfl, rfl, hnil, rfl⟩
        · simp at hmem
      · rintro ⟨word, hword, hbefore, hnil, rfl⟩
        rw [if_pos hnil, List.mem_singleton]
        exact congrArg₂ Place.mk hbefore hword.symm
  | seq r s ihr ihs =>
      simp only [ends, Reads, List.mem_flatMap, ihr, ihs]
      constructor
      · rintro ⟨mid, ⟨u, hu, hmid, hr⟩, v, hv, hend, hs⟩
        refine ⟨u ++ v, by rw [hu, hv, List.append_assoc], ?_, u, v, rfl, hv ▸ hr, hmid ▸ hs⟩
        rw [hend, hmid, List.reverse_append, List.append_assoc]
      · rintro ⟨word, hword, hend, u, v, rfl, hr, hs⟩
        refine ⟨⟨u.reverse ++ at'.before, v ++ end'.after⟩, ⟨u, ?_, rfl, hr⟩, v, rfl, ?_, hs⟩
        · rw [hword, List.append_assoc]
        · rw [hend, List.reverse_append, List.append_assoc]
  | rep p lo hi => exact mem_repEnds
  | ahead r ih =>
      obtain ⟨before, after⟩ := at'
      obtain ⟨before', after'⟩ := end'
      have hfound : (r.ends ⟨before, after⟩).isEmpty = false ↔
          ∃ u v, after = u ++ v ∧ r.Reads before u v := by
        rw [List.isEmpty_eq_false_iff_exists_mem]
        simp only [ih]
        constructor
        · rintro ⟨mid, u, hu, -, hr⟩
          exact ⟨u, mid.after, hu, hr⟩
        · rintro ⟨u, v, hu, hr⟩
          exact ⟨⟨u.reverse ++ before, v⟩, u, hu, rfl, hr⟩
      simp only [ends, Reads]
      constructor
      · intro hmem
        split at hmem
        · simp at hmem
        · rename_i hne
          obtain ⟨rfl, rfl⟩ := Place.mk.inj (List.mem_singleton.mp hmem)
          exact ⟨[], rfl, rfl, rfl, hfound.mp (by simpa using hne)⟩
      · rintro ⟨word, hword, hbefore, rfl, hahead⟩
        obtain rfl : after = after' := hword
        rw [hfound.mpr hahead, if_neg (by simp), List.mem_singleton]
        exact congrArg (Place.mk · after) hbefore

/-- **A pattern matches a text if it can read all of it.** -/
theorem isMatch_iff {r : Regex α} {text : List α} :
    r.isMatch text = true ↔ r.Reads [] text [] := by
  simp only [isMatch, List.any_eq_true, List.isEmpty_iff, mem_ends]
  constructor
  · rintro ⟨end', ⟨word, hword, -, hreads⟩, hnil⟩
    rw [hnil] at hreads hword
    rwa [hword, List.append_nil]
  · intro hreads
    exact ⟨⟨text.reverse ++ [], []⟩, ⟨text, by simp, rfl, hreads⟩, rfl⟩

/-! ### Parts of a sequence -/

theorem reads_seq_start {s : Regex α} {word rest : List α} :
    (seq start s).Reads [] word rest ↔ s.Reads [] word rest := by
  constructor
  · rintro ⟨u, v, rfl, ⟨-, rfl⟩, hs⟩
    exact hs
  · intro hs
    exact ⟨[], word, rfl, ⟨rfl, rfl⟩, hs⟩

/-- A lookahead reads nothing, so what follows reads it all. -/
theorem reads_seq_ahead {r s : Regex α} {before word rest : List α} :
    (seq (ahead r) s).Reads before word rest ↔
      (∃ u v, word ++ rest = u ++ v ∧ r.Reads before u v) ∧ s.Reads before word rest := by
  constructor
  · rintro ⟨u, v, rfl, ⟨rfl, hahead⟩, hs⟩
    exact ⟨hahead, hs⟩
  · rintro ⟨hahead, hs⟩
    exact ⟨[], word, rfl, ⟨rfl, hahead⟩, hs⟩

/-- Looking for a character of `p` past any number of `q`. -/
theorem reads_search {p q : α → Bool} {text before : List α} (hall : ∀ c ∈ text, q c = true) :
    (∃ u v, text = u ++ v ∧ (seq (rep q 0 none) (chars p)).Reads before u v) ↔
      ∃ c ∈ text, p c = true := by
  constructor
  · rintro ⟨_, v, rfl, u, _, rfl, -, c, hc, rfl⟩
    exact ⟨c, by simp, hc⟩
  · rintro ⟨c, hmem, hc⟩
    obtain ⟨u, v, rfl⟩ := List.append_of_mem hmem
    refine ⟨u ++ [c], v, by simp, u, [c], rfl, ⟨?_, by simp, by simp⟩, c, hc, rfl⟩
    exact fun x hx => hall x (by simp [hx])

end Regex

/-! ### Pieces between separators -/

namespace List

theorem intercalate_concat {sep last : List α} : ∀ {front : List (List α)}, front ≠ [] →
    sep.intercalate (front ++ [last]) = sep.intercalate front ++ (sep ++ last) := by
  intro front
  induction front with
  | nil => simp
  | cons x xs ih =>
      intro _
      cases xs with
      | nil => simp
      | cons y ys =>
          have hrest := ih (by simp)
          rw [cons_append] at hrest
          simp [hrest]

variable [DecidableEq α]

theorem notMem_of_mem_splitOn {a : α} {l : List α} : ∀ {s : List α}, l ∈ s.splitOn a → a ∉ l := by
  intro s
  induction s generalizing l with
  | nil => simp +contextual
  | cons c s ih =>
      rw [splitOn_cons_eq_if_modifyHead]
      intro hl
      split at hl
      · rcases List.mem_cons.mp hl with rfl | hl
        · simp
        · exact ih hl
      · rename_i hc
        have hca : a ≠ c := fun h => hc (by simp [h])
        cases hpieces : s.splitOn a with
        | nil => exact absurd hpieces (splitOn_ne_nil a s)
        | cons x xs =>
            rw [hpieces, modifyHead_cons] at hl
            rcases List.mem_cons.mp hl with rfl | hl
            · have hx : a ∉ x := ih (by simp [hpieces])
              simp [hca, hx]
            · exact ih (by simp [hpieces, hl])

/-- What every character of every piece satisfies is what every character satisfies that is
not a separator. -/
theorem forall_mem_splitOn {a : α} {P : α → Prop} : ∀ {s : List α},
    (∀ l ∈ s.splitOn a, ∀ c ∈ l, P c) ↔ ∀ c ∈ s, c = a ∨ P c := by
  intro s
  induction s with
  | nil => simp
  | cons c s ih =>
      rw [splitOn_cons_eq_if_modifyHead, forall_mem_cons, ← ih]
      by_cases hc : c = a
      · simp [hc]
      · cases hpieces : s.splitOn a with
        | nil => exact absurd hpieces (splitOn_ne_nil a s)
        | cons x xs => simp [hc, and_assoc]

/-- A text of two or more pieces ends in a separator and its last piece. -/
theorem splitOn_eq_concat {a : α} {s last : List α} {front : List (List α)} (hne : front ≠ [])
    (h : s.splitOn a = front ++ [last]) :
    ∃ t, s = t ++ a :: last ∧ t.splitOn a = front ∧ a ∉ last := by
  have hnot : ∀ l ∈ front ++ [last], a ∉ l := fun l hl => notMem_of_mem_splitOn (h ▸ hl)
  refine ⟨[a].intercalate front, ?_, ?_, hnot last (by simp)⟩
  · calc s = [a].intercalate (s.splitOn a) := (intercalate_splitOn a).symm
      _ = [a].intercalate front ++ ([a] ++ last) := by rw [h, intercalate_concat hne]
      _ = [a].intercalate front ++ a :: last := rfl
  · exact splitOn_intercalate a (fun l hl => hnot l (by simp [hl])) hne

theorem splitOn_concat {a : α} {t last : List α} (h : a ∉ last) :
    (t ++ a :: last).splitOn a = t.splitOn a ++ [last] := by
  rw [splitOn_append_cons_self, splitOn_eq_singleton h]

end List

namespace Regex

variable [DecidableEq α]

/-- **What a class with the separator in it reads, followed by a separator and a last piece**:
pieces over the class, of which the last is as it should be, and not one empty piece alone
before it. -/
theorem reads_pieces {sep : α} {p q : α → Bool} {lo : Nat} {hi : Option Nat}
    {before word rest : List α} (hq : q sep = false) :
    (seq (rep (fun c => p c || c == sep) 1 none) (seq (chars (· == sep)) (rep q lo hi))).Reads
        before word rest ↔
      ∃ front last, word.splitOn sep = front ++ [last] ∧ front ≠ [] ∧ front ≠ [[]] ∧
        (∀ l ∈ front, ∀ c ∈ l, p c = true) ∧
        (∀ c ∈ last, q c = true) ∧ lo ≤ last.length ∧ ∀ h ∈ hi, last.length ≤ h := by
  constructor
  · rintro ⟨t, _, rfl, ⟨hall, hlen, -⟩, _, last, rfl, ⟨c, hc, rfl⟩, hlast⟩
    obtain rfl : c = sep := by simpa using hc
    have hnot : c ∉ last := fun hmem => by simpa [hq] using hlast.1 c hmem
    refine ⟨t.splitOn c, last, List.splitOn_concat hnot, List.splitOn_ne_nil c t, ?_, ?_, hlast⟩
    · intro hempty
      have hjoin : [c].intercalate (t.splitOn c) = t := List.intercalate_splitOn c
      rw [hempty, List.intercalate_singleton] at hjoin
      simp [← hjoin] at hlen
    · refine List.forall_mem_splitOn.mpr fun x hx => ?_
      have := hall x hx
      simpa [or_comm] using this
  · rintro ⟨front, last, hword, hne, hempty, hall, hlast⟩
    obtain ⟨t, rfl, rfl, -⟩ := List.splitOn_eq_concat hne hword
    refine ⟨t, sep :: last, rfl, ⟨fun c hc => ?_, ?_, by simp⟩, [sep], last, rfl,
      ⟨sep, by simp, rfl⟩, hlast⟩
    · have := List.forall_mem_splitOn.mp hall c hc
      simpa [or_comm] using this
    · refine List.length_pos_iff.mpr fun ht => ?_
      rw [ht] at hempty
      exact hempty (List.splitOn_nil sep)

end Regex
