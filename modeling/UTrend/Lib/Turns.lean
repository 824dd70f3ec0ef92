/-
Clients that take turns.

The requests that concern one thing are those that `keep` picks out.  A client is busy
while such requests of its own wait, or while it may still send some.  When nobody gets
busy before the others are done, a request is applied to just what its client knew when
it was issued, whatever else is going on: so what it needs can be checked then.

`Ready` checks the requests of one client one after the other, and `TakesTurns` is the
invariant.  `TakesTurns.issue` and `TakesTurns.commit` keep it, and `TakesTurns.head` is
what it is for.
-/
import UTrend.Lib.Net

namespace Net

variable {C R : Type*} {P : List (C × R) → C → R → Prop} {E : List (C × R) → Prop} {c : C}

/-- Applied to this log one after the other, the requests all meet `P`, and leave a log with
`E`. -/
def Ready (P : List (C × R) → C → R → Prop) (E : List (C × R) → Prop) (c : C) :
    List (C × R) → List R → Prop
  | log, [] => E log
  | log, r :: rs => P log c r ∧ Ready P E c (log ++ [(c, r)]) rs

theorem Ready.mono {P' : List (C × R) → C → R → Prop} {E' : List (C × R) → Prop} {rs : List R}
    (hP : ∀ log, ∀ r ∈ rs, P log c r → P' log c r) (hE : ∀ log, E log → E' log) :
    ∀ {log : List (C × R)}, Ready P E c log rs → Ready P' E' c log rs := by
  induction rs with
  | nil => exact fun h => hE _ h
  | cons r rs ih =>
      exact fun h => ⟨hP _ r List.mem_cons_self h.1,
        ih (fun log x hx => hP log x (List.mem_cons_of_mem _ hx)) h.2⟩

/-- What is ready after requests that are ready can be sent behind them. -/
theorem Ready.append {rs ss : List R} : ∀ {log : List (C × R)}, Ready P E c log rs →
    (E (log ++ rs.map fun r => (c, r)) → Ready P E c (log ++ rs.map fun r => (c, r)) ss) →
    Ready P E c log (rs ++ ss) := by
  induction rs with
  | nil =>
      intro log h hss
      rw [List.map_nil, List.append_nil] at hss
      exact hss h
  | cons r rs ih =>
      intro log h hss
      refine ⟨h.1, ih h.2 ?_⟩
      rw [List.append_assoc]
      exact hss

/-- What a client has waiting. -/
def kept (n : Net C R) (keep : R → Bool) (c : C) : List R := (n.queue c).filter keep

/-- What has been applied. -/
def keptLog (n : Net C R) (keep : R → Bool) : List (C × R) := n.log.filter fun x => keep x.2

/-- At most one client is busy, and what it has waiting is ready. -/
structure TakesTurns (n : Net C R) (keep : R → Bool) (P : List (C × R) → C → R → Prop)
    (E : List (C × R) → Prop) (busy : C → Prop) : Prop where
  waiting : ∀ c, n.kept keep c ≠ [] → busy c
  alone : ∀ c d, busy c → busy d → c = d
  ready : ∀ c, (∀ d, d ≠ c → ¬ busy d) → Ready P E c (n.keptLog keep) (n.kept keep c)

namespace TakesTurns

variable {n n' : Net C R} {keep : R → Bool} {busy busy' : C → Prop}

theorem kept_eq_nil (h : n.TakesTurns keep P E busy) (hc : ¬ busy c) : n.kept keep c = [] := by
  by_contra hne
  exact hc (h.waiting c hne)

/-- **The next request of a client meets what it needs.** -/
theorem head (h : n.TakesTurns keep P E busy) {r : R} {rest : List R}
    (hq : n.queue c = r :: rest) (hr : keep r = true) : P (n.keptLog keep) c r := by
  have hkept : n.kept keep c = r :: rest.filter keep := by
    rw [kept, hq, List.filter_cons_of_pos hr]
  have hbusy : busy c := h.waiting c (by simp [hkept])
  have hready := h.ready c fun d hd hb => hd (h.alone d c hb hbusy)
  rw [hkept] at hready
  exact hready.1

/-- **What one client does leaves the others waiting for their turn.**  The client is busy
already, or alone, and what it has waiting stays ready. -/
theorem step (h : n.TakesTurns keep P E busy)
    (hkept : ∀ d, d ≠ c → n'.kept keep d = n.kept keep d)
    (hsame : ∀ d, d ≠ c → (busy' d ↔ busy d)) (hwaiting : n'.kept keep c ≠ [] → busy' c)
    (hfree : busy' c → busy c ∨ ∀ d, ¬ busy d)
    (hlog : ¬ busy c → n'.keptLog keep = n.keptLog keep)
    (hready : Ready P E c (n.keptLog keep) (n.kept keep c) →
      Ready P E c (n'.keptLog keep) (n'.kept keep c)) : n'.TakesTurns keep P E busy' where
  waiting d hd := by
    by_cases hdc : d = c
    · subst hdc
      exact hwaiting hd
    · rw [hkept d hdc] at hd
      exact (hsame d hdc).mpr (h.waiting d hd)
  alone := by
    have hone : ∀ d, d ≠ c → busy' d → ¬ busy' c := by
      intro d hd hb hc
      have hold := (hsame d hd).mp hb
      exact (hfree hc).elim (fun hbusy => hd (h.alone d c hold hbusy)) fun hnone => hnone d hold
    intro d d' hb hb'
    by_cases hdc : d = c
    · subst hdc
      by_contra hne
      exact hone d' (fun he => hne he.symm) hb' hb
    · by_cases hdc' : d' = c
      · subst hdc'
        exact absurd hb' (hone d hdc hb)
      · exact h.alone d d' ((hsame d hdc).mp hb) ((hsame d' hdc').mp hb')
  ready d hothers := by
    by_cases hdc : d = c
    · subst hdc
      exact hready (h.ready d fun d' hd' => (not_congr (hsame d' hd')).mp (hothers d' hd'))
    · rw [hkept d hdc]
      by_cases hc : busy c
      · -- the client has done its last, and nobody else has begun
        have hdone : n'.kept keep c = [] := by
          by_contra hne
          exact hothers c (fun he => hdc he.symm) (hwaiting hne)
        have hlast := hready (h.ready c fun d' hd' hb => hd' (h.alone d' c hb hc))
        rw [hdone] at hlast
        rwa [h.kept_eq_nil fun hb => hdc (h.alone d c hb hc)]
      · rw [hlog hc]
        refine h.ready d fun d' hd' => ?_
        by_cases hdc' : d' = c
        · rwa [hdc']
        · exact (not_congr (hsame d' hdc')).mp (hothers d' hd')

variable [DecidableEq C]

/-- **A client that is busy already, or alone, can send what is ready.** -/
theorem issue (h : n.TakesTurns keep P E busy) {rs : List R}
    (hsame : ∀ d, d ≠ c → (busy' d ↔ busy d))
    (hwaiting : (n.issue c rs).kept keep c ≠ [] → busy' c)
    (hfree : busy' c → busy c ∨ ∀ d, ¬ busy d)
    (hready : E (n.keptLog keep ++ (n.kept keep c).map fun r => (c, r)) →
      Ready P E c (n.keptLog keep ++ (n.kept keep c).map fun r => (c, r)) (rs.filter keep)) :
    (n.issue c rs).TakesTurns keep P E busy' := by
  have hself : (n.issue c rs).kept keep c = n.kept keep c ++ rs.filter keep := by
    rw [kept, issue_queue_self, List.filter_append, kept]
  refine h.step (c := c) (fun d hd => ?_) hsame hwaiting hfree (fun _ => rfl) fun hold => ?_
  · rw [kept, issue_queue_ne n hd, kept]
  · rw [hself]
    exact hold.append hready

/-- **What is ready can be applied.** -/
theorem commit (h : n.TakesTurns keep P E busy) (hcommit : n.commit c = some n')
    (hsame : ∀ d, d ≠ c → (busy' d ↔ busy d)) (hwaiting : n'.kept keep c ≠ [] → busy' c)
    (hfree : busy' c → busy c ∨ ∀ d, ¬ busy d) : n'.TakesTurns keep P E busy' := by
  obtain ⟨r, rest, hq, rfl⟩ := commit_eq_some.mp hcommit
  have hself : kept ⟨n.log ++ [(c, r)], Function.update n.queue c rest⟩ keep c
      = rest.filter keep := by
    show (Function.update n.queue c rest c).filter keep = rest.filter keep
    rw [Function.update_self]
  have hlog : keptLog ⟨n.log ++ [(c, r)], Function.update n.queue c rest⟩ keep
      = n.keptLog keep ++ if keep r then [(c, r)] else [] := by
    rw [keptLog, List.filter_append, keptLog]
    cases hr : keep r <;> simp [hr]
  have hkept : n.kept keep c = if keep r then r :: rest.filter keep else rest.filter keep := by
    rw [kept, hq]
    cases hr : keep r <;> simp [hr]
  refine h.step (c := c) (fun d hd => ?_) hsame hwaiting hfree (fun hidle => ?_) fun hold => ?_
  · show (Function.update n.queue c rest d).filter keep = n.kept keep d
    rw [Function.update_of_ne hd, kept]
  · have hnil := h.kept_eq_nil hidle
    rw [hkept] at hnil
    cases hr : keep r with
    | true => simp [hr] at hnil
    | false => simp [hlog, hr]
  · rw [hkept] at hold
    rw [hself, hlog]
    cases hr : keep r with
    | true =>
        simp only [hr, if_true] at hold ⊢
        exact hold.2
    | false =>
        simp only [hr, Bool.false_eq_true, if_false, List.append_nil] at hold ⊢
        exact hold

end TakesTurns

end Net
