/-
Clients that send requests to one server, each over its own ordered line.

A client's requests wait in its queue, and the server takes them one at a time
from the front of some queue, in any order between clients.  What it has taken is
its log.  Two readings of a net are used everywhere:

* `history c` is everything client `c` ever issued, in order: what the server has
  taken from it and then what still waits.  Issuing appends to it, and a commit
  does not change it.
* `seen c` is what client `c` knows of: the whole log and then its own queue.  A
  client that applies its own waiting requests to the server's state reads this.

`Ordered p q` says that nobody sees a `q` request without a `p` request before it.
Queues being first-in-first-out is what makes a commit preserve it.  `Once p` says
that a `p` request is sent once, so the log cannot have it before it is taken.  The
last part compares logs client by client: sums add up, and a log is determined by
the order in which clients got their turn and by each client's own history.
-/
import Mathlib.Data.Fintype.Basic
import Mathlib.Data.List.Perm.Basic
import Mathlib.Algebra.BigOperators.Group.List.Basic
import Mathlib.Algebra.Ring.Int.Defs

variable {C R T : Type*}

/-- What the server has taken, with the client it came from, and what still waits. -/
structure Net (C R : Type*) where
  log : List (C × R)
  queue : C → List R

/-! ### One kind of request comes before another -/

/-- In the list, nothing that satisfies `q` stands before all that satisfy `p`. -/
def Precedes (p q : R → Prop) : List R → Prop
  | [] => True
  | r :: l => ¬ q r ∧ (p r ∨ Precedes p q l)

theorem precedes_append {p q : R → Prop} {l m : List R} :
    Precedes p q (l ++ m) ↔ Precedes p q l ∧ ((∃ x ∈ l, p x) ∨ Precedes p q m) := by
  induction l with
  | nil => simp [Precedes]
  | cons r l ih =>
      simp only [List.cons_append, Precedes, ih, List.exists_mem_cons_iff]
      by_cases hp : p r <;> simp [hp, and_assoc]

theorem Precedes.exists_mem {p q : R → Prop} {l : List R} (h : Precedes p q l) {r : R}
    (hr : r ∈ l) (hq : q r) : ∃ x ∈ l, p x := by
  induction l with
  | nil => simp at hr
  | cons y l ih =>
      rcases List.mem_cons.mp hr with rfl | hr'
      · exact absurd hq h.1
      · rcases h.2 with hp | hl
        · exact ⟨y, by simp, hp⟩
        · obtain ⟨x, hx, hpx⟩ := ih hl hr'
          exact ⟨x, by simp [hx], hpx⟩

/-- The one that stands right after `l` has its predecessor in `l`. -/
theorem Precedes.exists_before {p q : R → Prop} {l m : List R} {r : R}
    (h : Precedes p q (l ++ r :: m)) (hq : q r) : ∃ x ∈ l, p x :=
  (precedes_append.mp h).2.resolve_right fun hm => hm.1 hq

theorem Precedes.insert {p q : R → Prop} {l m : List R} (h : Precedes p q (l ++ m)) {r : R}
    (hr : q r → ∃ x ∈ l, p x) : Precedes p q (l ++ r :: m) := by
  obtain ⟨hl, hm⟩ := precedes_append.mp h
  refine precedes_append.mpr ⟨hl, ?_⟩
  by_cases hp : ∃ x ∈ l, p x
  · exact Or.inl hp
  · exact Or.inr ⟨fun hq => hp (hr hq), Or.inr (hm.resolve_left hp)⟩

theorem precedes_of_forall_not {p q : R → Prop} {l : List R} (h : ∀ r ∈ l, ¬ q r) :
    Precedes p q l := by
  induction l with
  | nil => trivial
  | cons r l ih => exact ⟨h r (by simp), Or.inr (ih fun x hx => h x (by simp [hx]))⟩

namespace Net

/-- Nothing taken and nothing waiting. -/
def empty : Net C R := ⟨[], fun _ => []⟩

/-- The requests the server has taken, in order. -/
def committed (n : Net C R) : List R := n.log.map Prod.snd

/-- What a client knows of: the server's log and then its own queue. -/
def seen (n : Net C R) (c : C) : List R := n.committed ++ n.queue c

/-- No request waits. -/
def Quiet (n : Net C R) : Prop := ∀ c, n.queue c = []

instance [Fintype C] (n : Net C R) : Decidable n.Quiet :=
  inferInstanceAs (Decidable (∀ c, n.queue c = []))

theorem Quiet.seen_eq {n : Net C R} (h : n.Quiet) (c : C) : n.seen c = n.committed := by
  rw [seen, h c, List.append_nil]

@[simp] theorem queue_empty (c : C) : (empty : Net C R).queue c = [] := rfl
@[simp] theorem committed_empty : (empty : Net C R).committed = [] := rfl
@[simp] theorem seen_empty (c : C) : (empty : Net C R).seen c = [] := rfl

/-- A request was issued: it is in the log or waits somewhere. -/
def Issued (n : Net C R) (r : R) : Prop := ∃ c, r ∈ n.seen c

instance [Fintype C] [DecidableEq R] (n : Net C R) (r : R) : Decidable (n.Issued r) :=
  inferInstanceAs (Decidable (∃ c, r ∈ n.seen c))

theorem Issued.committed_of_quiet {n : Net C R} {r : R} (h : n.Issued r) (hq : n.Quiet) :
    r ∈ n.committed := by
  obtain ⟨c, hr⟩ := h
  rwa [hq.seen_eq] at hr

/-! ### Requests that come after others -/

/-- Nobody sees a `q` request without a `p` request before it. -/
def Ordered (n : Net C R) (p q : R → Prop) : Prop := ∀ c, Precedes p q (n.seen c)

theorem ordered_empty (p q : R → Prop) : (empty : Net C R).Ordered p q := fun _ => trivial

/-- When the front of a queue satisfies `q`, the log already has a `p`. -/
theorem Ordered.head {p q : R → Prop} {n : Net C R} (h : n.Ordered p q) {c : C} {r : R}
    {rest : List R} (hq : n.queue c = r :: rest) (hqr : q r) : ∃ x ∈ n.committed, p x := by
  have := h c
  rw [seen, hq] at this
  exact this.exists_before hqr

theorem Ordered.committed {p q : R → Prop} {n : Net C R} (h : n.Ordered p q) {r : R}
    (hr : r ∈ n.committed) (hqr : q r) : ∃ x ∈ n.committed, p x := by
  obtain ⟨⟨c, _⟩, _, _⟩ := List.mem_map.mp hr
  exact (precedes_append.mp (h c)).1.exists_mem hr hqr

/-! ### Issuing and committing -/

variable [DecidableEq C]

/-- A client sends requests. -/
def issue (n : Net C R) (c : C) (rs : List R) : Net C R :=
  { n with queue := Function.update n.queue c (n.queue c ++ rs) }

/-- The server takes the front of a client's queue. -/
def commit (n : Net C R) (c : C) : Option (Net C R) :=
  match n.queue c with
  | [] => none
  | r :: rest => some ⟨n.log ++ [(c, r)], Function.update n.queue c rest⟩

theorem commit_eq_some {n n' : Net C R} {c : C} : n.commit c = some n' ↔
    ∃ r rest, n.queue c = r :: rest ∧
      n' = ⟨n.log ++ [(c, r)], Function.update n.queue c rest⟩ := by
  unfold commit
  split
  · rename_i h
    simp [h]
  · rename_i r rest h
    simp only [h, Option.some.injEq, List.cons.injEq]
    constructor
    · rintro rfl
      exact ⟨r, rest, ⟨rfl, rfl⟩, rfl⟩
    · rintro ⟨_, _, ⟨rfl, rfl⟩, rfl⟩
      rfl

@[simp] theorem issue_log (n : Net C R) (c : C) (rs : List R) : (n.issue c rs).log = n.log := rfl

@[simp] theorem issue_nil (n : Net C R) (c : C) : n.issue c [] = n := by simp [issue]

@[simp] theorem issue_committed (n : Net C R) (c : C) (rs : List R) :
    (n.issue c rs).committed = n.committed := rfl

theorem issue_queue_self (n : Net C R) (c : C) (rs : List R) :
    (n.issue c rs).queue c = n.queue c ++ rs := Function.update_self ..

theorem issue_queue_ne (n : Net C R) {c d : C} (h : d ≠ c) (rs : List R) :
    (n.issue c rs).queue d = n.queue d := Function.update_of_ne h ..

theorem issue_seen_self (n : Net C R) (c : C) (rs : List R) :
    (n.issue c rs).seen c = n.seen c ++ rs := by
  simp only [seen, issue_committed, issue_queue_self, List.append_assoc]

theorem issue_seen_ne (n : Net C R) {c d : C} (h : d ≠ c) (rs : List R) :
    (n.issue c rs).seen d = n.seen d := by
  simp only [seen, issue_committed, issue_queue_ne n h]

/-- What a request that is somewhere was: one of the new ones, or there before. -/
theorem mem_issue_queue {n : Net C R} {c d : C} {rs : List R} {r : R}
    (h : r ∈ (n.issue c rs).queue d) : r ∈ n.queue d ∨ (d = c ∧ r ∈ rs) := by
  by_cases hd : d = c
  · subst hd
    rw [issue_queue_self] at h
    exact (List.mem_append.mp h).imp id fun hr => ⟨rfl, hr⟩
  · rw [issue_queue_ne n hd] at h
    exact Or.inl h

theorem mem_seen_issue {n : Net C R} {d : C} {r : R} (h : r ∈ n.seen d) (c : C)
    (rs : List R) : r ∈ (n.issue c rs).seen d := by
  by_cases hd : d = c
  · subst hd
    rw [issue_seen_self]
    exact List.mem_append_left _ h
  · rwa [issue_seen_ne n hd]

/-! ### A commit -/

theorem commit_seen_self {n n' : Net C R} {c : C} (h : n.commit c = some n') :
    n'.seen c = n.seen c := by
  obtain ⟨r, rest, hq, rfl⟩ := commit_eq_some.mp h
  simp [seen, committed, hq]

theorem mem_commit_queue {n n' : Net C R} {c d : C} {r : R} (h : n.commit c = some n')
    (hr : r ∈ n'.queue d) : r ∈ n.queue d := by
  obtain ⟨x, rest, hq, rfl⟩ := commit_eq_some.mp h
  by_cases hd : d = c
  · subst hd
    simp only [Function.update_self] at hr
    rw [hq]
    exact List.mem_cons_of_mem _ hr
  · simpa only [Function.update_of_ne hd] using hr

theorem mem_seen_commit {n n' : Net C R} {c d : C} {r : R} (h : n.commit c = some n')
    (hr : r ∈ n.seen d) : r ∈ n'.seen d := by
  by_cases hd : d = c
  · subst hd
    rwa [commit_seen_self h]
  · obtain ⟨x, rest, hq, rfl⟩ := commit_eq_some.mp h
    simp only [seen, committed, List.map_append, List.mem_append,
      Function.update_of_ne hd] at hr ⊢
    exact hr.imp Or.inl id

/-! ### Keeping the order -/

theorem Ordered.issue {p q : R → Prop} {n : Net C R} (h : n.Ordered p q) {c : C} {rs : List R}
    (hrs : (∃ x ∈ n.seen c, p x) ∨ Precedes p q rs) : (n.issue c rs).Ordered p q := by
  intro d
  by_cases hd : d = c
  · subst hd
    rw [issue_seen_self]
    exact precedes_append.mpr ⟨h d, hrs⟩
  · rw [issue_seen_ne n hd]
    exact h d

/-- **A commit keeps the order, since a queue gives up its front first.** -/
theorem Ordered.commit {p q : R → Prop} {n n' : Net C R} (h : n.Ordered p q) {c : C}
    (hc : n.commit c = some n') : n'.Ordered p q := by
  intro d
  by_cases hd : d = c
  · subst hd
    rw [commit_seen_self hc]
    exact h d
  · obtain ⟨r, rest, hq, rfl⟩ := commit_eq_some.mp hc
    have hown : Precedes p q (n.committed ++ r :: rest) := by
      have := h c
      rwa [seen, hq] at this
    have := (h d).insert fun hqr => hown.exists_before hqr
    simpa [seen, Net.committed, Function.update_of_ne hd] using this

/-! ### What one client issued -/

/-- What the server has taken from a client. -/
def committedBy (n : Net C R) (c : C) : List R := (n.log.filter fun x => x.1 = c).map Prod.snd

/-- Everything a client ever issued, in order. -/
def history (n : Net C R) (c : C) : List R := n.committedBy c ++ n.queue c

@[simp] theorem history_empty (c : C) : (empty : Net C R).history c = [] := rfl

theorem history_issue (n : Net C R) (c d : C) (rs : List R) :
    (n.issue c rs).history d = n.history d ++ if d = c then rs else [] := by
  by_cases hd : d = c
  · subst hd
    simp [history, committedBy, issue_queue_self]
  · simp [history, committedBy, issue_queue_ne n hd, hd]

/-- **A commit changes nobody's history.** -/
theorem history_commit {n n' : Net C R} {c : C} (h : n.commit c = some n') (d : C) :
    n'.history d = n.history d := by
  obtain ⟨r, rest, hq, rfl⟩ := commit_eq_some.mp h
  by_cases hd : d = c
  · subst hd
    simp [history, committedBy, hq]
  · have hcd : ¬ c = d := fun hc => hd hc.symm
    simp [history, committedBy, Function.update_of_ne hd, hcd]

theorem Quiet.history_eq {n : Net C R} (h : n.Quiet) (c : C) :
    n.history c = n.committedBy c := by
  rw [history, h c, List.append_nil]

theorem mem_committed_of_history {n : Net C R} {c : C} {r : R} (h : r ∈ n.history c) :
    r ∈ n.committed ∨ r ∈ n.queue c := by
  refine (List.mem_append.mp h).imp (fun hr => ?_) id
  obtain ⟨x, hx, rfl⟩ := List.mem_map.mp hr
  exact List.mem_map_of_mem (List.mem_of_mem_filter hx)

theorem Quiet.mem_committed {n : Net C R} (hq : n.Quiet) {c : C} {r : R}
    (h : r ∈ n.history c) : r ∈ n.committed :=
  (mem_committed_of_history h).resolve_right (by simp [hq c])

theorem exists_history_of_committed {n : Net C R} {r : R} (h : r ∈ n.committed) :
    ∃ c, r ∈ n.history c := by
  obtain ⟨⟨c, r⟩, hx, rfl⟩ := List.mem_map.mp h
  refine ⟨c, List.mem_append_left _ ?_⟩
  exact List.mem_map.mpr ⟨(c, r), List.mem_filter.mpr ⟨hx, by simp⟩, rfl⟩

theorem mem_history_of_queue {n : Net C R} {c : C} {r : R} (h : r ∈ n.queue c) :
    r ∈ n.history c := List.mem_append_right _ h

/-! ### Requests that are sent once -/

/-- At most one request in all satisfies `p`: one client sends it, and sends it once. -/
structure Once (n : Net C R) (p : R → Bool) : Prop where
  count : ∀ c, (n.history c).countP p ≤ 1
  client : ∀ c d, (∃ x ∈ n.history c, p x) → (∃ x ∈ n.history d, p x) → c = d

/-- **When it stands at the front of a queue, the log does not have it yet.** -/
theorem Once.head {p : R → Bool} {n : Net C R} (h : n.Once p) {c : C} {r : R} {rest : List R}
    (hq : n.queue c = r :: rest) (hr : p r = true) {x : R} (hx : x ∈ n.committed) :
    p x = false := by
  by_contra hpx
  rw [Bool.not_eq_false] at hpx
  obtain ⟨⟨d, x⟩, hlog, rfl⟩ := List.mem_map.mp hx
  have hby : x ∈ n.committedBy d :=
    List.mem_map.mpr ⟨(d, x), List.mem_filter.mpr ⟨hlog, by simp⟩, rfl⟩
  obtain rfl : c = d := by
    refine h.client c d ⟨r, mem_history_of_queue (by simp [hq]), hr⟩ ⟨x, ?_, hpx⟩
    exact List.mem_append_left _ hby
  have hcount := h.count c
  have hlogged : 0 < (n.committedBy c).countP p := List.countP_pos_iff.mpr ⟨x, hby, hpx⟩
  rw [history, hq, List.countP_append, List.countP_cons_of_pos hr] at hcount
  omega

/-- **A request that nobody has sent can be sent.** -/
theorem Once.issue {p : R → Bool} {n : Net C R} (h : n.Once p) {c : C} {rs : List R}
    (hrs : rs.countP p ≤ 1)
    (hfresh : (∃ x ∈ rs, p x) → ∀ d, ∀ x ∈ n.history d, p x = false) : (n.issue c rs).Once p where
  count d := by
    rw [history_issue, List.countP_append]
    have hold := h.count d
    by_cases hd : d = c
    · rw [if_pos hd]
      by_cases hx : ∃ x ∈ rs, p x
      · have hzero : (n.history d).countP p = 0 :=
          List.countP_eq_zero.mpr fun x hmem => by simp [hfresh hx d x hmem]
        omega
      · have hzero : rs.countP p = 0 :=
          List.countP_eq_zero.mpr fun x hmem hpx => hx ⟨x, hmem, hpx⟩
        omega
    · rw [if_neg hd, List.countP_nil]
      omega
  client d e hd he := by
    -- where one of them is new, there is no other
    have hcases : ∀ d, (∃ x ∈ (n.issue c rs).history d, p x) →
        (∃ x ∈ n.history d, p x) ∨ d = c ∧ ∃ x ∈ rs, p x := by
      rintro d ⟨x, hx, hpx⟩
      rw [history_issue] at hx
      rcases List.mem_append.mp hx with hx | hx
      · exact Or.inl ⟨x, hx, hpx⟩
      · by_cases hd : d = c
        · rw [if_pos hd] at hx
          exact Or.inr ⟨hd, x, hx, hpx⟩
        · simp [hd] at hx
    rcases hcases d hd with hold | ⟨rfl, hnew⟩
    · rcases hcases e he with hold' | ⟨rfl, hnew⟩
      · exact h.client d e hold hold'
      · obtain ⟨x, hx, hpx⟩ := hold
        simp [hfresh hnew d x hx] at hpx
    · rcases hcases e he with ⟨x, hx, hpx⟩ | ⟨rfl, -⟩
      · simp [hfresh hnew e x hx] at hpx
      · rfl

theorem Once.commit {p : R → Bool} {n n' : Net C R} (h : n.Once p) {c : C}
    (hc : n.commit c = some n') : n'.Once p where
  count d := by
    rw [history_commit hc]
    exact h.count d
  client d e hd he := by
    rw [history_commit hc] at hd he
    exact h.client d e hd he

/-! ### Comparing logs client by client -/

omit [DecidableEq C] in
theorem sum_filter_add_sum_filter_not (f : C × R → ℤ) (p : C × R → Bool) (l : List (C × R)) :
    ((l.filter p).map f).sum + ((l.filter fun x => !p x).map f).sum = (l.map f).sum := by
  induction l with
  | nil => rfl
  | cons x l ih =>
      by_cases hp : p x = true
      · simp only [hp, List.filter_cons_of_pos, List.map_cons, List.sum_cons, Bool.not_true,
          Bool.false_eq_true, not_false_eq_true, List.filter_cons_of_neg]
        omega
      · simp only [Bool.not_eq_true] at hp
        simp only [hp, Bool.false_eq_true, not_false_eq_true, List.filter_cons_of_neg,
          Bool.not_false, List.filter_cons_of_pos, List.map_cons, List.sum_cons]
        omega

/-- Without one client's requests, every client's still sum to zero. -/
theorem each_of_others {f : C × R → ℤ} {l : List (C × R)}
    (h : ∀ c, ((l.filter fun x => x.1 = c).map f).sum = 0) (c d : C) :
    (((l.filter fun x => !decide (x.1 = c)).filter fun x => x.1 = d).map f).sum = 0 := by
  rw [List.filter_filter]
  by_cases hd : d = c
  · have hnil : l.filter (fun x => decide (x.1 = d) && !decide (x.1 = c)) = [] := by
      simp [hd]
    rw [hnil]
    rfl
  · rw [← h d]
    congr 2
    refine List.filter_congr fun x _ => ?_
    by_cases hx : x.1 = d <;> simp [hx, hd]

/-- **What sums to zero for every client sums to zero over the log.**  The induction takes
away one client's requests at a time. -/
theorem sum_eq_zero_of_each (f : C × R → ℤ) : ∀ l : List (C × R),
    (∀ c, ((l.filter fun x => x.1 = c).map f).sum = 0) → (l.map f).sum = 0
  | [], _ => rfl
  | x :: rest, h => by
      have hothers : (((x :: rest).filter fun y => !decide (y.1 = x.1)).map f).sum = 0 :=
        sum_eq_zero_of_each f _ (each_of_others h x.1)
      have hsplit := sum_filter_add_sum_filter_not f (fun y => y.1 = x.1) (x :: rest)
      rw [← hsplit, h x.1, hothers, add_zero]
termination_by l => l.length
decreasing_by
  simp only [decide_true, Bool.not_true, Bool.false_eq_true, not_false_eq_true,
    List.filter_cons_of_neg, List.length_cons]
  exact Nat.lt_succ_of_le (List.length_filter_le ..)

/-- **A log is determined by whose turn it was and by what each client sent.** -/
theorem eq_of_turns {l m : List (C × T)} (hturn : l.map Prod.fst = m.map Prod.fst)
    (heach : ∀ c, (l.filter fun x => x.1 = c).map Prod.snd
      = (m.filter fun x => x.1 = c).map Prod.snd) : l = m := by
  induction l generalizing m with
  | nil => exact (List.map_eq_nil_iff.mp hturn.symm).symm
  | cons x l ih =>
      cases m with
      | nil => simp at hturn
      | cons y m =>
          obtain ⟨c, t⟩ := x
          obtain ⟨d, u⟩ := y
          simp only [List.map_cons, List.cons.injEq] at hturn
          obtain ⟨rfl, hrest⟩ := hturn
          have htu : t = u := by simpa using congrArg List.head? (heach c)
          subst htu
          refine congrArg _ (ih hrest fun d => ?_)
          have := heach d
          by_cases hd : c = d
          · simpa [hd] using this
          · simpa [hd] using this

/-- When whose turn it was in one log starts the other's, and every client sent the same,
the two logs are equal. -/
theorem eq_of_turns_prefix {l m : List (C × T)}
    (hturn : l.map Prod.fst <+: m.map Prod.fst)
    (heach : ∀ c, (l.filter fun x => x.1 = c).map Prod.snd
      = (m.filter fun x => x.1 = c).map Prod.snd) : l = m := by
  refine eq_of_turns (hturn.eq_of_length ?_) heach
  have hperm : (l.map Prod.fst).Perm (m.map Prod.fst) := by
    rw [List.perm_iff_count]
    intro c
    have hcount : ∀ k : List (C × T), (k.map Prod.fst).count c
        = ((k.filter fun x => x.1 = c).map Prod.snd).length := by
      intro k
      rw [List.length_map, List.count, List.countP_map, List.countP_eq_length_filter]
      congr 1
    rw [hcount, hcount, heach c]
  exact hperm.length_eq

end Net
