/-
The system comes to rest.

When the phones are left alone, the environment has only so much to do: a waiting write
is applied once, an upload ends once, and a read is answered and then delivered.  Two
things start new work.  The deletion of a post fetches the feed again, and the answer
about an author issues the public copy.  The load of a phone counts both in advance, so
every step of the environment uses some of it up.

What is left when it can do no more is nothing, but for answers whose callbacks trap.
-/
import Mathlib.Algebra.GroupWithZero.Nat
import Mathlib.Algebra.Order.BigOperators.Group.Finset
import UTrend.Proofs.Profiles

namespace UTrend

open World

variable {C : Type} {me : C → String} {s s' : World C}

/-- What the environment does, and not someone at a phone. -/
def Event.environment : Event C → Bool
  | .act _ _ => false
  | .answer _ _ _ | .arrive _ _ | .upload _ _ _ | .commit _ => true

/-- The work a waiting write makes: it is applied, and the deletion of a post is followed by
a fetch. -/
def Request.load : Request → Nat
  | .deletePost _ _ => 3
  | _ => 1

/-- The work that delivering a read makes: the author's answer is followed by a write. -/
def Ask.load : Ask → Nat
  | .author _ _ => 2
  | _ => 1

/-- The work a read makes: it has to be answered, if it is not, and delivered. -/
def Read.load (r : Read) : Nat := r.ask.load + if r.answer.isNone then 1 else 0

/-- The work that a phone leaves to the environment. -/
def World.load (s : World C) (c : C) : Nat :=
  ((s.net.queue c).map Request.load).sum + ((s.phone c).reads.map Read.load).sum
    + (s.phone c).uploads.length

/-- The work that all of them leave. -/
def World.outstanding [Fintype C] (s : World C) : Nat := ∑ c, s.load c

/-- Nothing waits but answers that will trap. -/
def World.AtRest (me : C → String) (s : World C) : Prop :=
  s.net.Quiet ∧ ∀ c, (s.phone c).uploads = [] ∧
    ∀ r ∈ (s.phone c).reads, r.traps (me c) (s.phone c) = true

/-! ### The load of a list of reads -/

theorem sum_eraseIdx {α : Type} {f : α → Nat} {l : List α} {k : Nat} {x : α}
    (h : l[k]? = some x) : ((l.eraseIdx k).map f).sum + f x = (l.map f).sum := by
  obtain ⟨hk, rfl⟩ := List.getElem?_eq_some_iff.mp h
  have hperm := ((List.getElem_cons_eraseIdx_perm hk).map f).sum_nat
  rw [List.map_cons, List.sum_cons] at hperm
  omega

theorem sum_set {α : Type} {f : α → Nat} {l : List α} {k : Nat} {x y : α}
    (h : l[k]? = some x) : ((l.set k y).map f).sum + f x = (l.map f).sum + f y := by
  obtain ⟨hk, -⟩ := List.getElem?_eq_some_iff.mp h
  have hset := sum_eraseIdx (f := f) (l := l.set k y) (k := k) (x := y)
    (by rw [List.getElem?_set_self hk])
  have hold := sum_eraseIdx (f := f) h
  rw [List.eraseIdx_set_eq] at hset
  omega

theorem reads_ask (p : Phone) (a : Ask) :
    ((p.ask a).reads.map Read.load).sum = (p.reads.map Read.load).sum + a.load + 1 := by
  simp [Phone.ask, Read.load, Nat.add_assoc]

/-- A callback asks nothing, and writes less than the load of the question it answers. -/
theorem callback_load {m : String} {p p' : Phone} {a : Ask} {answer : Answer}
    {rs : List Request} (h : p.callback m a answer = some (p', rs)) :
    p'.reads = p.reads ∧ p'.uploads = p.uploads ∧ (rs.map Request.load).sum < a.load := by
  have hpos : 0 < a.load := by cases a <;> simp [Ask.load]
  rcases Phone.callback_eq_some h with ⟨snap, rfl, rfl, rfl, rfl⟩ |
    ⟨snap, rfl, rfl, rfl, rfl⟩ | ⟨view, id, liked, rfl, rfl, rfl⟩ |
    ⟨id, form, doc, profImg, username, rfl, rfl, rfl, rfl⟩ | ⟨rfl, rfl, -⟩
  · exact ⟨rfl, rfl, hpos⟩
  · exact ⟨rfl, rfl, hpos⟩
  · exact ⟨rfl, rfl, hpos⟩
  · refine ⟨rfl, rfl, ?_⟩
    simp [Request.load, Ask.load]
  · exact ⟨rfl, rfl, hpos⟩

variable [DecidableEq C]

/-! ### One step -/

/-- **What the environment does uses up some of the load of one phone**, and leaves the
others'. -/
theorem load_step {e : Event C} (he : e.environment = true) (h : step me s e = some s') :
    s'.load e.client < s.load e.client ∧ ∀ d, d ≠ e.client → s'.load d = s.load d := by
  have hothers : (∀ d, d ≠ e.client → s'.net.queue d = s.net.queue d) →
      ∀ d, d ≠ e.client → s'.load d = s.load d := by
    intro hqueue d hd
    rw [World.load, World.load, hqueue d hd, step_phone h hd]
  cases e with
  | act c a => simp [Event.environment] at he
  | answer c k ok =>
      obtain ⟨a, hread, rfl⟩ := step_answer h
      refine ⟨?_, hothers fun d _ => rfl⟩
      have hset := sum_set (f := Read.load)
        (y := ⟨a, some (if ok then a.answerOf (me c) (s.view c) else .error)⟩) hread
      simp only [Read.load, Option.isNone_some, Option.isNone_none, Bool.false_eq_true, if_false,
        if_true] at hset
      simp only [World.load, Event.client, setPhone_self, setPhone_net]
      omega
  | arrive c k =>
      obtain ⟨a, answer, p, rs, hread, hcall, hs'⟩ := step_arrive h
      have hphone : s'.phone c = p := by
        rw [hs']
        exact setPhone_self ..
      have hnet : s'.net = s.net.issue c rs := by rw [hs']
      obtain ⟨hreads, huploads, hload⟩ := callback_load hcall
      have hqueue : ∀ d, d ≠ c → s'.net.queue d = s.net.queue d := by
        intro d hd
        rw [hnet, Net.issue_queue_ne s.net hd]
      refine ⟨?_, hothers hqueue⟩
      have herase := sum_eraseIdx (f := Read.load) hread
      simp only [Read.load, Option.isNone_some, Bool.false_eq_true, if_false] at herase
      simp only [World.load, Event.client, hphone, hnet, hreads, huploads,
        Net.issue_queue_self, List.map_append, List.sum_append]
      omega
  | upload c k ok =>
      obtain ⟨ref, href, hs'⟩ := step_upload h
      have hphone : s'.phone c
          = { s.phone c with uploads := (s.phone c).uploads.eraseIdx k } := by
        rw [hs']
        exact setPhone_self ..
      have hnet : s'.net = s.net := by rw [hs']; rfl
      refine ⟨?_, hothers fun d _ => by rw [hnet]⟩
      have hlt := (List.getElem?_eq_some_iff.mp href).1
      simp only [World.load, Event.client, hphone, hnet, List.length_eraseIdx_of_lt hlt]
      omega
  | commit c =>
      obtain ⟨r, rest, net, hq, hnet, hs'⟩ := step_commit h
      have hphone : s'.phone c = completed (s.phone c) r := by
        rw [hs']
        exact setPhone_self ..
      obtain ⟨_, _, hq', rfl⟩ := Net.commit_eq_some.mp hnet
      obtain ⟨rfl, rfl⟩ := List.cons.inj (hq.symm.trans hq')
      have hqueue : s'.net.queue = Function.update s.net.queue c rest := by rw [hs']
      have hsame : ∀ d, d ≠ c → s'.net.queue d = s.net.queue d := by
        intro d hd
        rw [hqueue, Function.update_of_ne hd]
      refine ⟨?_, hothers hsame⟩
      simp only [World.load, Event.client, hphone, hqueue, Function.update_self, hq,
        List.map_cons, List.sum_cons]
      cases r with
      | deletePost uid id =>
          have hreads : ((completed (s.phone c) (.deletePost uid id)).reads.map Read.load).sum
              = ((s.phone c).reads.map Read.load).sum + 1 + 1 := reads_ask _ _
          have huploads : (completed (s.phone c) (.deletePost uid id)).uploads
              = (s.phone c).uploads := rfl
          rw [hreads, huploads, Request.load]
          omega
      | _ => simp only [completed, Request.load]; omega

/-- **What the environment does uses up some of what is outstanding.** -/
theorem outstanding_step [Fintype C] {e : Event C} (he : e.environment = true)
    (h : step me s e = some s') : s'.outstanding < s.outstanding := by
  obtain ⟨hless, hsame⟩ := load_step he h
  refine Finset.sum_lt_sum (fun d _ => ?_) ⟨e.client, Finset.mem_univ _, hless⟩
  by_cases hd : d = e.client
  · exact hd ▸ hless.le
  · exact (hsame d hd).le

/-! ### The end -/

omit [DecidableEq C] in
/-- Whether a callback traps depends on the answer alone. -/
theorem traps_iff {m : String} {p : Phone} {a : Ask} {answer : Answer} (q : Phone) :
    Read.traps m p ⟨a, some answer⟩ = true ↔ q.callback m a answer = none := by
  rw [← Option.isNone_iff_eq_none]
  cases a <;> cases answer <;> simp [Read.traps, Phone.callback]

/-- **The environment can do nothing if and only if the system is at rest.** -/
theorem exhausted_iff : (∀ e : Event C, e.environment = true → step me s e = none) ↔
    s.AtRest me := by
  constructor
  · intro hnone
    refine ⟨fun c => ?_, fun c => ⟨?_, fun r hr => ?_⟩⟩
    · have hcommit := hnone (.commit c) rfl
      cases hq : s.net.queue c with
      | nil => rfl
      | cons r rest => simp [step, hq, Net.commit] at hcommit
    · have hupload := hnone (.upload c 0 true) rfl
      cases hu : (s.phone c).uploads with
      | nil => rfl
      | cons ref rest => simp [step, hu] at hupload
    · obtain ⟨k, hk⟩ := List.getElem?_of_mem hr
      obtain ⟨a, answer⟩ := r
      cases answer with
      | none =>
          have hanswer := hnone (.answer c k true) rfl
          simp [step, hk] at hanswer
      | some answer =>
          have harrive := hnone (.arrive c k) rfl
          simp only [step, hk, Option.map_eq_none_iff] at harrive
          exact (traps_iff _).mpr harrive
  · rintro ⟨hquiet, hrest⟩ e he
    cases e with
    | act c a => simp [Event.environment] at he
    | answer c k ok =>
        simp only [step]
        split
        · rename_i a hk
          have := (hrest c).2 _ (List.mem_of_getElem? hk)
          simp [Read.traps] at this
        · rfl
    | arrive c k =>
        simp only [step]
        split
        · rename_i a answer hk
          have htrap := (hrest c).2 _ (List.mem_of_getElem? hk)
          rw [(traps_iff _).mp htrap]
          rfl
        · rfl
    | upload c k ok => simp [step, (hrest c).1]
    | commit c => simp [step, hquiet c]

/-- The environment can go on until the system is at rest. -/
theorem exists_atRest [Fintype C] (me : C → String) (s : World C) :
    ∃ (es : List (Event C)) (s' : World C), (∀ e ∈ es, e.environment = true) ∧
      Machine.run (step me) s es = some s' ∧ s'.AtRest me := by
  have hstep : ∀ (s : World C) (e : Event C) (s' : World C), e.environment = true →
      step me s e = some s' → s'.outstanding < s.outstanding := fun _ _ _ he h =>
    outstanding_step he h
  obtain ⟨es, s', hes, hrun, hend⟩ := Machine.exists_exhausted hstep s
  exact ⟨es, s', hes, hrun, exhausted_iff.mp hend⟩

omit [DecidableEq C] in
/-- Where no callback traps, nothing is pending at rest. -/
theorem idle_of_atRest (hrest : s.AtRest me)
    (hintact : ∀ c, ∀ r ∈ (s.phone c).reads, r.traps (me c) (s.phone c) = false) : s.Idle := by
  refine ⟨hrest.1, fun c => ⟨?_, (hrest.2 c).1⟩⟩
  cases hr : (s.phone c).reads with
  | nil => rfl
  | cons r rest =>
      have hmem : r ∈ (s.phone c).reads := by
        rw [hr]
        exact List.mem_cons_self
      exact absurd ((hrest.2 c).2 r hmem) (by simp [hintact c r hmem])

/-- **Left alone, the system comes to rest.**  From any state, however the environment goes
about it, it takes no more steps than there are outstanding, each leaves fewer, and it can
go on until the system is at rest; and when no callback traps, nothing is pending then. -/
theorem settles [Fintype C] (me : C → String) (s : World C) :
    (∀ (es : List (Event C)) (s' : World C), (∀ e ∈ es, e.environment = true) →
      Machine.run (step me) s es = some s' →
      es.length + s'.outstanding ≤ s.outstanding ∧
      ((∃ e : Event C, e.environment = true ∧ (step me s' e).isSome) ∨ s'.AtRest me)) ∧
    (∃ (es : List (Event C)) (s' : World C), (∀ e ∈ es, e.environment = true) ∧
      Machine.run (step me) s es = some s' ∧ s'.AtRest me) ∧
    (s.AtRest me → (∀ c, ∀ r ∈ (s.phone c).reads, r.traps (me c) (s.phone c) = false) →
      s.Idle) := by
  refine ⟨fun es s' hes hrun => ⟨?_, ?_⟩, exists_atRest me s, idle_of_atRest⟩
  · exact Machine.length_le_of_measure (P := fun e : Event C => e.environment = true)
      (fun _ _ _ he h => outstanding_step he h) hes hrun
  · by_cases hdone : ∀ e : Event C, e.environment = true → step me s' e = none
    · exact Or.inr (exhausted_iff.mp hdone)
    · push Not at hdone
      obtain ⟨e, he, hsome⟩ := hdone
      exact Or.inl ⟨e, he, Option.isSome_iff_ne_none.mpr hsome⟩

end UTrend
