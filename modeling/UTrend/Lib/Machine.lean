/-
Machines that take one event at a time, and what holds along their runs.

A machine is a partial step function: `step s e` is the state after the event,
or `none` when the event cannot happen there.  A run takes a list of events in
order.  `Along P` says that every step of a run is one that `P` allows, with the
state it is taken in; that is how a condition on the environment is stated here.

`history_run` is the induction over runs: an invariant that may speak of the events so
far.  `invariant_run` is the case where it speaks of the state alone, and
`along_of_invariant` turns such an invariant into a fact about every step.
`exists_run_related` is for two machines.

`count` counts the steps of a kind that a run takes.  Where a measure goes down with every
step, runs are no longer than it, and one that can not be continued is reached.
-/
import Mathlib.Data.List.Basic

namespace Machine

variable {σ ε : Type*} {step : σ → ε → Option σ}

/-- Take the events in order; `none` if one of them cannot happen. -/
def run (step : σ → ε → Option σ) : σ → List ε → Option σ
  | s, [] => some s
  | s, e :: es => (step s e).bind fun s' => run step s' es

/-- Every step of the run from `s` is one that `P` allows. -/
def Along (step : σ → ε → Option σ) (P : σ → ε → Prop) : σ → List ε → Prop
  | _, [] => True
  | s, e :: es => P s e ∧ ∀ s', step s e = some s' → Along step P s' es

@[simp] theorem run_nil (s : σ) : run step s [] = some s := rfl

theorem run_cons_eq_some {s s' : σ} {e : ε} {es : List ε} :
    run step s (e :: es) = some s' ↔ ∃ m, step s e = some m ∧ run step m es = some s' := by
  simp only [run, Option.bind_eq_some_iff]

@[simp] theorem run_singleton (s : σ) (e : ε) : run step s [e] = step s e := by
  cases h : step s e <;> simp [run, h]

theorem run_append (s : σ) (es fs : List ε) :
    run step s (es ++ fs) = (run step s es).bind fun m => run step m fs := by
  induction es generalizing s with
  | nil => rfl
  | cons e es ih =>
      simp only [List.cons_append, run]
      cases step s e with
      | none => rfl
      | some m => exact ih m

theorem run_append_eq_some {s s' : σ} {es fs : List ε} :
    run step s (es ++ fs) = some s' ↔ ∃ m, run step s es = some m ∧ run step m fs = some s' := by
  rw [run_append, Option.bind_eq_some_iff]

@[simp] theorem along_nil (P : σ → ε → Prop) (s : σ) : Along step P s [] := trivial

theorem along_cons {P : σ → ε → Prop} {s : σ} {e : ε} {es : List ε} :
    Along step P s (e :: es) ↔ P s e ∧ ∀ s', step s e = some s' → Along step P s' es := Iff.rfl

theorem along_and {P Q : σ → ε → Prop} {s : σ} {es : List ε} :
    Along step (fun s e => P s e ∧ Q s e) s es ↔ Along step P s es ∧ Along step Q s es := by
  induction es generalizing s with
  | nil => simp
  | cons e es ih =>
      simp only [along_cons, ih]
      constructor
      · rintro ⟨⟨hP, hQ⟩, h⟩
        exact ⟨⟨hP, fun s' hs => (h s' hs).1⟩, hQ, fun s' hs => (h s' hs).2⟩
      · rintro ⟨⟨hP, h⟩, hQ, h'⟩
        exact ⟨⟨hP, hQ⟩, fun s' hs => ⟨h s' hs, h' s' hs⟩⟩

/-- A condition that asks nothing of the state is one on the events themselves. -/
theorem along_of_forall {P : ε → Prop} {es : List ε} (h : ∀ e ∈ es, P e) (s : σ) :
    Along step (fun _ e => P e) s es := by
  induction es generalizing s with
  | nil => trivial
  | cons e es ih =>
      exact ⟨h e (by simp), fun s' _ => ih (fun x hx => h x (by simp [hx])) s'⟩

theorem along_append {P : σ → ε → Prop} {s : σ} {es fs : List ε} :
    Along step P s (es ++ fs) ↔
      Along step P s es ∧ ∀ m, run step s es = some m → Along step P m fs := by
  induction es generalizing s with
  | nil => simp
  | cons e es ih =>
      simp only [List.cons_append, along_cons, ih, run_cons_eq_some]
      constructor
      · rintro ⟨hP, h⟩
        exact ⟨⟨hP, fun s' hs => (h s' hs).1⟩, fun m ⟨s', hs, hm⟩ => (h s' hs).2 m hm⟩
      · rintro ⟨⟨hP, h⟩, h'⟩
        exact ⟨hP, fun s' hs => ⟨h s' hs, fun m hm => h' m ⟨s', hs, hm⟩⟩⟩

/-- Every step of a run that ends is taken. -/
theorem along_isSome : ∀ {es : List ε} {s s' : σ}, run step s es = some s' →
    Along step (fun s e => (step s e).isSome) s es
  | [], _, _, _ => trivial
  | _ :: _, _, _, h => by
      obtain ⟨m, hm, hrest⟩ := run_cons_eq_some.mp h
      refine ⟨Option.isSome_iff_exists.mpr ⟨m, hm⟩, fun m' hm' => ?_⟩
      obtain rfl : m = m' := Option.some.inj (hm.symm.trans hm')
      exact along_isSome hrest

instance decidableAlong {P : σ → ε → Prop} [∀ s e, Decidable (P s e)] :
    ∀ (s : σ) (es : List ε), Decidable (Along step P s es)
  | _, [] => isTrue trivial
  | s, e :: es =>
    match h : step s e with
    | none => decidable_of_iff (P s e) (by simp [along_cons, h])
    | some m =>
      have := decidableAlong (P := P) m es
      decidable_of_iff (P s e ∧ Along step P m es) (by simp [along_cons, h])

/-! ### Counting steps -/

/-- How many steps of the run from `s` satisfy `p`, in the states they are taken in. -/
def count (step : σ → ε → Option σ) (p : σ → ε → Bool) : σ → List ε → Nat
  | _, [] => 0
  | s, e :: es =>
    (if p s e then 1 else 0) + match step s e with
      | some s' => count step p s' es
      | none => 0

@[simp] theorem count_nil (p : σ → ε → Bool) (s : σ) : count step p s [] = 0 := rfl

theorem count_concat {p : σ → ε → Bool} {s m : σ} {es : List ε} (h : run step s es = some m)
    (e : ε) : count step p s (es ++ [e]) = count step p s es + if p m e then 1 else 0 := by
  induction es generalizing s with
  | nil =>
      obtain rfl : s = m := Option.some.inj h
      cases hs : step s e <;> simp [count, hs]
  | cons x es ih =>
      obtain ⟨s', hs, hrest⟩ := run_cons_eq_some.mp h
      simp only [List.cons_append, count, hs, ih hrest, Nat.add_assoc]

/-- No step is counted more than once. -/
theorem count_le_length (p : σ → ε → Bool) (s : σ) (es : List ε) :
    count step p s es ≤ es.length := by
  induction es generalizing s with
  | nil => exact Nat.le_refl 0
  | cons e es ih =>
      simp only [count, List.length_cons]
      cases hs : step s e with
      | none => split <;> simp only <;> omega
      | some s' =>
          have := ih s'
          split <;> simp only <;> omega

/-! ### Measures -/

/-- **A run of steps that each use up some of `μ` is no longer than `μ`.** -/
theorem length_le_of_measure {μ : σ → Nat} {P : ε → Prop}
    (hstep : ∀ s e s', P e → step s e = some s' → μ s' < μ s) {es : List ε} {s s' : σ}
    (hP : ∀ e ∈ es, P e) (hrun : run step s es = some s') : es.length + μ s' ≤ μ s := by
  induction es generalizing s with
  | nil =>
      obtain rfl : s = s' := Option.some.inj hrun
      simp
  | cons e es ih =>
      obtain ⟨m, hm, hrest⟩ := run_cons_eq_some.mp hrun
      have hless := hstep s e m (hP e (by simp)) hm
      have htail := ih (fun x hx => hP x (by simp [hx])) hrest
      rw [List.length_cons]
      omega

/-- So such steps can be taken until none is left.  The induction is on the measure. -/
theorem exists_exhausted {μ : σ → Nat} {P : ε → Prop}
    (hstep : ∀ s e s', P e → step s e = some s' → μ s' < μ s) (s : σ) :
    ∃ es s', (∀ e ∈ es, P e) ∧ run step s es = some s' ∧ ∀ e, P e → step s' e = none := by
  induction hn : μ s using Nat.strongRecOn generalizing s with
  | ind n ih =>
      by_cases hdone : ∀ e, P e → step s e = none
      · exact ⟨[], s, by simp, rfl, hdone⟩
      · push Not at hdone
        obtain ⟨e, hP, hsome⟩ := hdone
        obtain ⟨m, hm⟩ := Option.ne_none_iff_exists'.mp hsome
        obtain ⟨es, s', hes, hrun, hend⟩ := ih _ (hn ▸ hstep s e m hP hm) m rfl
        refine ⟨e :: es, s', fun x hx => ?_, run_cons_eq_some.mpr ⟨m, hm, hrun⟩, hend⟩
        rcases List.mem_cons.mp hx with rfl | hx
        · exact hP
        · exact hes x hx

/-! ### Invariants -/

/-- **What every allowed step carries on from the events so far holds after every allowed
run.** -/
theorem history_run {I : List ε → σ → Prop} {P : σ → ε → Prop}
    (hstep : ∀ past s e s', I past s → P s e → step s e = some s' → I (past ++ [e]) s')
    {es : List ε} {s s' : σ} (hI : I [] s) (hP : Along step P s es)
    (hrun : run step s es = some s') : I es s' := by
  induction es generalizing I s with
  | nil =>
      rw [run_nil, Option.some.injEq] at hrun
      exact hrun ▸ hI
  | cons e es ih =>
      obtain ⟨m, hm, hrest⟩ := run_cons_eq_some.mp hrun
      have hnext : I [e] m := hstep [] s e m hI hP.1 hm
      -- from `m` on, `e` stands in front of all that has happened
      exact ih (I := fun past => I (e :: past)) (fun past => hstep (e :: past)) hnext
        (hP.2 m hm) hrest

/-- The same, when a step needs no permission. -/
theorem history_run_all {I : List ε → σ → Prop}
    (hstep : ∀ past s e s', I past s → step s e = some s' → I (past ++ [e]) s')
    {es : List ε} {s s' : σ} (hI : I [] s) (hrun : run step s es = some s') : I es s' :=
  history_run (P := fun _ _ => True) (fun past s e s' h _ hs => hstep past s e s' h hs) hI
    (along_of_forall (P := fun _ => True) (fun _ _ => trivial) s) hrun

/-- **What every allowed step preserves holds after every allowed run.** -/
theorem invariant_run {I : σ → Prop} {P : σ → ε → Prop}
    (hstep : ∀ s e s', I s → P s e → step s e = some s' → I s') {es : List ε} {s s' : σ}
    (hI : I s) (hP : Along step P s es) (hrun : run step s es = some s') : I s' :=
  history_run (I := fun _ => I) (fun _ => hstep) hI hP hrun

/-- The same, when a step needs no permission. -/
theorem invariant_run_all {I : σ → Prop} (hstep : ∀ s e s', I s → step s e = some s' → I s')
    {es : List ε} {s s' : σ} (hI : I s) (hrun : run step s es = some s') : I s' :=
  invariant_run (P := fun _ _ => True) (fun s e s' h _ hs => hstep s e s' h hs) hI
    (along_of_forall (P := fun _ => True) (fun _ _ => trivial) s) hrun

/-- A run does not get stuck where an invariant lets every step be taken. -/
theorem run_isSome {I : σ → Prop} {P : ε → Prop}
    (hstep : ∀ s e, I s → P e → ∃ s', step s e = some s' ∧ I s') : ∀ {es : List ε} {s : σ},
      I s → (∀ e ∈ es, P e) → (run step s es).isSome := by
  intro es
  induction es with
  | nil => intro s _ _; rfl
  | cons e es ih =>
      intro s hI hP
      obtain ⟨m, hm, hIm⟩ := hstep s e hI (hP e (by simp))
      have hrest := ih hIm fun x hx => hP x (by simp [hx])
      simp only [run, hm, Option.bind_some, hrest]

/-- **Two machines that stay related take the same events**, when the first takes every allowed
step and the second follows it. -/
theorem exists_run_related {τ : Type*} {step' : τ → ε → Option τ} {P : σ → ε → Prop}
    {R : σ → τ → Prop} (hstep : ∀ s t e, R s t → P s e →
      ∃ s' t', step s e = some s' ∧ step' t e = some t' ∧ R s' t') {es : List ε} {s : σ} {t : τ}
    (hR : R s t) (hP : Along step P s es) :
    ∃ s' t', run step s es = some s' ∧ run step' t es = some t' ∧ R s' t' := by
  induction es generalizing s t with
  | nil => exact ⟨s, t, rfl, rfl, hR⟩
  | cons e es ih =>
      obtain ⟨m, m', hm, hm', hRm⟩ := hstep s t e hR hP.1
      obtain ⟨s', t', hs', ht', hR'⟩ := ih hRm (hP.2 m hm)
      exact ⟨s', t', run_cons_eq_some.mpr ⟨m, hm, hs'⟩, run_cons_eq_some.mpr ⟨m', hm', ht'⟩, hR'⟩

/-- Under an invariant, a step condition that follows from it holds along the run. -/
theorem along_of_invariant {I : σ → Prop} {P Q : σ → ε → Prop}
    (hstep : ∀ s e s', I s → P s e → step s e = some s' → I s')
    (hQ : ∀ s e, I s → P s e → Q s e) :
    ∀ {es : List ε} {s : σ}, I s → Along step P s es → Along step Q s es := by
  intro es
  induction es with
  | nil => intro s _ _; trivial
  | cons e es ih =>
      intro s hI hP
      exact ⟨hQ s e hI hP.1, fun s' hs => ih (hstep s e s' hI hP.1 hs) (hP.2 s' hs)⟩

/-- Two step conditions that an invariant makes equivalent allow the same runs. -/
theorem along_congr {I : σ → Prop} {P Q R : σ → ε → Prop}
    (hstep : ∀ s e s', I s → P s e → step s e = some s' → I s')
    (hQR : ∀ s e, I s → P s e → (Q s e ↔ R s e)) {es : List ε} {s : σ} (hI : I s)
    (hP : Along step P s es) : Along step Q s es ↔ Along step R s es := by
  induction es generalizing s with
  | nil => exact Iff.rfl
  | cons e es ih =>
      simp only [along_cons, hQR s e hI hP.1]
      refine and_congr_right fun _ => forall_congr' fun s' => ?_
      exact forall_congr' fun hs => ih (hstep s e s' hI hP.1 hs) (hP.2 s' hs)

/-- **A run keeps `I` all the way if and only if `Q` allows each of its steps**, where one step
out of a state with `I` keeps it just when `Q` allows it. -/
theorem forall_prefix_iff_along {I : σ → Prop} {Q : σ → ε → Prop}
    (hstep : ∀ s e s', I s → step s e = some s' → (I s' ↔ Q s e)) {es : List ε} {s s' : σ}
    (hI : I s) (hrun : run step s es = some s') :
    (∀ pre, pre <+: es → ∀ m, run step s pre = some m → I m) ↔ Along step Q s es := by
  induction es generalizing s with
  | nil =>
      refine iff_of_true (fun pre hpre m hm => ?_) trivial
      obtain rfl := List.prefix_nil.mp hpre
      exact Option.some.inj hm ▸ hI
  | cons e es ih =>
      obtain ⟨m, hm, hrest⟩ := run_cons_eq_some.mp hrun
      have hiff := hstep s e m hI hm
      constructor
      · intro hall
        have hIm : I m := hall [e] (by simp) m (by simpa using hm)
        refine ⟨hiff.mp hIm, fun m' hm' => ?_⟩
        obtain rfl : m = m' := Option.some.inj (hm.symm.trans hm')
        refine (ih hIm hrest).mp fun pre hpre t ht => hall (e :: pre) ?_ t ?_
        · exact List.cons_prefix_cons.mpr ⟨rfl, hpre⟩
        · exact run_cons_eq_some.mpr ⟨m, hm, ht⟩
      · rintro ⟨hQ, hQs⟩ pre hpre t ht
        have hIm : I m := hiff.mpr hQ
        cases pre with
        | nil => exact Option.some.inj ht ▸ hI
        | cons e' pre =>
            obtain ⟨rfl, hpre'⟩ := List.cons_prefix_cons.mp hpre
            obtain ⟨m', hm', ht'⟩ := run_cons_eq_some.mp ht
            obtain rfl : m = m' := Option.some.inj (hm.symm.trans hm')
            exact (ih hIm hrest).mpr (hQs m hm) pre hpre' t ht'

/-- Whether a run ends, and in a state where `Q` holds, can be found out by taking it. -/
instance decidableReaches {Q : σ → Prop} [DecidablePred Q] (s : σ) (es : List ε) :
    Decidable (∃ s', run step s es = some s' ∧ Q s') :=
  decidable_of_iff ((run step s es).any (fun s' => decide (Q s')) = true)
    (by simp [Option.any_eq_true])

end Machine
