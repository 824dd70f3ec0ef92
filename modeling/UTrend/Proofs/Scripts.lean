/-
What one user does, from beginning to end.

The other results say that nothing goes wrong; here something happens.  When nothing is
pending, one user signs in, posts, opens a post and taps its heart, deletes a post, sets a
picture or stores a piece of clothing.  Each of these is a list of events: what the user
does, and what the environment does for it.

`Does` says that such a list can be done, that it is orderly, that nothing is pending
afterwards, and what has been written.  A script is some events before the writes, the
writes, and some events after them: `does_of` puts them together.
-/
import UTrend.Proofs.Turns

namespace UTrend

open World

variable {C : Type} [DecidableEq C] {me : C → String} {s s' : World C} {id : String} {c : C}

/-! ### Events that write nothing -/

/-- The event sets no picture, submits nothing and applies nothing. -/
def Event.plain : Event C → Bool
  | .act _ (.picture _) | .act _ (.submit _) | .commit _ => false
  | _ => true

theorem orderly_of_plain {e : Event C} (h : e.plain = true) : Orderly me s e := by
  cases e with
  | act c a =>
      refine ⟨?_, trivial⟩
      cases a with
      | picture imgN => simp [Event.plain] at h
      | submit i => simp [Event.plain] at h
      | _ => simp [Documented, Event.pictures, submission]
  | commit c => simp [Event.plain] at h
  | _ => exact ⟨by simp [Documented, Event.pictures, submission], trivial⟩

theorem along_of_plain {es : List (Event C)} (h : ∀ e ∈ es, e.plain = true) :
    Machine.Along (step me) (Orderly me) s es :=
  Machine.along_of_invariant (I := fun _ => True) (fun _ _ _ _ _ _ => trivial)
    (fun _ _ _ he => orderly_of_plain he) trivial (Machine.along_of_forall h s)

/-! ### Writes that are applied -/

/-- The write is up to date, timely and not crossed when it is applied to this log, whatever
post it is about. -/
def Fit (log : List (C × Request)) (c : C) (r : Request) : Prop :=
  ∀ id ∈ r.path.about, Meets id log c r

/-- The writes can be applied one after the other. -/
abbrev AllFit (c : C) : List (C × Request) → List Request → Prop :=
  Net.Ready Fit (fun _ => True) c

omit [DecidableEq C] in
theorem fit_of_ready {log : List (C × Request)} {rs : List Request}
    (habout : ∀ r ∈ rs, r.path.about = some id)
    (h : Net.Ready (Meets id) (Even id) c log rs) : AllFit c log rs := by
  refine h.mono (fun log r hr hmeets i hi => ?_) fun _ _ => trivial
  obtain rfl : id = i := Option.some.inj ((habout r hr).symm.trans hi)
  exact hmeets

omit [DecidableEq C] in
theorem fit_of_about {log : List (C × Request)} {r : Request} (h : r.path.about = none) :
    Fit log c r := by
  intro i hi
  rw [h] at hi
  exact absurd hi (Option.not_mem_none i)

/-- The world once the next write of a phone is applied. -/
def World.applied (s : World C) (c : C) (r : Request) (rest : List Request) : World C :=
  { s.setPhone c (completed (s.phone c) r) with
    net := ⟨s.net.log ++ [(c, r)], Function.update s.net.queue c rest⟩ }

theorem step_commit {r : Request} {rest : List Request} (hq : s.net.queue c = r :: rest) :
    step me s (.commit c) = some (s.applied c r rest) := by
  have hcommit : s.net.commit c
      = some ⟨s.net.log ++ [(c, r)], Function.update s.net.queue c rest⟩ :=
    Net.commit_eq_some.mpr ⟨r, rest, hq, rfl⟩
  simp only [step, hq, hcommit, Option.map_some, applied]

/-- **What a phone has waiting can be applied**, and its completion handlers run. -/
theorem run_commits (me : C → String) {rs : List Request} : ∀ {s : World C}, s.net.queue c = rs →
    AllFit c s.net.log rs →
    ∃ s', Machine.run (step me) s (List.replicate rs.length (.commit c)) = some s' ∧
      Machine.Along (step me) (Orderly me) s (List.replicate rs.length (.commit c)) ∧
      s'.net = ⟨s.net.log ++ rs.map fun r => (c, r), Function.update s.net.queue c []⟩ ∧
      s'.phone c = rs.foldl completed (s.phone c) ∧ ∀ d, d ≠ c → s'.phone d = s.phone d := by
  induction rs with
  | nil =>
      intro s hq _
      refine ⟨s, rfl, trivial, ?_, rfl, fun _ _ => rfl⟩
      rw [List.map_nil, List.append_nil, ← hq, Function.update_eq_self]
  | cons r rs ih =>
      intro s hq hfit
      have hstep : step me s (.commit c) = some (s.applied c r rs) := step_commit hq
      have hqueue : (s.applied c r rs).net.queue c = rs := Function.update_self ..
      have hself : (s.applied c r rs).phone c = completed (s.phone c) r :=
        Function.update_self ..
      obtain ⟨s', hrun, halong, hnet, hphone, hothers⟩ := ih hqueue hfit.2
      refine ⟨s', ?_, ⟨⟨?_, ?_⟩, ?_⟩, ?_, ?_, fun d hd => ?_⟩
      · exact Machine.run_cons_eq_some.mpr ⟨_, hstep, hrun⟩
      · intro h
        simp [Event.pictures, submission] at h
      · intro x hx i hi
        rw [hq] at hx
        obtain rfl := Option.some.inj hx
        exact hfit.1 i hi
      · intro m hm
        obtain rfl := Option.some.inj (hstep.symm.trans hm)
        exact halong
      · rw [hnet]
        simp [applied]
      · rw [hphone, hself, List.foldl_cons]
      · exact (hothers d hd).trans (Function.update_of_ne hd ..)

/-! ### Scripts -/

/-- The events can be done, orderly, and nothing is pending afterwards; `rs` is what has been
applied. -/
def World.Does (me : C → String) (s : World C) (es : List (Event C)) (rs : List Request) : Prop :=
  ∃ t, Machine.run (step me) s es = some t ∧ Machine.Along (step me) (Orderly me) s es ∧
    t.Idle ∧ t.net.committed = s.net.committed ++ rs

/-- The phone has nothing under way any more, and that is all that has changed. -/
structure World.Finished (c : C) (s t : World C) : Prop where
  net : t.net = s.net
  reads : (t.phone c).reads = []
  uploads : (t.phone c).uploads = []
  others : ∀ d, d ≠ c → t.phone d = s.phone d

/-- Events that come before the writes of a script. -/
structure World.Sends (me : C → String) (s : World C) (c : C) (es : List (Event C))
    (rs : List Request) (m : World C) : Prop where
  run : Machine.run (step me) s es = some m
  orderly : Machine.Along (step me) (Orderly me) s es
  net : m.net = s.net.issue c rs
  others : ∀ d, d ≠ c → m.phone d = s.phone d

/-- **A script**: something is sent, it is applied, and the phone finishes. -/
theorem World.Sends.does {pre suf : List (Event C)} {rs : List Request} {m : World C}
    (h : s.Sends me c pre rs m) (hidle : s.Idle) (hfit : AllFit c s.net.log rs)
    (hplain : ∀ e ∈ suf, e.plain = true)
    (hfinish : ∀ m' : World C, m'.net.committed = s.net.committed ++ rs → m'.net.Quiet →
      m'.phone c = rs.foldl completed (m.phone c) →
      ∃ t, Machine.run (step me) m' suf = some t ∧ m'.Finished c t) :
    s.Does me (pre ++ List.replicate rs.length (.commit c) ++ suf) rs := by
  have hqueue : m.net.queue c = rs := by
    rw [h.net, Net.issue_queue_self, hidle.1 c, List.nil_append]
  have hlog : m.net.log = s.net.log := by rw [h.net, Net.issue_log]
  obtain ⟨m', hcommits, horderly, hnet, hphone, hothers⟩ :=
    run_commits me hqueue (by rw [hlog]; exact hfit)
  have hcommitted : m'.net.committed = s.net.committed ++ rs := by
    rw [hnet, Net.committed, hlog, List.map_append, List.map_map]
    exact congrArg _ (List.map_id _)
  have hquiet : m'.net.Quiet := by
    intro d
    rw [hnet]
    by_cases hd : d = c
    · subst hd
      exact Function.update_self ..
    · refine (Function.update_of_ne hd _ _).trans ?_
      rw [h.net, Net.issue_queue_ne s.net hd, hidle.1 d]
  obtain ⟨t, hsuf, hdone⟩ := hfinish m' hcommitted hquiet hphone
  have hmiddle := Machine.run_append_eq_some.mpr ⟨m, h.run, hcommits⟩
  refine ⟨t, Machine.run_append_eq_some.mpr ⟨m', hmiddle, hsuf⟩, ?_, ⟨?_, fun d => ?_⟩, ?_⟩
  · rw [Machine.along_append, Machine.along_append]
    refine ⟨⟨h.orderly, fun x hx => ?_⟩, fun _ _ => along_of_plain hplain⟩
    obtain rfl := Option.some.inj (h.run.symm.trans hx)
    exact horderly
  · rw [hdone.net]
    exact hquiet
  · by_cases hd : d = c
    · rw [hd]
      exact ⟨hdone.reads, hdone.uploads⟩
    · rw [hdone.others d hd, hothers d hd, h.others d hd]
      exact hidle.2 d
  · rw [hdone.net, hcommitted]

/-- A script can begin with events that leave the database alone. -/
theorem World.Does.after {pre es : List (Event C)} {rs : List Request} {m : World C}
    (h : m.Does me es rs) (hpre : Machine.run (step me) s pre = some m)
    (hplain : ∀ e ∈ pre, e.plain = true) (hnet : m.net = s.net) : s.Does me (pre ++ es) rs := by
  obtain ⟨t, hrun, horderly, hidle, hcommitted⟩ := h
  refine ⟨t, Machine.run_append_eq_some.mpr ⟨m, hpre, hrun⟩, ?_, hidle, by rw [hcommitted, hnet]⟩
  refine Machine.along_append.mpr ⟨along_of_plain hplain, fun x hx => ?_⟩
  obtain rfl := Option.some.inj (hpre.symm.trans hx)
  exact horderly

/-- A phone with nothing under way can be changed. -/
theorem idle_update {m : World C} {p : Phone} (hidle : s.Idle) (hnet : m.net = s.net)
    (hphone : m.phone = Function.update s.phone c p) (hreads : p.reads = [])
    (huploads : p.uploads = []) : m.Idle := by
  refine ⟨hnet ▸ hidle.1, fun d => ?_⟩
  rw [hphone]
  by_cases hd : d = c
  · rw [hd, Function.update_self]
    exact ⟨hreads, huploads⟩
  · rw [Function.update_of_ne hd]
    exact hidle.2 d

/-! ### How a phone finishes -/

omit [DecidableEq C] in
theorem finished_self (hreads : (s.phone c).reads = []) (huploads : (s.phone c).uploads = []) :
    s.Finished c s := ⟨rfl, hreads, huploads, fun _ _ => rfl⟩

/-- The last upload succeeds. -/
theorem finished_upload {ref : StorageRef} (hreads : (s.phone c).reads = [])
    (huploads : (s.phone c).uploads = [ref]) :
    ∃ t, Machine.run (step me) s [.upload c 0 true] = some t ∧ s.Finished c t := by
  refine ⟨{ s.setPhone c { s.phone c with uploads := [] } with storage := ref :: s.storage },
    by simp [step, huploads], rfl, ?_, ?_, fun d hd => Function.update_of_ne hd ..⟩
  all_goals simp [setPhone, hreads]

/-- The only read of a phone is answered, and the answer is delivered. -/
def World.answered (c : C) : List (Event C) := [.answer c 0 true, .arrive c 0]

omit [DecidableEq C] in
theorem plain_answered (c : C) : ∀ e ∈ answered c, e.plain = true := by
  simp [answered, Event.plain]

theorem run_answer {ask : Ask} {p : Phone} {rs : List Request}
    (hreads : (s.phone c).reads = [⟨ask, none⟩])
    (hcallback : ({ s.phone c with reads := [] } : Phone).callback (me c) ask
      (ask.answerOf (me c) (s.view c)) = some (p, rs)) :
    Machine.run (step me) s (answered c)
      = some { s.setPhone c p with net := s.net.issue c rs } := by
  simp [answered, Machine.run, step, hreads, setPhone, hcallback]

/-- The last read is answered, and its callback writes nothing. -/
theorem finished_read {ask : Ask} {p : Phone} (hreads : (s.phone c).reads = [⟨ask, none⟩])
    (hcallback : ({ s.phone c with reads := [] } : Phone).callback (me c) ask
      (ask.answerOf (me c) (s.view c)) = some (p, []))
    (hp : p.reads = [] ∧ p.uploads = []) :
    ∃ t, Machine.run (step me) s (answered c) = some t ∧ s.Finished c t := by
  refine ⟨_, run_answer hreads hcallback, Net.issue_nil _ _, ?_, ?_, fun d hd => ?_⟩
  · simp [hp.1]
  · simp [hp.2]
  · exact setPhone_ne s hd p

/-! ### What an act sends -/

/-- An act that does not trap sends its writes. -/
theorem sends_act {a : Act} {p : Phone} {rs : List Request} (hallows : s.allows me c a = true)
    (hact : a.run (me c) (s.phone c) = some (p, rs)) (horderly : Orderly me s (.act c a)) :
    ∃ m, s.Sends me c [.act c a] rs m ∧ m.phone c = p := by
  let m : World C := { (s.register me c a).setPhone c p with net := s.net.issue c rs }
  have hstep : step me s (.act c a) = some m := by
    simp [step, hallows, hact, m]
  refine ⟨m, ⟨?_, ⟨horderly, fun _ _ => trivial⟩, rfl, fun d hd => ?_⟩, ?_⟩
  · rw [Machine.run_singleton, hstep]
  · exact (setPhone_ne _ hd p).trans (congrFun (register_phone s c a) d)
  · exact setPhone_self _ c p

/-- Signing in, with `n` writes, until the header of the profile has its user. -/
def World.signInScript (c : C) (a : Act) (n : Nat) : List (Event C) :=
  [Event.act c a] ++ List.replicate n (Event.commit c) ++ answered c

/-- **A user can sign in**, when the header of the profile can be read then. -/
theorem does_signIn {a : Act} {rs : List Request} (hidle : s.Idle)
    (hallows : s.allows me c a = true)
    (hact : a.run (me c) (s.phone c) = some ((s.phone c).start, rs))
    (hplain : (Event.act c a).plain = true) (hfit : AllFit c s.net.log rs)
    (hsilent : ∀ p, rs.foldl completed p = p)
    (hheader : (Profile.fetchUserDone
      ((contents (s.net.committed ++ rs)).lookup (.user (me c)))).isSome) :
    s.Does me (signInScript c a rs.length) rs := by
  obtain ⟨m, hsends, hphone⟩ := sends_act hallows hact (orderly_of_plain hplain)
  refine hsends.does hidle hfit (plain_answered c) fun m' hcommitted hquiet hm => ?_
  rw [hsilent, hphone] at hm
  have hview : m'.view c = contents (s.net.committed ++ rs) := by
    rw [view, hquiet.seen_eq, hcommitted]
  obtain ⟨header, hheader⟩ := Option.isSome_iff_exists.mp hheader
  have hreads : (m'.phone c).reads = [⟨.profile, none⟩] := by
    simp [hm, Phone.start, Phone.ask, (hidle.2 c).1]
  refine finished_read (p := { m'.phone c with reads := [] }) hreads ?_ ⟨rfl, ?_⟩
  · simp [Phone.callback, Ask.answerOf, hview, hheader]
  · simp [hm, Phone.start, Phone.ask, (hidle.2 c).2]

/-- An act that stores an image: the write, and the upload. -/
def World.storeScript (c : C) (a : Act) : List (Event C) :=
  [Event.act c a] ++ List.replicate 1 (Event.commit c) ++ [Event.upload c 0 true]

/-- **An image can be stored.** -/
theorem does_store {a : Act} {r : Request} {p : Phone} {o : StorageRef} (hidle : s.Idle)
    (hallows : s.allows me c a = true) (hact : a.run (me c) (s.phone c) = some (p, [r]))
    (hreads : p.reads = []) (huploads : p.uploads = [o])
    (horderly : Orderly me s (.act c a)) (habout : r.path.about = none)
    (hsilent : ∀ p, completed p r = p) : s.Does me (storeScript c a) [r] := by
  obtain ⟨m, hsends, hphone⟩ := sends_act hallows hact horderly
  refine hsends.does hidle ⟨fit_of_about habout, trivial⟩ (by simp [Event.plain])
    fun m' _ _ hm => ?_
  rw [List.foldl_cons, List.foldl_nil, hsilent, hphone] at hm
  exact finished_upload (by rw [hm, hreads]) (by rw [hm, huploads])

/-! ### A post is submitted -/

/-- The form is filled in, and its image is uploaded. -/
def World.formScript (c : C) (caption imgN : String) : List (Event C) :=
  [.act c .makePost, .act c (.caption caption), .act c (.pick imgN), .upload c 0 true]

/-- The form is filled in and submitted; the author is found, and both copies are applied. -/
def World.postScript (c : C) (caption imgN id : String) : List (Event C) :=
  formScript c caption imgN ++
    ([Event.act c (.submit id)] ++ answered c ++ List.replicate 2 (Event.commit c) ++ [])

theorem run_form (me : C → String) (hidle : s.Idle) (hsigned : (s.phone c).signedIn = true)
    (caption imgN : String) :
    ∃ m, Machine.run (step me) s (formScript c caption imgN) = some m ∧ m.net = s.net ∧
      m.posted = s.posted ∧
      m.phone = Function.update s.phone c { s.phone c with info := some ⟨caption, imgN⟩ } := by
  refine ⟨{ s.setPhone c { s.phone c with info := some ⟨caption, imgN⟩ } with
    storage := ⟨.social, imgN⟩ :: s.storage }, ?_, rfl, rfl, rfl⟩
  simp [formScript, Machine.run, step, allows, Act.run, Act.signsIn, hsigned, register, setPhone,
    (hidle.2 c).2]

/-- The form is submitted, and its author is found. -/
theorem sends_form (me : C → String) {caption imgN profImg username : String} {d : Doc}
    (hidle : s.Idle) (hinfo : (s.phone c).info = some ⟨caption, imgN⟩) (hcaption : caption ≠ "")
    (himg : imgN ≠ "") (hfresh : id ∉ s.posted.map Prod.fst)
    (hd : s.db.lookup (.user (me c)) = some d) (hpic : Doc.string d "profileImg" = some profImg)
    (hname : Doc.string d "username" = some username) :
    ∃ m, s.Sends me c ([.act c (.submit id)] ++ answered c)
        [.create (me c) id caption imgN, .publish (me c) id caption imgN profImg username] m ∧
      (m.phone c).reads = [] ∧ (m.phone c).uploads = [] := by
  have hview : s.view c = s.db := by rw [view, hidle.1.seen_eq, db]
  have hform : PostInfo.addToDB (me c) id ⟨caption, imgN⟩
      = some (.create (me c) id caption imgN) := if_pos ⟨hcaption, himg⟩
  have hdone : PostInfo.addToDBDone (me c) id ⟨caption, imgN⟩ (some d)
      = some (.publish (me c) id caption imgN profImg username) := by
    simp [PostInfo.addToDBDone, hpic, hname]
  have hdoc : Orderly me s (.act c (.submit id)) := by
    refine ⟨fun _ => ?_, trivial⟩
    show Path.user (me c) ∈ s.view c
    rw [hview]
    exact DocStore.mem_of_lookup hd
  let p : Phone := { s.phone c with info := none }.ask (.author id ⟨caption, imgN⟩)
  have hact : (Act.submit id).run (me c) (s.phone c)
      = some (p, [.create (me c) id caption imgN]) := by simp [Act.run, hinfo, hform, p]
  have hallows : s.allows me c (.submit id) = true := by simpa [allows] using hfresh
  obtain ⟨m, hsends, hphone⟩ := sends_act hallows hact hdoc
  have hreads : (m.phone c).reads = [⟨.author id ⟨caption, imgN⟩, none⟩] := by
    simp [hphone, p, Phone.ask, (hidle.2 c).1]
  -- the waiting copy says nothing of its author
  have huser : (m.view c).lookup (.user (me c)) = some d := by
    rw [view, hsends.net, Net.issue_seen_self, lookup_concat_of_ne Path.noConfusion, ← view,
      hview, hd]
  let q : Phone := { m.phone c with reads := [] }
  have hcallback : q.callback (me c) (.author id ⟨caption, imgN⟩)
      ((Ask.author id ⟨caption, imgN⟩).answerOf (me c) (m.view c))
        = some (q, [.publish (me c) id caption imgN profImg username]) := by
    simp [Phone.callback, Ask.answerOf, huser, hdone]
  have hrun := run_answer hreads hcallback
  refine ⟨_, ⟨Machine.run_append_eq_some.mpr ⟨m, hsends.run, hrun⟩, ?_, ?_, fun e he => ?_⟩, ?_, ?_⟩
  · exact Machine.along_append.mpr ⟨hsends.orderly, fun _ _ => along_of_plain (plain_answered c)⟩
  · show m.net.issue c _ = _
    rw [hsends.net]
    simp [Net.issue]
  · exact (setPhone_ne m he _).trans (hsends.others e he)
  · simp [q]
  · simp [q, hphone, p, Phone.ask, (hidle.2 c).2]

/-- **A post can be submitted**, by a user whose document is there. -/
theorem does_post {caption imgN profImg username : String} {d : Doc} (hidle : s.Idle)
    (hsigned : (s.phone c).signedIn = true) (hcaption : caption ≠ "") (himg : imgN ≠ "")
    (hfresh : id ∉ s.posted.map Prod.fst) (hkept : .deleteSocial id ∉ s.net.committed)
    (hd : s.db.lookup (.user (me c)) = some d) (hpic : Doc.string d "profileImg" = some profImg)
    (hname : Doc.string d "username" = some username) :
    s.Does me (postScript c caption imgN id)
      [.create (me c) id caption imgN, .publish (me c) id caption imgN profImg username] := by
  obtain ⟨m, hform, hnet, hposted, hphone⟩ := run_form me hidle hsigned caption imgN
  have hself : m.phone c = { s.phone c with info := some ⟨caption, imgN⟩ } := by
    rw [hphone, Function.update_self]
  have hidle' : m.Idle := idle_update hidle hnet hphone (hidle.2 c).1 (hidle.2 c).2
  obtain ⟨m', hsends, hreads, huploads⟩ := sends_form me hidle'
    (by rw [hself]) hcaption himg (hposted ▸ hfresh) (by rw [db, hnet]; exact hd) hpic hname
  refine (hsends.does hidle' ?_ (by simp) fun t _ _ ht => ?_).after hform
    (by simp [formScript, Event.plain]) hnet
  · rw [hnet]
    refine ⟨fun i _ => ⟨trivial, trivial, by simp [Request.socialTap]⟩,
      fun i hi => ⟨trivial, fun _ hdel => hkept ?_, by simp [Request.socialTap]⟩, trivial⟩
    obtain rfl : id = i := Option.some.inj hi
    simpa [Net.committed] using hdel
  · have hsame : t.phone c = m'.phone c := ht
    exact ⟨t, rfl, finished_self (by rw [hsame, hreads]) (by rw [hsame, huploads])⟩

/-! ### A post is deleted -/

/-- The user's own posts are fetched, and the cell of one of them is shown. -/
def World.cellScript (c : C) (i : Nat) : List (Event C) :=
  [.act c .refresh, .answer c 0 true, .arrive c 0, .act c (.cell i)]

/-- The post of a cell is deleted, and the posts are fetched again. -/
def World.deleteScript (c : C) (i k : Nat) : List (Event C) :=
  cellScript c i ++
    ([Event.act c (.delete k)] ++ List.replicate 2 (Event.commit c) ++ answered c)

theorem run_cell {i : Nat} {post : Post} (hsigned : (s.phone c).signedIn = true)
    (hreads : (s.phone c).reads = []) (hpost : (postFeed.fetchData.listOf
      ((Collection.posts (me c)).documents (s.view c)))[i]? = some post)
    (himg : post.postImg.isSome) (hlikes : post.likes.isSome) :
    Machine.run (step me) s (cellScript c i)
      = some (s.setPhone c { s.phone c with
          feed := postFeed.fetchData.listOf ((Collection.posts (me c)).documents (s.view c))
          cells := (s.phone c).cells ++ [post.pid] }) := by
  have hcell : postCell.postItem post = some post.pid := by
    obtain ⟨img, himg⟩ := Option.isSome_iff_exists.mp himg
    obtain ⟨n, hn⟩ := Option.isSome_iff_exists.mp hlikes
    simp [postCell.postItem, himg, hn]
  have hcollection : postFeed.fetchData.collection (me c) = .posts (me c) := rfl
  unfold view at hpost
  simp [cellScript, Machine.run, step, allows, Act.run, Act.signsIn, hsigned, hreads,
    Phone.fetchData, Phone.ask, Phone.callback, register, setPhone, Loader.call,
    Loader.append_eq, Ask.answerOf, view, hcell, hcollection, hpost]

/-- **A post of one's own can be deleted.** -/
theorem does_delete {i : Nat} {post : Post} (hidle : s.Idle)
    (hsigned : (s.phone c).signedIn = true) (hpost : (postFeed.fetchData.listOf
      ((Collection.posts (me c)).documents s.db))[i]? = some post) (hid : post.pid = some id)
    (himg : post.postImg.isSome) (hlikes : post.likes.isSome) :
    s.Does me (deleteScript c i (s.phone c).cells.length)
      [.deletePost (me c) id, .deleteSocial id] := by
  have hview : s.view c = s.db := by rw [view, hidle.1.seen_eq, db]
  let p : Phone := { s.phone c with
    feed := postFeed.fetchData.listOf ((Collection.posts (me c)).documents (s.view c))
    cells := (s.phone c).cells ++ [post.pid] }
  have hcell : Machine.run (step me) s (cellScript c i) = some (s.setPhone c p) :=
    run_cell hsigned (hidle.2 c).1 (by rw [hview]; exact hpost) himg hlikes
  have hidle' : (s.setPhone c p).Idle :=
    idle_update hidle rfl rfl (hidle.2 c).1 (hidle.2 c).2
  have hallows : (s.setPhone c p).allows me c (.delete (s.phone c).cells.length) = true := by
    simpa [allows, Act.signsIn, p] using hsigned
  have hact : (Act.delete (s.phone c).cells.length).run (me c) ((s.setPhone c p).phone c)
      = some (p, [.deletePost (me c) id, .deleteSocial id]) := by
    simp [Act.run, p, postFeed.deleteAction, hid]
  obtain ⟨m, hsends, hphone⟩ := sends_act hallows hact (orderly_of_plain rfl)
  refine (hsends.does hidle' ?_ (plain_answered c) fun m' _ _ hm => ?_).after hcell
    (by simp [cellScript, Event.plain]) rfl
  · exact ⟨fun i _ => ⟨trivial, trivial, by simp [Request.socialTap]⟩,
      fun i _ => ⟨trivial, trivial, by simp [Request.socialTap]⟩, trivial⟩
  · -- the completion handler of the first deletion fetches the posts again
    have hfetch : m'.phone c = p.fetchData := by rw [hm, hphone]; rfl
    let q : Phone := { p with
      feed := postFeed.fetchData.listOf ((Collection.posts (me c)).documents (m'.view c)) }
    have hreads : (m'.phone c).reads = [⟨.posts, none⟩] := by
      simp [hfetch, Phone.fetchData, Phone.ask, p, (hidle.2 c).1]
    have hcollection : postFeed.fetchData.collection (me c) = .posts (me c) := rfl
    refine finished_read (p := q) hreads ?_ (hidle.2 c)
    simp [hfetch, Phone.fetchData, Phone.ask, p, (hidle.2 c).1, Phone.callback, Ask.answerOf,
      Loader.call, Loader.append_eq, hcollection, q]

/-! ### A heart is tapped -/

theorem setUp_imageName (v : SocialMore) : v.setUp.imageName = v.imageName := by
  cases hnum : v.numLikes <;> cases hcap : v.caption <;> simp [SocialMore.setUp, hnum, hcap]

theorem setUp_postImg (v : SocialMore) : v.setUp.postImg = v.postImg := by
  cases hnum : v.numLikes <;> cases hcap : v.caption <;> simp [SocialMore.setUp, hnum, hcap]

/-- The post as it is open, before its heart is tapped; a tap that likes it waits for the
picture. -/
def SocialMore.opened (post : Post) (liked : Bool) : SocialMore :=
  { (Social.prepare post).setUp.showHeart liked with postImg := !liked }

/-- The public feed appears, is answered and delivered. -/
def World.feedScript (c : C) : List (Event C) :=
  [.act c .viewSocial, .answer c 0 true, .arrive c 0]

/-- The `i`-th post is opened and its heart arrives, and then its picture, if it is going to be
uploaded. -/
def World.selectScript (c : C) (i : Nat) (liked : Bool) : List (Event C) :=
  [.act c (.select i), .answer c 0 true, .arrive c 0] ++ if liked then [] else [.act c .image]

theorem run_feed (hsigned : (s.phone c).signedIn = true)
    (hreads : (s.phone c).reads = []) :
    Machine.run (step me) s (feedScript c)
      = some (s.setPhone c { s.phone c with
          posts := Social.fetchSocialPost.listOf
            ((Social.fetchSocialPost.collection (me c)).documents (s.view c)) }) := by
  simp [feedScript, Machine.run, step, allows, Act.run, Act.signsIn, hsigned, hreads,
    Phone.fetchSocialPost, Phone.ask, Phone.callback, register, setPhone, Loader.call,
    Loader.append_eq, Ask.answerOf, view]

omit [DecidableEq C] in
/-- The picture of the post is in Storage. -/
def World.HasPicture (s : World C) (post : Post) : Prop :=
  ∃ img, post.postImg = some img ∧ ⟨.social, img⟩ ∈ s.storage

/-- A post of the feed is opened. -/
theorem run_select (me : C → String) {i : Nat} {post : Post} {liked : Bool}
    (hsigned : (s.phone c).signedIn = true) (hreads : (s.phone c).reads = [])
    (hpost : (s.phone c).posts[i]? = some post) (hid : post.pid = some id)
    (hliked : ((s.view c).lookup (.like (me c) id)).isSome = liked)
    (hstored : liked = false → s.HasPicture post) :
    Machine.run (step me) s (selectScript c i liked)
      = some (s.setPhone c { s.phone c with
          more := some (.opened post liked)
          opened := (s.phone c).opened + 1 }) := by
  unfold view at hliked
  cases liked with
  | true =>
      obtain ⟨d, hd⟩ := Option.isSome_iff_exists.mp hliked
      have hwaits : (Social.prepare post).setUp.postImg = false := setUp_postImg _
      simp [selectScript, Machine.run, step, allows, Act.run, Act.signsIn, hsigned, hreads, hpost,
        hid, Phone.ask, Phone.callback, register, setPhone, Ask.answerOf, view,
        SocialMore.showHeart, SocialMore.opened, hd, hwaits]
  | false =>
      obtain ⟨img, himg, hmem⟩ := hstored rfl
      have hname : (Social.prepare post).setUp.imageName = some img :=
        (setUp_imageName _).trans himg
      have hnone := Option.not_isSome_iff_eq_none.mp (by rw [hliked]; simp)
      simp [selectScript, Machine.run, step, allows, Act.run, Act.signsIn, hsigned, hreads, hpost,
        hid, Phone.ask, Phone.callback, register, setPhone, Ask.answerOf, view,
        SocialMore.showHeart, SocialMore.opened, hname, hmem, hnone]

/-- **A post that the database has can be fetched and opened**, and nothing else changes. -/
theorem run_opens (me : C → String) {i : Nat} {post : Post} {liked : Bool}
    (hsigned : (s.phone c).signedIn = true) (hreads : (s.phone c).reads = [])
    (hpost : (Social.fetchSocialPost.listOf
      (Collection.socialFeed.documents (s.view c)))[i]? = some post) (hid : post.pid = some id)
    (hliked : ((s.view c).lookup (.like (me c) id)).isSome = liked)
    (hstored : liked = false → s.HasPicture post) :
    ∃ p : Phone,
      Machine.run (step me) s (feedScript c ++ selectScript c i liked) = some (s.setPhone c p) ∧
      p.signedIn = true ∧ p.reads = [] ∧ p.uploads = (s.phone c).uploads ∧
      p.more = some (.opened post liked) := by
  let p : Phone := { s.phone c with
    posts := Social.fetchSocialPost.listOf (Collection.socialFeed.documents (s.view c)) }
  have hself : (s.setPhone c p).phone c = p := Function.update_self ..
  have hselect := run_select me (s := s.setPhone c p) (c := c) (i := i)
    (by rw [hself]; exact hsigned) (by rw [hself]; exact hreads) (by rw [hself]; exact hpost)
    hid hliked hstored
  refine ⟨{ p with
    more := some (.opened post liked)
    opened := p.opened + 1 }, ?_, hsigned, hreads, rfl, rfl⟩
  refine Machine.run_append_eq_some.mpr ⟨_, run_feed hsigned hreads, hselect.trans ?_⟩
  rw [hself]
  simp [setPhone]

omit [DecidableEq C] in
/-- **The heart of an open post can be tapped**, when its label shows a count that has not run
out. -/
theorem changeLike_opened {post : Post} {u : String} {n : Nat} (hid : post.pid = some id)
    (huid : post.uid = some u) (himg : post.postImg.isSome) (hcaption : post.textCaption.isSome)
    (hlikes : post.likes = some (n : Int)) (hn : n + 1 < 2 ^ 63) (liked : Bool)
    (m imgN : String) :
    ∃ v, (SocialMore.opened post liked).changeLike m imgN = some (v,
      SocialMore.tapRequests m imgN u id ⟨n, liked⟩,
      if liked then [] else [⟨.likes m, imgN⟩]) := by
  have hpost := SocialMore.setUp_post (Social.prepare post)
  have hidv : (SocialMore.opened post liked).id = some id := hpost.1.trans hid
  have huidv : (SocialMore.opened post liked).uID = some u := hpost.2.trans huid
  have hlabel : (SocialMore.opened post liked).likes = some (Decimal.text n) := by
    refine (SocialMore.setUp_likes_eq post).trans ?_
    rw [if_pos hcaption, hlikes, Option.getD_some]
  have hready : (SocialMore.opened post liked).Ready := by
    refine ⟨by rw [hidv]; rfl, by rw [huidv]; rfl, ?_, n, hlabel⟩
    exact (congrArg Option.isSome (setUp_imageName (Social.prepare post))).trans himg
  have hpicture : (SocialMore.opened post liked).postImg = true ∨
      (SocialMore.opened post liked).likeHeartImg = some .fillLikeheart := by
    cases liked
    · exact Or.inl rfl
    · exact Or.inr rfl
  have hruns := (hready.changeLike hlabel (by omega) le_rfl hn m imgN).mpr hpicture
  obtain ⟨⟨v, rs, refs⟩, hchange⟩ := Option.isSome_iff_exists.mp hruns
  obtain ⟨number, uID, i, newNum, hnumber, huID, hi, -, rfl, rfl, -⟩ :=
    SocialMore.changeLike_eq_some hchange
  rw [hlabel, Option.bind_some, intOfText_text] at hnumber
  obtain rfl := int64_eq_some hnumber
  obtain rfl := Option.some.inj (huidv.symm.trans huID)
  obtain rfl := Option.some.inj (hidv.symm.trans hi)
  have hfilled : decide ((SocialMore.opened post liked).likeHeartImg = some .fillLikeheart)
      = liked := by
    cases liked <;> rfl
  rw [hfilled] at hchange
  exact ⟨v, hchange⟩

/-- A post is opened and its heart is tapped; the writes are applied, and the picture of a new
like is uploaded. -/
def World.tapScript (c : C) (i : Nat) (imgN : String) (liked : Bool) : List (Event C) :=
  feedScript c ++ selectScript c i liked ++ ([Event.act c (.tap imgN)] ++
    List.replicate 3 (Event.commit c) ++ if liked then [] else [Event.upload c 0 true])

omit [DecidableEq C] in
theorem silent_tapRequests (m imgN uID : String) (tap : Tap) (p : Phone) :
    (SocialMore.tapRequests m imgN uID id tap).foldl completed p = p := by
  unfold SocialMore.tapRequests
  split <;> rfl

omit [DecidableEq C] in
theorem length_tapRequests (m imgN uID : String) (tap : Tap) :
    (SocialMore.tapRequests m imgN uID id tap).length = 3 := by
  unfold SocialMore.tapRequests
  split <;> rfl

/-- **The heart of a post in the feed can be tapped.** -/
theorem does_tap {i : Nat} {post : Post} {u : String} {n : Nat} (hidle : s.Idle)
    (hsigned : (s.phone c).signedIn = true) (hpost : (Social.fetchSocialPost.listOf
      (Collection.socialFeed.documents s.db))[i]? = some post) (hid : post.pid = some id)
    (huid : post.uid = some u) (himg : post.postImg.isSome) (hcaption : post.textCaption.isSome)
    (hlikes : post.likes = some (n : Int)) (hn : n + 1 < 2 ^ 63) (imgN : String) {liked : Bool}
    (hliked : (s.db.lookup (.like (me c) id)).isSome = liked)
    (hstored : liked = false → s.HasPicture post)
    (hfit : AllFit c s.net.log (SocialMore.tapRequests (me c) imgN u id ⟨n, liked⟩)) :
    s.Does me (tapScript c i imgN liked)
      (SocialMore.tapRequests (me c) imgN u id ⟨n, liked⟩) := by
  have hview : s.view c = s.db := by rw [view, hidle.1.seen_eq, db]
  obtain ⟨p, hopen, hp, hreads, huploads, hmore⟩ := run_opens me hsigned (hidle.2 c).1
    (by rw [hview]; exact hpost) hid (by rw [hview]; exact hliked) hstored
  obtain ⟨v, hchange⟩ := changeLike_opened hid huid himg hcaption hlikes hn liked (me c) imgN
  have hidle' : (s.setPhone c p).Idle :=
    idle_update hidle rfl rfl hreads (huploads.trans (hidle.2 c).2)
  have hallows : (s.setPhone c p).allows me c (.tap imgN) = true := by
    simpa [allows, Act.signsIn] using hp
  let q : Phone := { p with
    more := some v
    uploads := p.uploads ++ if liked then [] else [⟨.likes (me c), imgN⟩] }
  have hact : (Act.tap imgN).run (me c) ((s.setPhone c p).phone c)
      = some (q, SocialMore.tapRequests (me c) imgN u id ⟨n, liked⟩) := by
    simp [Act.run, hmore, hchange, q]
  obtain ⟨m, hsends, hphone⟩ := sends_act hallows hact (orderly_of_plain rfl)
  have hrefs : q.uploads = if liked then [] else [⟨.likes (me c), imgN⟩] := by
    simp [q, huploads, (hidle.2 c).2]
  have hplain : ∀ e ∈ if liked then [] else [Event.upload c 0 true], e.plain = true := by
    cases liked <;> simp [Event.plain]
  have hdoes := hsends.does hidle' hfit hplain fun m' _ _ hm => by
      rw [silent_tapRequests, hphone] at hm
      cases liked with
      | true => exact ⟨m', rfl, finished_self (by rw [hm, hreads]) (by rw [hm, hrefs]; rfl)⟩
      | false => exact finished_upload (by rw [hm, hreads]) (by rw [hm, hrefs]; rfl)
  rw [length_tapRequests] at hdoes
  have hopening : ∀ e ∈ feedScript c ++ selectScript c i liked, e.plain = true := by
    cases liked <;> simp [feedScript, selectScript, Event.plain]
  exact hdoes.after hopen hopening rfl

end UTrend
