/-
Phones that fetch at rest agree.

While writes wait and answers are on their way, phones show what they may: `Shown` and its
users say how wrong that can be.  Left alone, the system comes to rest, and then a fetch
is answered with the database itself.  So whoever fetches, and in whatever order, lists
the public posts that the database has, each once, and the own posts of its user.
-/
import UTrend.Proofs.Cells
import UTrend.Proofs.Settling

namespace UTrend

open World

variable {C : Type} [DecidableEq C] {me : C → String} {s s' : World C}

/-- The public feed appears, is answered and delivered; then the own feed. -/
def World.fetching (c : C) : List (Event C) :=
  [.act c .viewSocial, .answer c 0 true, .arrive c 0,
    .act c .refresh, .answer c 0 true, .arrive c 0]

/-- The phone once it has fetched. -/
def World.fetched (me : C → String) (s : World C) (c : C) : Phone :=
  { s.phone c with
    posts := Social.fetchSocialPost.listOf
      ((Social.fetchSocialPost.collection (me c)).documents (s.view c))
    feed := postFeed.fetchData.listOf
      ((postFeed.fetchData.collection (me c)).documents (s.view c)) }

theorem run_fetching {c : C} (hsigned : (s.phone c).signedIn = true)
    (hreads : (s.phone c).reads = []) :
    Machine.run (step me) s (fetching c) = some (s.setPhone c (s.fetched me c)) := by
  simp [Machine.run, fetching, fetched, step, allows, Act.run, Act.signsIn, hsigned, hreads,
    Phone.fetchSocialPost, Phone.fetchData, Phone.ask, Phone.callback, register, setPhone,
    Loader.call, Loader.append_eq, Ask.answerOf, view]

theorem fetched_setPhone (s : World C) (c d : C) :
    (s.setPhone c (s.fetched me c)).fetched me d = s.fetched me d := by
  by_cases hd : d = c
  · subst hd
    simp [fetched, view]
  · simp [fetched, view, setPhone_ne s hd]

theorem idle_fetched (hidle : s.Idle) (c : C) : (s.setPhone c (s.fetched me c)).Idle := by
  refine ⟨hidle.1, fun d => ?_⟩
  by_cases hd : d = c
  · subst hd
    simpa [fetched] using hidle.2 d
  · simpa [setPhone_ne s hd] using hidle.2 d

/-- **Phones that fetch at rest list the database as it was**, one after the other.  The
induction is on the phones. -/
theorem run_all_fetching (me : C → String) {cs : List C} (hidle : s.Idle)
    (hsigned : ∀ c ∈ cs, (s.phone c).signedIn = true) :
    ∃ s', Machine.run (step me) s (cs.flatMap fetching) = some s' ∧ s'.Idle ∧ s'.net = s.net ∧
      (∀ d, d ∉ cs → s'.phone d = s.phone d) ∧ ∀ c ∈ cs, s'.phone c = s.fetched me c := by
  induction cs generalizing s with
  | nil => exact ⟨s, rfl, hidle, rfl, fun _ _ => rfl, by simp⟩
  | cons c cs ih =>
      have hfirst : Machine.run (step me) s (fetching c) = some (s.setPhone c (s.fetched me c)) :=
        run_fetching (hsigned c (by simp)) (hidle.2 c).1
      have hkept : ∀ d ∈ cs, ((s.setPhone c (s.fetched me c)).phone d).signedIn = true := by
        intro d hd
        by_cases hdc : d = c
        · subst hdc
          rw [setPhone_self]
          exact hsigned d (by simp)
        · rw [setPhone_ne s hdc]
          exact hsigned d (by simp [hd])
      obtain ⟨s', hrun, hidle', hnet, hothers, hthese⟩ := ih (idle_fetched hidle c) hkept
      refine ⟨s', ?_, hidle', hnet, fun d hd => ?_, fun d hd => ?_⟩
      · exact Machine.run_append_eq_some.mpr ⟨_, hfirst, hrun⟩
      · rw [List.mem_cons, not_or] at hd
        rw [hothers d hd.2, setPhone_ne s hd.1]
      · by_cases hmem : d ∈ cs
        · rw [hthese d hmem, fetched_setPhone]
        · obtain rfl := (List.mem_cons.mp hd).resolve_right hmem
          rw [hothers d hmem, setPhone_self]

/-! ### Runs -/

/-- The environment does nothing that needs a document of a user. -/
theorem along_documented {es : List (Event C)} (hes : ∀ e ∈ es, e.environment = true)
    (s : World C) : Machine.Along (step me) (Documented me) s es := by
  induction es generalizing s with
  | nil => trivial
  | cons e es ih =>
      refine ⟨fun h => ?_, fun s' _ => ih (fun x hx => hes x (by simp [hx])) s'⟩
      have he := hes e (by simp)
      cases e <;> simp [Event.environment, Event.pictures, submission] at he h

/-- The ids of a list of public posts are those of its documents. -/
theorem pids_listOf (snap : List Doc) :
    (Social.fetchSocialPost.listOf snap).filterMap Post.pid =
        snap.filterMap (fun d => Doc.string d "ID") ∧
      (postFeed.fetchData.listOf snap).filterMap Post.pid =
        snap.filterMap (fun d => Doc.string d "ID") := by
  simp [Loader.listOf, Social.fetchSocialPost, postFeed.fetchData, feed, List.filterMap_map]

/-- **Left alone, all phones come to list the same.**  After any documented run the environment
can bring the system to a state where nothing is pending; and wherever it does, any phones
that then fetch, in any order, list the public posts of the database and the posts of their
own users, no id twice, while the database stays as it is. -/
theorem phones_agree [Fintype C] {es : List (Event C)}
    (hrun : Machine.run (step me) init es = some s)
    (hdoc : Machine.Along (step me) (Documented me) init es) :
    (∃ (fs : List (Event C)) (t : World C), (∀ e ∈ fs, e.environment = true) ∧
      Machine.run (step me) s fs = some t ∧ t.Idle) ∧
    ∀ (fs : List (Event C)) (t : World C), (∀ e ∈ fs, e.environment = true) →
      Machine.run (step me) s fs = some t → t.AtRest me →
      ∀ cs : List C, (∀ c ∈ cs, (t.phone c).signedIn = true) →
      ∃ t', Machine.run (step me) t (cs.flatMap fetching) = some t' ∧ t'.db = t.db ∧
        ∀ c ∈ cs,
          (t'.phone c).posts
            = Social.fetchSocialPost.listOf (Collection.socialFeed.documents t.db) ∧
          (t'.phone c).feed
            = postFeed.fetchData.listOf ((Collection.posts (me c)).documents t.db) ∧
          ((t'.phone c).posts.filterMap Post.pid).Nodup ∧
          ((t'.phone c).feed.filterMap Post.pid).Nodup := by
  have hidle : ∀ (fs : List (Event C)) (t : World C), (∀ e ∈ fs, e.environment = true) →
      Machine.run (step me) s fs = some t → t.AtRest me → t.Idle := by
    intro fs t hfs hfs' hrest
    have hP : Profiled me t := Machine.invariant_run
      (fun s e s' hP hd h => profiled_step hP hd h) profiled_init
      (Machine.along_append.mpr ⟨hdoc, fun m _ => along_documented hfs m⟩)
      (Machine.run_append_eq_some.mpr ⟨s, hrun, hfs'⟩)
    exact idle_of_atRest hrest fun c r hr => (hP.reads c r hr).traps _
  constructor
  · obtain ⟨fs, t, hfs, hfs', hrest⟩ := exists_atRest me s
    exact ⟨fs, t, hfs, hfs', hidle fs t hfs hfs' hrest⟩
  · intro fs t hfs hfs' hrest cs hsigned
    have ht := hidle fs t hfs hfs' hrest
    obtain ⟨t', hfetch, -, hnet, -, hthese⟩ := run_all_fetching me ht hsigned
    have hview : ∀ c, t.view c = t.db := fun c => by rw [view, ht.1.seen_eq, db]
    refine ⟨t', hfetch, by rw [db, hnet, db], fun c hc => ?_⟩
    have hlists := hthese c hc
    refine ⟨by rw [hlists, ← hview c]; rfl, by rw [hlists, ← hview c]; rfl, ?_, ?_⟩
    · rw [hlists]
      exact (pids_listOf _).1 ▸ nodup_ids _ _
    · rw [hlists]
      exact (pids_listOf _).2 ▸ nodup_ids _ _

set_option maxRecDepth 100000 in
/-- Bob has opened ann's post and liked it, and his writes still wait.  Once they are applied and
the picture is uploaded, both fetch. -/
theorem phones_agree_duo :
    ∃ s, Machine.run (step duo) init (signingUp ++ submitting ++ publishing ++ opening 1
        ++ [.act 1 (.tap "like")]) = some s ∧
      (∃ (fs : List (Event (Fin 2))) (t : World (Fin 2)), (∀ e ∈ fs, e.environment = true) ∧
        Machine.run (step duo) s fs = some t ∧ t.Idle) ∧
      ∃ t, Machine.run (step duo) s [.commit 1, .commit 1, .commit 1, .upload 1 0 true]
          = some t ∧ t.AtRest duo ∧
        ∃ t', Machine.run (step duo) t ([0, 1].flatMap fetching) = some t' ∧ t'.db = t.db ∧
          ∀ c ∈ [0, 1],
            (t'.phone c).posts
              = Social.fetchSocialPost.listOf (Collection.socialFeed.documents t.db) ∧
            (t'.phone c).feed
              = postFeed.fetchData.listOf ((Collection.posts (duo c)).documents t.db) ∧
            ((t'.phone c).posts.filterMap Post.pid).Nodup ∧
            ((t'.phone c).feed.filterMap Post.pid).Nodup := by
  obtain ⟨s, hs, t, ht, hidle, hsigned⟩ : ∃ s, Machine.run (step duo) init (signingUp
      ++ submitting ++ publishing ++ opening 1 ++ [.act 1 (.tap "like")]) = some s ∧
      ∃ t, Machine.run (step duo) s [.commit 1, .commit 1, .commit 1, .upload 1 0 true]
          = some t ∧ t.Idle ∧ ∀ c ∈ [0, 1], (t.phone c).signedIn = true := by
    decide +kernel
  obtain ⟨hcalm, hfetch⟩ := phones_agree hs (by decide +kernel)
  have hrest : t.AtRest duo :=
    ⟨hidle.1, fun c => ⟨(hidle.2 c).2, by simp [(hidle.2 c).1]⟩⟩
  exact ⟨s, hs, hcalm, t, ht, hrest, hfetch _ t (by simp [Event.environment]) ht hrest _ hsigned⟩

end UTrend
