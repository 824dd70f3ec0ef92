/-
One user, alone, and the heart of a post.

A tap likes or takes back by what the heart shows, and the heart shows nothing until
the answer to `Social.prepare` arrives.  A user who has liked the post before and
taps first is counted twice.

The user is alone from some state on: only this phone does anything, and it opens,
taps and closes posts (`Event.alone`).  The label then always shows the stored
count, so a tap changes the count by one, up or down as the heart shows, and the
like is there afterwards or not, again as the heart shows.  What the like was
before is the only thing that can be wrong.
-/
import UTrend.Proofs.Submission
import UTrend.Proofs.Taps

namespace UTrend

variable {C : Type} {me : C → String} {s s' : World C}

open World

/-- The two stored copies of a count. -/
inductive Copy
  | author
  | social
deriving DecidableEq, Repr

/-- Where a copy is. -/
def Copy.path (uID id : String) : Copy → Path
  | .author => .post uID id
  | .social => .social id

/-- What a user who is alone on a phone does: opens posts, taps hearts and goes back. -/
def Act.browses : Act → Bool
  | .viewSocial | .select _ | .image | .tap _ | .back => true
  | _ => false

/-- Only phone `c` is used, and only to browse. -/
def Event.alone [DecidableEq C] (c : C) : Event C → Bool
  | .act d a => d = c && a.browses
  | .answer d _ _ | .arrive d _ | .upload d _ _ | .commit d => d = c

/-- A post that is opened shows the count that is stored. -/
def Shows (copy : Copy) (s : World C) (e : Event C) : Prop :=
  ∀ post ∈ s.selection e, ∀ id ∈ post.pid, ∀ uID ∈ post.uid, post.likes.isSome ∧
    post.likes = storedNumber (s.view e.client) (copy.path uID id) "likes"

instance (copy : Copy) (s : World C) (e : Event C) : Decidable (Shows copy s e) :=
  inferInstanceAs (Decidable (∀ post ∈ s.selection e, ∀ id ∈ post.pid, ∀ uID ∈ post.uid,
    post.likes.isSome ∧
      post.likes = storedNumber (s.view e.client) (copy.path uID id) "likes"))

/-- The stored count goes up by one exactly if the like goes from absent to present, and
down by one exactly if it goes from present to absent. -/
structure Counts (before after : Store) (count like : Path) : Prop where
  up : storedNumber after count "likes" = (storedNumber before count "likes").map (· + 1) ↔
    like ∉ before ∧ like ∈ after
  down : storedNumber after count "likes" = (storedNumber before count "likes").map (· - 1) ↔
    like ∈ before ∧ like ∉ after

/-- A tap counts as it should. -/
def TapRight [DecidableEq C] (me : C → String) (copy : Copy) (s : World C) (e : Event C) :
    Prop :=
  e.taps → ∀ s' ∈ step me s e, ∀ v ∈ (s.phone e.client).more, ∀ id ∈ v.id, ∀ uID ∈ v.uID,
    Counts (s.view e.client) (s'.view e.client) (copy.path uID id) (.like (me e.client) id)

/-- The heart that is tapped shows whether the post is liked. -/
def HeartTrue (me : C → String) (s : World C) (e : Event C) : Prop :=
  e.taps → ∀ v ∈ (s.phone e.client).more, ∀ id ∈ v.id,
    (v.likeHeartImg = some .fillLikeheart ↔ Path.like (me e.client) id ∈ s.view e.client)

instance (me : C → String) (s : World C) (e : Event C) : Decidable (HeartTrue me s e) :=
  inferInstanceAs (Decidable (e.taps → ∀ v ∈ (s.phone e.client).more, ∀ id ∈ v.id, (_ ↔ _)))

/-! ### What a tap leaves -/

theorem Copy.path_cases (uID id : String) (copy : Copy) :
    copy.path uID id = .post uID id ∨ copy.path uID id = .social id := by
  cases copy with
  | author => exact Or.inl rfl
  | social => exact Or.inr rfl

/-- **A tap of a label that shows the stored count counts right if and only if the heart
shows whether the post is liked.** -/
theorem counts_tap_iff {db : Store} {m imgN uID id : String} {tap : Tap} {copy : Copy}
    (hstored : storedNumber db (copy.path uID id) "likes" = some tap.number) :
    Counts db (written db (SocialMore.tapRequests m imgN uID id tap)) (copy.path uID id)
        (.like m id) ↔
      (tap.filled = true ↔ Path.like m id ∈ db) := by
  have hafter : storedNumber (written db (SocialMore.tapRequests m imgN uID id tap))
      (copy.path uID id) "likes" = some tap.newNum :=
    storedNumber_written db tap (copy.path_cases uID id)
  have hlike : Path.like m id ∈ written db (SocialMore.tapRequests m imgN uID id tap) ↔
      tap.filled = false := like_mem_written db tap
  have hnum : tap.newNum = if tap.filled then tap.number - 1 else tap.number + 1 := rfl
  constructor
  · rintro ⟨hup, hdown⟩
    rw [hafter, hstored, hlike, hnum] at hup hdown
    cases hf : tap.filled with
    | true => simpa [hf] using hdown
    | false => simpa [hf] using hup
  · intro hheart
    constructor
    · rw [hafter, hstored, hlike, hnum, ← hheart]
      cases hf : tap.filled <;> simp
      omega
    · rw [hafter, hstored, hlike, hnum, ← hheart]
      cases hf : tap.filled <;> simp
      omega

/-! ### The open post -/

/-- A callback sets the heart of the open post, and nothing else of it. -/
theorem Phone.callback_more {m : String} {p p' : Phone} {a : Ask} {answer : Answer}
    {rs : List Request} (h : p.callback m a answer = some (p', rs)) {v : SocialMore}
    (hv : p'.more = some v) :
    ∃ w, p.more = some w ∧ v.id = w.id ∧ v.uID = w.uID ∧ v.likes = w.likes := by
  rcases Phone.callback_eq_some h with ⟨snap, -, -, -, rfl⟩ | ⟨snap, -, -, -, rfl⟩ |
    ⟨view, id, liked, -, -, rfl⟩ | ⟨id, form, doc, profImg, username, -, -, rfl, -⟩ | ⟨rfl, -, -⟩
  · exact ⟨v, hv, rfl, rfl, rfl⟩
  · exact ⟨v, hv, rfl, rfl, rfl⟩
  · obtain ⟨w, hw, rfl⟩ := Option.map_eq_some_iff.mp hv
    exact ⟨w, hw, rfl, rfl, rfl⟩
  · exact ⟨v, hv, rfl, rfl, rfl⟩
  · exact ⟨v, hv, rfl, rfl, rfl⟩

variable [DecidableEq C]

/-- The label of the open post shows the stored count, or nothing, and no answer that is on
its way will be written down. -/
structure Watched (copy : Copy) (c : C) (s : World C) : Prop where
  label : ∀ v, (s.phone c).more = some v → ∀ id uID, v.id = some id → v.uID = some uID →
    ∃ n, storedNumber (s.view c) (copy.path uID id) "likes" = some n ∧
      (v.likes = some (Decimal.text n) ∨ v.likes = some "")
  unasked : ∀ r ∈ (s.phone c).reads, ∀ id form, r.ask ≠ .author id form

/-- A phone that browses writes only when a heart is tapped. -/
theorem view_step {copy : Copy} {c : C} (hW : Watched copy c s) {e : Event C}
    (halone : e.alone c) (htap : ∀ imgN, e ≠ .act c (.tap imgN))
    (h : step me s e = some s') : s'.view c = s.view c := by
  have hclient : e.client = c := by
    cases e <;> simp_all [Event.alone, Event.client]
  obtain ⟨rs, heff, hnet⟩ := step_effect h
  rw [hclient] at heff hnet
  have hrs : rs = [] := by
    generalize (s'.phone c).reads = reads, (s'.phone c).uploads = uploads at heff
    cases heff with
    | tap imgN => exact absurd rfl (htap imgN)
    | publish k hread =>
        exact absurd rfl (hW.unasked _ (List.mem_of_getElem? hread) _ _)
    | signUp | submit | delete | addToCloset | picture =>
        simp [Event.alone, Act.browses] at halone
    | _ => rfl
  rcases hnet with hnet | ⟨-, -, hnet⟩
  · rw [World.view, World.view, hnet, Net.issue_seen_self, hrs, List.append_nil]
  · rw [World.view, World.view, Net.commit_seen_self hnet]

/-- Where the open post comes from: it was open, or has just been opened. -/
theorem more_step {c : C} {e : Event C} (halone : e.alone c)
    (htap : ∀ imgN, e ≠ .act c (.tap imgN)) (h : step me s e = some s') {v : SocialMore}
    (hv : (s'.phone c).more = some v) :
    (∃ w, (s.phone c).more = some w ∧ v.id = w.id ∧ v.uID = w.uID ∧ v.likes = w.likes) ∨
      ∃ i post, e = .act c (.select i) ∧ (s.phone c).posts[i]? = some post ∧
        v = (Social.prepare post).setUp := by
  cases e with
  | act d a =>
      obtain rfl : d = c := by
        simp only [Event.alone, Bool.and_eq_true, decide_eq_true_eq] at halone
        exact halone.1
      obtain ⟨-, p, rs, hrun, rfl⟩ := step_act h
      simp only [setPhone_self] at hv
      cases a with
      | viewSocial =>
          obtain ⟨rfl, -⟩ := Prod.mk.inj (Option.some.inj hrun)
          exact Or.inl ⟨v, hv, rfl, rfl, rfl⟩
      | select i =>
          obtain ⟨post, pid, hpost, -, rfl, -⟩ := Act.run_select hrun
          exact Or.inr ⟨i, post, rfl, hpost, (Option.some.inj hv).symm⟩
      | image =>
          obtain ⟨w, hw, rfl, -⟩ := Act.run_image hrun
          obtain rfl := (Option.some.inj hv).symm
          exact Or.inl ⟨w, hw, rfl, rfl, rfl⟩
      | tap imgN => exact absurd rfl (htap imgN)
      | back =>
          obtain ⟨rfl, -⟩ := Act.run_back hrun
          simp [Phone.fetchSocialPost, Phone.ask] at hv
      | _ => simp [Event.alone, Act.browses] at halone
  | answer d k ok =>
      obtain rfl : d = c := by simpa [Event.alone] using halone
      obtain ⟨_, _, rfl⟩ := step_answer h
      simp only [setPhone_self] at hv
      exact Or.inl ⟨v, hv, rfl, rfl, rfl⟩
  | arrive d k =>
      obtain rfl : d = c := by simpa [Event.alone] using halone
      obtain ⟨a, answer, p, rs, -, hcall, rfl⟩ := step_arrive h
      simp only [setPhone_self] at hv
      obtain ⟨w, hw, hsame⟩ := Phone.callback_more hcall hv
      exact Or.inl ⟨w, hw, hsame⟩
  | upload d k ok =>
      obtain rfl : d = c := by simpa [Event.alone] using halone
      obtain ⟨_, _, rfl⟩ := step_upload h
      simp only [setPhone_self] at hv
      exact Or.inl ⟨v, hv, rfl, rfl, rfl⟩
  | commit d =>
      obtain rfl : d = c := by simpa [Event.alone] using halone
      obtain ⟨r, _, _, _, _, rfl⟩ := step_commit h
      simp only [setPhone_self] at hv
      refine Or.inl ⟨v, ?_, rfl, rfl, rfl⟩
      cases r <;> exact hv

/-- **A tap, when the label shows the stored count.** -/
theorem tap_step {copy : Copy} {c : C} (hW : Watched copy c s) {imgN : String}
    (h : step me s (.act c (.tap imgN)) = some s') :
    ∃ v uID id tap, (s.phone c).more = some v ∧ v.uID = some uID ∧ v.id = some id ∧
      tap.filled = decide (v.likeHeartImg = some .fillLikeheart) ∧
      storedNumber (s.view c) (copy.path uID id) "likes" = some tap.number ∧
      s'.view c = written (s.view c) (SocialMore.tapRequests (me c) imgN uID id tap) ∧
      ∃ v', (s'.phone c).more = some v' ∧ v'.id = some id ∧ v'.uID = some uID ∧
        v'.likes = some (Decimal.text tap.newNum) := by
  obtain ⟨v, v', hv, hv', hsession⟩ := step_tap h
  obtain ⟨number, uID, id, newNum, hnumber, huID, hid, hnew, hview, rfl⟩ :=
    LikeSession.step_changeLike hsession
  obtain ⟨n, hstored, hlabel⟩ := hW.label v hv id uID hid huID
  have hn : number = n := by
    rcases hlabel with hlabel | hlabel
    · rw [hlabel, Option.bind_some, intOfText_text] at hnumber
      exact int64_eq_some hnumber
    · rw [hlabel] at hnumber
      exact absurd hnumber (by simp [show intOfText "" = none from rfl])
  subst hn
  obtain rfl := int64_eq_some hnew
  exact ⟨v, uID, id, ⟨number, decide (v.likeHeartImg = some .fillLikeheart)⟩, hv, huID, hid,
    rfl, hstored, hview, _, hv', hid, huID, rfl⟩

/-- **The label keeps showing the stored count, while the user is alone.** -/
theorem watched_step {copy : Copy} {c : C} (hW : Watched copy c s) {e : Event C}
    (halone : e.alone c) (hshows : Shows copy s e) (h : step me s e = some s') :
    Watched copy c s' where
  label v hv id uID hid huID := by
    by_cases htap : ∃ imgN, e = .act c (.tap imgN)
    · obtain ⟨imgN, rfl⟩ := htap
      obtain ⟨w, uID', id', tap, -, -, -, -, -, hview, v', hv', hid', huID', hlabel⟩ :=
        tap_step hW h
      obtain rfl := Option.some.inj (hv'.symm.trans hv)
      obtain rfl := Option.some.inj (hid'.symm.trans hid)
      obtain rfl := Option.some.inj (huID'.symm.trans huID)
      have hstored : storedNumber (written (s.view c)
          (SocialMore.tapRequests (me c) imgN uID' id' tap)) (copy.path uID' id') "likes" =
          some tap.newNum :=
        storedNumber_written (s.view c) tap (copy.path_cases uID' id')
      exact ⟨tap.newNum, hview ▸ hstored, Or.inl hlabel⟩
    · have htap : ∀ imgN, e ≠ .act c (.tap imgN) := fun imgN he => htap ⟨imgN, he⟩
      rw [view_step hW halone htap h]
      rcases more_step halone htap h hv with
        ⟨w, hw, hwid, hwuID, hwlikes⟩ | ⟨i, post, rfl, hpost, rfl⟩
      · rw [hwlikes]
        exact hW.label w hw id uID (hwid ▸ hid) (hwuID ▸ huID)
      · obtain ⟨hpid, hpuid⟩ := SocialMore.setUp_post (Social.prepare post)
        obtain ⟨hsome, hstored⟩ := hshows post hpost id (hpid.symm.trans hid) uID
          (hpuid.symm.trans huID)
        obtain ⟨n, hn⟩ := Option.isSome_iff_exists.mp hsome
        exact ⟨n, hstored.symm.trans hn, SocialMore.setUp_likes hn⟩
  unasked r hr id form ha := by
    obtain ⟨rs, heff, -⟩ := step_history h c
    rcases heff.read_cases hr with hr | ⟨-, hnew⟩ | ⟨k, ok, -, hread, -⟩
    · exact hW.unasked r hr id form ha
    · obtain ⟨rfl, -⟩ := hnew id form ha
      simp [Event.alone, Act.browses] at halone
    · exact hW.unasked _ (List.mem_of_getElem? hread) id form ha

theorem right_iff_step {copy : Copy} {c : C} (hW : Watched copy c s) {e : Event C}
    (halone : e.alone c) (htaken : (step me s e).isSome) :
    TapRight me copy s e ↔ HeartTrue me s e := by
  obtain ⟨s', h⟩ := Option.isSome_iff_exists.mp htaken
  cases e with
  | act d a =>
      cases a with
      | tap imgN =>
          obtain rfl : d = c := by
            simp only [Event.alone, Bool.and_eq_true, decide_eq_true_eq] at halone
            exact halone.1
          obtain ⟨v, uID, id, tap, hv, huID, hid, hfilled, hstored, hview, -⟩ := tap_step hW h
          have hiff : Counts (s.view d) (s'.view d) (copy.path uID id) (.like (me d) id) ↔
              (tap.filled = true ↔ Path.like (me d) id ∈ s.view d) := by
            rw [hview]
            exact counts_tap_iff hstored
          rw [hfilled, decide_eq_true_eq] at hiff
          simp only [TapRight, HeartTrue, Event.client, h, hv, huID, hid, Option.mem_def,
            Option.some.injEq, forall_eq', Event.taps, forall_const]
          exact hiff
      | _ => simp [TapRight, HeartTrue, Event.taps]
  | _ => simp [TapRight, HeartTrue, Event.taps]

/-- **A user who is alone is counted right at every tap if and only if the heart shows at
every tap whether the post is liked.** -/
theorem taps_right_iff (copy : Copy) {c : C} {es : List (Event C)}
    (hclosed : (s.phone c).more = none)
    (hunasked : ∀ r ∈ (s.phone c).reads, ∀ id form, r.ask ≠ .author id form)
    (hrun : Machine.run (step me) s es = some s') (halone : ∀ e ∈ es, e.alone c)
    (hshows : Machine.Along (step me) (Shows copy) s es) :
    Machine.Along (step me) (TapRight me copy) s es ↔
      Machine.Along (step me) (HeartTrue me) s es := by
  have halong := Machine.along_and.mpr ⟨Machine.along_of_forall halone s,
    Machine.along_and.mpr ⟨hshows, Machine.along_isSome hrun⟩⟩
  exact Machine.along_congr (I := Watched copy c)
    (fun s e s' hW hP h => watched_step hW hP.1 hP.2.1 h)
    (fun s e hW hP => right_iff_step hW hP.1 hP.2.2)
    ⟨by simp [hclosed], hunasked⟩ halong

set_option maxRecDepth 100000 in
/-- Bob opens the post, waits for the heart, likes the post and takes it back, and is counted
right both times. -/
theorem taps_right_duo :
    ∃ s, Machine.run (step duo) init (signingUp ++ submitting ++ publishing) = some s ∧
      Machine.Along (step duo) (HeartTrue duo) s (opening 1 ++ tapping 1 ++ tapping 1) ∧
      Machine.Along (step duo) (TapRight duo .social) s (opening 1 ++ tapping 1 ++ tapping 1) := by
  obtain ⟨s, hs, hclosed, hreads, hshows, htrue, s', hs', -⟩ :
      ∃ s, Machine.run (step duo) init (signingUp ++ submitting ++ publishing) = some s ∧
        (s.phone 1).more = none ∧ (s.phone 1).reads = [] ∧
        Machine.Along (step duo) (Shows .social) s (opening 1 ++ tapping 1 ++ tapping 1) ∧
        Machine.Along (step duo) (HeartTrue duo) s (opening 1 ++ tapping 1 ++ tapping 1) ∧
        ∃ s', Machine.run (step duo) s (opening 1 ++ tapping 1 ++ tapping 1) = some s' ∧
          True := by
    decide +kernel
  have hiff := taps_right_iff .social hclosed (by simp [hreads]) hs' (by decide) hshows
  exact ⟨s, hs, htrue, hiff.mpr htrue⟩

set_option maxRecDepth 100000 in
/-- **One user is counted twice.**  Bob has liked the post; he opens it again and taps before
the heart has arrived. -/
theorem counted_twice :
    ∃ s, Machine.run (step duo) init (signingUp ++ submitting ++ publishing ++ opening 1
        ++ tapping 1 ++ [.act 1 .back, .answer 1 0 true, .arrive 1 0, .act 1 (.select 0),
          .act 1 .image]) = some s ∧
      storedNumber s.db (.social "p") "likes" = some 1 ∧ Path.like "bob" "p" ∈ s.db ∧
      ∃ s', Machine.run (step duo) s (tapping 1) = some s' ∧
        storedNumber s'.db (.social "p") "likes" = some 2 ∧ Path.like "bob" "p" ∈ s'.db := by
  decide +kernel

end UTrend
