/-
A row of taps on the heart of one open post.

Each tap puts a new count on the label, changes the heart, writes the count to both
copies of the post, and creates or removes the like.  When these agree at the start
and nobody else writes, they agree after every tap, and the count has moved by what the
like has: `inStep_run`.  `Agree` is the invariant, and `OnlyCounts` is the frame.

A tap that likes the post uploads the picture, and traps as long as there is none.
`like_session` says which rows of taps are carried out.

The label can be read as a number at every tap as long as it could be when the view was
set up.  `setUp` empties it for a post without a caption, and this is the only way
to lose it: `showsLikes_iff`.
-/
import UTrend.Lib.Machine
import UTrend.Proofs.Steps

namespace UTrend

open DocStore

variable {me uID id imgN : String} {s s' : LikeSession}

theorem written_cons (db : Store) (r : Request) (rs : List Request) :
    written db (r :: rs) = written (r.write.apply db) rs := rfl

theorem written_contents (V rs : List Request) :
    contents (V ++ rs) = written (contents V) rs := by
  rw [contents, List.map_append]
  exact replay_append _ _

/-! ### What a tap writes -/

/-- A tap leaves the like there, unless the heart was filled. -/
theorem like_mem_written (db : Store) (tap : Tap) :
    Path.like me id ∈ written db (SocialMore.tapRequests me imgN uID id tap) ↔
      tap.filled = false := by
  unfold SocialMore.tapRequests
  split <;> rename_i hf <;>
    simp [written, mem_apply, Request.write, Write.path, Write.deletes, hf]

/-- A tap leaves its count in both copies. -/
theorem storedNumber_written (db : Store) (tap : Tap) {p : Path}
    (hp : p = .post uID id ∨ p = .social id) :
    storedNumber (written db (SocialMore.tapRequests me imgN uID id tap)) p "likes" =
      some tap.newNum := by
  unfold SocialMore.tapRequests storedNumber
  rcases hp with rfl | rfl
  all_goals
    split <;>
      simp [written, lookup_apply, Request.write, Write.path, Write.result, Doc.number,
        Doc.update, Value.asNumber]

/-- Nothing but the counts of a post and one user's like of it is different. -/
structure OnlyCounts (me uID id : String) (db db' : Store) : Prop where
  others : ∀ p, p ≠ .like me id → p ≠ .post uID id → p ≠ .social id →
    db'.lookup p = db.lookup p
  fields : ∀ p, p = .post uID id ∨ p = .social id → ∀ k, k ≠ "likes" →
    field db' p k = field db p k

theorem OnlyCounts.refl (db : Store) : OnlyCounts me uID id db db :=
  ⟨fun _ _ _ _ => rfl, fun _ _ _ _ => rfl⟩

theorem OnlyCounts.trans {db db' db'' : Store} (h : OnlyCounts me uID id db db')
    (h' : OnlyCounts me uID id db' db'') : OnlyCounts me uID id db db'' where
  others p hlike hpost hsocial :=
    (h'.others p hlike hpost hsocial).trans (h.others p hlike hpost hsocial)
  fields p hp k hk := (h'.fields p hp k hk).trans (h.fields p hp k hk)

theorem onlyCounts_written (db : Store) (tap : Tap) :
    OnlyCounts me uID id db (written db (SocialMore.tapRequests me imgN uID id tap)) where
  others p hlike hpost hsocial := by
    refine lookup_foldl_apply (fun w hw => ?_) db
    obtain ⟨r, hr, rfl⟩ := List.mem_map.mp hw
    rcases SocialMore.mem_tapRequests hr with rfl | rfl | ⟨-, rfl⟩ | ⟨-, rfl⟩
    · exact hpost.symm
    · exact hsocial.symm
    · exact hlike.symm
    · exact hlike.symm
  fields p hp k hk := by
    refine field_foldl_apply (fun w hw => ?_) db
    obtain ⟨r, hr, rfl⟩ := List.mem_map.mp hw
    have hlikes : ∀ n : Value, [("likes", n)].lookup k = none := by
      intro n
      have : (k == "likes") = false := beq_false_of_ne hk
      simp only [List.lookup_cons, this, List.lookup_nil]
    rcases SocialMore.mem_tapRequests hr with rfl | rfl | ⟨-, rfl⟩ | ⟨-, rfl⟩
    · exact fun _ => hlikes _
    · exact fun _ => hlikes _
    · rintro rfl
      rcases hp with hp | hp <;> simp at hp
    · rintro rfl
      rcases hp with hp | hp <;> simp at hp

/-! ### A session -/

/-- Whether the like is there, as a number. -/
def likedNow (me id : String) (db : Store) : Int := if Path.like me id ∈ db then 1 else 0

/-- The label and both copies of the post show `n`, and the heart shows whether the like is
there. -/
structure Agree (me uID id : String) (n : Int) (s : LikeSession) : Prop where
  viewId : s.view.id = some id
  viewUID : s.view.uID = some uID
  heart : s.view.likeHeartImg = some .fillLikeheart ↔ Path.like me id ∈ s.db
  label : s.view.likes = some (Decimal.text n)
  post : storedNumber s.db (.post uID id) "likes" = some n
  social : storedNumber s.db (.social id) "likes" = some n

/-- What a tap that does not trap does to the session. -/
theorem LikeSession.step_changeLike (h : s.step me (.changeLike imgN) = some s') :
    ∃ number uID id newNum, s.view.likes.bind intOfText = some number ∧
      s.view.uID = some uID ∧ s.view.id = some id ∧
      let tap : Tap := ⟨number, decide (s.view.likeHeartImg = some .fillLikeheart)⟩
      int64 tap.newNum = some newNum ∧
      s'.db = written s.db (SocialMore.tapRequests me imgN uID id tap) ∧
      s'.view = { s.view with
        likeHeartImg := some (if tap.filled then .likeheart else .fillLikeheart)
        likes := some (Decimal.text newNum) } := by
  simp only [step, Option.bind_eq_bind, Option.bind_eq_some_iff] at h
  obtain ⟨⟨v, rs, refs⟩, hchange, hs'⟩ := h
  obtain rfl := (Option.some.inj hs').symm
  obtain ⟨number, uID, id, newNum, hnumber, huID, hid, hnew, rfl, -, rfl⟩ :=
    SocialMore.changeLike_eq_some hchange
  exact ⟨number, uID, id, newNum, hnumber, huID, hid, hnew, rfl, rfl⟩

/-- **A tap moves the count by what it does to the like.** -/
theorem agree_step {n : Int} (hA : Agree me uID id n s)
    (h : s.step me (.changeLike imgN) = some s') :
    Agree me uID id (n + likedNow me id s'.db - likedNow me id s.db) s' ∧
      OnlyCounts me uID id s.db s'.db ∧ s'.view.postImg = s.view.postImg := by
  obtain ⟨number, uID', id', newNum, hnumber, huID, hid, hnew, hdb, hview⟩ :=
    LikeSession.step_changeLike h
  obtain rfl := Option.some.inj (hA.viewUID.symm.trans huID)
  obtain rfl := Option.some.inj (hA.viewId.symm.trans hid)
  have hn : number = n := by
    rw [hA.label, Option.bind_some, intOfText_text] at hnumber
    exact int64_eq_some hnumber
  subst hn
  obtain rfl := int64_eq_some hnew
  generalize htap : (⟨number, decide (s.view.likeHeartImg = some .fillLikeheart)⟩ : Tap) = tap
    at hdb hview
  have hnumber' : tap.number = number := by rw [← htap]
  have hfilled : tap.filled = true ↔ Path.like me id ∈ s.db := by
    rw [← hA.heart, ← htap]
    exact decide_eq_true_iff
  have hlike : Path.like me id ∈ s'.db ↔ tap.filled = false := by
    rw [hdb]
    exact like_mem_written s.db tap
  have hcount : tap.newNum = number + likedNow me id s'.db - likedNow me id s.db := by
    unfold likedNow Tap.newNum
    cases hf : tap.filled with
    | true =>
        rw [if_pos rfl, if_neg (by simp [hlike, hf]), if_pos (hfilled.mp hf), hnumber']
        omega
    | false =>
        rw [if_neg (by simp), if_pos (hlike.mpr hf), if_neg (by simp [← hfilled, hf]), hnumber']
        omega
  rw [← hcount]
  refine ⟨⟨?_, ?_, ?_, ?_, ?_, ?_⟩, hdb ▸ onlyCounts_written s.db tap, by rw [hview]⟩
  · rw [hview]
    exact hA.viewId
  · rw [hview]
    exact hA.viewUID
  · rw [hlike, hview]
    cases tap.filled <;> simp
  · rw [hview]
  · rw [hdb]
    exact storedNumber_written s.db tap (Or.inl rfl)
  · rw [hdb]
    exact storedNumber_written s.db tap (Or.inr rfl)

theorem likedNow_cases (me id : String) (db : Store) :
    likedNow me id db = 0 ∨ likedNow me id db = 1 := by
  unfold likedNow
  split
  · exact Or.inr rfl
  · exact Or.inl rfl

/-- The heart shows whether the like is there, and a tap turns both round. -/
theorem like_toggled {n : Int} (hA : Agree me uID id n s)
    (h : s.step me (.changeLike imgN) = some s') :
    Path.like me id ∈ s'.db ↔ Path.like me id ∉ s.db := by
  obtain ⟨number, uID', id', newNum, -, -, hid, -, hdb, -⟩ := LikeSession.step_changeLike h
  obtain rfl := Option.some.inj (hA.viewId.symm.trans hid)
  rw [hdb, like_mem_written, ← hA.heart]
  exact decide_eq_false_iff_not

/-- **A tap traps if and only if it likes the post and the picture is not there yet**, when the
counts on either side are in range. -/
theorem changeLike_isSome_iff {n : Int} (hA : Agree me uID id n s) (hn : int64 n = some n)
    (hdown : Path.like me id ∈ s.db → int64 (n - 1) = some (n - 1))
    (hup : Path.like me id ∉ s.db → int64 (n + 1) = some (n + 1)) :
    (s.step me (.changeLike imgN)).isSome ↔
      s.view.postImg = true ∨ Path.like me id ∈ s.db := by
  have hnumber : s.view.likes.bind intOfText = some n := by
    rw [hA.label, Option.bind_some, intOfText_text, hn]
  by_cases hfilled : s.view.likeHeartImg = some .fillLikeheart
  · have hlike := hA.heart.mp hfilled
    simp [LikeSession.step, SocialMore.changeLike, hnumber, hA.viewUID, hA.viewId, hfilled,
      Tap.newNum, hdown hlike, hlike]
  · have hlike : Path.like me id ∉ s.db := fun hlike => hfilled (hA.heart.mpr hlike)
    -- the branch that calls `addImg`
    cases himg : s.view.postImg <;>
      simp [LikeSession.step, SocialMore.changeLike, SocialMore.addImg, hnumber, hA.viewUID,
        hA.viewId, hfilled, himg, Tap.newNum, hup hlike, hlike]

/-- The session has moved its count by what the like has since `s`. -/
structure InStep (me uID id : String) (n₀ : Int) (s t : LikeSession) : Prop where
  agree : Agree me uID id (n₀ + likedNow me id t.db - likedNow me id s.db) t
  only : OnlyCounts me uID id s.db t.db
  postImg : t.view.postImg = s.view.postImg

theorem InStep.refl {n₀ : Int} (hA : Agree me uID id n₀ s) : InStep me uID id n₀ s s where
  agree := by
    rw [add_sub_cancel_right]
    exact hA
  only := OnlyCounts.refl s.db
  postImg := rfl

theorem inStep_step {n₀ : Int} {t t' : LikeSession} (hI : InStep me uID id n₀ s t)
    (h : t.step me (.changeLike imgN) = some t') : InStep me uID id n₀ s t' := by
  obtain ⟨hagree, honly, himg⟩ := agree_step hI.agree h
  have hn : n₀ + likedNow me id t.db - likedNow me id s.db + likedNow me id t'.db
      - likedNow me id t.db = n₀ + likedNow me id t'.db - likedNow me id s.db := by
    omega
  exact ⟨hn ▸ hagree, hI.only.trans honly, himg.trans hI.postImg⟩

/-- The two counts that a session started at `n₀` goes between are in range. -/
structure NoOverflow (me id : String) (n₀ : Int) (s : LikeSession) : Prop where
  start : (int64 n₀).isSome
  other : (int64 (if Path.like me id ∈ s.db then n₀ - 1 else n₀ + 1)).isSome

theorem int64_of_isSome {n : Int} (h : (int64 n).isSome) : int64 n = some n := by
  obtain ⟨m, hm⟩ := Option.isSome_iff_exists.mp h
  rw [hm, int64_eq_some hm]

theorem NoOverflow.int64_eq {n₀ n : Int} (h : NoOverflow me id n₀ s)
    (hn : n = n₀ ∨ n = n₀ + 1 - 2 * likedNow me id s.db) : int64 n = some n := by
  rcases hn with rfl | rfl
  · exact int64_of_isSome h.start
  · have hother := int64_of_isSome h.other
    unfold likedNow
    split at hother <;> rename_i hlike
    · rw [if_pos hlike, show n₀ + 1 - 2 * 1 = n₀ - 1 by omega, hother]
    · rw [if_neg hlike, show n₀ + 1 - 2 * 0 = n₀ + 1 by omega, hother]

/-- In a session without overflow, **a tap traps if and only if it likes the post and the
picture is not there yet**. -/
theorem InStep.changeLike_isSome_iff {n₀ : Int} {t : LikeSession} (hI : InStep me uID id n₀ s t)
    (hrange : NoOverflow me id n₀ s) :
    (t.step me (.changeLike imgN)).isSome ↔
      s.view.postImg = true ∨ Path.like me id ∈ t.db := by
  have hs := likedNow_cases me id s.db
  have ht := likedNow_cases me id t.db
  rw [← hI.postImg]
  -- the count is one of the two, and a tap takes it to the other
  refine UTrend.changeLike_isSome_iff hI.agree (hrange.int64_eq (by omega))
    (fun hlike => hrange.int64_eq ?_) fun hlike => hrange.int64_eq ?_
  · have hone : likedNow me id t.db = 1 := if_pos hlike
    omega
  · have hzero : likedNow me id t.db = 0 := if_neg hlike
    omega

/-- The events of a row of taps. -/
theorem taps_only (taps : List String) :
    ∀ e ∈ taps.map ViewEvent.changeLike, ∃ imgN, e = .changeLike imgN := by
  intro e he
  obtain ⟨imgN, -, rfl⟩ := List.mem_map.mp he
  exact ⟨imgN, rfl⟩

/-- **Whatever taps have run, screen and database are in step.** -/
theorem inStep_run {n₀ : Int} (hA : Agree me uID id n₀ s) {taps : List String}
    (h : Machine.run (LikeSession.step me) s (taps.map .changeLike) = some s') :
    InStep me uID id n₀ s s' := by
  refine Machine.invariant_run ?_ (InStep.refl hA)
    (Machine.along_of_forall (taps_only taps) s) h
  rintro t e t' hI ⟨imgN, rfl⟩ h
  exact inStep_step hI h

/-- With the picture on the view no tap traps. -/
theorem taps_run {n₀ : Int} (hA : Agree me uID id n₀ s) (hrange : NoOverflow me id n₀ s)
    (himg : s.view.postImg = true) (taps : List String) :
    (Machine.run (LikeSession.step me) s (taps.map .changeLike)).isSome := by
  refine Machine.run_isSome (I := InStep me uID id n₀ s) ?_ (InStep.refl hA) (taps_only taps)
  rintro t e hI ⟨imgN, rfl⟩
  obtain ⟨t', h⟩ := Option.isSome_iff_exists.mp <|
    (hI.changeLike_isSome_iff hrange).mpr (Or.inl himg)
  exact ⟨t', h, inStep_step hI h⟩

/-- **A row of taps runs if and only if the picture is there or no tap likes the post.** -/
theorem taps_isSome_iff {n₀ : Int} (hA : Agree me uID id n₀ s)
    (hrange : NoOverflow me id n₀ s) (taps : List String) :
    (Machine.run (LikeSession.step me) s (taps.map .changeLike)).isSome ↔
      s.view.postImg = true ∨ taps = [] ∨ Path.like me id ∈ s.db ∧ taps.length = 1 := by
  have hfirst : ∀ imgN, (s.step me (.changeLike imgN)).isSome ↔
      s.view.postImg = true ∨ Path.like me id ∈ s.db :=
    fun _ => (InStep.refl hA).changeLike_isSome_iff hrange
  by_cases himg : s.view.postImg = true
  · exact iff_of_true (taps_run hA hrange himg taps) (Or.inl himg)
  match taps with
  | [] => simp
  | [imgN] => simpa [himg] using hfirst imgN
  | imgN :: imgN' :: rest =>
      -- of two taps one likes the post
      refine iff_of_false (fun h => ?_) (by simp [himg])
      obtain ⟨s', hrun⟩ := Option.isSome_iff_exists.mp h
      obtain ⟨t, ht, hrest⟩ := Machine.run_cons_eq_some.mp hrun
      obtain ⟨t', ht', -⟩ := Machine.run_cons_eq_some.mp hrest
      have hliked := ((hfirst imgN).mp (by rw [ht]; rfl)).resolve_left himg
      have hI := inStep_step (InStep.refl hA) ht
      have hagain := ((hI.changeLike_isSome_iff hrange).mp (by rw [ht']; rfl)).resolve_left himg
      exact (like_toggled hA ht).mp hagain hliked

/-- The taps are carried out; screen and database agree at the end, the count has moved by what
the like has, so by one at most, and nothing else is different. -/
def KeepsInStep (me uID id : String) (n₀ : Int) (s : LikeSession) (taps : List String) : Prop :=
  ∃ s', Machine.run (LikeSession.step me) s (taps.map .changeLike) = some s' ∧
    ∃ n, n = n₀ + likedNow me id s'.db - likedNow me id s.db ∧ n₀ - 1 ≤ n ∧ n ≤ n₀ + 1 ∧
      Agree me uID id n s' ∧ OnlyCounts me uID id s.db s'.db

/-- **Screen and database stay in step over a row of taps if and only if the picture is on the
view or no tap likes the post**: there is none, or one that takes a like back. -/
theorem like_session {n₀ : Int} (hA : Agree me uID id n₀ s) (hrange : NoOverflow me id n₀ s)
    (taps : List String) :
    KeepsInStep me uID id n₀ s taps ↔
      s.view.postImg = true ∨ taps = [] ∨ Path.like me id ∈ s.db ∧ taps.length = 1 := by
  rw [← taps_isSome_iff hA hrange taps, Option.isSome_iff_exists]
  constructor
  · rintro ⟨s', hrun, -⟩
    exact ⟨s', hrun⟩
  · rintro ⟨s', hrun⟩
    have hI := inStep_run hA hrun
    have hs := likedNow_cases me id s.db
    have hs' := likedNow_cases me id s'.db
    exact ⟨s', hrun, _, rfl, by omega, by omega, hI.agree, hI.only⟩

/-- A post of Amy's, published. -/
def published : Store :=
  contents [.create "amy" "p" "caption" "img", .publish "amy" "p" "caption" "img" "" "amy"]

/-- Bob has opened it and the heart is there; the picture is not. -/
def bobWaits : LikeSession where
  view := (Social.prepare {
    postImg := some "img"
    textCaption := some "caption"
    likes := some 0
    username := some "amy"
    userPic := some ""
    pid := some "p"
    uid := some "amy" }).setUp.showHeart false
  db := published

/-- Now the picture is, too. -/
def bobSees : LikeSession := { bobWaits with view := { bobWaits.view with postImg := true } }

theorem agree_bob : Agree "bob" "amy" "p" 0 bobWaits :=
  ⟨rfl, rfl, by decide +kernel, rfl, by decide +kernel, by decide +kernel⟩

/-- Three taps. -/
theorem like_session_bob :
    (KeepsInStep "bob" "amy" "p" 0 bobSees ["x", "y", "z"] ↔ bobSees.view.postImg = true ∨
      ["x", "y", "z"] = [] ∨ Path.like "bob" "p" ∈ bobSees.db ∧ ["x", "y", "z"].length = 1) ∧
      KeepsInStep "bob" "amy" "p" 0 bobSees ["x", "y", "z"] := by
  have hA : Agree "bob" "amy" "p" 0 bobSees := { agree_bob with }
  have hiff := like_session hA ⟨by decide, by decide +kernel⟩ ["x", "y", "z"]
  exact ⟨hiff, hiff.mpr (Or.inl rfl)⟩

/-- **A like before the picture has arrived traps**: the heart and the label are changed by then,
and nothing is written. -/
theorem like_without_picture :
    Agree "bob" "amy" "p" 0 bobWaits ∧ NoOverflow "bob" "p" 0 bobWaits ∧
      bobWaits.step "bob" (.changeLike "x") = none ∧
      ¬ KeepsInStep "bob" "amy" "p" 0 bobWaits ["x"] := by
  have htrap : bobWaits.step "bob" (.changeLike "x") = none := by decide +kernel
  refine ⟨agree_bob, ⟨by decide, by decide +kernel⟩, htrap, ?_⟩
  rintro ⟨s', hrun, -⟩
  rw [List.map_singleton, Machine.run_singleton, htrap] at hrun
  simp at hrun

/-- **A tap in the system is a tap of the session**, with the database as the phone sees it. -/
theorem World.step_tap {C : Type} [DecidableEq C] {me : C → String} {w w' : World C} {c : C}
    (h : World.step me w (.act c (.tap imgN)) = some w') :
    ∃ v v', (w.phone c).more = some v ∧ (w'.phone c).more = some v' ∧
      LikeSession.step (me c) ⟨v, w.view c⟩ (.changeLike imgN) = some ⟨v', w'.view c⟩ := by
  obtain ⟨-, p, rs, hrun, hw'⟩ := step_act h
  have hphone : w'.phone c = p := by
    rw [hw']
    exact setPhone_self ..
  have hview : w'.view c = contents (w.net.seen c ++ rs) := by
    rw [hw']
    exact congrArg contents (Net.issue_seen_self ..)
  obtain ⟨v, v', refs, hv, hchange, rfl⟩ := Act.run_tap hrun
  refine ⟨v, v', hv, congrArg Phone.more hphone, ?_⟩
  rw [hview, written_contents]
  simp only [LikeSession.step, hchange, Option.bind_eq_bind, Option.bind_some]
  rfl

/-! ### The label -/

/-- The event is a tap. -/
def ViewEvent.taps : ViewEvent → Bool
  | .changeLike _ => true
  | _ => false

/-- A tap finds a number on the label. -/
def TapParses (s : LikeSession) (e : ViewEvent) : Prop :=
  e.taps → (s.view.likes.bind intOfText).isSome

/-- The view of a post starts with its likes on the label, and whatever the heart shows and
happens afterwards, every tap finds a number there. -/
structure ShowsLikes (me : String) (post : Post) : Prop where
  label : (Social.prepare post).setUp.likes = some (Decimal.text (post.likes.getD 0))
  parses : ∀ (heart : Option HeartImage) (db : Store) (es : List ViewEvent),
    Machine.Along (LikeSession.step me) TapParses
      ⟨{ (Social.prepare post).setUp with likeHeartImg := heart }, db⟩ es

/-- The label has a number that the handler can read. -/
def Readable (s : LikeSession) : Prop :=
  ∃ n, s.view.likes = some (Decimal.text n) ∧ int64 n = some n

/-- **A label that can be read is readable after every event.** -/
theorem readable_step {e : ViewEvent} (hR : Readable s) (h : s.step me e = some s') :
    Readable s' := by
  obtain ⟨n, hlabel, hn⟩ := hR
  cases e with
  | heart liked =>
      obtain rfl := (Option.some.inj h).symm
      exact ⟨n, hlabel, hn⟩
  | image =>
      obtain ⟨name, -, hs'⟩ := Option.bind_eq_some_iff.mp h
      obtain rfl := (Option.some.inj hs').symm
      exact ⟨n, hlabel, hn⟩
  | changeLike imgN =>
      obtain ⟨number, uID, id, newNum, -, -, -, hnew, -, hview⟩ :=
        LikeSession.step_changeLike h
      have hsame := int64_eq_some hnew
      exact ⟨newNum, by rw [hview], by rw [hsame, hnew, hsame]⟩

theorem Readable.parses (hR : Readable s) (e : ViewEvent) : TapParses s e := by
  obtain ⟨n, hlabel, hn⟩ := hR
  intro _
  rw [hlabel, Option.bind_some, intOfText_text, hn]
  rfl

theorem text_ne_empty (n : Int) : Decimal.text n ≠ "" := by
  intro h
  have hparse := Decimal.parse_text n
  rw [h] at hparse
  exact absurd hparse (by simp [show Decimal.parse "" = none from rfl])

theorem SocialMore.setUp_likes_eq (post : Post) :
    (Social.prepare post).setUp.likes =
      if post.textCaption.isSome then some (Decimal.text (post.likes.getD 0)) else some "" := by
  have hzero : Decimal.text 0 = "0" := rfl
  unfold Social.prepare SocialMore.setUp
  cases post.textCaption <;> cases post.likes <;> simp [hzero]

/-- **The label shows the likes and can be read at every tap if and only if the post has a
caption**, and its count, if there is one, is in range. -/
theorem showsLikes_iff (me : String) (post : Post) :
    ShowsLikes me post ↔ post.textCaption.isSome ∧ ∀ n ∈ post.likes, (int64 n).isSome := by
  have hlabel := SocialMore.setUp_likes_eq post
  constructor
  · intro hS
    have hcaption : post.textCaption.isSome := by
      by_contra hnone
      rw [if_neg hnone, hS.label, Option.some.injEq] at hlabel
      exact text_ne_empty _ hlabel
    refine ⟨hcaption, fun n hn => ?_⟩
    have hread : ((Social.prepare post).setUp.likes.bind intOfText).isSome :=
      (hS.parses none ∅ [.changeLike ""]).1 rfl
    have hcount : post.likes.getD 0 = n := by
      rw [show post.likes = some n from hn]
      rfl
    rwa [hS.label, hcount, Option.bind_some, intOfText_text] at hread
  · rintro ⟨hcaption, hrange⟩
    rw [if_pos hcaption] at hlabel
    refine ⟨hlabel, fun heart db es => ?_⟩
    have hcount : int64 (post.likes.getD 0) = some (post.likes.getD 0) := by
      cases hlikes : post.likes with
      | none => rfl
      | some n =>
          exact int64_of_isSome (hrange n hlikes)
    exact Machine.along_of_invariant (I := Readable) (P := fun _ _ => True)
      (fun s e s' hR _ h => readable_step hR h) (fun s e hR _ => hR.parses e)
      ⟨_, hlabel, hcount⟩ (Machine.along_of_forall (P := fun _ => True) (fun _ _ => trivial) _)

/-- A post without a caption. -/
def noCaption : Post where
  postImg := some "img"
  likes := some 3
  username := some "amy"
  userPic := some ""
  pid := some "p"
  uid := some "amy"

/-- **The label of a post without a caption is empty**, and the first tap runs into it. -/
theorem label_emptied :
    (Social.prepare noCaption).setUp.likes = some "" ∧
      SocialMore.changeLike "bob" "x"
        { (Social.prepare noCaption).setUp with
          postImg := true
          likeHeartImg := some .likeheart } = none ∧
      ¬ ShowsLikes "bob" noCaption := by
  refine ⟨by decide +kernel, by decide +kernel, fun hS => ?_⟩
  have hparse := (hS.parses (some .likeheart) ∅ [.changeLike "x"]).1 rfl
  exact absurd hparse (by decide +kernel)

end UTrend
