/-
The phones and their database are a board.

A tap is three writes, a submission is two with a read between, a deletion is two, and the
writes of the phones are applied in any order.  In runs whose writes find what they rely on,
none of that can be told from a board on which every deed is done at once: `refines_board`.
The deeds are those of the writes that have been applied, so each phone's are done in the
order in which the phone has issued them.

`Orderly` puts together what the parts of the app rely on: the user's own document for
pictures and posts, and for the writes about a post that they are up to date, timely and not
crossed.  The invariant is `Refined`, with the board in it.
-/
import UTrend.Proofs.Authorship
import UTrend.Proofs.Convergence
import UTrend.Proofs.Copies
import UTrend.Proofs.Mirror
import UTrend.Proofs.Progress

namespace UTrend

open World

variable {C : Type} {me : C → String} {s s' : World C}

/-! ### What a board shows -/

/-- The header of a profile. -/
def Network.header (n : Network) (uid : String) : Option ProfileHeader :=
  (n.people uid).map fun x => {
    firstName := some x.name.1
    userName := "@" ++ x.name.2
    profileImage := if x.picture = "" then none else some ⟨.profile, x.picture⟩ }

/-- An entry in the public feed, once it is shared. -/
def Network.publicPost (n : Network) (id : String) : Option Post := do
  let e ← n.entries id
  let pic ← e.shared
  let x ← n.people e.author
  some {
    postImg := some e.text.2
    textCaption := some e.text.1
    likes := some ((n.likers id).card : Int)
    username := some x.name.2
    userPic := some pic
    pid := some id
    uid := some e.author }

/-- An entry in the feed of its author. -/
def Network.ownPost (n : Network) (uid id : String) : Option Post := do
  let e ← n.entries id
  if e.author = uid then
    some {
      postImg := some e.text.2
      likes := some ((n.likers id).card : Int)
      textCaption := some e.text.1
      time := some "1 day ago"
      pid := some id }
  else none

/-- An entry in the feed of someone's likes. -/
def Network.likedPost (n : Network) (uid id : String) : Option Post :=
  (n.saved uid id).map fun imgN => { postImg := some imgN }

/-- A piece of clothing, as the racks read it. -/
def Network.garment (n : Network) (uid docId : String) : Option ClothingItem :=
  (n.closet uid docId).map fun g => { uploadedImg := some g.1, type := some g.2 }

/-- The database has the people, the likes and the closets of the board. -/
structure Network.Keeps (n : Network) (db : Store) : Prop where
  header : ∀ uid, Profile.fetchUserDone (db.lookup (.user uid)) = some (n.header uid)
  heart : ∀ uid id, Path.like uid id ∈ db ↔ uid ∈ n.likers id
  liked : ∀ uid id, (db.lookup (.like uid id)).map LikeFeed.fetchData.item = n.likedPost uid id
  closet : ∀ uid docId, (db.lookup (.clothes uid docId)).map TopCell.fetchTops.item
    = n.garment uid docId

/-- The database has the entries of the board, each with as many likes as there are likers. -/
structure Network.Posts (n : Network) (db : Store) : Prop where
  publicFeed : ∀ id, (db.lookup (.social id)).map Social.fetchSocialPost.item = n.publicPost id
  ownFeed : ∀ uid id, (db.lookup (.post uid id)).map postFeed.fetchData.item = n.ownPost uid id

/-- A phone lists the entries of the board: those that are shared, and those of its user. -/
structure Network.ShownOn (n : Network) (uid : String) (p : Phone) : Prop where
  posts : ∀ post, post ∈ p.posts ↔ ∃ id, n.publicPost id = some post
  feed : ∀ post, post ∈ p.feed ↔ ∃ id, n.ownPost uid id = some post

/-- A feed lists the items of the documents of its collection. -/
theorem mem_feed_listOf {collection : String → Collection} {item : Doc → Post} {k : Collection}
    {db : Store} {post : Post} : post ∈ (feed collection item).listOf (k.documents db) ↔
      ∃ id, (db.lookup (k.path id)).map item = some post := by
  unfold Loader.listOf feed
  rw [List.filter_true, List.mem_map]
  constructor
  · rintro ⟨d, hd, rfl⟩
    obtain ⟨p, hp, hlookup⟩ := DocStore.mem_docsIn hd
    obtain ⟨id, rfl⟩ := Collection.holds_iff.mp hp
    exact ⟨id, by rw [hlookup, Option.map_some]⟩
  · rintro ⟨id, hpost⟩
    obtain ⟨d, hlookup, rfl⟩ := Option.map_eq_some_iff.mp hpost
    exact ⟨d, DocStore.mem_docsIn_of_lookup (Collection.holds_iff.mpr ⟨id, rfl⟩) hlookup, rfl⟩

theorem Mirrors.keeps {rs : List Request} {n : Network} (h : Mirrors rs n) :
    n.Keeps (contents rs) where
  header uid := by
    rw [h.people.doc]
    cases hx : n.people uid with
    | none => simp [Profile.fetchUserDone, Network.header, hx]
    | some x =>
        have hname : Doc.string (userDoc uid x) "username" = some x.name.2 := rfl
        have hfirst : Doc.string (userDoc uid x) "firstname" = some x.name.1 := rfl
        have hpic : Doc.string (userDoc uid x) "profileImg" = some x.picture := rfl
        by_cases he : x.picture = "" <;>
          simp [Profile.fetchUserDone, Network.header, hx, hname, hfirst, hpic, he]
  heart uid id := h.mem_likers.symm
  liked uid id := by
    rw [h.likes.doc, Option.map_map]
    rfl
  closet uid docId := by
    rw [h.closet, Option.map_map]
    rfl

/-! ### Orderly runs -/

/-- The post that a document is about. -/
def Path.about : Path → Option String
  | .post _ id | .like _ id | .social id => some id
  | .user _ | .clothes _ _ => none

/-- A write about a post is up to date, timely and not crossed when it is applied. -/
def WritesInOrder [DecidableEq C] : World C → Event C → Prop :=
  OnCommit fun s c r => ∀ id ∈ r.path.about,
    r.Current id s.db ∧ r.Timely id s.net.committed ∧ Uncrossed id s c r

instance [DecidableEq C] (s : World C) (e : Event C) : Decidable (WritesInOrder s e) :=
  inferInstanceAs (Decidable (OnCommit _ s e))

/-- A picture is set, and a post submitted, by a user whose document is there; and writes are in
order. -/
def Orderly [DecidableEq C] (me : C → String) (s : World C) (e : Event C) : Prop :=
  Documented me s e ∧ WritesInOrder s e

instance [DecidableEq C] (me : C → String) (s : World C) (e : Event C) :
    Decidable (Orderly me s e) :=
  inferInstanceAs (Decidable (_ ∧ _))

theorem Request.current_all {r : Request} {db : Store}
    (h : ∀ id ∈ r.path.about, r.Current id db) (id : String) : r.Current id db := by
  cases r with
  | countSocial i tap | like u i imgN tap | unlike u i tap =>
      intro hi
      subst hi
      exact h i rfl rfl
  | _ => trivial

theorem Request.timely_all {r : Request} {rs : List Request}
    (h : ∀ id ∈ r.path.about, r.Timely id rs) (id : String) : r.Timely id rs := by
  cases r with
  | countPost u i tap => exact fun _ => h i rfl rfl
  | countSocial i tap => exact fun _ => h i rfl rfl
  | publish u i caption imgName profImg username => exact fun _ => h i rfl rfl
  | _ => trivial

theorem uncrossed_all {c : C} {r : Request} (h : ∀ id ∈ r.path.about, Uncrossed id s c r)
    (id : String) : Uncrossed id s c r := by
  intro hr
  cases r with
  | countSocial i tap =>
      obtain rfl : i = id := by
        by_contra hi
        simp [Request.socialTap, hi] at hr
      exact h i rfl hr
  | _ => simp [Request.socialTap] at hr

theorem uncrossed_of_orderly [DecidableEq C] {es : List (Event C)}
    (h : Machine.Along (step me) (Orderly me) s es) (id : String) :
    Machine.Along (step me) (OnCommit (Uncrossed id)) s es := by
  refine Machine.along_of_invariant (I := fun _ => True) (fun _ _ _ _ _ _ => trivial) ?_ trivial h
  intro s e _ ⟨_, he⟩
  cases e with
  | commit c => exact fun r hr => uncrossed_all (fun i hi => (he r hr i hi).2.2) id
  | _ => trivial

/-- What an orderly write meets when it is applied. -/
theorem met_of_orderly [DecidableEq C] {c : C} {r : Request} {rest : List Request}
    (h : Orderly me s (.commit c)) (hq : s.net.queue c = r :: rest) :
    (∀ id, r.Current id s.db) ∧ ∀ id, r.Timely id s.net.committed := by
  have hmet := h.2 r (by simp [hq])
  exact ⟨Request.current_all fun id hid => (hmet id hid).1,
    Request.timely_all fun id hid => (hmet id hid).2.1⟩

/-! ### What comes first, and what comes once -/

/-- The request signs the user up. -/
def Request.joins (uid : String) : Request → Bool
  | .signUp u _ _ => u == uid
  | _ => false

theorem Request.joins_iff {uid : String} {r : Request} :
    r.joins uid = true ↔ ∃ firstname username, r = .signUp uid firstname username := by
  cases r <;> simp [joins]

theorem Effect.count_joins {c : C} {e : Event C} {rs : List Request} {reads : List Read}
    {uploads : List StorageRef} (h : Effect me s c e rs reads uploads) (uid : String) :
    rs.countP (Request.joins uid) ≤ 1 := by
  cases h with
  | tap imgN =>
      simp only [SocialMore.tapRequests]
      split <;> simp [Request.joins]
  | delete k => simp [Request.joins]
  | _ => exact List.countP_le_length.trans (by simp)

/-- A post is created by a submission. -/
theorem Effect.submits {c : C} {e : Event C} {rs : List Request} {reads : List Read}
    {uploads : List StorageRef} (h : Effect me s c e rs reads uploads) {u id : String}
    (hr : Created rs u id) : u = me c ∧ (s.submission me e).isSome := by
  obtain ⟨r, hr, hc⟩ := hr
  obtain ⟨caption, imgName, rfl⟩ := Request.creates_iff.mp hc
  cases h with
  | tap imgN => simpa using SocialMore.mem_tapRequests hr
  | submit id' hform hadd hfresh =>
      obtain ⟨rfl, rfl, -, -⟩ := Request.create.inj (List.mem_singleton.mp hr)
      refine ⟨rfl, ?_⟩
      rw [submission, hform, Option.bind_some, hadd]
      rfl
  | _ => simp at hr

variable [DecidableEq C]

/-- A user posts after the sign-up, a public copy is removed after the post has been created, and
a user signs up once. -/
structure Lined (s : World C) : Prop where
  signUps : ∀ uid id, s.net.Ordered
    (fun r => ∃ firstname username, r = .signUp uid firstname username) fun r => r.creates uid id
  removals : ∀ id, s.net.Ordered (fun r => ∃ u, r.creates u id) fun r => r = .deleteSocial id
  once : ∀ uid, s.net.Once (Request.joins uid)

theorem lined_init : Lined (init : World C) where
  signUps _ _ := Net.ordered_empty _ _
  removals _ := Net.ordered_empty _ _
  once _ := ⟨by simp [init], by simp [init]⟩

/-- **Every event keeps them in line, when posts are documented.** -/
theorem lined_step (hS : Sound me s) (hP : Profiled me s) (hR : Registered s) (hL : Lined s)
    {e : Event C} (hdoc : Documented me s e) (h : step me s e = some s') : Lined s' where
  signUps uid id := by
    refine ordered_step h (fun rs reads uploads heff r hr hc => ?_) (hL.signUps uid id)
    obtain ⟨rfl, hsubmit⟩ := heff.submits ⟨r, hr, hc⟩
    exact hP.signedUp (hdoc (Or.inr hsubmit))
  removals id := by
    refine ordered_step h (fun rs reads uploads heff r hr hdel => ?_) (hL.removals id)
    subst hdel
    obtain ⟨-, k, hcell⟩ := heff.deletePost ((heff.paired id).mpr hr)
    obtain ⟨x, hx, hxc⟩ := (hS.informed _).cells _ (List.mem_of_getElem? hcell) id rfl
    exact ⟨x, hx, _, hxc⟩
  once uid := by
    obtain ⟨rs, heff, hnet | ⟨-, -, hnet⟩⟩ := step_effect h
    · rw [hnet]
      refine (hL.once uid).issue (heff.count_joins uid) fun hnew d x hx => ?_
      by_contra hjoins
      rw [Bool.not_eq_false] at hjoins
      obtain ⟨firstname, username, rfl⟩ := Request.joins_iff.mp hjoins
      obtain ⟨y, hy, hyj⟩ := hnew
      obtain ⟨firstname', username', rfl⟩ := Request.joins_iff.mp hyj
      -- the account of a new user did not exist
      obtain ⟨rfl, he⟩ := heff.signUp_eq hy
      rw [he] at h
      obtain ⟨hallows, -⟩ := step_act h
      have hfresh : me e.client ∉ s.accounts := by simpa [allows] using hallows
      exact hfresh (hR.account _ _ _ ⟨d, hx⟩)
    · exact (hL.once uid).commit hnet

/-! ### The board behind a run -/

/-- What is published has been created, with the same caption and image, by the time it is
applied. -/
theorem Sound.create_of_publish (hS : Sound me s) (hA : Authored me s) {c : C}
    {u id caption imgName profImg username : String} {rest : List Request}
    (hq : s.net.queue c = .publish u id caption imgName profImg username :: rest) :
    .create u id caption imgName ∈ s.net.committed := by
  have hpub : .publish u id caption imgName profImg username ∈ s.net.history c :=
    Net.mem_history_of_queue (by rw [hq]; exact List.mem_cons_self)
  obtain ⟨x, hx, hxc⟩ := (hS.publishOrder u id).head hq (by simp [Request.publishes])
  obtain ⟨caption', imgName', rfl⟩ := Request.creates_iff.mp hxc
  obtain ⟨rfl, hcreate, -, -⟩ := hA.publish _ _ _ _ _ _ _ hpub
  obtain ⟨d, hd⟩ := exists_history_of_seen hcreate
  obtain ⟨d', hd'⟩ := Net.exists_history_of_committed hx
  obtain ⟨-, rfl, rfl⟩ := hS.create_eq hd hd'
  exact hx

/-- **A write is in turn when it is applied**, if it is up to date and timely. -/
theorem inTurn_of_head (hS : Sound me s) (hP : Profiled me s) (hA : Authored me s) (hL : Lined s)
    {c : C} {r : Request} {rest : List Request} (hq : s.net.queue c = r :: rest)
    (hcurrent : ∀ id, r.Current id s.db) (htimely : ∀ id, r.Timely id s.net.committed) :
    r.InTurn s.net.committed := by
  cases r with
  | signUp uid firstname username =>
      rintro ⟨x, hx, firstname', username', rfl⟩
      have := (hL.once uid).head hq (by simp [Request.joins]) hx
      simp [Request.joins] at this
  | picture uid imgName => exact (hP.order uid).head hq ⟨imgName, rfl⟩
  | create uid id caption imgName =>
      have hnew := hS.not_created hq
      refine ⟨(hL.signUps uid id).head hq (by simp [Request.creates]), hnew, fun v hpub => ?_,
        fun hdel => ?_⟩
      · obtain ⟨x, hx, hxp⟩ := hpub
        exact hnew v ((hS.publishOrder v id).committed hx hxp)
      · obtain ⟨x, hx, v, hxc⟩ := (hL.removals id).committed hdel rfl
        exact hnew v ⟨x, hx, hxc⟩
  | publish uid id caption imgName profImg username =>
      exact ⟨hS.create_of_publish hA hq, htimely id rfl, hS.not_published hq⟩
  | like uid id imgN tap => exact hcurrent id rfl
  | unlike uid id tap => exact hcurrent id rfl
  | _ => trivial

/-- What has been counted and deleted of the posts. -/
structure Tallied (rs : List Request) : Prop where
  found : Found rs
  buried : ∀ id, Buried id rs
  counted : ∀ id, Counted id rs
  latest : ∀ id, Latest id rs

theorem tallied_nil : Tallied [] where
  found := by simp [Found]
  buried _ := ⟨by simp, by simp⟩
  counted _ := ⟨by simp [Published], rfl⟩
  latest _ := ⟨by simp, by simp⟩

/-- **A write that is up to date and timely keeps the tally.** -/
theorem Sound.tallied_concat (hS : Sound me s) {c : C} {r : Request} {rest : List Request}
    (hq : s.net.queue c = r :: rest) (hcurrent : ∀ id, r.Current id s.db)
    (htimely : ∀ id, r.Timely id s.net.committed) (hT : Tallied s.net.committed) :
    Tallied (s.net.committed ++ [r]) where
  found := by
    have hfound : Found (s.net.committed ++ []) := by simpa using hT.found
    refine hfound.insert (fun hcount => ?_) (by simp)
    cases r with
    | countPost u id tap => exact htimely id rfl
    | countSocial id tap => exact htimely id rfl
    | _ => simp [Request.counts] at hcount
  buried id := hS.buried_concat hq (htimely id) (hT.buried id)
  counted id := hS.counted_concat hq (hcurrent id) (hT.counted id)
  latest id := hS.latest_concat hq (hT.latest id)

/-- The database is a copy of the board on which the deeds of the applied writes have been
done. -/
structure Refined (me : C → String) (s : World C) : Prop where
  sound : Sound me s
  profiled : Profiled me s
  authored : Authored me s
  registered : Registered s
  lined : Lined s
  owned : Owned me s
  tallied : Tallied s.net.committed
  board : ∃ n : Network,
    Machine.run Board.step Board.empty (s.net.committed.filterMap Request.deed) = some n ∧
      Mirrors s.net.committed n

theorem refined_init : Refined me (init : World C) where
  sound := sound_init
  profiled := profiled_init
  authored := authored_init
  registered := registered_init
  lined := lined_init
  owned := owned_init
  tallied := tallied_nil
  board := ⟨Board.empty, rfl, mirrors_empty⟩

/-- **Every event of an orderly run is a deed on the board, or none.** -/
theorem refined_step (hI : Refined me s) {e : Event C} (horderly : Orderly me s e)
    (h : step me s e = some s') : Refined me s' where
  sound := sound_step hI.sound h
  profiled := profiled_step hI.profiled horderly.1 h
  authored := authored_step hI.sound hI.authored h
  registered := registered_step hI.registered h
  lined := lined_step hI.sound hI.profiled hI.registered hI.lined horderly.1 h
  owned := owned_step hI.owned h
  tallied := by
    rcases step_log h with hlog | ⟨c, r, rest, rfl, hq, hlog⟩
    · rw [Net.committed, hlog]
      exact hI.tallied
    · obtain ⟨hcurrent, htimely⟩ := met_of_orderly horderly hq
      rw [Net.committed, hlog, committed_concat]
      exact hI.sound.tallied_concat hq hcurrent htimely hI.tallied
  board := by
    obtain ⟨n, hn, hmirrors⟩ := hI.board
    rcases step_log h with hlog | ⟨c, r, rest, rfl, hq, hlog⟩
    · rw [Net.committed, hlog]
      exact ⟨n, hn, hmirrors⟩
    · obtain ⟨hcurrent, htimely⟩ := met_of_orderly horderly hq
      obtain ⟨n', hn', hmirrors'⟩ := hmirrors.concat (inTurn_of_head hI.sound hI.profiled
        hI.authored hI.lined hq hcurrent htimely)
      have hdeed : ([r] : List Request).filterMap Request.deed = r.deed.toList := by
        cases hd : r.deed <;> simp [hd]
      rw [Net.committed, hlog, committed_concat, List.filterMap_append, hdeed]
      exact ⟨n', Machine.run_append_eq_some.mpr ⟨n, hn, hn'⟩, hmirrors'⟩

theorem refined_run {es : List (Event C)} (hrun : Machine.run (step me) init es = some s)
    (horderly : Machine.Along (step me) (Orderly me) init es) : Refined me s :=
  Machine.invariant_run (fun _ _ _ hI hP h => refined_step hI hP h) refined_init horderly hrun

/-! ### Counts -/

/-- When nothing waits, the phones have tapped both copies alike. -/
theorem taps_eq_quiet {es : List (Event C)} (hrun : Machine.run (step me) init es = some s)
    (horderly : Machine.Along (step me) (Orderly me) init es) (hquiet : s.net.Quiet) (id : String) :
    tapsOf (Request.socialTap id) s.net.log = tapsOf (Request.postTap id) s.net.log := by
  refine Net.eq_of_turns_prefix (turns_run hrun (uncrossed_of_orderly horderly id)) fun c => ?_
  rw [tapsOf_each, tapsOf_each, ← hquiet.history_eq, same_taps_run hrun c]

/-- So the taps have been counted in both copies, in the same order. -/
theorem same_taps_quiet {es : List (Event C)} (hrun : Machine.run (step me) init es = some s)
    (horderly : Machine.Along (step me) (Orderly me) init es) (hquiet : s.net.Quiet) (id : String) :
    s.net.committed.filterMap (Request.postTap id)
      = s.net.committed.filterMap (Request.socialTap id) := by
  have hsame := congrArg (List.map Prod.snd) (taps_eq_quiet hrun horderly hquiet id)
  rw [tapsOf_snd, tapsOf_snd] at hsame
  exact hsame.symm

/-- When nothing waits, what the counts have added up to is what the likes have. -/
theorem balanced_quiet {es : List (Event C)} (hrun : Machine.run (step me) init es = some s)
    (hquiet : s.net.Quiet) (id : String) :
    (s.net.committed.map (Request.counted id)).sum
      = (s.net.committed.map (Request.liked id)).sum := by
  have hbalanced := Net.sum_eq_zero_of_each (fun x => x.2.counted id - x.2.liked id)
    s.net.log fun c => by
      have hc : ((s.net.history c).map fun r => r.counted id - r.liked id).sum = 0 :=
        balanced_run hrun c
      rwa [hquiet.history_eq, Net.committedBy, List.map_map] at hc
  have hsum : (s.net.committed.map fun r => r.counted id - r.liked id).sum = 0 := by
    rwa [Net.committed, List.map_map]
  rw [sum_sub] at hsum
  omega

/-- **The last count of a post that is there is what the counts have added up to.** -/
theorem Refined.lastNum_eq (hI : Refined me s) {id : String}
    (hkept : .deleteSocial id ∉ s.net.committed) :
    lastNum (s.net.committed.filterMap (Request.socialTap id))
      = (s.net.committed.map (Request.counted id)).sum := by
  by_cases hpub : ∃ u, Published s.net.committed u id
  · have hmem := (mem_social_iff hI.sound (hI.tallied.buried id)).mpr ⟨hpub, hkept⟩
    obtain ⟨d, hd⟩ := DocStore.exists_lookup_of_mem hmem
    have hlatest := (hI.tallied.latest id).social d hd
    have hcount := (hI.tallied.counted id).count hpub hkept
    rw [db] at hd
    rw [storedNumber, hd, Option.bind_some, hlatest] at hcount
    exact Option.some.inj hcount
  · -- what is not published has not been counted
    have hnone : ∀ r ∈ s.net.committed, ∀ tap, r ≠ .countSocial id tap := by
      rintro r hr tap rfl
      obtain ⟨x, hx, u, hxu⟩ := (hI.sound.socialOrder id).committed hr ⟨tap, rfl⟩
      exact hpub ⟨u, x, hx, hxu⟩
    have htaps : s.net.committed.filterMap (Request.socialTap id) = [] := by
      refine List.filterMap_eq_nil_iff.mpr fun r hr => ?_
      cases r with
      | countSocial i tap => exact if_neg fun hi => hnone _ hr tap (by rw [hi])
      | _ => rfl
    have hsum : (s.net.committed.map (Request.counted id)).sum = 0 := by
      refine sum_eq_zero fun r hr => ?_
      cases r with
      | countSocial i tap => exact if_neg fun hi => hnone _ hr tap (by rw [hi])
      | _ => rfl
    rw [htaps, hsum]
    rfl

/-- **A post that is there counts as many likes as there are likers**, in both copies, when
nothing waits. -/
theorem Refined.likes_eq (hI : Refined me s) {n : Network} (hn : Mirrors s.net.committed n)
    {id : String} (hkept : .deleteSocial id ∉ s.net.committed)
    (hsame : s.net.committed.filterMap (Request.postTap id)
      = s.net.committed.filterMap (Request.socialTap id))
    (hbalanced : (s.net.committed.map (Request.counted id)).sum
      = (s.net.committed.map (Request.liked id)).sum) :
    (∀ d, s.db.lookup (.social id) = some d →
        Doc.number d "likes" = some ((n.likers id).card : Int)) ∧
      ∀ u d, s.db.lookup (.post u id) = some d →
        Doc.number d "likes" = some ((n.likers id).card : Int) := by
  have hcard : lastNum (s.net.committed.filterMap (Request.socialTap id)) = (n.likers id).card := by
    rw [hI.lastNum_eq hkept, hbalanced, ← (hI.tallied.counted id).likers, hn.likes.card]
  refine ⟨fun d hd => ?_, fun u d hd => ?_⟩
  · rw [(hI.tallied.latest id).social d hd, hcard]
  · rw [(hI.tallied.latest id).post u d hd, hsame, hcard]

/-! ### Posts -/

/-- What is published has been created with the same caption and image. -/
theorem Refined.publish_eq (hI : Refined me s) {u u' id caption caption' imgName imgName' : String}
    {profImg username : String} (h : .create u id caption imgName ∈ s.net.committed)
    (h' : .publish u' id caption' imgName' profImg username ∈ s.net.committed) :
    u' = u ∧ caption' = caption ∧ imgName' = imgName ∧
      ∃ firstname, s.Called u firstname username := by
  obtain ⟨c, hc⟩ := Net.exists_history_of_committed h'
  obtain ⟨rfl, hcreate, hname, -⟩ := hI.authored.publish _ _ _ _ _ _ _ hc
  obtain ⟨d, hd⟩ := exists_history_of_seen hcreate
  obtain ⟨e, he⟩ := Net.exists_history_of_committed h
  obtain ⟨rfl, rfl, rfl⟩ := hI.sound.create_eq he hd
  exact ⟨rfl, rfl, rfl, hname⟩

/-- The name of someone on the board is the one of the sign-up. -/
theorem Refined.name_eq (hI : Refined me s) {n : Network} (hn : Mirrors s.net.committed n)
    {uid firstname username : String} {x : Board.Person (String × String) String}
    (hx : n.people uid = some x) (hcalled : s.Called uid firstname username) :
    x.name.2 = username := by
  have hdoc := hn.people.doc uid
  rw [hx, Option.map_some] at hdoc
  obtain ⟨first, -, hsign⟩ := (user_fields hdoc).1 x.name.2 rfl
  obtain ⟨c, hc⟩ := Net.exists_history_of_committed hsign
  exact (hI.registered.once _ _ _ _ _ hcalled ⟨c, hc⟩).2

/-- A copy of a post that is found names its id. -/
theorem Tallied.id_isSome {rs : List Request} (hT : Tallied rs) {p : Path} {d : Doc}
    (hd : (contents rs).lookup p = some d) (hp : p.mergedField = some "likes") :
    (Doc.string d "ID").isSome := by
  have hformed := formed_of_lookup hd
  have hall := (hformed.ghost_or hp).resolve_right (hT.found.not_ghost hd)
  refine (hformed.string_isSome (by decide)).mpr (hall "ID" ?_)
  cases p <;> simp [Path.mergedField, Path.fields] at hp ⊢

/-- When nothing waits, a post is there for its author as long as its public copy has not been
removed. -/
theorem Refined.mem_post_iff_kept (hI : Refined me s) (hquiet : s.net.Quiet) {u id : String} :
    Path.post u id ∈ s.db ↔
      Created s.net.committed u id ∧ .deleteSocial id ∉ s.net.committed := by
  rw [mem_post_iff hI.sound (hI.tallied.buried id)]
  refine and_congr_right fun hu => not_congr ⟨fun hdel => ?_, fun hdel => ?_⟩
  · obtain ⟨c, hc⟩ := Net.exists_history_of_committed hdel
    obtain rfl := hI.sound.deleter hc
    exact hquiet.mem_committed ((hI.owned.paired c id).mp hc)
  · obtain ⟨c, hc⟩ := Net.exists_history_of_committed hdel
    have hpost := hquiet.mem_committed ((hI.owned.paired c id).mpr hc)
    obtain ⟨x, hx, hxc⟩ := (hI.sound.deleteOrder (me c) id).committed hpost rfl
    rwa [hI.sound.author_eq_committed hu ⟨x, hx, hxc⟩]

/-- **The public copies are the entries that are shared**, when they count the likers. -/
theorem Refined.publicPost_eq (hI : Refined me s) {n : Network} (hn : Mirrors s.net.committed n)
    {id : String} (hlikes : .deleteSocial id ∉ s.net.committed → ∀ d,
      s.db.lookup (.social id) = some d → Doc.number d "likes" = some ((n.likers id).card : Int)) :
    (s.db.lookup (.social id)).map Social.fetchSocialPost.item = n.publicPost id := by
  have hmem := mem_social_iff hI.sound (hI.tallied.buried id)
  cases hd : s.db.lookup (.social id) with
  | none =>
      -- an entry that is shared would be there
      have habsent : ¬ Path.social id ∈ s.db := by
        rw [← DocStore.mem_iff_isSome, hd]
        simp
      rw [Option.map_none, Network.publicPost]
      cases he : n.entries id with
      | none => rfl
      | some e =>
          obtain ⟨u, ⟨caption, imgName⟩, shared⟩ := e
          cases shared with
          | none => rfl
          | some pic =>
              have hmade := (hn.entries.made id u caption imgName).mp ⟨_, he⟩
              obtain ⟨username, hpub⟩ := (hn.entries.shared id _ he pic).mp rfl
              exact absurd (hmem.mpr ⟨⟨u, _, hpub, by simp [Request.publishes]⟩, hmade.2⟩) habsent
  | some d =>
      obtain ⟨-, hkept⟩ := hmem.mp (DocStore.mem_of_lookup hd)
      have hcount : (Social.fetchSocialPost.item d).likes = some ((n.likers id).card : Int) :=
        hlikes hkept d hd
      obtain ⟨w, r, hr, hpub, made, hmade, hpost⟩ := social_fields hd (hI.tallied.id_isSome hd rfl)
      obtain ⟨caption, imgName, profImg, username, rfl⟩ := Request.publishes_iff.mp hpub
      obtain rfl := Option.some.inj hmade
      obtain ⟨x, hx, v, hxc⟩ : ∃ x ∈ s.net.committed, ∃ v, x.creates v id = true := by
        obtain ⟨x, hx, hxc⟩ := (hI.sound.publishOrder w id).committed hr hpub
        exact ⟨x, hx, w, hxc⟩
      obtain ⟨caption', imgName', rfl⟩ := Request.creates_iff.mp hxc
      obtain ⟨rfl, rfl, rfl, firstname, hcalled⟩ := hI.publish_eq hx hr
      obtain ⟨shared, he⟩ := (hn.entries.made id w caption imgName).mpr ⟨hx, hkept⟩
      obtain rfl := (hn.entries.shared id _ he profImg).mpr ⟨username, hr⟩
      obtain ⟨y, hy⟩ := Option.isSome_iff_exists.mp (n.author id _ he)
      have hname := hI.name_eq hn hy hcalled
      rw [Option.map_some, hpost, hcount]
      simp [Network.publicPost, he, hy, hname]

/-- **The posts of a user are the entries that the user has written**, when they count the
likers. -/
theorem Refined.ownPost_eq (hI : Refined me s) {n : Network} (hn : Mirrors s.net.committed n)
    (hquiet : s.net.Quiet) {uid id : String} (hlikes : .deleteSocial id ∉ s.net.committed →
      ∀ d, s.db.lookup (.post uid id) = some d →
        Doc.number d "likes" = some ((n.likers id).card : Int)) :
    (s.db.lookup (.post uid id)).map postFeed.fetchData.item = n.ownPost uid id := by
  have hmem : Path.post uid id ∈ s.db ↔
      Created s.net.committed uid id ∧ .deleteSocial id ∉ s.net.committed :=
    hI.mem_post_iff_kept hquiet
  cases hd : s.db.lookup (.post uid id) with
  | none =>
      have habsent : ¬ Path.post uid id ∈ s.db := by
        rw [← DocStore.mem_iff_isSome, hd]
        simp
      rw [Option.map_none, Network.ownPost]
      cases he : n.entries id with
      | none => rfl
      | some e =>
          obtain ⟨u, ⟨caption, imgName⟩, shared⟩ := e
          have hmade := (hn.entries.made id u caption imgName).mp ⟨_, he⟩
          have hother : u ≠ uid := by
            rintro rfl
            exact habsent (hmem.mpr ⟨⟨_, hmade.1, by simp [Request.creates]⟩, hmade.2⟩)
          simp [hother]
  | some d =>
      obtain ⟨-, hkept⟩ := hmem.mp (DocStore.mem_of_lookup hd)
      have hcount : (postFeed.fetchData.item d).likes = some ((n.likers id).card : Int) :=
        hlikes hkept d hd
      obtain ⟨r, hr, hcreates, made, hmade, hpost⟩ := post_fields hd (hI.tallied.id_isSome hd rfl)
      obtain ⟨caption, imgName, rfl⟩ := Request.creates_iff.mp hcreates
      obtain rfl := Option.some.inj hmade
      obtain ⟨shared, he⟩ := (hn.entries.made id uid caption imgName).mpr ⟨hr, hkept⟩
      rw [Option.map_some, hpost, hcount]
      simp [Network.ownPost, he]

omit [DecidableEq C] in
/-- A phone that has fetched while nothing waits lists the entries of the board. -/
theorem Network.Posts.shownOn {n : Network} (h : n.Posts s.db) (hquiet : s.net.Quiet) (c : C) :
    n.ShownOn (me c) (s.fetched me c) := by
  have hview : s.view c = s.db := by rw [view, hquiet.seen_eq, db]
  constructor
  · intro post
    simp only [← h.publicFeed, ← hview]
    exact mem_feed_listOf (k := .socialFeed)
  · intro post
    simp only [← h.ownFeed, ← hview]
    exact mem_feed_listOf (k := .posts (me c))

/-! ### Runs -/

/-- **When nothing waits, the posts are the entries of the board.** -/
theorem posts_quiet {es : List (Event C)} (hrun : Machine.run (step me) init es = some s)
    (horderly : Machine.Along (step me) (Orderly me) init es) (hquiet : s.net.Quiet) {n : Network}
    (hn : Mirrors s.net.committed n) : n.Posts s.db := by
  have hI := refined_run hrun horderly
  have hlikes := fun id (hkept : .deleteSocial id ∉ s.net.committed) =>
    hI.likes_eq hn hkept (same_taps_quiet hrun horderly hquiet id) (balanced_quiet hrun hquiet id)
  exact ⟨fun id => hI.publicPost_eq hn fun hkept => (hlikes id hkept).1,
    fun uid id => hI.ownPost_eq hn hquiet fun hkept => (hlikes id hkept).2 uid⟩

/-- **The phones and their database are a board, in orderly runs.**  The deeds of the writes
that have been applied can be done one after the other on a board.  The database has the people,
the likes and the closets of that board; when nothing waits it has its entries, each with as many
likes as there are likers; and when nothing is pending, phones that fetch list just these. -/
theorem refines_board {es : List (Event C)} (hrun : Machine.run (step me) init es = some s)
    (horderly : Machine.Along (step me) (Orderly me) init es) :
    ∃ n : Network,
      Machine.run Board.step Board.empty (s.net.committed.filterMap Request.deed) = some n ∧
      n.Keeps s.db ∧ (s.net.Quiet → n.Posts s.db) ∧
      ∀ cs : List C, s.Idle → (∀ c ∈ cs, (s.phone c).signedIn = true) →
        ∃ t, Machine.run (step me) s (cs.flatMap fetching) = some t ∧ t.db = s.db ∧
          ∀ c ∈ cs, n.ShownOn (me c) (t.phone c) := by
  obtain ⟨n, hn, hmirrors⟩ := (refined_run hrun horderly).board
  refine ⟨n, hn, hmirrors.keeps, fun hquiet => posts_quiet hrun horderly hquiet hmirrors,
    fun cs hidle hsigned => ?_⟩
  obtain ⟨t, hfetch, -, hnet, -, hthese⟩ := run_all_fetching me hidle hsigned
  refine ⟨t, hfetch, by rw [db, hnet, db], fun c hc => ?_⟩
  rw [hthese c hc]
  exact (posts_quiet hrun horderly hidle.1 hmirrors).shownOn hidle.1 c

set_option maxRecDepth 100000 in
/-- Ann posts, bob likes the post, and both fetch. -/
theorem refines_board_duo :
    ∃ s, Machine.run (step duo) init (signingUp ++ submitting ++ publishing ++ opening 1
        ++ tapping 1 ++ [.upload 1 0 true]) = some s ∧
      ∃ n : Network,
        Machine.run Board.step Board.empty (s.net.committed.filterMap Request.deed) = some n ∧
        n.Posts s.db ∧ ∃ t, Machine.run (step duo) s (fetching 0 ++ fetching 1) = some t ∧
          n.ShownOn "ann" (t.phone 0) ∧ n.ShownOn "bob" (t.phone 1) := by
  obtain ⟨s, hs, hidle, hsigned⟩ :
      ∃ s, Machine.run (step duo) init (signingUp ++ submitting ++ publishing ++ opening 1
          ++ tapping 1 ++ [.upload 1 0 true]) = some s ∧
        s.Idle ∧ ∀ c ∈ [0, 1], (s.phone c).signedIn = true := by
    decide +kernel
  obtain ⟨n, hn, -, hposts, hfetch⟩ := refines_board hs (by decide +kernel)
  obtain ⟨t, ht, -, hshown⟩ := hfetch [0, 1] hidle hsigned
  exact ⟨s, hs, n, hn, hposts hidle.1, t, ht, hshown 0 (by simp), hshown 1 (by simp)⟩

end UTrend
