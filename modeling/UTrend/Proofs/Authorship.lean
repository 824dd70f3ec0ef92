/-
A post says what its author submitted.

The captions, pictures and names that a phone shows have come a long way: from a form to
two documents, from the document of the author to the public copy, into snapshots, lists
and the view of the open post.  `Tells` leads each of them back to the request that made
the copy, whatever counts have been merged since; and a public copy was made by the phone
that drew its id, out of the form that was submitted there and of the name under which
its user has signed up.

What has no id is a count that was merged into a copy that is gone, and tells nothing.
-/
import UTrend.Proofs.Cells
import UTrend.Proofs.Integrity
import UTrend.Proofs.Screens

namespace UTrend

open World

variable {C : Type} [DecidableEq C] {me : C → String} {s s' : World C}

/-- What a feed reads off a copy of a post when it has been made.  The public feed does not read
the time. -/
def Request.post : Request → Option Post
  | .create _ id caption imgName => some {
      postImg := some imgName
      likes := some 0
      textCaption := some caption
      time := some "1 day ago"
      pid := some id }
  | .publish uid id caption imgName profImg username => some {
      postImg := some imgName
      textCaption := some caption
      likes := some 0
      username := some username
      userPic := some profImg
      pid := some id
      uid := some uid }
  | _ => none

/-- The post is what the request made, with some other count perhaps. -/
def Post.IsOf (post : Post) (r : Request) : Prop :=
  ∃ made, r.post = some made ∧ post = { made with likes := post.likes }

/-- The post is what a request of this kind has made. -/
def World.Tells (s : World C) (kind : Request → Bool) (post : Post) : Prop :=
  ∃ c, ∃ r ∈ s.net.history c, kind r = true ∧ post.IsOf r

/-- The view shows the post, whatever its label and its heart. -/
def SocialMore.Shows (v : SocialMore) (post : Post) : Prop :=
  v = { Social.prepare post with
    numLikes := v.numLikes
    postImg := v.postImg
    likeHeartImg := v.likeHeartImg
    likes := v.likes }

/-- `uid` has signed up under these names, on whichever phone. -/
def World.Called (s : World C) (uid firstname username : String) : Prop :=
  ∃ c, .signUp uid firstname username ∈ s.net.history c

/-- The picture is the one of a new user, or one that `uid` has set. -/
def World.Pictured (s : World C) (uid profImg : String) : Prop :=
  profImg = "" ∨ ∃ c, .picture uid profImg ∈ s.net.history c

/-! ### Documents -/

/-- **The document of a user holds what the user has given.** -/
theorem user_fields {rs : List Request} {uid : String} {d : Doc}
    (h : (contents rs).lookup (.user uid) = some d) :
    (∀ username, Doc.string d "username" = some username → ∃ firstname,
      Doc.string d "firstname" = some firstname ∧ .signUp uid firstname username ∈ rs) ∧
    ∀ profImg, Doc.string d "profileImg" = some profImg →
      profImg = "" ∨ .picture uid profImg ∈ rs := by
  refine document_invariant (I := fun p d => ∀ uid,
    p = .user uid → (∀ username, Doc.string d "username" = some username → ∃ firstname,
      Doc.string d "firstname" = some firstname ∧ .signUp uid firstname username ∈ rs) ∧
    ∀ profImg, Doc.string d "profileImg" = some profImg →
      profImg = "" ∨ .picture uid profImg ∈ rs) ?_ h uid rfl
  intro r hr old hold d hd uid hp
  rcases Request.path_eq_user hp with ⟨firstname, name, rfl⟩ | ⟨imgName, rfl⟩
  · obtain rfl := (Option.some.inj hd).symm
    refine ⟨fun username husername => ⟨firstname, rfl, ?_⟩, fun profImg hpic => Or.inl ?_⟩
    · obtain rfl : name = username := by
        simpa [Doc.string, DocStore.Doc.update, List.lookup_cons, Value.asString] using husername
      exact hr
    · simpa [Doc.string, DocStore.Doc.update, List.lookup_cons, Value.asString, eq_comm]
        using hpic
  · obtain rfl := (Option.some.inj hd).symm
    refine ⟨fun username husername => ?_, fun profImg hpic => Or.inr ?_⟩
    · cases old with
      | none => simp [Doc.string, DocStore.Doc.update, DocStore.Doc.empty, List.lookup_cons]
          at husername
      | some e =>
          have hname : Doc.string e "username" = some username := by
            simpa [Doc.string, DocStore.Doc.update, List.lookup_cons] using husername
          obtain ⟨firstname, hfirst, hsign⟩ := (hold e rfl uid rfl).1 username hname
          refine ⟨firstname, ?_, hsign⟩
          simpa [Doc.string, DocStore.Doc.update, List.lookup_cons] using hfirst
    · obtain rfl : imgName = profImg := by
        simpa [Doc.string, DocStore.Doc.update, Value.asString] using hpic
      exact hr

theorem item_update_likes {old : Option Doc} {d : Doc} (hold : old = some d) (n : Int) :
    let new := DocStore.Doc.update (old.getD DocStore.Doc.empty) [("likes", .num n)]
    Social.fetchSocialPost.item new = { Social.fetchSocialPost.item d with likes := some n } ∧
      postFeed.fetchData.item new = { postFeed.fetchData.item d with likes := some n } := by
  subst hold
  simp [Social.fetchSocialPost, postFeed.fetchData, feed, Doc.string, Doc.number,
    DocStore.Doc.update, List.lookup_cons, Value.asNumber]

/-- **A public copy says what was published under its id.** -/
theorem social_fields {rs : List Request} {id : String} {d : Doc}
    (h : (contents rs).lookup (.social id) = some d) (hid : (Doc.string d "ID").isSome) :
    ∃ u, ∃ r ∈ rs, r.publishes u id = true ∧ (Social.fetchSocialPost.item d).IsOf r := by
  refine document_invariant (I := fun p d => ∀ id,
    p = .social id → (Doc.string d "ID").isSome →
      ∃ u, ∃ r ∈ rs, r.publishes u id = true ∧ (Social.fetchSocialPost.item d).IsOf r)
    ?_ h id rfl hid
  intro r hr old hold d hd id hp hid
  rcases Request.path_eq_social hp with
    ⟨uid, caption, imgName, profImg, username, rfl⟩ | ⟨tap, rfl⟩ | rfl
  · obtain rfl := (Option.some.inj hd).symm
    refine ⟨uid, _, hr, by simp [Request.publishes], _, rfl, ?_⟩
    simp [Social.fetchSocialPost, feed, Doc.string, Doc.number, DocStore.Doc.update,
      List.lookup_cons, Value.asString]
  · obtain rfl := (Option.some.inj hd).symm
    rw [string_update_likes (by decide)] at hid
    obtain ⟨i, hi⟩ := Option.isSome_iff_exists.mp hid
    obtain ⟨e, rfl, he⟩ := Option.bind_eq_some_iff.mp hi
    obtain ⟨u, r, hr, hpub, made, hmade, hpost⟩ := hold e rfl id rfl (he ▸ rfl)
    refine ⟨u, r, hr, hpub, made, hmade, ?_⟩
    rw [(item_update_likes rfl tap.newNum).1, hpost]
  · simp [Request.write, DocStore.Write.result] at hd

/-- **An author's copy says what was created under its id.** -/
theorem post_fields {rs : List Request} {u id : String} {d : Doc}
    (h : (contents rs).lookup (.post u id) = some d) (hid : (Doc.string d "ID").isSome) :
    ∃ r ∈ rs, r.creates u id = true ∧ (postFeed.fetchData.item d).IsOf r := by
  refine document_invariant (I := fun p d => ∀ u id,
    p = .post u id → (Doc.string d "ID").isSome →
      ∃ r ∈ rs, r.creates u id = true ∧ (postFeed.fetchData.item d).IsOf r)
    ?_ h u id rfl hid
  intro r hr old hold d hd u id hp hid
  rcases Request.path_eq_post hp with ⟨caption, imgName, rfl⟩ | ⟨tap, rfl⟩ | rfl
  · obtain rfl := (Option.some.inj hd).symm
    refine ⟨_, hr, by simp [Request.creates], _, rfl, ?_⟩
    simp [postFeed.fetchData, feed, Doc.string, Doc.number, DocStore.Doc.update,
      List.lookup_cons, Value.asString]
  · obtain rfl := (Option.some.inj hd).symm
    rw [string_update_likes (by decide)] at hid
    obtain ⟨i, hi⟩ := Option.isSome_iff_exists.mp hid
    obtain ⟨e, rfl, he⟩ := Option.bind_eq_some_iff.mp hi
    obtain ⟨r, hr, hcreates, made, hmade, hpost⟩ := hold e rfl u id rfl (he ▸ rfl)
    refine ⟨r, hr, hcreates, made, hmade, ?_⟩
    rw [(item_update_likes rfl tap.newNum).2, hpost]
  · simp [Request.write, DocStore.Write.result] at hd

/-! ### What a phone has issued -/

theorem mem_history_step {e : Event C} (h : step me s e = some s') {c : C} {r : Request}
    (hr : r ∈ s.net.history c) : r ∈ s'.net.history c := by
  obtain ⟨rs, -, hhist⟩ := step_history h c
  rw [hhist]
  exact List.mem_append_left _ hr

theorem World.Tells.step {e : Event C} (h : step me s e = some s') {kind : Request → Bool}
    {post : Post} (ht : s.Tells kind post) : s'.Tells kind post :=
  let ⟨c, r, hr, hkind, hof⟩ := ht
  ⟨c, r, mem_history_step h hr, hkind, hof⟩

theorem World.Called.step {e : Event C} (h : step me s e = some s')
    {uid firstname username : String} (hn : s.Called uid firstname username) :
    s'.Called uid firstname username :=
  hn.imp fun _ hr => mem_history_step h hr

theorem World.Pictured.step {e : Event C} (h : step me s e = some s') {uid profImg : String}
    (hp : s.Pictured uid profImg) : s'.Pictured uid profImg :=
  hp.imp_right fun ⟨c, hr⟩ => ⟨c, mem_history_step h hr⟩

/-- What the document of a user says is what the user has given. -/
structure World.Knows (s : World C) (uid : String) (d : Doc) : Prop where
  username : ∀ username, Doc.string d "username" = some username →
    ∃ firstname, s.Called uid firstname username
  profileImg : ∀ profImg, Doc.string d "profileImg" = some profImg → s.Pictured uid profImg

theorem knows_of_lookup {c : C} {uid : String} {d : Doc}
    (h : (s.view c).lookup (.user uid) = some d) : s.Knows uid d where
  username username husername := by
    obtain ⟨firstname, -, hr⟩ := (user_fields h).1 username husername
    exact ⟨firstname, exists_history_of_seen hr⟩
  profileImg profImg hpic :=
    ((user_fields h).2 profImg hpic).imp_right fun hr => exists_history_of_seen hr

omit [DecidableEq C] in
/-- Only the answer about the author publishes. -/
theorem Effect.publish_eq {c : C} {e : Event C} {rs : List Request} {reads : List Read}
    {uploads : List StorageRef} (h : Effect me s c e rs reads uploads)
    {uid id caption imgName profImg username : String}
    (hr : .publish uid id caption imgName profImg username ∈ rs) :
    rs = [.publish uid id caption imgName profImg username] ∧ ∃ k, e = .arrive c k := by
  cases h with
  | tap imgN => simpa using SocialMore.mem_tapRequests hr
  | publish k hread => exact ⟨by rw [List.mem_singleton.mp hr], k, rfl⟩
  | _ => simp at hr

/-- A public copy is issued in the callback of its author, out of the form and the document of
the author. -/
theorem published_step {e : Event C} (h : step me s e = some s') {c : C}
    {uid id caption imgName profImg username : String}
    (hr : .publish uid id caption imgName profImg username ∈ s'.net.history c) :
    .publish uid id caption imgName profImg username ∈ s.net.history c ∨
      ∃ (k : Nat) (form : PostInfo) (data : Doc),
        (s.phone c).reads[k]? = some ⟨.author id form, some (.doc (some data))⟩ ∧
        uid = me c ∧ caption = form.caption ∧ imgName = form.imgName ∧
        Doc.string data "profileImg" = some profImg ∧
        Doc.string data "username" = some username := by
  obtain ⟨rs, heff, hhist⟩ := step_history h c
  rw [hhist] at hr
  refine (List.mem_append.mp hr).imp_right fun hr => ?_
  obtain ⟨rfl, k, rfl⟩ := heff.publish_eq hr
  obtain ⟨a, answer, p, rs, hread, hcall, hs'⟩ := step_arrive h
  -- the callback has issued what the event has
  have hsame : rs = [.publish uid id caption imgName profImg username] := by
    rw [hs', Net.history_issue, if_pos rfl] at hhist
    exact List.append_cancel_left hhist
  subst hsame
  rcases Phone.callback_eq_some hcall with ⟨_, _, _, hnil, _⟩ | ⟨_, _, _, hnil, _⟩ |
    ⟨_, _, _, _, hnil, _⟩ | ⟨id', form, doc, _, _, rfl, rfl, -, -⟩ | ⟨_, hnil, _⟩
  · simp at hnil
  · simp at hnil
  · simp at hnil
  · obtain ⟨x, hx, hp⟩ := Option.map_eq_some_iff.mp hcall
    obtain rfl := List.singleton_inj.mp (Prod.mk.inj hp).2
    simp only [PostInfo.addToDBDone, Option.bind_eq_bind, Option.bind_eq_some_iff] at hx
    obtain ⟨data, rfl, profImg, hpic, username, huser, hx⟩ := hx
    obtain ⟨rfl, rfl, rfl, rfl, rfl, rfl⟩ := Request.publish.inj (Option.some.inj hx)
    exact ⟨k, form, data, hread, rfl, rfl, rfl, hpic, huser⟩
  · simp at hnil

/-- Public copies say what has been submitted, and what their authors are called. -/
structure Authored (me : C → String) (s : World C) : Prop where
  publish : ∀ c uid id caption imgName profImg username,
    .publish uid id caption imgName profImg username ∈ s.net.history c →
      uid = me c ∧ .create (me c) id caption imgName ∈ s.net.seen c ∧
        (∃ firstname, s.Called (me c) firstname username) ∧ s.Pictured (me c) profImg
  answered : ∀ c id form d, ⟨.author id form, some (.doc (some d))⟩ ∈ (s.phone c).reads →
    s.Knows (me c) d

theorem authored_init : Authored me (init : World C) := by
  constructor <;> simp [init]

/-- **Every event keeps it so.** -/
theorem authored_step (hS : Sound me s) (hA : Authored me s) {e : Event C}
    (h : step me s e = some s') : Authored me s' where
  publish c uid id caption imgName profImg username hr := by
    rcases published_step h hr with hr | ⟨k, form, data, hread, rfl, rfl, rfl, hpic, huser⟩
    · obtain ⟨hu, hcreate, ⟨firstname, hname⟩, hpic⟩ := hA.publish _ _ _ _ _ _ _ hr
      exact ⟨hu, mem_seen_step h hcreate, ⟨firstname, hname.step h⟩, hpic.step h⟩
    · have hmem := List.mem_of_getElem? hread
      have hknows := hA.answered c id form data hmem
      obtain ⟨firstname, hname⟩ := hknows.username username huser
      refine ⟨rfl, mem_seen_step h (((hS.informed c).reads _ hmem).author id form rfl),
        ⟨firstname, hname.step h⟩, (hknows.profileImg profImg hpic).step h⟩
  answered c id form d hr := by
    have hstep : s.Knows (me c) d → s'.Knows (me c) d := fun hk =>
      ⟨fun username hu => (hk.username username hu).imp fun _ hn => hn.step h,
        fun profImg hp => (hk.profileImg profImg hp).step h⟩
    obtain ⟨rs, heff, -⟩ := step_history h c
    rcases heff.read_cases hr with hr | ⟨hnone, -⟩ | ⟨k, ok, -, hread, hans⟩
    · exact hstep (hA.answered c id form d hr)
    · simp at hnone
    · cases ok with
      | false => simp at hans
      | true =>
          have hd : (s.view c).lookup (.user (me c)) = some d := by
            simpa [Ask.answerOf, eq_comm] using hans
          exact hstep (knows_of_lookup hd)

/-! ### Sign-ups -/

/-- A user signs up once. -/
structure Registered (s : World C) : Prop where
  account : ∀ uid firstname username, s.Called uid firstname username → uid ∈ s.accounts
  once : ∀ uid firstname username firstname' username', s.Called uid firstname username →
    s.Called uid firstname' username' → firstname' = firstname ∧ username' = username

theorem mem_accounts_step {e : Event C} (h : step me s e = some s') {uid : String}
    (hu : uid ∈ s.accounts) : uid ∈ s'.accounts := by
  cases e with
  | act c a =>
      obtain ⟨-, p, rs, -, rfl⟩ := step_act h
      cases a with
      | signUp | google => exact List.mem_cons_of_mem _ hu
      | _ => exact hu
  | answer c k ok =>
      obtain ⟨_, _, rfl⟩ := step_answer h
      exact hu
  | arrive c k =>
      obtain ⟨_, _, _, _, _, _, rfl⟩ := step_arrive h
      exact hu
  | upload c k ok =>
      obtain ⟨_, _, rfl⟩ := step_upload h
      exact hu
  | commit c =>
      obtain ⟨_, _, _, _, _, rfl⟩ := step_commit h
      exact hu

omit [DecidableEq C] in
theorem Effect.signUp_eq {c : C} {e : Event C} {rs : List Request} {reads : List Read}
    {uploads : List StorageRef} (h : Effect me s c e rs reads uploads)
    {uid firstname username : String} (hr : .signUp uid firstname username ∈ rs) :
    uid = me c ∧ e = .act c (.signUp firstname username) := by
  cases h with
  | tap imgN => simpa using SocialMore.mem_tapRequests hr
  | signUp firstname username =>
      obtain ⟨rfl, rfl, rfl⟩ := Request.signUp.inj (List.mem_singleton.mp hr)
      exact ⟨rfl, rfl⟩
  | _ => simp at hr

/-- A sign-up is of a user that did not exist. -/
theorem signedUp_step {e : Event C} (h : step me s e = some s') {uid firstname username : String}
    (hn : s'.Called uid firstname username) : s.Called uid firstname username ∨
      ∃ c, e = .act c (.signUp firstname username) ∧ uid = me c ∧ uid ∉ s.accounts ∧
        uid ∈ s'.accounts := by
  obtain ⟨c, hr⟩ := hn
  obtain ⟨rs, heff, hhist⟩ := step_history h c
  rw [hhist] at hr
  rcases List.mem_append.mp hr with hr | hr
  · exact Or.inl ⟨c, hr⟩
  · obtain ⟨rfl, rfl⟩ := heff.signUp_eq hr
    obtain ⟨hallows, p, rs, -, rfl⟩ := step_act h
    exact Or.inr ⟨c, rfl, rfl, by simpa [allows] using hallows, List.mem_cons_self⟩

theorem registered_init : Registered (init : World C) := by
  constructor <;> simp [init, Called]

theorem registered_step (hR : Registered s) {e : Event C} (h : step me s e = some s') :
    Registered s' where
  account uid firstname username hn := by
    rcases signedUp_step h hn with hn | ⟨c, -, -, -, hu⟩
    · exact mem_accounts_step h (hR.account _ _ _ hn)
    · exact hu
  once uid firstname username firstname' username' hn hn' := by
    rcases signedUp_step h hn with hn | ⟨c, rfl, rfl, hfresh, -⟩
    · rcases signedUp_step h hn' with hn' | ⟨c', -, -, hfresh, -⟩
      · exact hR.once _ _ _ _ _ hn hn'
      · exact absurd (hR.account _ _ _ hn) hfresh
    · rcases signedUp_step h hn' with hn' | ⟨c', he, -⟩
      · exact absurd (hR.account _ _ _ hn') hfresh
      · obtain ⟨-, ha⟩ := Event.act.inj he
        obtain ⟨rfl, rfl⟩ := Act.signUp.inj ha
        exact ⟨rfl, rfl⟩

/-! ### Screens -/

/-- A document of the public feed, when it has an id, says what was published. -/
def World.Publishes (s : World C) (d : Doc) : Prop :=
  (Doc.string d "ID").isSome →
    ∃ u id, s.Tells (Request.publishes u id) (Social.fetchSocialPost.item d)

/-- A document of the user's own, when it has an id, says what was created. -/
def World.Creates (s : World C) (uid : String) (d : Doc) : Prop :=
  (Doc.string d "ID").isSome → ∃ id, s.Tells (Request.creates uid id) (postFeed.fetchData.item d)

/-- The open post, when it has an id, shows what was published. -/
def World.Opened (s : World C) (v : SocialMore) : Prop :=
  v.id.isSome → ∃ u id post, s.Tells (Request.publishes u id) post ∧ v.Shows post

theorem publishes_of_documents {c : C} {d : Doc}
    (hd : d ∈ (Social.fetchSocialPost.collection (me c)).documents (s.view c)) :
    s.Publishes d := by
  intro hid
  obtain ⟨p, hp, hlookup⟩ := DocStore.mem_docsIn hd
  obtain ⟨id, rfl⟩ := Collection.holds_iff.mp hp
  obtain ⟨u, r, hr, hpub, hof⟩ := social_fields hlookup hid
  obtain ⟨e, he⟩ := exists_history_of_seen hr
  exact ⟨u, id, e, r, he, hpub, hof⟩

theorem creates_of_documents {c : C} {d : Doc}
    (hd : d ∈ (postFeed.fetchData.collection (me c)).documents (s.view c)) :
    s.Creates (me c) d := by
  intro hid
  obtain ⟨p, hp, hlookup⟩ := DocStore.mem_docsIn hd
  obtain ⟨id, rfl⟩ := Collection.holds_iff.mp hp
  obtain ⟨r, hr, hcreates, hof⟩ := post_fields hlookup hid
  obtain ⟨e, he⟩ := exists_history_of_seen hr
  exact ⟨id, e, r, he, hcreates, hof⟩

omit [DecidableEq C] in
/-- The labels leave what the view shows of its post. -/
theorem shows_setUp (post : Post) : (Social.prepare post).setUp.Shows post := by
  cases hlikes : post.likes <;> cases hcap : post.textCaption <;>
    simp [SocialMore.Shows, SocialMore.setUp, Social.prepare, hlikes, hcap]

theorem opens_opened : Opens s.Publishes s.Opened where
  setUp d pid hd hid _ := by
    obtain ⟨u, id, htells⟩ := hd (hid ▸ rfl)
    exact ⟨u, id, _, htells, shows_setUp _⟩
  heart v liked hv hid := by
    obtain ⟨u, id, post, htells, hshows⟩ := hv hid
    refine ⟨u, id, post, htells, ?_⟩
    unfold SocialMore.Shows at hshows ⊢
    rw [SocialMore.showHeart, hshows]
  image v hv hid := by
    obtain ⟨u, id, post, htells, hshows⟩ := hv hid
    refine ⟨u, id, post, htells, ?_⟩
    unfold SocialMore.Shows at hshows ⊢
    rw [hshows]

/-- **Every event leaves the screens with what was submitted.** -/
theorem told_step {e : Event C} {c : C}
    (hT : Shown s.Publishes (s.Creates (me c)) s.Opened (s.phone c))
    (h : step me s e = some s') :
    Shown s'.Publishes (s'.Creates (me c)) s'.Opened (s'.phone c) := by
  have hpub : ∀ d, s.Publishes d → s'.Publishes d := fun d hd hid =>
    let ⟨u, id, ht⟩ := hd hid
    ⟨u, id, ht.step h⟩
  have hcreate : ∀ d, s.Creates (me c) d → s'.Creates (me c) d := fun d hd hid =>
    let ⟨id, ht⟩ := hd hid
    ⟨id, ht.step h⟩
  have hopen : ∀ v, s.Opened v → s'.Opened v := fun v hv hid =>
    let ⟨u, id, post, ht, hshows⟩ := hv hid
    ⟨u, id, post, ht.step h, hshows⟩
  refine shown_step (hT.mono hpub hcreate hopen) opens_opened
    (fun d hd => hpub d (publishes_of_documents hd))
    (fun d hd => hcreate d (creates_of_documents hd))
    (fun imgN v v' rs refs _ hv hchange => ?_) h
  obtain ⟨_, _, _, _, _, _, _, _, _, _, rfl⟩ := SocialMore.changeLike_eq_some hchange
  intro hid
  obtain ⟨u, id, post, htells, hshows⟩ := hopen v (hT.more v hv) hid
  refine ⟨u, id, post, htells, ?_⟩
  unfold SocialMore.Shows at hshows ⊢
  rw [hshows]

/-! ### Runs -/

omit [DecidableEq C] in
theorem eq_of_countP_le_one {α : Type} {p : α → Bool} {l : List α} (h : l.countP p ≤ 1) {x y : α}
    (hx : x ∈ l) (hpx : p x = true) (hy : y ∈ l) (hpy : p y = true) : x = y := by
  rw [List.countP_eq_length_filter] at h
  have hx' : x ∈ l.filter p := List.mem_filter.mpr ⟨hx, hpx⟩
  have hy' : y ∈ l.filter p := List.mem_filter.mpr ⟨hy, hpy⟩
  match hl : l.filter p with
  | [] => simp [hl] at hx'
  | [z] =>
      rw [hl, List.mem_singleton] at hx' hy'
      rw [hx', hy']
  | _ :: _ :: _ => simp [hl] at h

/-- **What is created under an id is created once**, with one caption and one image. -/
theorem Sound.create_eq (hS : Sound me s) {c d : C}
    {u u' id caption caption' imgName imgName' : String}
    (h : .create u id caption imgName ∈ s.net.history c)
    (h' : .create u' id caption' imgName' ∈ s.net.history d) :
    u = u' ∧ caption = caption' ∧ imgName = imgName' := by
  have hc : Created (s.net.history c) u id := ⟨_, h, by simp [Request.creates]⟩
  have hd : Created (s.net.history d) u' id := ⟨_, h', by simp [Request.creates]⟩
  obtain rfl := hS.author_eq hc hd
  obtain rfl := (hS.created_once u id).client c d hc hd
  have hsame := eq_of_countP_le_one ((hS.created_once u id).count c) h (by simp [Request.creates])
    h' (by simp [Request.creates])
  obtain ⟨-, -, rfl, rfl⟩ := Request.create.inj hsame
  exact ⟨rfl, rfl, rfl⟩

/-- What is told of one id as published is told once. -/
theorem tells_unique (hS : Sound me s) {u u' id : String} {post post' : Post}
    (h : s.Tells (Request.publishes u id) post) (h' : s.Tells (Request.publishes u' id) post') :
    post' = { post with likes := post'.likes } := by
  obtain ⟨c, r, hr, hpub, made, hmade, hpost⟩ := h
  obtain ⟨c', r', hr', hpub', made', hmade', hpost'⟩ := h'
  obtain ⟨rfl, hc⟩ := hS.drawn.publish c u id ⟨r, hr, hpub⟩
  obtain ⟨rfl, hc'⟩ := hS.drawn.publish c' u' id ⟨r', hr', hpub'⟩
  obtain ⟨-, rfl⟩ := Prod.mk.inj (List.inj_on_of_nodup_map hS.drawn.nodup hc hc' rfl)
  obtain rfl := eq_of_countP_le_one ((hS.published_once (me c) id).count c) hr hpub hr' hpub'
  obtain rfl := Option.some.inj (hmade.symm.trans hmade')
  rw [hpost', hpost]

/-- What is told of one id as created is told once. -/
theorem creates_unique (hS : Sound me s) {u u' id : String} {post post' : Post}
    (h : s.Tells (Request.creates u id) post) (h' : s.Tells (Request.creates u' id) post') :
    u = u' ∧ post' = { post with likes := post'.likes } := by
  obtain ⟨c, r, hr, hcreate, made, hmade, hpost⟩ := h
  obtain ⟨d, r', hr', hcreate', made', hmade', hpost'⟩ := h'
  obtain ⟨caption, imgName, rfl⟩ := Request.creates_iff.mp hcreate
  obtain ⟨caption', imgName', rfl⟩ := Request.creates_iff.mp hcreate'
  obtain ⟨rfl, rfl, rfl⟩ := hS.create_eq hr hr'
  obtain rfl := Option.some.inj (hmade.symm.trans hmade')
  exact ⟨rfl, by rw [hpost', hpost]⟩

/-- **Both copies of a post tell the same**, as far as both tell it. -/
theorem publishes_creates (hS : Sound me s) (hA : Authored me s) {u u' id : String}
    {post post' : Post} (h : s.Tells (Request.publishes u id) post)
    (h' : s.Tells (Request.creates u' id) post') :
    u = u' ∧ post.pid = post'.pid ∧ post.textCaption = post'.textCaption ∧
      post.postImg = post'.postImg := by
  obtain ⟨c, r, hr, hpub, made, hmade, hpost⟩ := h
  obtain ⟨d, r', hr', hcreate, made', hmade', hpost'⟩ := h'
  obtain ⟨caption, imgName, profImg, username, rfl⟩ := Request.publishes_iff.mp hpub
  obtain ⟨caption', imgName', rfl⟩ := Request.creates_iff.mp hcreate
  obtain ⟨rfl, hown, -, -⟩ := hA.publish _ _ _ _ _ _ _ hr
  obtain ⟨e, he⟩ := exists_history_of_seen hown
  obtain ⟨rfl, rfl, rfl⟩ := hS.create_eq he hr'
  obtain rfl := (Option.some.inj hmade).symm
  obtain rfl := (Option.some.inj hmade').symm
  rw [hpost, hpost']
  exact ⟨rfl, rfl, rfl, rfl⟩

/-- Of one id the same is told everywhere, counts aside: in the public feeds and on the screens
of open posts, in the own feeds, and between the two as far as both tell it. -/
structure World.ToldOnce (s : World C) : Prop where
  published : ∀ u u' id post post', s.Tells (Request.publishes u id) post →
    s.Tells (Request.publishes u' id) post' → post' = { post with likes := post'.likes }
  created : ∀ u u' id post post', s.Tells (Request.creates u id) post →
    s.Tells (Request.creates u' id) post' → u = u' ∧ post' = { post with likes := post'.likes }
  both : ∀ u u' id post post', s.Tells (Request.publishes u id) post →
    s.Tells (Request.creates u' id) post' → u = u' ∧ post.pid = post'.pid ∧
      post.textCaption = post'.textCaption ∧ post.postImg = post'.postImg

/-- **Posts are shown as they were submitted.**  Whatever has an id in a feed, or on the screen
of an open post, is but for its count what was published or created under that id; of one
id the same is told everywhere; and what is published is what its author has submitted, with
the name that the author signed up with, and a picture of the author's own. -/
theorem posts_as_submitted {es : List (Event C)}
    (hrun : Machine.run (step me) init es = some s) :
    (∀ c, (∀ post ∈ (s.phone c).posts, post.pid.isSome →
          ∃ u id, s.Tells (Request.publishes u id) post) ∧
        (∀ post ∈ (s.phone c).feed, post.pid.isSome →
          ∃ id, s.Tells (Request.creates (me c) id) post) ∧
        ∀ v, (s.phone c).more = some v → s.Opened v) ∧
    s.ToldOnce ∧
    ∀ c uid id caption imgName profImg username,
      .publish uid id caption imgName profImg username ∈ s.net.history c →
      uid = me c ∧ .create uid id caption imgName ∈ s.net.history c ∧ s.Pictured uid profImg ∧
      ∃ firstname, ∀ f n, s.Called uid f n ↔ f = firstname ∧ n = username := by
  have hS : Sound me s := sound_run hrun
  have hT : ∀ c, Shown s.Publishes (s.Creates (me c)) s.Opened (s.phone c) :=
    Machine.invariant_run_all (I := fun s : World C => ∀ c, Shown s.Publishes (s.Creates (me c))
      s.Opened (s.phone c)) (fun s e s' hT h c => told_step (hT c) h) (fun c => shown_init c) hrun
  have hA : Sound me s ∧ Authored me s := Machine.invariant_run_all
    (I := fun s => Sound me s ∧ Authored me s)
    (fun s e s' hI h => ⟨sound_step hI.1 h, authored_step hI.1 hI.2 h⟩)
    ⟨sound_init, authored_init⟩ hrun
  have hR : Registered s := Machine.invariant_run_all (fun s e s' hR h => registered_step hR h)
    registered_init hrun
  refine ⟨fun c => ⟨fun post hp hid => ?_, fun post hp hid => ?_, (hT c).more⟩,
    ⟨fun _ _ _ _ _ => tells_unique hS, fun _ _ _ _ _ => creates_unique hS,
      fun _ _ _ _ _ => publishes_creates hS hA.2⟩, ?_⟩
  · obtain ⟨d, hd, rfl⟩ := (hT c).posts post hp
    exact hd hid
  · obtain ⟨d, hd, rfl⟩ := (hT c).feed post hp
    exact hd hid
  · intro c uid id caption imgName profImg username hpub
    obtain ⟨rfl, hcreate, ⟨firstname, hname⟩, hpic⟩ := hA.2.publish _ _ _ _ _ _ _ hpub
    refine ⟨rfl, ?_, hpic, firstname, fun f n => ⟨fun hn => ?_, ?_⟩⟩
    · -- the phone that has created the post is the one that drew its id
      obtain ⟨d, hd⟩ := exists_history_of_seen hcreate
      have hc := (hS.drawn.publish c (me c) id ⟨_, hpub, by simp [Request.publishes]⟩).2
      have hd' := (hS.drawn.create d (me c) id ⟨_, hd, by simp [Request.creates]⟩).2
      obtain ⟨-, rfl⟩ := Prod.mk.inj (List.inj_on_of_nodup_map hS.drawn.nodup hc hd' rfl)
      exact hd
    · exact hR.once _ _ _ _ _ hname hn
    · rintro ⟨rfl, rfl⟩
      exact hname

set_option maxRecDepth 100000 in
/-- Ann posts, and bob opens and likes the post. -/
theorem posts_as_submitted_duo :
    ∃ s, Machine.run (step duo) init (signingUp ++ submitting ++ publishing ++ opening 1
        ++ tapping 1) = some s ∧
      ((s.phone 1).posts.map Post.pid) = [some "p"] ∧
      (∀ post ∈ (s.phone 1).posts, post.pid.isSome →
        ∃ u id, s.Tells (Request.publishes u id) post) ∧
      ∃ firstname, ∀ f n, s.Called "ann" f n ↔ f = firstname ∧ n = "ann" := by
  obtain ⟨s, hs, hpid, hpub⟩ : ∃ s, Machine.run (step duo) init (signingUp ++ submitting
      ++ publishing ++ opening 1 ++ tapping 1) = some s ∧
      ((s.phone 1).posts.map Post.pid) = [some "p"] ∧
      Request.publish "ann" "p" "hi" "img" "" "ann" ∈ s.net.history 0 := by
    decide +kernel
  obtain ⟨hscreens, -, hauthor⟩ := posts_as_submitted hs
  exact ⟨s, hs, hpid, (hscreens 1).1, (hauthor 0 _ _ _ _ _ _ hpub).2.2.2⟩

end UTrend
