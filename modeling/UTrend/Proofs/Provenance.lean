/-
What a phone knows, it knows from writes it has seen.

A post on the screen came out of a document, and a document that carries an `ID`
was written by `addToDB`.  So the id in a feed, in a cell or in the open post is
the id of a post whose copy the phone has already seen being written, and the
`uid` beside it is the author's.  `Informed` states this for the lists, the cells,
the open post and the answers on their way, and `informed_step` says that every
event keeps it.  This is where the order of dependent writes comes from: a phone
counts or deletes only what it has seen made.
-/
import UTrend.Proofs.Steps

namespace UTrend

/-! ### Kinds of requests -/

namespace Request

/-- The author's copy of the post is made. -/
def creates (uid id : String) : Request → Bool
  | .create u i _ _ => u == uid && i == id
  | _ => false

/-- The public copy of the post is made. -/
def publishes (uid id : String) : Request → Bool
  | .publish u i _ _ _ _ => u == uid && i == id
  | _ => false

theorem creates_iff {uid id : String} {r : Request} :
    r.creates uid id = true ↔ ∃ caption imgName, r = .create uid id caption imgName := by
  cases r <;> simp [creates]

theorem publishes_iff {uid id : String} {r : Request} : r.publishes uid id = true ↔
    ∃ caption imgName profImg username,
      r = .publish uid id caption imgName profImg username := by
  cases r <;> simp [publishes]

end Request

/-- The author's copy is among the writes. -/
def Created (V : List Request) (uid id : String) : Prop := ∃ r ∈ V, r.creates uid id

/-- The public copy is among the writes. -/
def Published (V : List Request) (uid id : String) : Prop := ∃ r ∈ V, r.publishes uid id

theorem Created.mono {V W : List Request} {uid id : String} (h : Created V uid id)
    (hVW : ∀ r ∈ V, r ∈ W) : Created W uid id :=
  h.imp fun _ hr => ⟨hVW _ hr.1, hr.2⟩

theorem Published.mono {V W : List Request} {uid id : String} (h : Published V uid id)
    (hVW : ∀ r ∈ V, r ∈ W) : Published W uid id :=
  h.imp fun _ hr => ⟨hVW _ hr.1, hr.2⟩

/-- The id and the author that a public post gives are those of a public copy. -/
def Public (V : List Request) (pid uid : Option String) : Prop :=
  ∀ id, pid = some id → ∃ u, uid = some u ∧ Published V u id

/-- The id that one of `m`'s posts gives is that of an author's copy of `m`. -/
def Own (V : List Request) (m : String) (pid : Option String) : Prop :=
  ∀ id, pid = some id → Created V m id

theorem Public.mono {V W : List Request} {pid uid : Option String} (h : Public V pid uid)
    (hVW : ∀ r ∈ V, r ∈ W) : Public W pid uid := by
  intro id hid
  obtain ⟨u, hu, hpub⟩ := h id hid
  exact ⟨u, hu, hpub.mono hVW⟩

theorem Own.mono {V W : List Request} {m : String} {pid : Option String} (h : Own V m pid)
    (hVW : ∀ r ∈ V, r ∈ W) : Own W m pid :=
  fun id hid => (h id hid).mono hVW

/-! ### Documents -/

/-- A document that the `likes` of a post are merged into says otherwise what it said. -/
theorem string_update_likes {old : Option Doc} {n : Int} {field : String}
    (h : field ≠ "likes") :
    Doc.string (DocStore.Doc.update (old.getD DocStore.Doc.empty) [("likes", .num n)]) field
      = old.bind fun d => Doc.string d field := by
  have hfield : (field == "likes") = false := by simpa using h
  cases old <;> simp [Doc.string, DocStore.Doc.update, DocStore.Doc.empty, List.lookup_cons, hfield]

/-- **A public document with an `ID` was made by `addToDB`.** -/
theorem public_of_lookup (rs : List Request) {id : String} {d : Doc}
    (h : (contents rs).lookup (.social id) = some d) :
    Public rs (Doc.string d "ID") (Doc.string d "uid") := by
  suffices hI : ∀ d, (contents rs).lookup (.social id) = some d →
      Public rs (Doc.string d "ID") (Doc.string d "uid") from hI d h
  refine contents_induction (p := .social id)
    (I := fun rs doc => ∀ d, doc = some d → Public rs (Doc.string d "ID") (Doc.string d "uid"))
    ?_ ?_ ?_ rs
  · simp
  · intro rs r doc ih _ d hd
    exact (ih d hd).mono fun x hx => List.mem_append_left _ hx
  · intro rs r doc ih hpath d hd
    rcases Request.path_eq_social hpath with
      ⟨uid, caption, imgName, profImg, username, rfl⟩ | ⟨tap, rfl⟩ | rfl
    · obtain rfl := (Option.some.inj hd).symm
      intro i hi
      obtain rfl : id = i := by
        simpa [Doc.string, DocStore.Doc.update, List.lookup_cons, Value.asString] using hi
      exact ⟨uid, rfl, _, List.mem_append_right _ (List.mem_singleton_self _),
        by simp [Request.publishes]⟩
    · obtain rfl := (Option.some.inj hd).symm
      intro i hi
      rw [string_update_likes (by decide)] at hi ⊢
      obtain ⟨d, rfl, hdi⟩ := Option.bind_eq_some_iff.mp hi
      obtain ⟨u, hu, hpub⟩ := ih d rfl i hdi
      exact ⟨u, hu, hpub.mono fun x hx => List.mem_append_left _ hx⟩
    · simp [Request.write, DocStore.Write.result] at hd

/-- **An author's document with an `ID` was made by `addToDB`.** -/
theorem own_of_lookup (rs : List Request) {uid id : String} {d : Doc}
    (h : (contents rs).lookup (.post uid id) = some d) : Own rs uid (Doc.string d "ID") := by
  suffices hI : ∀ d, (contents rs).lookup (.post uid id) = some d →
      Own rs uid (Doc.string d "ID") from hI d h
  refine contents_induction (p := .post uid id)
    (I := fun rs doc => ∀ d, doc = some d → Own rs uid (Doc.string d "ID")) ?_ ?_ ?_ rs
  · simp
  · intro rs r doc ih _ d hd
    exact (ih d hd).mono fun x hx => List.mem_append_left _ hx
  · intro rs r doc ih hpath d hd
    rcases Request.path_eq_post hpath with ⟨caption, imgName, rfl⟩ | ⟨tap, rfl⟩ | rfl
    · obtain rfl := (Option.some.inj hd).symm
      intro i hi
      obtain rfl : id = i := by
        simpa [Doc.string, DocStore.Doc.update, List.lookup_cons, Value.asString] using hi
      exact ⟨_, List.mem_append_right _ (List.mem_singleton_self _), by simp [Request.creates]⟩
    · obtain rfl := (Option.some.inj hd).symm
      intro i hi
      rw [string_update_likes (by decide)] at hi
      obtain ⟨d, rfl, hdi⟩ := Option.bind_eq_some_iff.mp hi
      exact (ih d rfl i hdi).mono fun x hx => List.mem_append_left _ hx
    · simp [Request.write, DocStore.Write.result] at hd

theorem public_of_documents {rs : List Request} {m : String} {d : Doc}
    (h : d ∈ (Social.fetchSocialPost.collection m).documents (contents rs)) :
    Public rs (Doc.string d "ID") (Doc.string d "uid") := by
  obtain ⟨p, hp, hd⟩ := DocStore.mem_docsIn h
  cases p with
  | social id => exact public_of_lookup rs hd
  | _ => simp [Social.fetchSocialPost, feed, Collection.holds] at hp

theorem own_of_documents {rs : List Request} {m : String} {d : Doc}
    (h : d ∈ (postFeed.fetchData.collection m).documents (contents rs)) :
    Own rs m (Doc.string d "ID") := by
  obtain ⟨p, hp, hd⟩ := DocStore.mem_docsIn h
  cases p with
  | post uid id =>
      obtain rfl : uid = m := by simpa [postFeed.fetchData, feed, Collection.holds] using hp
      exact own_of_lookup rs hd
  | _ => simp [postFeed.fetchData, feed, Collection.holds] at hp

/-! ### Phones -/

/-- What the answers on their way, and the reads that will answer, are about. -/
structure InformedRead (m : String) (V : List Request) (r : Read) : Prop where
  social : ∀ snap, r = ⟨.socialFeed, some (.docs snap)⟩ →
    ∀ d ∈ snap, Public V (Doc.string d "ID") (Doc.string d "uid")
  posts : ∀ snap, r = ⟨.posts, some (.docs snap)⟩ → ∀ d ∈ snap, Own V m (Doc.string d "ID")
  author : ∀ id form, r.ask = .author id form →
    .create m id form.caption form.imgName ∈ V

/-- What a phone shows and waits for comes from the writes `V`. -/
structure Informed (m : String) (V : List Request) (p : Phone) : Prop where
  posts : ∀ post ∈ p.posts, Public V post.pid post.uid
  feed : ∀ post ∈ p.feed, Own V m post.pid
  cells : ∀ postId ∈ p.cells, Own V m postId
  more : ∀ v, p.more = some v → Public V v.id v.uID
  reads : ∀ r ∈ p.reads, InformedRead m V r

theorem InformedRead.mono {m : String} {V W : List Request} {r : Read}
    (h : InformedRead m V r) (hVW : ∀ x ∈ V, x ∈ W) : InformedRead m W r where
  social snap hr d hd := (h.social snap hr d hd).mono hVW
  posts snap hr d hd := (h.posts snap hr d hd).mono hVW
  author id form hr := hVW _ (h.author id form hr)

theorem Informed.mono {m : String} {V W : List Request} {p : Phone} (h : Informed m V p)
    (hVW : ∀ x ∈ V, x ∈ W) : Informed m W p where
  posts post hp := (h.posts post hp).mono hVW
  feed post hp := (h.feed post hp).mono hVW
  cells postId hp := (h.cells postId hp).mono hVW
  more v hv := (h.more v hv).mono hVW
  reads r hr := (h.reads r hr).mono hVW

theorem postCell.postItem_eq_some {post : Post} {postId : Option String}
    (h : postCell.postItem post = some postId) : postId = post.pid := by
  simp only [postCell.postItem, Option.bind_eq_bind, Option.bind_eq_some_iff,
    Option.some.injEq] at h
  obtain ⟨_, _, _, _, rfl⟩ := h
  rfl

/-- A tap leaves the post that is open. -/
theorem SocialMore.changeLike_post {m imgN : String} {v v' : SocialMore} {rs : List Request}
    {refs : List StorageRef} (h : v.changeLike m imgN = some (v', rs, refs)) :
    v'.id = v.id ∧ v'.uID = v.uID := by
  obtain ⟨_, _, _, _, _, _, _, _, _, _, rfl⟩ := SocialMore.changeLike_eq_some h
  exact ⟨rfl, rfl⟩

theorem SocialMore.setUp_post (v : SocialMore) : v.setUp.id = v.id ∧ v.setUp.uID = v.uID := by
  cases hnum : v.numLikes <;> cases hcap : v.caption <;> simp [setUp, hnum, hcap]

namespace Informed

variable {m : String} {V : List Request} {p p' : Phone}

/-- A question that has no answer yet says nothing, but for the one about the author. -/
theorem ask (h : Informed m V p) {a : Ask}
    (ha : ∀ id form, a = .author id form → .create m id form.caption form.imgName ∈ V) :
    Informed m V (p.ask a) where
  posts := h.posts
  feed := h.feed
  cells := h.cells
  more := h.more
  reads r hr := by
    rcases List.mem_append.mp hr with hr | hr
    · exact h.reads r hr
    · obtain rfl := List.mem_singleton.mp hr
      exact ⟨by simp, by simp, fun id form he => ha id form he⟩

theorem fetchSocialPost (h : Informed m V p) : Informed m V p.fetchSocialPost := by
  refine ask (p := { p with posts := _ }) ?_ (by simp)
  exact { h with posts := by simp [Loader.call] }

theorem fetchData (h : Informed m V p) : Informed m V p.fetchData := by
  refine ask (p := { p with feed := _ }) ?_ (by simp)
  exact { h with feed := by simp [Loader.call] }

theorem start (h : Informed m V p) : Informed m V p.start :=
  ask (p := { p with signedIn := true }) { h with } (by simp)

/-- **An act keeps a phone informed.** -/
theorem run (h : Informed m V p) {a : Act} {rs : List Request}
    (ha : a.run m p = some (p', rs)) : Informed m (V ++ rs) p' := by
  have hnew : Informed m (V ++ rs) p := h.mono fun x hx => List.mem_append_left _ hx
  cases a with
  | signUp firstname username =>
      obtain ⟨rfl, rfl⟩ := Act.run_signUp ha
      exact hnew.start
  | login =>
      obtain ⟨rfl, rfl⟩ := Act.run_signsIn (Or.inl rfl) ha
      exact hnew.start
  | google =>
      obtain ⟨rfl, rfl⟩ := Act.run_signsIn (Or.inr rfl) ha
      exact hnew.start
  | viewSocial =>
      obtain ⟨rfl, rfl⟩ := Prod.mk.inj (Option.some.inj ha)
      exact hnew.fetchSocialPost
  | refresh =>
      obtain ⟨rfl, rfl⟩ := Prod.mk.inj (Option.some.inj ha)
      exact hnew.fetchData
  | cell i =>
      obtain ⟨post, postId, hpost, hitem, rfl, rfl⟩ := Act.run_cell ha
      refine { hnew with cells := fun q hq => ?_ }
      rcases List.mem_append.mp hq with hq | hq
      · exact hnew.cells q hq
      · rw [List.mem_singleton.mp hq, postCell.postItem_eq_some hitem]
        exact hnew.feed post (List.mem_of_getElem? hpost)
  | select i =>
      obtain ⟨post, pid, hpost, -, rfl, rfl⟩ := Act.run_select ha
      refine ask (p := { p with more := _, opened := _ }) ?_ (by simp)
      refine { hnew with more := fun v hv => ?_ }
      obtain rfl := Option.some.inj hv
      rw [(SocialMore.setUp_post _).1, (SocialMore.setUp_post _).2]
      exact hnew.posts post (List.mem_of_getElem? hpost)
  | image =>
      obtain ⟨v, hv, rfl, rfl⟩ := Act.run_image ha
      refine { hnew with more := fun w hw => ?_ }
      obtain rfl := Option.some.inj hw
      exact hnew.more v hv
  | tap imgN =>
      obtain ⟨v, v', refs, hv, hchange, rfl⟩ := Act.run_tap ha
      refine { hnew with more := fun w hw => ?_ }
      obtain rfl := Option.some.inj hw
      rw [(SocialMore.changeLike_post hchange).1, (SocialMore.changeLike_post hchange).2]
      exact hnew.more v hv
  | back =>
      obtain ⟨rfl, rfl⟩ := Act.run_back ha
      exact fetchSocialPost (p := { p with more := none }) { hnew with more := by simp }
  | makePost =>
      obtain ⟨rfl, rfl⟩ := Prod.mk.inj (Option.some.inj ha)
      exact { hnew with }
  | caption text =>
      obtain ⟨form, rfl, rfl⟩ := Act.run_caption ha
      exact { hnew with }
  | pick imgN =>
      obtain ⟨form, rfl, rfl⟩ := Act.run_pick ha
      exact { hnew with }
  | submit id =>
      rcases Act.run_submit ha with ⟨rfl, rfl⟩ | ⟨form, hform, hadd, rfl, rfl⟩
      · exact hnew
      · refine ask (p := { p with info := none }) { hnew with } ?_
        -- the author's copy has just been sent
        intro id' form' he
        obtain ⟨rfl, rfl⟩ := Ask.author.inj he
        exact List.mem_append_right _ (List.mem_singleton_self _)
  | delete k =>
      obtain ⟨id, -, rfl, rfl⟩ := Act.run_delete ha
      exact hnew
  | addToCloset docId imgN type =>
      obtain ⟨rfl, rfl⟩ := Prod.mk.inj (Option.some.inj ha)
      exact { hnew with }
  | picture imgN =>
      obtain ⟨rfl, rfl⟩ := Prod.mk.inj (Option.some.inj ha)
      exact { hnew with }

/-- **A callback keeps a phone informed.** -/
theorem callback (h : Informed m V p) {a : Ask} {answer : Answer} {rs : List Request}
    (hread : InformedRead m V ⟨a, some answer⟩)
    (hc : p.callback m a answer = some (p', rs)) : Informed m (V ++ rs) p' := by
  have hnew : Informed m (V ++ rs) p := h.mono fun x hx => List.mem_append_left _ hx
  have hread' := hread.mono (W := V ++ rs) fun x hx => List.mem_append_left _ hx
  rcases Phone.callback_eq_some hc with ⟨snap, rfl, rfl, rfl, rfl⟩ |
    ⟨snap, rfl, rfl, rfl, rfl⟩ | ⟨view, id, liked, rfl, rfl, rfl⟩ |
    ⟨id, form, doc, profImg, username, rfl, rfl, rfl, rfl⟩ | ⟨rfl, rfl, -⟩
  · refine { hnew with posts := fun post hp => ?_ }
    simp only [Loader.append_eq, List.mem_append] at hp
    rcases hp with hp | hp
    · exact hnew.posts post hp
    · obtain ⟨d, hd, rfl⟩ := List.mem_map.mp hp
      exact hread'.social snap rfl d (List.mem_of_mem_filter hd)
  · refine { hnew with feed := fun post hp => ?_ }
    simp only [Loader.append_eq, List.mem_append] at hp
    rcases hp with hp | hp
    · exact hnew.feed post hp
    · obtain ⟨d, hd, rfl⟩ := List.mem_map.mp hp
      exact hread'.posts snap rfl d (List.mem_of_mem_filter hd)
  · refine { hnew with more := fun w hw => ?_ }
    obtain ⟨v, hv, rfl⟩ := Option.map_eq_some_iff.mp hw
    exact hnew.more v hv
  · exact hnew
  · exact hnew

/-- Fewer reads leave a phone informed. -/
theorem eraseRead (h : Informed m V p) (k : Nat) :
    Informed m V { p with reads := p.reads.eraseIdx k } :=
  { h with reads := fun r hr => h.reads r (List.mem_of_mem_eraseIdx hr) }

/-- **An answer is about what has been seen.** -/
theorem answered {a : Ask} (h : InformedRead m V ⟨a, none⟩) (ok : Bool) :
    InformedRead m V ⟨a, some (if ok then a.answerOf m (contents V) else .error)⟩ where
  social snap hr d hd := by
    obtain ⟨rfl, hans⟩ := Read.mk.inj hr
    cases ok with
    | false => simp at hans
    | true =>
        obtain rfl : _ = snap := by simpa [Ask.answerOf] using hans
        exact public_of_documents hd
  posts snap hr d hd := by
    obtain ⟨rfl, hans⟩ := Read.mk.inj hr
    cases ok with
    | false => simp at hans
    | true =>
        obtain rfl : _ = snap := by simpa [Ask.answerOf] using hans
        exact own_of_documents hd
  author id form hr := h.author id form hr

end Informed

/-! ### Runs -/

namespace World

variable {C : Type} [DecidableEq C] {me : C → String} {s s' : World C}

/-- **Every event keeps every phone informed.** -/
theorem informed_step {e : Event C}
    (hI : ∀ c, Informed (me c) (s.net.seen c) (s.phone c)) (h : step me s e = some s') (d : C) :
    Informed (me d) (s'.net.seen d) (s'.phone d) := by
  by_cases hd : d = e.client
  swap
  · rw [step_phone h hd]
    exact (hI d).mono fun x hx => mem_seen_step h hx
  subst hd
  cases e with
  | act c a =>
      obtain ⟨-, p, rs, hrun, rfl⟩ := step_act h
      simpa [Event.client, Net.issue_seen_self] using (hI c).run hrun
  | answer c k ok =>
      obtain ⟨a, hread, rfl⟩ := step_answer h
      simp only [Event.client, setPhone_self, setPhone_net]
      refine { hI c with reads := fun r hr => ?_ }
      rcases List.mem_or_eq_of_mem_set hr with hr | rfl
      · exact (hI c).reads r hr
      · exact Informed.answered ((hI c).reads _ (List.mem_of_getElem? hread)) ok
  | arrive c k =>
      obtain ⟨a, answer, p, rs, hread, hcall, rfl⟩ := step_arrive h
      have := ((hI c).eraseRead k).callback ((hI c).reads _ (List.mem_of_getElem? hread)) hcall
      simpa [Event.client, Net.issue_seen_self] using this
  | upload c k ok =>
      obtain ⟨ref, -, rfl⟩ := step_upload h
      simp only [Event.client, setPhone_self, setPhone_net]
      exact { hI c with }
  | commit c =>
      obtain ⟨r, rest, net, hq, hnet, rfl⟩ := step_commit h
      simp only [Event.client, setPhone_self, Net.commit_seen_self hnet]
      cases r with
      | deletePost uid id => exact (hI c).fetchData
      | _ => exact hI c

omit [DecidableEq C] in
theorem informed_init (c : C) :
    Informed (me c) ((init : World C).net.seen c) ((init : World C).phone c) := by
  constructor <;> simp [init]

end World

end UTrend
