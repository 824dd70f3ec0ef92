/-
One task at a time.

On a board every deed is done at once.  A phone needs many events for it: taps, reads,
writes, uploads.  When users do their tasks one after the other, phones and board cannot be
told apart: whatever is allowed is done, and the board does the same: `tasks_done`.

So nothing traps there, and every task has its effect, whatever has gone on before, as long
as it was orderly.  The invariant is `Settled`.
-/
import UTrend.Proofs.Scripts

namespace UTrend

open World

/-- What a user sets out to do. -/
inductive Task (C : Type)
  | signUp (c : C) (firstname username : String)
  | login (c : C)
  | google (c : C)
  /-- to submit a post; `id` is the UUID that is drawn -/
  | post (c : C) (caption imgN id : String)
  /-- to find a post in the public feed and tap its heart -/
  | tap (c : C) (id imgN : String)
  /-- to find a post of one's own and delete it -/
  | delete (c : C) (id : String)
  | picture (c : C) (imgN : String)
  | addToCloset (c : C) (docId imgN type : String)
deriving DecidableEq, Repr

namespace Task

variable {C : Type} [DecidableEq C]

/-- Where a post is in a feed. -/
def position (id : String) (posts : List Post) : Nat := posts.findIdx (·.pid == some id)

/-- The events of a task. -/
def script (me : C → String) (s : World C) : Task C → List (Event C)
  | .signUp c firstname username => signInScript c (.signUp firstname username) 1
  | .login c => signInScript c .login 0
  | .google c => signInScript c .google 0
  | .post c caption imgN id => postScript c caption imgN id
  | .tap c id imgN => tapScript c
      (position id (Social.fetchSocialPost.listOf (Collection.socialFeed.documents s.db))) imgN
      (s.db.lookup (.like (me c) id)).isSome
  | .delete c id => deleteScript c
      (position id (postFeed.fetchData.listOf ((Collection.posts (me c)).documents s.db)))
      (s.phone c).cells.length
  | .picture c imgN => storeScript c (.picture imgN)
  | .addToCloset c docId imgN type => storeScript c (.addToCloset docId imgN type)

/-- The whole task is done on the phones. -/
def perform (me : C → String) (s : World C) (task : Task C) : Option (World C) :=
  Machine.run (step me) s (task.script me s)

/-- Whether the task can be begun: the phone is signed in, or not yet; the user, the post or the
document is there; the form is filled in, the count has not run out, and the picture that a new
like uploads again is in Storage. -/
def Allowed (me : C → String) (s : World C) : Task C → Prop
  | .signUp c _ _ => (s.phone c).signedIn = false ∧ me c ∉ s.accounts
  | .login c => (s.phone c).signedIn = false ∧ me c ∈ s.accounts
  | .google c => (s.phone c).signedIn = false
  | .post c caption imgN id => (s.phone c).signedIn = true ∧ Path.user (me c) ∈ s.db ∧
      caption ≠ "" ∧ imgN ≠ "" ∧ id ∉ s.posted.map Prod.fst
  | .tap c id _ => (s.phone c).signedIn = true ∧ Path.social id ∈ s.db ∧
      likers id s.db + 1 < 2 ^ 63 ∧ (Path.like (me c) id ∈ s.db ∨
        ∃ img ∈ (s.db.lookup (.social id)).bind (Doc.string · "postImg"),
          ⟨.social, img⟩ ∈ s.storage)
  | .delete c id => (s.phone c).signedIn = true ∧ Path.post (me c) id ∈ s.db
  | .picture c _ => (s.phone c).signedIn = true ∧ Path.user (me c) ∈ s.db
  | .addToCloset c _ _ _ => (s.phone c).signedIn = true

instance (me : C → String) (s : World C) : (task : Task C) → Decidable (task.Allowed me s)
  | .signUp .. | .login _ | .delete .. | .picture .. | .post .. =>
      inferInstanceAs (Decidable (_ ∧ _))
  | .tap .. => inferInstanceAs (Decidable (_ ∧ _ ∧ _ ∧ (_ ∨ _)))
  | .google _ | .addToCloset .. => inferInstanceAs (Decidable (_ = _))

/-- What the task is on a board. -/
def deeds (me : C → String) (n : Network) : Task C →
    List (Board.Deed String String (String × String) (String × String) String (String × String))
  | .signUp c firstname username => [.join (me c) (firstname, username) ""]
  | .login _ | .google _ => []
  | .post c caption imgN id => [.write (me c) id (caption, imgN),
      .share id (((n.people (me c)).map (·.picture)).getD "")]
  | .tap c id imgN => [if me c ∈ n.likers id then .unlike (me c) id else .like (me c) id imgN]
  | .delete _ id => [.remove id]
  | .picture c imgN => [.portray (me c) imgN]
  | .addToCloset c docId imgN type => [.store (me c) docId (imgN, type)]

/-- The task is done on a board. -/
def onBoard (me : C → String) (n : Network) (task : Task C) : Option Network :=
  Machine.run Board.step n (task.deeds me n)

end Task

variable {C : Type} [DecidableEq C] {me : C → String} {s : World C} {n : Network} {id : String}
  {c : C}

/-! ### The state between two tasks -/

/-- Nothing is pending after an orderly run, and the board is the one behind it. -/
structure Settled (me : C → String) (s : World C) (n : Network) : Prop where
  idle : s.Idle
  reached : ∃ es, Machine.run (step me) init es = some s ∧
    Machine.Along (step me) (Orderly me) init es
  board : Machine.run Board.step Board.empty (s.net.committed.filterMap Request.deed) = some n

theorem Settled.mirrors (h : Settled me s n) : Mirrors s.net.committed n := by
  obtain ⟨es, hrun, horderly⟩ := h.reached
  obtain ⟨m, hm, hmirrors⟩ := (refined_run hrun horderly).board
  obtain rfl : n = m := Option.some.inj (h.board.symm.trans hm)
  exact hmirrors

theorem Settled.posts (h : Settled me s n) : n.Posts s.db := by
  obtain ⟨es, hrun, horderly⟩ := h.reached
  exact posts_quiet hrun horderly h.idle.1 h.mirrors

/-- **A script is done on the phones, and its deeds on the board.** -/
theorem Settled.does (h : Settled me s n) {fs : List (Event C)} {rs : List Request}
    (hdoes : s.Does me fs rs) : ∃ t n', Machine.run (step me) s fs = some t ∧
      Machine.run Board.step n (rs.filterMap Request.deed) = some n' ∧ Settled me t n' := by
  obtain ⟨es, hrun, horderly⟩ := h.reached
  obtain ⟨t, hscript, hscriptOrderly, hidle, hcommitted⟩ := hdoes
  have hwhole := Machine.run_append_eq_some.mpr ⟨s, hrun, hscript⟩
  have hwholeOrderly : Machine.Along (step me) (Orderly me) init (es ++ fs) := by
    refine Machine.along_append.mpr ⟨horderly, fun m hm => ?_⟩
    obtain rfl := Option.some.inj (hrun.symm.trans hm)
    exact hscriptOrderly
  -- the board of the whole run starts with the board behind the run so far
  obtain ⟨n', hn', -⟩ := (refined_run hwhole hwholeOrderly).board
  have hdeeds := hn'
  rw [hcommitted, List.filterMap_append] at hdeeds
  obtain ⟨m, hm, hrest⟩ := Machine.run_append_eq_some.mp hdeeds
  obtain rfl : n = m := Option.some.inj (h.board.symm.trans hm)
  exact ⟨t, n', hscript, hrest, hidle, ⟨_, hwhole, hwholeOrderly⟩, hn'⟩

/-! ### Posts on a board -/

/-- What an entry that is shared shows. -/
theorem Network.publicPost_eq_some {post : Post} (h : n.publicPost id = some post) :
    post.pid = some id ∧ post.postImg.isSome ∧ post.textCaption.isSome ∧
      post.likes = some ((n.likers id).card : Int) ∧
      ∃ u, post.uid = some u ∧ (n.ownPost u id).isSome := by
  simp only [publicPost, Option.bind_eq_bind, Option.bind_eq_some_iff, Option.some.injEq] at h
  obtain ⟨e, he, pic, hpic, x, hx, rfl⟩ := h
  exact ⟨rfl, rfl, rfl, rfl, e.author, rfl, by simp [ownPost, he]⟩

/-- What an entry shows its author. -/
theorem Network.ownPost_eq_some {uid : String} {post : Post} (h : n.ownPost uid id = some post) :
    post.pid = some id ∧ post.postImg.isSome ∧ post.likes.isSome := by
  simp only [ownPost, Option.bind_eq_bind, Option.bind_eq_some_iff] at h
  obtain ⟨e, he, h⟩ := h
  split at h
  · obtain rfl := Option.some.inj h
    exact ⟨rfl, rfl, rfl⟩
  · simp at h

/-- **A document is found in the feed of its collection**, where the feed shows each document
under its own id. -/
theorem exists_position {collection : String → Collection} {item : Doc → Post} {k : Collection}
    {db : Store} {shown : String → Option Post}
    (hshown : ∀ i, (db.lookup (k.path i)).map item = shown i)
    (hpid : ∀ i post, shown i = some post → post.pid = some i) (hmem : k.path id ∈ db) :
    ∃ post, ((feed collection item).listOf (k.documents db))[
        Task.position id ((feed collection item).listOf (k.documents db))]? = some post ∧
      shown id = some post := by
  obtain ⟨d, hd⟩ := DocStore.exists_lookup_of_mem hmem
  have hitem : (db.lookup (k.path id)).map item = some (item d) := by rw [hd, Option.map_some]
  have hex : ∃ x ∈ (feed collection item).listOf (k.documents db),
      (x.pid == some id) = true := by
    refine ⟨item d, mem_feed_listOf.mpr ⟨id, hitem⟩, ?_⟩
    rw [hpid id _ ((hshown id).symm.trans hitem), beq_self_eq_true]
  have hlt := List.findIdx_lt_length_of_exists hex
  obtain ⟨i, hi⟩ := mem_feed_listOf.mp (List.getElem_mem hlt)
  rw [hshown] at hi
  -- another post would tell another id
  have hfound := List.findIdx_getElem (w := hlt)
  rw [beq_iff_eq] at hfound
  obtain rfl : i = id := Option.some.inj ((hpid i _ hi).symm.trans hfound)
  exact ⟨_, List.getElem?_eq_getElem hlt, hi⟩

/-- A post that can be tapped is ready for it. -/
theorem Settled.ready_tap (h : Settled me s n) {post : Post} (hpost : n.publicPost id = some post)
    {u : String} (hown : (n.ownPost u id).isSome) (c : C) (imgN : String) :
    AllFit c s.net.log (SocialMore.tapRequests (me c) imgN u id
      ⟨(n.likers id).card, me c ∈ n.likers id⟩) := by
  obtain ⟨es, hrun, horderly⟩ := h.reached
  have hmem : Path.post u id ∈ s.db := by
    rw [← DocStore.mem_iff_isSome, ← Option.isSome_map (f := postFeed.fetchData.item),
      h.posts.ownFeed]
    exact hown
  have hstored : storedNumber s.db (.social id) "likes" = some ((n.likers id).card : Int) := by
    obtain ⟨d, hd, hitem⟩ := Option.map_eq_some_iff.mp ((h.posts.publicFeed id).trans hpost)
    rw [storedNumber, hd, Option.bind_some]
    exact (congrArg Post.likes hitem).trans (Network.publicPost_eq_some hpost).2.2.2.1
  refine fit_of_ready (fun r hr => ?_) (UTrend.ready_tap
    (congrArg (List.map Prod.fst) (taps_eq_quiet hrun horderly h.idle.1 id)) hmem hstored
    (decide_eq_true_iff.trans h.mirrors.mem_likers))
  rcases SocialMore.mem_tapRequests hr with rfl | rfl | ⟨-, rfl⟩ | ⟨-, rfl⟩ <;> rfl

/-- What has not been drawn has not been deleted. -/
theorem Settled.not_deleted (h : Settled me s n) (hfresh : id ∉ s.posted.map Prod.fst) :
    .deleteSocial id ∉ s.net.committed := by
  obtain ⟨es, hrun, -⟩ := h.reached
  obtain ⟨-, hK⟩ := Machine.invariant_run_all (I := fun s : World C => Sound me s ∧ Known s)
    (fun _ _ _ hI hs => ⟨sound_step hI.1 hs, known_step hI.1 hI.2 hs⟩)
    ⟨sound_init, fun c r hr => by simp [init] at hr⟩ hrun
  intro hdel
  obtain ⟨c, hc⟩ := Net.exists_history_of_committed hdel
  exact hfresh (hK c _ hc id rfl)

/-! ### One task -/

/-- The document of a user on the board. -/
theorem Settled.user (h : Settled me s n) {uid : String} (hmem : Path.user uid ∈ s.db) :
    ∃ x, n.people uid = some x ∧ s.db.lookup (.user uid) = some (userDoc uid x) := by
  obtain ⟨d, hd⟩ := DocStore.exists_lookup_of_mem hmem
  have hdoc : s.db.lookup (.user uid) = (n.people uid).map (userDoc uid) := h.mirrors.people.doc uid
  obtain ⟨x, hx, rfl⟩ := Option.map_eq_some_iff.mp (hdoc.symm.trans hd)
  exact ⟨x, hx, hd⟩

/-- A user can sign in with nothing to write. -/
theorem Settled.does_signIn (h : Settled me s n) {a : Act} (hallows : s.allows me c a = true)
    (hact : a.run (me c) (s.phone c) = some ((s.phone c).start, []))
    (hplain : (Event.act c a).plain = true) : s.Does me (signInScript c a 0) [] := by
  refine UTrend.does_signIn h.idle hallows hact hplain trivial (fun _ => rfl) ?_
  rw [List.append_nil, h.mirrors.keeps.header]
  rfl

omit [DecidableEq C] in
theorem deed_tapRequests (m imgN uID : String) (tap : Tap) :
    (SocialMore.tapRequests m imgN uID id tap).filterMap Request.deed =
      [if tap.filled then .unlike m id else .like m id imgN] := by
  unfold SocialMore.tapRequests
  split <;> rfl

/-- A post of the board can be tapped. -/
theorem Settled.does_tap (h : Settled me s n) (hsigned : (s.phone c).signedIn = true)
    (hmem : Path.social id ∈ s.db) (hcount : likers id s.db + 1 < 2 ^ 63)
    (hstored : Path.like (me c) id ∈ s.db ∨
      ∃ img ∈ (s.db.lookup (.social id)).bind (Doc.string · "postImg"),
        ⟨.social, img⟩ ∈ s.storage) (imgN : String) :
    ∃ u, s.Does me ((Task.tap c id imgN).script me s) (SocialMore.tapRequests (me c) imgN u id
      ⟨(n.likers id).card, me c ∈ n.likers id⟩) := by
  obtain ⟨post, hfound, hpost⟩ := exists_position (k := .socialFeed) h.posts.publicFeed
    (fun i post hi => (Network.publicPost_eq_some hi).1) hmem
  obtain ⟨hid, himg, hcaption, hlikes, u, huid, hown⟩ := Network.publicPost_eq_some hpost
  have hheart : (s.db.lookup (.like (me c) id)).isSome = decide (me c ∈ n.likers id) := by
    rw [Bool.eq_iff_iff, decide_eq_true_iff, h.mirrors.mem_likers, DocStore.mem_iff_isSome, db]
  have hcard : likers id s.db = (n.likers id).card := h.mirrors.likes.card id
  rw [hcard] at hcount
  have hpictured : decide (me c ∈ n.likers id) = false → s.HasPicture post := by
    intro hnot
    rw [← hheart, ← Bool.not_eq_true, DocStore.mem_iff_isSome] at hnot
    obtain ⟨img, hfield, hobject⟩ := hstored.resolve_left hnot
    obtain ⟨d, hd, hstring⟩ := Option.bind_eq_some_iff.mp hfield
    obtain ⟨e, he, hitem⟩ := Option.map_eq_some_iff.mp ((h.posts.publicFeed id).trans hpost)
    obtain rfl := Option.some.inj (hd.symm.trans he)
    exact ⟨img, (congrArg Post.postImg hitem).symm.trans hstring, hobject⟩
  refine ⟨u, ?_⟩
  rw [Task.script, hheart]
  exact UTrend.does_tap h.idle hsigned hfound hid huid himg hcaption hlikes hcount imgN hheart
    hpictured (h.ready_tap hpost hown c imgN)

/-- **A task that is allowed is done, and the board does the same.** -/
theorem settled_step (h : Settled me s n) {task : Task C} (hallowed : task.Allowed me s) :
    ∃ t n', task.perform me s = some t ∧ task.onBoard me n = some n' ∧ Settled me t n' := by
  unfold Task.perform Task.onBoard
  cases task with
  | signUp c firstname username =>
      obtain ⟨hsigned, hnew⟩ := hallowed
      have hact : (Act.signUp firstname username).run (me c) (s.phone c)
          = some ((s.phone c).start, [.signUp (me c) firstname username]) := by
        simp [Act.run, hsigned]
      refine h.does (does_signIn h.idle (by simpa [allows] using hnew) hact rfl
        ⟨fit_of_about rfl, trivial⟩ (fun _ => rfl) ?_)
      rw [lookup_concat_self (show (Request.signUp (me c) firstname username).path
        = .user (me c) from rfl)]
      rfl
  | login c =>
      obtain ⟨hsigned, hold⟩ := hallowed
      exact h.does (h.does_signIn (by simpa [allows] using hold) (by simp [Act.run, hsigned]) rfl)
  | google c =>
      have hsigned : (s.phone c).signedIn = false := hallowed
      exact h.does (h.does_signIn (by simp [allows, Act.signsIn]) (by simp [Act.run, hsigned]) rfl)
  | post c caption imgN id =>
      obtain ⟨hsigned, hmem, hcaption, himg, hfresh⟩ := hallowed
      obtain ⟨x, hx, hd⟩ := h.user hmem
      have hpic : Doc.string (userDoc (me c) x) "profileImg" = some x.picture := rfl
      have hname : Doc.string (userDoc (me c) x) "username" = some x.name.2 := rfl
      have hdone := h.does (does_post h.idle hsigned hcaption himg hfresh (h.not_deleted hfresh) hd
        hpic hname)
      rw [Task.deeds, hx]
      exact hdone
  | tap c id imgN =>
      obtain ⟨hsigned, hmem, hcount, hstored⟩ := hallowed
      obtain ⟨u, hdoes⟩ := h.does_tap hsigned hmem hcount hstored imgN
      have hdone := h.does hdoes
      rw [deed_tapRequests] at hdone
      simp only [decide_eq_true_eq] at hdone
      exact hdone
  | delete c id =>
      obtain ⟨hsigned, hmem⟩ := hallowed
      obtain ⟨post, hfound, hpost⟩ := exists_position (k := .posts (me c))
        (h.posts.ownFeed (me c)) (fun i post hi => (Network.ownPost_eq_some hi).1) hmem
      obtain ⟨hid, himg, hlikes⟩ := Network.ownPost_eq_some hpost
      exact h.does (does_delete h.idle hsigned hfound hid himg hlikes)
  | picture c imgN =>
      obtain ⟨hsigned, hmem⟩ := hallowed
      refine h.does (does_store (a := .picture imgN) (r := .picture (me c) imgN)
        (o := ⟨.profile, imgN⟩) h.idle (by simpa [allows, Act.signsIn] using hsigned) rfl
        (h.idle.2 c).1 (by simp [(h.idle.2 c).2]) ⟨fun _ => ?_, trivial⟩ rfl fun _ => rfl)
      show Path.user (me c) ∈ s.view c
      rw [view, h.idle.1.seen_eq]
      exact hmem
  | addToCloset c docId imgN type =>
      have hsigned : (s.phone c).signedIn = true := hallowed
      exact h.does (does_store (a := .addToCloset docId imgN type)
        (r := .clothes (me c) docId imgN type) (o := ⟨.clothes (me c), imgN⟩) h.idle
        (by simpa [allows, Act.signsIn] using hsigned) rfl (h.idle.2 c).1
        (by simp [(h.idle.2 c).2]) (orderly_of_plain rfl) rfl fun _ => rfl)

/-! ### Many tasks -/

/-- **One task at a time, the phones are a board.**  After an orderly run, when nothing is
pending, users do tasks one after the other, each allowed when it is begun.  All of them are
done: no handler traps, all that is written is applied, and nothing is pending in the end.  The
board does the same tasks, and then the database has the people, the likes, the closets and the
posts of that board, with as many likes as there are likers. -/
theorem tasks_done (h : Settled me s n) {tasks : List (Task C)}
    (hallowed : Machine.Along (Task.perform me) (Task.Allowed me) s tasks) :
    ∃ t n', Machine.run (Task.perform me) s tasks = some t ∧
      Machine.run (Task.onBoard me) n tasks = some n' ∧
      Settled me t n' ∧ n'.Keeps t.db ∧ n'.Posts t.db := by
  have hstep : ∀ (s : World C) (n : Network) (task : Task C), Settled me s n →
      task.Allowed me s → ∃ t n', task.perform me s = some t ∧ task.onBoard me n = some n' ∧
        Settled me t n' := fun _ _ _ h ha => settled_step h ha
  obtain ⟨t, n', ht, hn', hend⟩ := Machine.exists_run_related hstep h hallowed
  exact ⟨t, n', ht, hn', hend, hend.mirrors.keeps, hend.posts⟩

set_option maxRecDepth 100000 in
/-- Both sign up, ann posts, both like the post, bob takes it back, and ann deletes it. -/
theorem tasks_done_duo :
    ∃ t n', Machine.run (Task.perform duo) init [.signUp 0 "Ann" "ann", .signUp 1 "Bob" "bob",
        .picture 0 "pic", .post 0 "hi" "img" "p", .tap 1 "p" "like", .tap 0 "p" "mine",
        .tap 1 "p" "", .addToCloset 1 "d" "coat" "Tops", .delete 0 "p"] = some t ∧
      Machine.run (Task.onBoard duo) Board.empty [.signUp 0 "Ann" "ann", .signUp 1 "Bob" "bob",
        .picture 0 "pic", .post 0 "hi" "img" "p", .tap 1 "p" "like", .tap 0 "p" "mine",
        .tap 1 "p" "", .addToCloset 1 "d" "coat" "Tops", .delete 0 "p"] = some n' ∧
      Settled duo t n' ∧ n'.Keeps t.db ∧ n'.Posts t.db :=
  tasks_done ⟨by decide +kernel, ⟨[], rfl, trivial⟩, rfl⟩ (by decide +kernel)

end UTrend
