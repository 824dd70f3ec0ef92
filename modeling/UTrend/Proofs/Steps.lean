/-
What one event can do.

`Effect` lists everything an event can do on the phone it is about, as far as
writes, reads and uploads go, with what the handler has read off the phone when it
does it.  `step_effect` says that every event is one of these, and that the net
then either takes the writes or, for a commit, applies one.  The invariants about
writes and reads are all derived from that, and no later proof takes a handler
apart to see what it sends.

`step_phone` is the frame: only the phone of the event changes.
-/
import Mathlib.Data.List.Perm.Basic
import UTrend.Model.World

namespace UTrend

variable {C : Type} {me : C → String}

/-- The client of an event. -/
def Event.client : Event C → C
  | .act c _ | .answer c _ _ | .arrive c _ | .upload c _ _ | .commit c => c

/-- A tap of a heart. -/
def Event.taps : Event C → Bool
  | .act _ (.tap _) => true
  | _ => false

/-- A new profile picture. -/
def Event.pictures : Event C → Bool
  | .act _ (.picture _) => true
  | _ => false

/-- The author's copy that an event submits, if it submits a form that passes. -/
def World.submission (me : C → String) (s : World C) : Event C → Option Request
  | .act c (.submit id) => (s.phone c).info.bind (·.addToDB (me c) id)
  | _ => none

/-- The post that an event opens. -/
def World.selection (s : World C) : Event C → Option Post
  | .act c (.select i) => (s.phone c).posts[i]?
  | _ => none

/-- The object whose upload fails. -/
def World.failing (s : World C) : Event C → Option StorageRef
  | .upload c k false => (s.phone c).uploads[k]?
  | _ => none

/-- What an event does on phone `c`: the writes it issues, and the reads and the uploads
that it leaves. -/
inductive Effect (me : C → String) (s : World C) (c : C) :
    Event C → List Request → List Read → List StorageRef → Prop
  | idle (e : Event C) : Effect me s c e [] (s.phone c).reads (s.phone c).uploads
  | asks (e : Event C) {a : Ask} (ha : ∀ id form, a ≠ .author id form) :
      Effect me s c e [] ((s.phone c).reads ++ [⟨a, none⟩]) (s.phone c).uploads
  | signUp (firstname username : String) :
      Effect me s c (.act c (.signUp firstname username))
        [.signUp (me c) firstname username] ((s.phone c).reads ++ [⟨.profile, none⟩])
        (s.phone c).uploads
  | tap (imgN : String) {v : SocialMore} {uID id : String} {tap : Tap}
      (hv : (s.phone c).more = some v) (huID : v.uID = some uID) (hid : v.id = some id)
      (hnumber : v.likes.bind intOfText = some tap.number)
      (hfilled : tap.filled = decide (v.likeHeartImg = some .fillLikeheart)) :
      Effect me s c (.act c (.tap imgN)) (SocialMore.tapRequests (me c) imgN uID id tap)
        (s.phone c).reads
        ((s.phone c).uploads ++ if tap.filled then [] else [⟨.likes (me c), imgN⟩])
  | pick (imgN : String) :
      Effect me s c (.act c (.pick imgN)) [] (s.phone c).reads
        ((s.phone c).uploads ++ [⟨.social, imgN⟩])
  | submit (id : String) {form : PostInfo} (hform : (s.phone c).info = some form)
      (hadd : form.addToDB (me c) id = some (.create (me c) id form.caption form.imgName))
      (hfresh : id ∉ s.posted.map Prod.fst) :
      Effect me s c (.act c (.submit id)) [.create (me c) id form.caption form.imgName]
        ((s.phone c).reads ++ [⟨.author id form, none⟩]) (s.phone c).uploads
  | delete (k : Nat) {id : String} (hcell : (s.phone c).cells[k]? = some (some id)) :
      Effect me s c (.act c (.delete k)) [.deletePost (me c) id, .deleteSocial id]
        (s.phone c).reads (s.phone c).uploads
  | addToCloset (docId imgN type : String) :
      Effect me s c (.act c (.addToCloset docId imgN type)) [.clothes (me c) docId imgN type]
        (s.phone c).reads ((s.phone c).uploads ++ [⟨.clothes (me c), imgN⟩])
  | picture (imgN : String) :
      Effect me s c (.act c (.picture imgN)) [.picture (me c) imgN] (s.phone c).reads
        ((s.phone c).uploads ++ [⟨.profile, imgN⟩])
  | answered (k : Nat) (ok : Bool) {a : Ask} (hread : (s.phone c).reads[k]? = some ⟨a, none⟩) :
      Effect me s c (.answer c k ok) []
        ((s.phone c).reads.set k
          ⟨a, some (if ok then a.answerOf (me c) (s.view c) else .error)⟩)
        (s.phone c).uploads
  | delivered (k : Nat) {a : Ask} {answer : Answer}
      (hread : (s.phone c).reads[k]? = some ⟨a, some answer⟩)
      (hsilent : ∀ id form doc, a = .author id form → answer ≠ .doc doc) :
      Effect me s c (.arrive c k) [] ((s.phone c).reads.eraseIdx k) (s.phone c).uploads
  | publish (k : Nat) {id : String} {form : PostInfo} {doc : Option Doc}
      {profImg username : String}
      (hread : (s.phone c).reads[k]? = some ⟨.author id form, some (.doc doc)⟩) :
      Effect me s c (.arrive c k)
        [.publish (me c) id form.caption form.imgName profImg username]
        ((s.phone c).reads.eraseIdx k) (s.phone c).uploads
  | uploaded (k : Nat) (ok : Bool) {ref : StorageRef}
      (href : (s.phone c).uploads[k]? = some ref) :
      Effect me s c (.upload c k ok) [] (s.phone c).reads ((s.phone c).uploads.eraseIdx k)

/-- **Where a read comes from.**  It was there before, or has just been asked, or has just
been answered; a question about an author is asked by a submission. -/
theorem Effect.read_cases {s : World C} {c : C} {e : Event C} {rs : List Request}
    {reads : List Read} {uploads : List StorageRef} (h : Effect me s c e rs reads uploads)
    {r : Read} (hr : r ∈ reads) :
    r ∈ (s.phone c).reads ∨
      (r.answer = none ∧ ∀ id form, r.ask = .author id form → e = .act c (.submit id) ∧
        id ∉ s.posted.map Prod.fst ∧ (s.phone c).info = some form ∧
        form.addToDB (me c) id = some (.create (me c) id form.caption form.imgName)) ∨
      ∃ (k : Nat) (ok : Bool), e = .answer c k ok ∧ (s.phone c).reads[k]? = some ⟨r.ask, none⟩ ∧
        r.answer = some (if ok then r.ask.answerOf (me c) (s.view c) else .error) := by
  cases h with
  | asks e hnot =>
      refine (List.mem_append.mp hr).imp_right fun hr => Or.inl ?_
      obtain rfl := List.mem_singleton.mp hr
      exact ⟨rfl, fun id form ha => absurd ha (hnot id form)⟩
  | signUp firstname username =>
      refine (List.mem_append.mp hr).imp_right fun hr => Or.inl ?_
      obtain rfl := List.mem_singleton.mp hr
      exact ⟨rfl, by simp⟩
  | submit id hform hadd hfresh =>
      refine (List.mem_append.mp hr).imp_right fun hr => Or.inl ?_
      obtain rfl := List.mem_singleton.mp hr
      refine ⟨rfl, fun i form ha => ?_⟩
      obtain ⟨rfl, rfl⟩ := Ask.author.inj ha
      exact ⟨rfl, hfresh, hform, hadd⟩
  | answered k ok hread =>
      refine (List.mem_or_eq_of_mem_set hr).imp_right fun hr => Or.inr ?_
      subst hr
      exact ⟨k, ok, rfl, hread, rfl⟩
  | delivered k | publish k => exact Or.inl (List.mem_of_mem_eraseIdx hr)
  | _ => exact Or.inl hr

theorem mem_eraseIdx_or_eq {α : Type} {l : List α} {x y : α} {k : Nat} (hx : x ∈ l)
    (hk : l[k]? = some y) : x = y ∨ x ∈ l.eraseIdx k := by
  obtain ⟨hlt, rfl⟩ := List.getElem?_eq_some_iff.mp hk
  exact List.mem_cons.mp ((List.getElem_cons_eraseIdx_perm hlt).mem_iff.mpr hx)

/-- An upload goes on until it succeeds or fails. -/
theorem Effect.mem_uploads {s : World C} {c : C} {e : Event C} {rs : List Request}
    {reads : List Read} {uploads : List StorageRef} (h : Effect me s c e rs reads uploads)
    {o : StorageRef} (ho : o ∈ (s.phone c).uploads) :
    o ∈ uploads ∨ ∃ (k : Nat) (ok : Bool), e = .upload c k ok ∧
      (s.phone c).uploads[k]? = some o := by
  cases h with
  | tap | pick | addToCloset | picture => exact Or.inl (List.mem_append_left _ ho)
  | uploaded k ok href =>
      rcases mem_eraseIdx_or_eq ho href with rfl | ho
      · exact Or.inr ⟨k, ok, rfl, href⟩
      · exact Or.inl ho
  | _ => exact Or.inl ho

theorem PostInfo.addToDBDone_eq_some {me id : String} {form : PostInfo} {doc : Option Doc}
    {r : Request} (h : form.addToDBDone me id doc = some r) :
    ∃ profImg username, r = .publish me id form.caption form.imgName profImg username := by
  simp only [addToDBDone, Option.bind_eq_bind, Option.bind_eq_some_iff, Option.some.injEq] at h
  obtain ⟨_, _, profImg, _, username, _, rfl⟩ := h
  exact ⟨profImg, username, rfl⟩

theorem PostInfo.addToDB_eq_some {me id : String} {form : PostInfo} {r : Request}
    (h : form.addToDB me id = some r) : r = .create me id form.caption form.imgName := by
  unfold addToDB at h
  split at h
  · exact (Option.some.inj h).symm
  · simp at h

theorem postFeed.deleteAction_eq_some {me : String} {postId : Option String}
    {rs : List Request} (h : postFeed.deleteAction me postId = some rs) :
    ∃ id, postId = some id ∧ rs = [.deletePost me id, .deleteSocial id] := by
  simp only [deleteAction, Option.bind_eq_bind, Option.bind_eq_some_iff, Option.some.injEq] at h
  obtain ⟨id, rfl, rfl⟩ := h
  exact ⟨id, rfl, rfl⟩

/-- **What a callback does.**  It appends to one of the feeds, sets the heart of the open
post, or publishes; everything else changes nothing. -/
theorem Phone.callback_eq_some {m : String} {p p' : Phone} {ask : Ask} {answer : Answer}
    {rs : List Request} (h : p.callback m ask answer = some (p', rs)) :
    (∃ snap, ask = .socialFeed ∧ answer = .docs snap ∧ rs = [] ∧
      p' = { p with posts := Social.fetchSocialPost.append p.posts snap }) ∨
    (∃ snap, ask = .posts ∧ answer = .docs snap ∧ rs = [] ∧
      p' = { p with feed := postFeed.fetchData.append p.feed snap }) ∨
    (∃ view id liked, ask = .heart view id ∧ rs = [] ∧
      p' = { p with more := p.more.map (·.showHeart liked) }) ∨
    (∃ id form doc profImg username, ask = .author id form ∧ answer = .doc doc ∧ p' = p ∧
      rs = [.publish m id form.caption form.imgName profImg username]) ∨
    (p' = p ∧ rs = [] ∧ ∀ id form doc, ask = .author id form → answer ≠ .doc doc) := by
  unfold Phone.callback at h
  split at h
  · rename_i snap
    obtain ⟨rfl, rfl⟩ := Prod.mk.inj (Option.some.inj h)
    exact Or.inl ⟨snap, rfl, rfl, rfl, rfl⟩
  · rename_i snap
    obtain ⟨rfl, rfl⟩ := Prod.mk.inj (Option.some.inj h)
    exact Or.inr (Or.inl ⟨snap, rfl, rfl, rfl, rfl⟩)
  · rename_i view id
    obtain ⟨rfl, rfl⟩ := Prod.mk.inj (Option.some.inj h)
    split
    · exact Or.inr (Or.inr (Or.inl ⟨view, id, _, rfl, rfl, rfl⟩))
    · exact Or.inr (Or.inr (Or.inr (Or.inr ⟨rfl, rfl, by simp⟩)))
  · rename_i id form doc
    obtain ⟨r, hr, hp⟩ := Option.map_eq_some_iff.mp h
    obtain ⟨profImg, username, rfl⟩ := PostInfo.addToDBDone_eq_some hr
    obtain ⟨rfl, rfl⟩ := Prod.mk.inj hp
    exact Or.inr (Or.inr (Or.inr (Or.inl
      ⟨id, form, doc, profImg, username, rfl, rfl, rfl, rfl⟩)))
  · obtain ⟨r, hr, hp⟩ := Option.map_eq_some_iff.mp h
    obtain ⟨rfl, rfl⟩ := Prod.mk.inj hp
    exact Or.inr (Or.inr (Or.inr (Or.inr ⟨rfl, rfl, by simp⟩)))
  · rename_i hauthor _
    obtain ⟨rfl, rfl⟩ := Prod.mk.inj (Option.some.inj h)
    exact Or.inr (Or.inr (Or.inr (Or.inr
      ⟨rfl, rfl, fun id form doc ha hd => hauthor id form doc ha hd⟩)))

/-! ### What an act does -/

namespace Act

variable {m : String} {p p' : Phone} {rs : List Request}

theorem run_signUp {firstname username : String}
    (h : (Act.signUp firstname username).run m p = some (p', rs)) :
    p' = p.start ∧ rs = [.signUp m firstname username] := by
  simp only [run] at h
  split at h
  · simp at h
  · obtain ⟨rfl, rfl⟩ := Prod.mk.inj (Option.some.inj h)
    exact ⟨rfl, rfl⟩

theorem run_signsIn {a : Act} (ha : a = .login ∨ a = .google)
    (h : a.run m p = some (p', rs)) : p' = p.start ∧ rs = [] := by
  rcases ha with rfl | rfl
  all_goals
    simp only [run] at h
    split at h
    · simp at h
    · obtain ⟨rfl, rfl⟩ := Prod.mk.inj (Option.some.inj h)
      exact ⟨rfl, rfl⟩

theorem run_cell {i : Nat} (h : (Act.cell i).run m p = some (p', rs)) :
    ∃ post postId, p.feed[i]? = some post ∧ postCell.postItem post = some postId ∧
      p' = { p with cells := p.cells ++ [postId] } ∧ rs = [] := by
  simp only [run, Option.bind_eq_bind, Option.bind_eq_some_iff, Option.some.injEq,
    Prod.mk.injEq] at h
  obtain ⟨post, hpost, postId, hitem, rfl, rfl⟩ := h
  exact ⟨post, postId, hpost, hitem, rfl, rfl⟩

theorem run_select {i : Nat} (h : (Act.select i).run m p = some (p', rs)) :
    ∃ post pid, p.posts[i]? = some post ∧ post.pid = some pid ∧
      p' = { p with
        more := some (Social.prepare post).setUp
        opened := p.opened + 1 }.ask (.heart (p.opened + 1) pid) ∧ rs = [] := by
  simp only [run, Option.bind_eq_bind, Option.bind_eq_some_iff, Option.some.injEq,
    Prod.mk.injEq] at h
  obtain ⟨post, hpost, pid, hpid, rfl, rfl⟩ := h
  exact ⟨post, pid, hpost, hpid, rfl, rfl⟩

theorem run_image (h : Act.image.run m p = some (p', rs)) :
    ∃ v, p.more = some v ∧ p' = { p with more := some { v with postImg := true } } ∧ rs = [] := by
  simp only [run, Option.bind_eq_bind, Option.bind_eq_some_iff, Option.some.injEq,
    Prod.mk.injEq] at h
  obtain ⟨v, hv, _, -, rfl, rfl⟩ := h
  exact ⟨v, hv, rfl, rfl⟩

theorem run_tap {imgN : String} (h : (Act.tap imgN).run m p = some (p', rs)) :
    ∃ v v' refs, p.more = some v ∧ v.changeLike m imgN = some (v', rs, refs) ∧
      p' = { p with more := some v', uploads := p.uploads ++ refs } := by
  simp only [run, Option.bind_eq_bind, Option.bind_eq_some_iff, Option.some.injEq,
    Prod.mk.injEq] at h
  obtain ⟨v, hv, ⟨v', rs', refs⟩, hchange, rfl, rfl⟩ := h
  exact ⟨v, v', refs, hv, hchange, rfl⟩

theorem run_back (h : Act.back.run m p = some (p', rs)) :
    p' = { p with more := none }.fetchSocialPost ∧ rs = [] := by
  simp only [run, Option.bind_eq_bind, Option.bind_eq_some_iff, Option.some.injEq,
    Prod.mk.injEq] at h
  obtain ⟨_, -, rfl, rfl⟩ := h
  exact ⟨rfl, rfl⟩

theorem run_caption {text : String} (h : (Act.caption text).run m p = some (p', rs)) :
    ∃ form, p' = { p with info := some form } ∧ rs = [] := by
  simp only [run, Option.bind_eq_bind, Option.bind_eq_some_iff, Option.some.injEq,
    Prod.mk.injEq] at h
  obtain ⟨form, -, rfl, rfl⟩ := h
  exact ⟨_, rfl, rfl⟩

theorem run_pick {imgN : String} (h : (Act.pick imgN).run m p = some (p', rs)) :
    ∃ form, p' = { p with
      info := some form
      uploads := p.uploads ++ [⟨.social, imgN⟩] } ∧ rs = [] := by
  simp only [run, Option.bind_eq_bind, Option.bind_eq_some_iff, Option.some.injEq,
    Prod.mk.injEq] at h
  obtain ⟨form, -, rfl, rfl⟩ := h
  exact ⟨_, rfl, rfl⟩

/-- A form that does not pass changes nothing. -/
theorem run_submit {id : String} (h : (Act.submit id).run m p = some (p', rs)) :
    (p' = p ∧ rs = []) ∨ ∃ form, p.info = some form ∧
      form.addToDB m id = some (.create m id form.caption form.imgName) ∧
      p' = { p with info := none }.ask (.author id form) ∧
      rs = [.create m id form.caption form.imgName] := by
  simp only [run, Option.bind_eq_bind, Option.bind_eq_some_iff] at h
  obtain ⟨form, hform, h⟩ := h
  split at h
  · rename_i r hr
    obtain ⟨rfl, rfl⟩ := Prod.mk.inj (Option.some.inj h)
    obtain rfl := PostInfo.addToDB_eq_some hr
    exact Or.inr ⟨form, hform, hr, rfl, rfl⟩
  · obtain ⟨rfl, rfl⟩ := Prod.mk.inj (Option.some.inj h)
    exact Or.inl ⟨rfl, rfl⟩

theorem run_delete {k : Nat} (h : (Act.delete k).run m p = some (p', rs)) :
    ∃ id, p.cells[k]? = some (some id) ∧ p' = p ∧ rs = [.deletePost m id, .deleteSocial id] := by
  simp only [run, Option.bind_eq_bind, Option.bind_eq_some_iff, Option.some.injEq,
    Prod.mk.injEq] at h
  obtain ⟨postId, hcell, rs', hdelete, rfl, rfl⟩ := h
  obtain ⟨id, rfl, rfl⟩ := postFeed.deleteAction_eq_some hdelete
  exact ⟨id, hcell, rfl, rfl⟩

end Act

namespace World

theorem allows_submit {s : World C} {c : C} {id : String}
    (h : s.allows me c (.submit id) = true) : id ∉ s.posted.map Prod.fst := by
  simpa [allows] using h

/-- What an act sends, asks and uploads. -/
theorem run_effect {s : World C} {c : C} {a : Act} {p : Phone} {rs : List Request}
    (hallow : s.allows me c a = true) (h : a.run (me c) (s.phone c) = some (p, rs)) :
    Effect me s c (.act c a) rs p.reads p.uploads := by
  cases a with
  | signUp firstname username =>
      obtain ⟨rfl, rfl⟩ := Act.run_signUp h
      exact .signUp firstname username
  | login =>
      obtain ⟨rfl, rfl⟩ := Act.run_signsIn (Or.inl rfl) h
      exact .asks _ (by simp)
  | google =>
      obtain ⟨rfl, rfl⟩ := Act.run_signsIn (Or.inr rfl) h
      exact .asks _ (by simp)
  | viewSocial | refresh =>
      obtain ⟨rfl, rfl⟩ := Prod.mk.inj (Option.some.inj h)
      exact .asks _ (by simp)
  | makePost =>
      obtain ⟨rfl, rfl⟩ := Prod.mk.inj (Option.some.inj h)
      exact .idle _
  | cell i =>
      obtain ⟨post, postId, -, -, rfl, rfl⟩ := Act.run_cell h
      exact .idle _
  | select i =>
      obtain ⟨post, pid, -, -, rfl, rfl⟩ := Act.run_select h
      exact .asks _ (by simp)
  | image =>
      obtain ⟨v, -, rfl, rfl⟩ := Act.run_image h
      exact .idle _
  | tap imgN =>
      obtain ⟨v, v', refs, hv, hchange, rfl⟩ := Act.run_tap h
      obtain ⟨number, uID, id, newNum, hnumber, huID, hid, -, rfl, rfl, -⟩ :=
        SocialMore.changeLike_eq_some hchange
      exact .tap imgN hv huID hid hnumber rfl
  | back =>
      obtain ⟨rfl, rfl⟩ := Act.run_back h
      exact .asks _ (by simp)
  | caption text =>
      obtain ⟨form, rfl, rfl⟩ := Act.run_caption h
      exact .idle _
  | pick imgN =>
      obtain ⟨form, rfl, rfl⟩ := Act.run_pick h
      exact .pick imgN
  | submit id =>
      rcases Act.run_submit h with ⟨rfl, rfl⟩ | ⟨form, hform, hadd, rfl, rfl⟩
      · exact .idle _
      · exact .submit id hform hadd (allows_submit hallow)
  | delete k =>
      obtain ⟨id, hcell, rfl, rfl⟩ := Act.run_delete h
      exact .delete k hcell
  | addToCloset docId imgN type =>
      obtain ⟨rfl, rfl⟩ := Prod.mk.inj (Option.some.inj h)
      exact .addToCloset docId imgN type
  | picture imgN =>
      obtain ⟨rfl, rfl⟩ := Prod.mk.inj (Option.some.inj h)
      exact .picture imgN

variable [DecidableEq C] {s s' : World C}

@[simp] theorem setPhone_net (s : World C) (c : C) (p : Phone) : (s.setPhone c p).net = s.net :=
  rfl
@[simp] theorem setPhone_storage (s : World C) (c : C) (p : Phone) :
    (s.setPhone c p).storage = s.storage := rfl
@[simp] theorem setPhone_posted (s : World C) (c : C) (p : Phone) :
    (s.setPhone c p).posted = s.posted := rfl

@[simp] theorem setPhone_self (s : World C) (c : C) (p : Phone) :
    (s.setPhone c p).phone c = p := Function.update_self ..

theorem setPhone_ne (s : World C) {c d : C} (h : d ≠ c) (p : Phone) :
    (s.setPhone c p).phone d = s.phone d := Function.update_of_ne h ..

omit [DecidableEq C] in
@[simp] theorem register_phone (s : World C) (c : C) (a : Act) :
    (s.register me c a).phone = s.phone := by
  cases a <;> rfl

omit [DecidableEq C] in
@[simp] theorem register_storage (s : World C) (c : C) (a : Act) :
    (s.register me c a).storage = s.storage := by
  cases a <;> rfl

/-! ### One event, taken apart -/

theorem step_act {c : C} {a : Act} (h : step me s (.act c a) = some s') :
    s.allows me c a = true ∧ ∃ p rs, a.run (me c) (s.phone c) = some (p, rs) ∧
      s' = { (s.register me c a).setPhone c p with net := s.net.issue c rs } := by
  simp only [step] at h
  split at h
  · rename_i hallow
    obtain ⟨⟨p, rs⟩, hrun, rfl⟩ := Option.map_eq_some_iff.mp h
    exact ⟨hallow, p, rs, hrun, rfl⟩
  · simp at h

theorem step_answer {c : C} {k : Nat} {ok : Bool} (h : step me s (.answer c k ok) = some s') :
    ∃ ask, (s.phone c).reads[k]? = some ⟨ask, none⟩ ∧
      s' = s.setPhone c { s.phone c with
        reads := (s.phone c).reads.set k
          ⟨ask, some (if ok then ask.answerOf (me c) (s.view c) else .error)⟩ } := by
  simp only [step] at h
  split at h
  · rename_i ask hread
    exact ⟨ask, hread, (Option.some.inj h).symm⟩
  · simp at h

theorem step_arrive {c : C} {k : Nat} (h : step me s (.arrive c k) = some s') :
    ∃ ask answer p rs, (s.phone c).reads[k]? = some ⟨ask, some answer⟩ ∧
      Phone.callback (me c) { s.phone c with reads := (s.phone c).reads.eraseIdx k } ask answer
        = some (p, rs) ∧
      s' = { s.setPhone c p with net := s.net.issue c rs } := by
  simp only [step] at h
  split at h
  · rename_i ask answer hread
    obtain ⟨⟨p, rs⟩, hcall, rfl⟩ := Option.map_eq_some_iff.mp h
    exact ⟨ask, answer, p, rs, hread, hcall, rfl⟩
  · simp at h

theorem step_upload {c : C} {k : Nat} {ok : Bool} (h : step me s (.upload c k ok) = some s') :
    ∃ ref, (s.phone c).uploads[k]? = some ref ∧
      s' = { s.setPhone c { s.phone c with uploads := (s.phone c).uploads.eraseIdx k } with
        storage := if ok then ref :: s.storage else s.storage } := by
  simp only [step] at h
  split at h
  · rename_i ref href
    exact ⟨ref, href, (Option.some.inj h).symm⟩
  · simp at h

theorem step_commit {c : C} (h : step me s (.commit c) = some s') :
    ∃ r rest net, s.net.queue c = r :: rest ∧ s.net.commit c = some net ∧
      s' = { s.setPhone c (completed (s.phone c) r) with net := net } := by
  simp only [step] at h
  split at h
  · simp at h
  · rename_i r rest hq
    obtain ⟨net, hnet, rfl⟩ := Option.map_eq_some_iff.mp h
    exact ⟨r, rest, net, hq, hnet, rfl⟩

/-- **What an event does on its phone, and to the net.** -/
theorem step_effect {e : Event C} (h : step me s e = some s') :
    ∃ rs, Effect me s e.client e rs (s'.phone e.client).reads (s'.phone e.client).uploads ∧
      (s'.net = s.net.issue e.client rs ∨
        rs = [] ∧ e = .commit e.client ∧ s.net.commit e.client = some s'.net) := by
  cases e with
  | act c a =>
      obtain ⟨hallow, p, rs, hrun, rfl⟩ := step_act h
      refine ⟨rs, ?_, Or.inl rfl⟩
      simp only [Event.client, setPhone_self]
      exact run_effect hallow hrun
  | answer c k ok =>
      obtain ⟨ask, hread, rfl⟩ := step_answer h
      refine ⟨[], ?_, Or.inl (by simp)⟩
      simp only [Event.client, setPhone_self]
      exact .answered k ok hread
  | arrive c k =>
      obtain ⟨ask, answer, p, rs, hread, hcall, rfl⟩ := step_arrive h
      refine ⟨rs, ?_, Or.inl rfl⟩
      simp only [Event.client, setPhone_self]
      rcases Phone.callback_eq_some hcall with ⟨snap, rfl, rfl, rfl, rfl⟩ |
        ⟨snap, rfl, rfl, rfl, rfl⟩ | ⟨view, id, liked, rfl, rfl, rfl⟩ |
        ⟨id, form, doc, profImg, username, rfl, rfl, rfl, rfl⟩ | ⟨rfl, rfl, hsilent⟩
      · exact .delivered k hread (by simp)
      · exact .delivered k hread (by simp)
      · exact .delivered k hread (by simp)
      · exact .publish k hread
      · exact .delivered k hread hsilent
  | upload c k ok =>
      obtain ⟨ref, href, rfl⟩ := step_upload h
      refine ⟨[], ?_, Or.inl (by simp)⟩
      simp only [Event.client, setPhone_self]
      exact .uploaded k ok href
  | commit c =>
      obtain ⟨r, rest, net, hq, hnet, rfl⟩ := step_commit h
      refine ⟨[], ?_, Or.inr ⟨rfl, rfl, hnet⟩⟩
      simp only [Event.client, setPhone_self]
      cases r with
      | deletePost uid id => exact .asks _ (by simp)
      | _ => exact .idle _

/-- **Only the phone of the event changes.** -/
theorem step_phone {e : Event C} (h : step me s e = some s') {d : C} (hd : d ≠ e.client) :
    s'.phone d = s.phone d := by
  cases e with
  | act c a =>
      obtain ⟨_, p, _, _, rfl⟩ := step_act h
      exact (setPhone_ne _ hd p).trans (congrFun (register_phone s c a) d)
  | answer c k ok =>
      obtain ⟨_, _, rfl⟩ := step_answer h
      exact setPhone_ne s hd _
  | arrive c k =>
      obtain ⟨_, _, p, _, _, _, rfl⟩ := step_arrive h
      exact setPhone_ne s hd p
  | upload c k ok =>
      obtain ⟨_, _, rfl⟩ := step_upload h
      exact setPhone_ne s hd _
  | commit c =>
      obtain ⟨_, _, _, _, _, rfl⟩ := step_commit h
      exact setPhone_ne s hd _

/-! ### What follows for the net -/

/-- What a phone has seen it keeps seeing. -/
theorem mem_seen_step {e : Event C} (h : step me s e = some s') {d : C} {r : Request}
    (hr : r ∈ s.net.seen d) : r ∈ s'.net.seen d := by
  obtain ⟨rs, -, hnet | ⟨-, -, hnet⟩⟩ := step_effect h
  · rw [hnet]
    exact Net.mem_seen_issue hr _ rs
  · exact Net.mem_seen_commit hnet hr

/-- **Only a commit adds to the log, and it adds the front of the queue.** -/
theorem step_log {e : Event C} (h : step me s e = some s') :
    s'.net.log = s.net.log ∨ ∃ c r rest, e = .commit c ∧ s.net.queue c = r :: rest ∧
      s'.net.log = s.net.log ++ [(c, r)] := by
  obtain ⟨rs, -, hnet | ⟨-, he, hnet⟩⟩ := step_effect h
  · rw [hnet]
    exact Or.inl rfl
  · obtain ⟨r, rest, hq, hnet⟩ := Net.commit_eq_some.mp hnet
    rw [hnet]
    exact Or.inr ⟨_, r, rest, he, hq, rfl⟩

/-- What waits was waiting, or has just been issued. -/
theorem mem_queue_step {e : Event C} (h : step me s e = some s') {d : C} {r : Request}
    (hr : r ∈ s'.net.queue d) : r ∈ s.net.queue d ∨
      ∃ rs, Effect me s d e rs (s'.phone d).reads (s'.phone d).uploads ∧ r ∈ rs := by
  obtain ⟨rs, heff, hnet | ⟨-, -, hnet⟩⟩ := step_effect h
  · rw [hnet] at hr
    refine (Net.mem_issue_queue hr).imp_right ?_
    rintro ⟨rfl, hmem⟩
    exact ⟨rs, heff, hmem⟩
  · exact Or.inl (Net.mem_commit_queue hnet hr)

/-- Storage gains what is uploaded, and loses nothing. -/
theorem mem_storage_step {e : Event C} (h : step me s e = some s') {o : StorageRef}
    (ho : o ∈ s.storage ∨ ∃ c k, e = .upload c k true ∧ (s.phone c).uploads[k]? = some o) :
    o ∈ s'.storage := by
  cases e with
  | act c a =>
      obtain ⟨_, p, rs, _, rfl⟩ := step_act h
      simpa using ho
  | answer c k ok =>
      obtain ⟨_, _, rfl⟩ := step_answer h
      simpa using ho
  | arrive c k =>
      obtain ⟨_, _, _, _, _, _, rfl⟩ := step_arrive h
      simpa using ho
  | upload c k ok =>
      obtain ⟨ref, href, rfl⟩ := step_upload h
      rcases ho with ho | ⟨c', k', he, ho⟩
      · cases ok with
        | true => exact List.mem_cons_of_mem _ ho
        | false => exact ho
      · obtain ⟨rfl, rfl, rfl⟩ := Event.upload.inj he
        obtain rfl := Option.some.inj (href.symm.trans ho)
        exact List.mem_cons_self
  | commit c =>
      obtain ⟨_, _, _, _, _, rfl⟩ := step_commit h
      simpa using ho

/-- **An event adds the writes it issues to the history of its phone.** -/
theorem step_history {e : Event C} (h : step me s e = some s') (d : C) :
    ∃ rs, Effect me s d e rs (s'.phone d).reads (s'.phone d).uploads ∧
      s'.net.history d = s.net.history d ++ rs := by
  obtain ⟨rs, heff, hnet⟩ := step_effect h
  by_cases hd : d = e.client
  · subst hd
    refine ⟨rs, heff, ?_⟩
    rcases hnet with hnet | ⟨rfl, -, hnet⟩
    · rw [hnet, Net.history_issue, if_pos rfl]
    · rw [Net.history_commit hnet, List.append_nil]
  · refine ⟨[], ?_, ?_⟩
    · rw [step_phone h hd]
      exact .idle e
    · rcases hnet with hnet | ⟨-, -, hnet⟩
      · rw [hnet, Net.history_issue, if_neg hd]
      · rw [Net.history_commit hnet, List.append_nil]

/-- **Requests stay in order when a phone issues what it has seen the predecessor of.** -/
theorem ordered_step {p q : Request → Prop} {e : Event C} (h : step me s e = some s')
    (hissue : ∀ rs reads uploads, Effect me s e.client e rs reads uploads →
      ∀ r ∈ rs, q r → ∃ x ∈ s.net.seen e.client, p x)
    (hord : s.net.Ordered p q) : s'.net.Ordered p q := by
  obtain ⟨rs, heff, hnet | ⟨-, -, hnet⟩⟩ := step_effect h
  · rw [hnet]
    refine hord.issue ?_
    by_cases hrs : ∃ r ∈ rs, q r
    · obtain ⟨r, hr, hq⟩ := hrs
      exact Or.inl (hissue rs _ _ heff r hr hq)
    · exact Or.inr (precedes_of_forall_not fun r hr hq => hrs ⟨r, hr, hq⟩)
  · exact hord.commit hnet

end World

end UTrend
