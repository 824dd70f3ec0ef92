/-
When a handler traps.

What a handler unwraps comes out of documents, and a document of a post has all its
fields unless a count was merged into it after it was removed.  `Undisturbed` keeps that
from happening: a post is deleted only when no other phone has a count for it under
way, and a heart is tapped only while the post is still there.  Then every count finds
its document (`Found`), and no phone ever sees a ghost.

The callbacks rely on the user's own document, and `Documented` sees to that.

Two kinds of trap are left, and no condition on the database is against them: a subscript
past the end of an array that a fetch has emptied, and a like before the picture that it
uploads has arrived.  `Act.Traps` names them, apart from what cannot happen at all, which
is what `Act.Called` leaves out.
-/
import UTrend.Proofs.Counts
import UTrend.Proofs.Profiles
import UTrend.Proofs.Settling

namespace UTrend

open World

variable {C : Type} {me : C → String} {s s' : World C}

/-- The handler can be called: the screen it belongs to is open, or the cell that Delete is
confirmed for is there.  The collection view may ask for any cell and report any selection: it
goes by an older count than that of the array. -/
def Act.Called (p : Phone) : Act → Prop
  | .signUp _ _ | .login | .google => p.signedIn = false
  | .image | .back | .tap _ => p.more.isSome
  | .caption _ | .pick _ | .submit _ => p.info.isSome
  | .delete k => k < p.cells.length
  | .cell _ | .select _ => True
  | .viewSocial | .refresh | .makePost | .addToCloset _ _ _ | .picture _ => True

/-- The handler traps: it subscripts its array past the end, or it likes a post whose picture
has not arrived. -/
def Act.Traps (p : Phone) : Act → Prop
  | .cell i => p.feed.length ≤ i
  | .select i => p.posts.length ≤ i
  | .tap _ => ∃ v ∈ p.more, v.postImg = false ∧ v.likeHeartImg ≠ some .fillLikeheart
  | .signUp _ _ | .login | .google | .image | .back | .caption _ | .pick _ | .submit _
  | .delete _ | .viewSocial | .refresh | .makePost | .addToCloset _ _ _ | .picture _ => False

/-- A heart is tapped only while both copies of the post are in the phone's view, and a copy
is removed only while no other phone has a count for it waiting. -/
def Undisturbed (s : World C) : Event C → Prop
  | .act c a => (Event.act c a).taps = true → ∀ v ∈ (s.phone c).more, ∀ uID ∈ v.uID,
      ∀ id ∈ v.id, Path.post uID id ∈ s.view c ∧ Path.social id ∈ s.view c
  | .commit c => ∀ r ∈ (s.net.queue c).head?, r.write.deletes = true →
      ∀ d, d ≠ c → ∀ x ∈ s.net.queue d, x.counts = true → x.path ≠ r.path
  | .answer _ _ _ | .arrive _ _ | .upload _ _ _ => True

/-! ### Counts that find their document -/

/-- Every count in the list is merged into a document that is there. -/
def Found (rs : List Request) : Prop :=
  ∀ pre r post, rs = pre ++ r :: post → r.counts = true → r.path ∈ contents pre

theorem Found.not_ghost {rs : List Request} (h : Found rs) {p : Path} {d : Doc}
    (hd : (contents rs).lookup p = some d) : ¬ Doc.Ghost d := by
  intro hghost
  obtain ⟨pre, r, post, hrs, hpath, hcount, hmem, -⟩ := (ghost_iff rs p).mp ⟨d, hd, hghost⟩
  exact hmem (hpath ▸ h pre r post hrs hcount)

theorem mem_contents_append {rs xs : List Request} {p : Path} (h : p ∈ contents rs)
    (hkept : ∀ x ∈ xs, x.path = p → x.write.deletes = false) : p ∈ contents (rs ++ xs) := by
  rw [contents, List.map_append]
  refine DocStore.mem_replay_append h fun w hw => ?_
  obtain ⟨x, hx, rfl⟩ := List.mem_map.mp hw
  exact hkept x hx

/-- Counts that find their document in the end of a list keep finding it. -/
theorem Found.append {rs xs : List Request} (h : Found rs)
    (hxs : ∀ pre r post, xs = pre ++ r :: post → r.counts = true →
      r.path ∈ contents rs ∧ ∀ x ∈ pre, x.path = r.path → x.write.deletes = false) :
    Found (rs ++ xs) := by
  intro pre r post heq hcount
  rcases List.append_eq_append_iff.mp heq with ⟨l, rfl, hl⟩ | ⟨l, rfl, hl⟩
  · obtain ⟨hmem, hkept⟩ := hxs l r post hl hcount
    exact mem_contents_append hmem hkept
  · cases l with
    | nil =>
        rw [List.nil_append] at hl
        have hmem := (hxs [] r post (by rw [List.nil_append]; exact hl.symm) hcount).1
        simpa using hmem
    | cons x l =>
        obtain ⟨rfl, rfl⟩ := List.cons.inj hl
        exact h pre r l rfl hcount

/-- **A request that comes in between leaves the counts behind it their documents**, unless it
removes one of them. -/
theorem Found.insert {rs xs : List Request} {r : Request} (h : Found (rs ++ xs))
    (hr : r.counts = true → r.path ∈ contents rs)
    (hkept : r.write.deletes = true → ∀ x ∈ xs, x.counts = true → x.path ≠ r.path) :
    Found (rs ++ r :: xs) := by
  have hrs : Found rs := by
    intro pre x post heq hcount
    exact h pre x (post ++ xs) (by rw [heq]; simp) hcount
  intro pre x post heq hcount
  rcases List.append_eq_append_iff.mp heq with ⟨l, rfl, hl⟩ | ⟨l, rfl, hl⟩
  · cases l with
    | nil =>
        obtain ⟨rfl, rfl⟩ := List.cons.inj hl
        simpa using hr hcount
    | cons y l =>
        obtain ⟨rfl, rfl⟩ := List.cons.inj hl
        have hold := h (rs ++ l) x post (by simp) hcount
        rw [contents, List.map_append] at hold ⊢
        refine DocStore.mem_replay_insert hold fun hpath => ?_
        by_contra hdel
        exact hkept (by simpa using hdel) x (by simp) hcount hpath.symm
  · cases l with
    | nil =>
        obtain ⟨rfl, rfl⟩ := List.cons.inj hl
        simpa using hr hcount
    | cons y l =>
        obtain ⟨rfl, -⟩ := List.cons.inj hl
        exact hrs pre x l rfl hcount

/-- A count is written by a tap of the post, and no write of the tap removes a copy. -/
theorem Effect.counts_at {c : C} {e : Event C} {rs : List Request} {reads : List Read}
    {uploads : List StorageRef} (h : Effect me s c e rs reads uploads) {r : Request}
    (hr : r ∈ rs) (hcount : r.counts = true) :
    ∃ imgN v uID id, e = .act c (.tap imgN) ∧ (s.phone c).more = some v ∧ v.uID = some uID ∧
      v.id = some id ∧ (r.path = .post uID id ∨ r.path = .social id) ∧
      ∀ x ∈ rs, x.path = r.path → x.write.deletes = false := by
  cases h with
  | tap imgN hv huID hid hnumber hfilled =>
      rename_i v uID id tap
      have hpath : r.path = .post uID id ∨ r.path = .social id := by
        rcases SocialMore.mem_tapRequests hr with rfl | rfl | ⟨-, rfl⟩ | ⟨-, rfl⟩
        · exact Or.inl rfl
        · exact Or.inr rfl
        · simp [Request.counts] at hcount
        · simp [Request.counts] at hcount
      refine ⟨imgN, v, uID, id, rfl, hv, huID, hid, hpath, fun x hx hxr => ?_⟩
      rcases SocialMore.mem_tapRequests hx with rfl | rfl | ⟨-, rfl⟩ | ⟨-, rfl⟩
      · rfl
      · rfl
      · rw [← hxr] at hpath
        simp [Request.path, Request.write, DocStore.Write.path] at hpath
      · rfl
  | delete k =>
      simp only [List.mem_cons, List.not_mem_nil, or_false] at hr
      rcases hr with rfl | rfl <;> simp [Request.counts] at hcount
  | signUp | submit | addToCloset | picture | publish =>
      obtain rfl := List.mem_singleton.mp hr
      simp [Request.counts] at hcount
  | _ => simp at hr

variable [DecidableEq C]

instance [Fintype C] (s : World C) : ∀ e, Decidable (Undisturbed s e)
  | .act c a => inferInstanceAs (Decidable ((Event.act c a).taps = true →
      ∀ v ∈ (s.phone c).more, ∀ uID ∈ v.uID, ∀ id ∈ v.id,
        Path.post uID id ∈ s.view c ∧ Path.social id ∈ s.view c))
  | .commit c => inferInstanceAs (Decidable (∀ r ∈ (s.net.queue c).head?,
      r.write.deletes = true → ∀ d, d ≠ c → ∀ x ∈ s.net.queue d, x.counts = true →
        x.path ≠ r.path))
  | .answer .. | .arrive .. | .upload .. => isTrue trivial

/-- **Every event that disturbs no count leaves each its document.** -/
theorem found_step {e : Event C} (hF : ∀ c, Found (s.net.seen c)) (hU : Undisturbed s e)
    (h : step me s e = some s') (d : C) : Found (s'.net.seen d) := by
  obtain ⟨rs, heff, hnet | ⟨-, he, hnet⟩⟩ := step_effect h
  · rw [hnet]
    by_cases hd : d = e.client
    swap
    · rw [Net.issue_seen_ne s.net hd]
      exact hF d
    subst hd
    rw [Net.issue_seen_self]
    refine (hF _).append fun pre r post hsplit hcount => ?_
    obtain ⟨imgN, v, uID, id, he, hv, huID, hid, hpath, hkept⟩ :=
      heff.counts_at (by rw [hsplit]; simp) hcount
    rw [he] at hU
    obtain ⟨hpost, hsocial⟩ := hU rfl v hv uID huID id hid
    refine ⟨?_, fun x hx => hkept x (by rw [hsplit]; simp [hx])⟩
    rcases hpath with hpath | hpath
    · exact hpath ▸ hpost
    · exact hpath ▸ hsocial
  · by_cases hd : d = e.client
    · subst hd
      rw [Net.commit_seen_self hnet]
      exact hF _
    · obtain ⟨r, rest, hq, hs'⟩ := Net.commit_eq_some.mp hnet
      have hhead : Found (s.net.committed ++ r :: rest) := by
        have := hF e.client
        rwa [Net.seen, hq] at this
      have hseen : s'.net.seen d = s.net.committed ++ r :: s.net.queue d := by
        simp [hs', Net.seen, Net.committed, Function.update_of_ne hd]
      rw [hseen]
      rw [he] at hU
      refine (hF d).insert (fun hcount => hhead _ r rest rfl hcount) fun hdel => ?_
      exact hU r (by simp [hq]) hdel d hd

/-! ### Screens -/

/-- The document is that of a post, and no ghost. -/
def Doc.Whole (d : Doc) : Prop :=
  ∃ p, p.mergedField = some "likes" ∧ Doc.Formed p d ∧ ¬ Doc.Ghost d

/-- The view has what its handlers unwrap, and a number on its label. -/
structure SocialMore.Ready (v : SocialMore) : Prop where
  id : v.id.isSome
  uID : v.uID.isSome
  imageName : v.imageName.isSome
  label : ∃ n, v.likes = some (Decimal.text n)

omit [DecidableEq C] in
/-- **A document of a post that is no ghost says all that the readers ask for.** -/
theorem Doc.Whole.string {d : Doc} (h : Doc.Whole d) {k : String}
    (hk : k ∈ ["caption", "postImg", "ID", "uid"]) : (Doc.string d k).isSome := by
  obtain ⟨p, hp, hformed, hghost⟩ := h
  have hmem : k ∈ p.fields ∧ k ≠ "likes" := by
    cases p with
    | user | like | clothes => simp [Path.mergedField] at hp
    | post | social =>
        simp only [List.mem_cons, List.not_mem_nil, or_false] at hk
        rcases hk with rfl | rfl | rfl | rfl <;> simp [Path.fields]
  have hall := (hformed.ghost_or hp).resolve_right hghost
  exact (hformed.string_isSome hmem.2).mpr (hall k hmem.1)

omit [DecidableEq C] in
theorem opens_ready : Opens Doc.Whole SocialMore.Ready where
  setUp d pid hd _ := by
    have hpost := SocialMore.setUp_post (Social.prepare (Social.fetchSocialPost.item d))
    have himg : ∀ v : SocialMore, v.setUp.imageName = v.imageName := by
      intro v
      cases hnum : v.numLikes <;> cases hcap : v.caption <;>
        simp [SocialMore.setUp, hnum, hcap]
    refine ⟨?_, ?_, ?_, ?_⟩
    · rw [hpost.1]
      exact hd.string (by simp)
    · rw [hpost.2]
      exact hd.string (by simp)
    · rw [himg]
      exact hd.string (by simp)
    · -- a post with a caption keeps its label
      have hcap : (Social.fetchSocialPost.item d).textCaption.isSome := hd.string (by simp)
      rw [SocialMore.setUp_likes_eq, if_pos hcap]
      exact ⟨_, rfl⟩
  heart _ _ hv := { hv with }
  image _ hv := { hv with }

theorem whole_of_documents {rs : List Request} (hF : Found rs) {k : Collection}
    (hk : ∀ id, (k.path id).mergedField = some "likes") :
    ∀ d ∈ k.documents (contents rs), Doc.Whole d := by
  intro d hd
  obtain ⟨p, hp, hlookup⟩ := DocStore.mem_docsIn hd
  obtain ⟨i, rfl⟩ := Collection.holds_iff.mp hp
  exact ⟨_, hk i, formed_of_lookup hlookup, hF.not_ghost hlookup⟩

/-- Every count that has been seen finds its document, and the screens show no ghosts. -/
structure Ready (s : World C) : Prop where
  found : ∀ c, Found (s.net.seen c)
  shown : ∀ c, Shown Doc.Whole Doc.Whole SocialMore.Ready (s.phone c)

omit [DecidableEq C] in
theorem ready_init : Ready (init : World C) where
  found c pre r post h := by
    rw [show (init : World C).net.seen c = [] from rfl] at h
    simp at h
  shown := shown_init

/-- **Every event that disturbs no count keeps the screens ready.** -/
theorem ready_step {e : Event C} (hR : Ready s) (hU : Undisturbed s e)
    (h : step me s e = some s') : Ready s' where
  found := found_step hR.found hU h
  shown c := by
    refine shown_step (hR.shown c) opens_ready (whole_of_documents (hR.found c) fun _ => rfl)
      (whole_of_documents (hR.found c) fun _ => rfl) (fun imgN v v' rs refs _ hv hchange => ?_) h
    obtain ⟨_, _, _, newNum, _, _, _, _, _, _, rfl⟩ := SocialMore.changeLike_eq_some hchange
    exact { (hR.shown c).more v hv with label := ⟨newNum, rfl⟩ }

/-! ### Handlers -/

omit [DecidableEq C] in
/-- The number is one that a tap can still count up and down from. -/
theorem int64_eq {n : Int} {l : Nat} (hlo : -(l : Int) ≤ n) (hhi : n ≤ l) (hl : l < 2 ^ 63) :
    int64 n = some n := by
  unfold int64
  exact if_pos (by omega)

omit [DecidableEq C] in
/-- **A tap of a ready view goes through**, unless it has to upload a picture that is not there
yet. -/
theorem SocialMore.Ready.changeLike {v : SocialMore} (h : v.Ready) {l : Nat} {n : Int}
    (hlikes : v.likes = some (Decimal.text n)) (hlo : -(l : Int) ≤ n) (hhi : n ≤ l)
    (hl : l + 1 < 2 ^ 63) (me imgN : String) : (v.changeLike me imgN).isSome ↔
      (v.postImg = true ∨ v.likeHeartImg = some .fillLikeheart) := by
  obtain ⟨id, hid⟩ := Option.isSome_iff_exists.mp h.id
  obtain ⟨uID, huID⟩ := Option.isSome_iff_exists.mp h.uID
  have hnumber : v.likes.bind intOfText = some n := by
    rw [hlikes, Option.bind_some, intOfText_text, int64_eq hlo hhi (by omega)]
  have hnew : ∀ filled, int64 (Tap.newNum ⟨n, filled⟩) = some (Tap.newNum ⟨n, filled⟩) := by
    intro filled
    refine int64_eq (l := l + 1) ?_ ?_ hl <;> cases filled <;> simp [Tap.newNum] <;> omega
  simp only [SocialMore.changeLike, hnumber, hid, huID, hnew, Option.bind_eq_bind,
    Option.bind_some]
  by_cases hfilled : v.likeHeartImg = some .fillLikeheart
  · simp [hfilled]
  · cases himg : v.postImg <;> simp [hfilled, addImg, himg]

omit [DecidableEq C] in
theorem Doc.Whole.number {d : Doc} (h : Doc.Whole d) : (Doc.number d "likes").isSome :=
  let ⟨_, hp, hformed, _⟩ := h
  likes_isSome hformed hp

omit [DecidableEq C] in
/-- The cell of a post that is whole is shown. -/
theorem Doc.Whole.postItem {d : Doc} (h : Doc.Whole d) :
    (postCell.postItem (postFeed.fetchData.item d)).isSome := by
  obtain ⟨imgName, himg⟩ := Option.isSome_iff_exists.mp (h.string (k := "postImg") (by simp))
  obtain ⟨n, hn⟩ := Option.isSome_iff_exists.mp h.number
  simp [postCell.postItem, postFeed.fetchData, feed, himg, hn]

omit [DecidableEq C] in
/-- What is done with an element goes through when there is one. -/
theorem isSome_getElem?_bind {α β : Type} {xs : List α} {i : Nat} {f : α → Option β}
    (h : ∀ x ∈ xs, (f x).isSome) : (xs[i]?.bind f).isSome ↔ i < xs.length := by
  cases hx : xs[i]? with
  | none => simpa using List.getElem?_eq_none_iff.mp hx
  | some x =>
      obtain ⟨hlt, -⟩ := List.getElem?_eq_some_iff.mp hx
      exact iff_of_true (h x (List.mem_of_getElem? hx)) hlt

omit [DecidableEq C] in
/-- **On a phone whose screens are ready a handler runs if and only if it can be called and is none
of those that trap.** -/
theorem run_isSome_iff {p : Phone} (hS : Shown Doc.Whole Doc.Whole SocialMore.Ready p) {l : Nat}
    (hl : l + 1 < 2 ^ 63) (hlabel : ∀ v n, p.more = some v → v.likes = some (Decimal.text n) →
      -(l : Int) ≤ n ∧ n ≤ l) (m : String) (a : Act) :
    (a.run m p).isSome ↔ a.Called p ∧ ¬ a.Traps p := by
  cases a with
  | signUp | login | google => cases h : p.signedIn <;> simp [Act.run, Act.Called, Act.Traps, h]
  | viewSocial | refresh | makePost | addToCloset | picture =>
      simp [Act.run, Act.Called, Act.Traps]
  | back | caption | pick =>
      simp [Act.run, Act.Called, Act.Traps, Option.isSome_bind, Option.isSome_iff_exists]
  | submit id =>
      cases hform : p.info with
      | none => simp [Act.run, Act.Called, hform]
      | some form =>
          cases hadd : form.addToDB m id <;> simp [Act.run, Act.Called, Act.Traps, hform, hadd]
  | cell i =>
      rw [Act.Called, Act.Traps, true_and, not_le]
      refine isSome_getElem?_bind fun post hpost => ?_
      obtain ⟨d, hd, rfl⟩ := hS.feed post hpost
      obtain ⟨cell, hcell⟩ := Option.isSome_iff_exists.mp hd.postItem
      simp [hcell]
  | select i =>
      rw [Act.Called, Act.Traps, true_and, not_le]
      refine isSome_getElem?_bind fun post hpost => ?_
      obtain ⟨d, hd, rfl⟩ := hS.posts post hpost
      obtain ⟨pid, hpid⟩ := Option.isSome_iff_exists.mp (hd.string (k := "ID") (by simp))
      simp [Social.fetchSocialPost, feed, hpid]
  | delete k =>
      rw [Act.Called, Act.Traps, not_false_eq_true, and_true]
      refine isSome_getElem?_bind fun postId hpost => ?_
      obtain ⟨d, hd, hitem⟩ := hS.cells postId hpost
      obtain ⟨id, hid⟩ := Option.isSome_iff_exists.mp (hd.string (k := "ID") (by simp))
      have hpostId : postId = some id := (postCell.postItem_eq_some hitem).trans hid
      simp [postFeed.deleteAction, hpostId]
  | image =>
      cases hv : p.more with
      | none => simp [Act.run, Act.Called, hv]
      | some v =>
          obtain ⟨imageName, himg⟩ := Option.isSome_iff_exists.mp (hS.more v hv).imageName
          simp [Act.run, Act.Called, Act.Traps, hv, himg]
  | tap imgN =>
      cases hv : p.more with
      | none => simp [Act.run, Act.Called, hv]
      | some v =>
          have hready := hS.more v hv
          obtain ⟨n, hn⟩ := hready.label
          obtain ⟨hlo, hhi⟩ := hlabel v n hv hn
          have hiff := hready.changeLike hn hlo hhi hl m imgN
          have hruns : ((Act.tap imgN).run m p).isSome = (v.changeLike m imgN).isSome := by
            simp [Act.run, hv, Option.isSome_bind]
          rw [hruns, hiff]
          simp [Act.Called, Act.Traps, hv, or_iff_not_imp_left]

/-! ### Events -/

/-- The environment lets the event happen, and what it is about is there. -/
def Event.Called (me : C → String) (s : World C) : Event C → Prop
  | .act c a => s.allows me c a = true ∧ a.Called (s.phone c)
  | .answer c k _ => ∃ ask, (s.phone c).reads[k]? = some ⟨ask, none⟩
  | .arrive c k => ∃ ask answer, (s.phone c).reads[k]? = some ⟨ask, some answer⟩
  | .upload c k _ => k < (s.phone c).uploads.length
  | .commit c => s.net.queue c ≠ []

omit [DecidableEq C] in
/-- The event traps: it is an act whose handler does. -/
def Event.Traps (s : World C) : Event C → Prop
  | .act c a => a.Traps (s.phone c)
  | .answer _ _ _ | .arrive _ _ | .upload _ _ _ | .commit _ => False

/-- An event happens if and only if it is called and does not trap, where each handler does so and
no callback traps. -/
theorem step_isSome_iff (hrun : ∀ c (a : Act),
      (a.run (me c) (s.phone c)).isSome ↔ a.Called (s.phone c) ∧ ¬ a.Traps (s.phone c))
    (hreads : ∀ c, ∀ r ∈ (s.phone c).reads, r.traps (me c) (s.phone c) = false) (e : Event C) :
    (step me s e).isSome ↔ e.Called me s ∧ ¬ e.Traps s := by
  cases e with
  | act c a =>
      rw [Event.Called, Event.Traps, and_assoc, ← hrun c a]
      cases hallows : s.allows me c a <;> simp [step, hallows]
  | answer c k ok =>
      simp only [Event.Called, Event.Traps, step, not_false_eq_true, and_true]
      cases hread : (s.phone c).reads[k]? with
      | none => simp
      | some r =>
          obtain ⟨ask, answer⟩ := r
          cases answer <;> simp
  | arrive c k =>
      simp only [Event.Called, Event.Traps, step, not_false_eq_true, and_true]
      cases hread : (s.phone c).reads[k]? with
      | none => simp
      | some r =>
          obtain ⟨ask, answer⟩ := r
          cases answer with
          | none => simp
          | some answer =>
              have htrap := hreads c _ (List.mem_of_getElem? hread)
              refine iff_of_true ?_ ⟨ask, answer, rfl⟩
              rw [Option.isSome_map, Option.isSome_iff_ne_none]
              intro hnone
              rw [(traps_iff _).mpr hnone] at htrap
              exact Bool.noConfusion htrap
  | upload c k ok =>
      simp only [Event.Called, Event.Traps, step, not_false_eq_true, and_true]
      cases href : (s.phone c).uploads[k]? with
      | none => simpa using List.getElem?_eq_none_iff.mp href
      | some ref => simpa using (List.getElem?_eq_some_iff.mp href).1
  | commit c =>
      simp only [Event.Called, Event.Traps, step, not_false_eq_true, and_true]
      cases hq : s.net.queue c <;> simp [Net.commit, hq]

/-- The label of an open post can be counted up and down, in a run that is not too long. -/
theorem label_within {es : List (Event C)} (hrun : Machine.run (step me) init es = some s)
    (hR : Ready s) {c : C} {v : SocialMore} {n : Int} (hv : (s.phone c).more = some v)
    (hn : v.likes = some (Decimal.text n)) : -(es.length : Int) ≤ n ∧ n ≤ es.length := by
  obtain ⟨id, hid⟩ := Option.isSome_iff_exists.mp ((hR.shown c).more v hv).id
  have hparse : v.likes.bind Decimal.parse = some n := by
    rw [hn, Option.bind_some, Decimal.parse_text]
  obtain ⟨hlo, hhi⟩ := ((numbered_run hrun).shown c).more v hv id n hid hparse
  have hliked : Machine.count (step me) (tapsHeart false id) init es ≤ es.length :=
    Machine.count_le_length _ _ _
  have hunliked : Machine.count (step me) (tapsHeart true id) init es ≤ es.length :=
    Machine.count_le_length _ _ _
  omega

end UTrend
