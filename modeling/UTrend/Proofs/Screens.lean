/-
What the screens of a phone show comes out of documents.

A post in one of the two feeds is read off a document of a snapshot, a cell is given
such a post, and the view of a post is set up from one.  `Shown` carries any property
of documents, and of the view, over to the screens: whatever holds of every document
that the database lists, holds of the document behind each thing that is shown.

`shown_step` asks only for what a phone does to a view: opening, the heart, the picture,
and the tap.
-/
import UTrend.Proofs.Steps

namespace UTrend

/-- Each thing on the screens of `p` is read off a document, or is a view, of its kind: `S`
for the public feed, `O` for the user's own posts, `V` for the open post. -/
structure Shown (S O : Doc → Prop) (V : SocialMore → Prop) (p : Phone) : Prop where
  posts : ∀ post ∈ p.posts, ∃ d, S d ∧ post = Social.fetchSocialPost.item d
  feed : ∀ post ∈ p.feed, ∃ d, O d ∧ post = postFeed.fetchData.item d
  cells : ∀ postId ∈ p.cells, ∃ d, O d ∧
    postCell.postItem (postFeed.fetchData.item d) = some postId
  more : ∀ v, p.more = some v → V v
  socialSnap : ∀ snap, ⟨.socialFeed, some (.docs snap)⟩ ∈ p.reads → ∀ d ∈ snap, S d
  postsSnap : ∀ snap, ⟨.posts, some (.docs snap)⟩ ∈ p.reads → ∀ d ∈ snap, O d

/-- What a view keeps as it is opened, and as the answers of `prepare` and the picture
arrive. -/
structure Opens (S : Doc → Prop) (V : SocialMore → Prop) : Prop where
  setUp : ∀ d pid, S d → Doc.string d "ID" = some pid →
    V (Social.prepare (Social.fetchSocialPost.item d)).setUp
  heart : ∀ v liked, V v → V (v.showHeart liked)
  image : ∀ v, V v → V { v with postImg := true }

variable {S O S' O' : Doc → Prop} {V V' : SocialMore → Prop} {m : String} {p p' : Phone}

namespace Shown

theorem mono (h : Shown S O V p) (hS : ∀ d, S d → S' d) (hO : ∀ d, O d → O' d)
    (hV : ∀ v, V v → V' v) : Shown S' O' V' p where
  posts post hp := (h.posts post hp).imp fun d hd => ⟨hS d hd.1, hd.2⟩
  feed post hp := (h.feed post hp).imp fun d hd => ⟨hO d hd.1, hd.2⟩
  cells postId hp := (h.cells postId hp).imp fun d hd => ⟨hO d hd.1, hd.2⟩
  more v hv := hV v (h.more v hv)
  socialSnap snap hr d hd := hS d (h.socialSnap snap hr d hd)
  postsSnap snap hr d hd := hO d (h.postsSnap snap hr d hd)

/-- A question that has no answer yet shows nothing. -/
theorem ask (h : Shown S O V p) (a : Ask) : Shown S O V (p.ask a) :=
  { h with
    socialSnap := fun snap hr => by
      rcases List.mem_append.mp hr with hr | hr
      · exact h.socialSnap snap hr
      · simp at hr
    postsSnap := fun snap hr => by
      rcases List.mem_append.mp hr with hr | hr
      · exact h.postsSnap snap hr
      · simp at hr }

theorem fetchSocialPost (h : Shown S O V p) : Shown S O V p.fetchSocialPost := by
  refine ask (p := { p with posts := _ }) ?_ _
  exact { h with posts := by simp [Loader.call] }

theorem fetchData (h : Shown S O V p) : Shown S O V p.fetchData := by
  refine ask (p := { p with feed := _ }) ?_ _
  exact { h with feed := by simp [Loader.call] }

theorem start (h : Shown S O V p) : Shown S O V p.start :=
  ask (p := { p with signedIn := true }) { h with } _

/-- **An act shows nothing new**, but for what a tap makes of the view. -/
theorem run (h : Shown S O V p) (hopens : Opens S V) {a : Act} {rs : List Request}
    (htap : ∀ imgN v v' rs refs, a = .tap imgN → p.more = some v →
      v.changeLike m imgN = some (v', rs, refs) → V v')
    (ha : a.run m p = some (p', rs)) : Shown S O V p' := by
  cases a with
  | signUp firstname username =>
      obtain ⟨rfl, -⟩ := Act.run_signUp ha
      exact h.start
  | login =>
      obtain ⟨rfl, -⟩ := Act.run_signsIn (Or.inl rfl) ha
      exact h.start
  | google =>
      obtain ⟨rfl, -⟩ := Act.run_signsIn (Or.inr rfl) ha
      exact h.start
  | viewSocial =>
      obtain ⟨rfl, -⟩ := Prod.mk.inj (Option.some.inj ha)
      exact h.fetchSocialPost
  | refresh =>
      obtain ⟨rfl, -⟩ := Prod.mk.inj (Option.some.inj ha)
      exact h.fetchData
  | cell i =>
      obtain ⟨post, postId, hpost, hitem, rfl, -⟩ := Act.run_cell ha
      refine { h with cells := fun q hq => ?_ }
      rcases List.mem_append.mp hq with hq | hq
      · exact h.cells q hq
      · obtain ⟨d, hd, rfl⟩ := h.feed post (List.mem_of_getElem? hpost)
        exact ⟨d, hd, List.mem_singleton.mp hq ▸ hitem⟩
  | select i =>
      obtain ⟨post, pid, hpost, hpid, rfl, -⟩ := Act.run_select ha
      refine ask (p := { p with more := _, opened := _ }) ?_ _
      refine { h with more := fun v hv => ?_ }
      obtain rfl := Option.some.inj hv
      obtain ⟨d, hd, rfl⟩ := h.posts post (List.mem_of_getElem? hpost)
      exact hopens.setUp d pid hd hpid
  | image =>
      obtain ⟨v, hv, rfl, -⟩ := Act.run_image ha
      refine { h with more := fun w hw => ?_ }
      obtain rfl := Option.some.inj hw
      exact hopens.image v (h.more v hv)
  | tap imgN =>
      obtain ⟨v, v', refs, hv, hchange, rfl⟩ := Act.run_tap ha
      refine { h with more := fun w hw => ?_ }
      obtain rfl := Option.some.inj hw
      exact htap imgN v v' rs refs rfl hv hchange
  | back =>
      obtain ⟨rfl, -⟩ := Act.run_back ha
      exact fetchSocialPost (p := { p with more := none }) { h with more := by simp }
  | makePost =>
      obtain ⟨rfl, -⟩ := Prod.mk.inj (Option.some.inj ha)
      exact { h with }
  | caption text =>
      obtain ⟨form, rfl, -⟩ := Act.run_caption ha
      exact { h with }
  | pick imgN =>
      obtain ⟨form, rfl, -⟩ := Act.run_pick ha
      exact { h with }
  | submit id =>
      rcases Act.run_submit ha with ⟨rfl, -⟩ | ⟨form, -, -, rfl, -⟩
      · exact h
      · exact ask (p := { p with info := none }) { h with } _
  | delete k =>
      obtain ⟨id, -, rfl, -⟩ := Act.run_delete ha
      exact h
  | addToCloset docId imgN type =>
      obtain ⟨rfl, -⟩ := Prod.mk.inj (Option.some.inj ha)
      exact { h with }
  | picture imgN =>
      obtain ⟨rfl, -⟩ := Prod.mk.inj (Option.some.inj ha)
      exact { h with }

/-- Fewer reads show nothing new. -/
theorem eraseRead (h : Shown S O V p) (k : Nat) :
    Shown S O V { p with reads := p.reads.eraseIdx k } :=
  { h with
    socialSnap := fun snap hr => h.socialSnap snap (List.mem_of_mem_eraseIdx hr)
    postsSnap := fun snap hr => h.postsSnap snap (List.mem_of_mem_eraseIdx hr) }

/-- **A callback shows what its snapshot holds.** -/
theorem callback (h : Shown S O V p) (hopens : Opens S V) {a : Ask} {answer : Answer}
    {rs : List Request}
    (hsocial : ∀ snap, a = .socialFeed → answer = .docs snap → ∀ d ∈ snap, S d)
    (hposts : ∀ snap, a = .posts → answer = .docs snap → ∀ d ∈ snap, O d)
    (hc : p.callback m a answer = some (p', rs)) : Shown S O V p' := by
  rcases Phone.callback_eq_some hc with ⟨snap, rfl, rfl, -, rfl⟩ |
    ⟨snap, rfl, rfl, -, rfl⟩ | ⟨view, id, liked, rfl, -, rfl⟩ |
    ⟨id, form, doc, profImg, username, rfl, rfl, rfl, -⟩ | ⟨rfl, -, -⟩
  · refine { h with posts := fun post hp => ?_ }
    simp only [Loader.append_eq, List.mem_append] at hp
    rcases hp with hp | hp
    · exact h.posts post hp
    · obtain ⟨d, hd, rfl⟩ := List.mem_map.mp hp
      exact ⟨d, hsocial snap rfl rfl d (List.mem_of_mem_filter hd), rfl⟩
  · refine { h with feed := fun post hp => ?_ }
    simp only [Loader.append_eq, List.mem_append] at hp
    rcases hp with hp | hp
    · exact h.feed post hp
    · obtain ⟨d, hd, rfl⟩ := List.mem_map.mp hp
      exact ⟨d, hposts snap rfl rfl d (List.mem_of_mem_filter hd), rfl⟩
  · refine { h with more := fun w hw => ?_ }
    obtain ⟨v, hv, rfl⟩ := Option.map_eq_some_iff.mp hw
    exact hopens.heart v liked (h.more v hv)
  · exact h
  · exact h

end Shown

/-! ### One event -/

namespace World

variable {C : Type} [DecidableEq C] {me : C → String} {s s' : World C}

omit [DecidableEq C] in
theorem shown_init (c : C) : Shown S O V ((init : World C).phone c) := by
  constructor <;> simp [init]

/-- **An event shows what the documents of the database are**, and what a tap makes of the
view. -/
theorem shown_step {e : Event C} {d : C} (hI : Shown S O V (s.phone d)) (hopens : Opens S V)
    (hsocial : ∀ x ∈ (Social.fetchSocialPost.collection (me d)).documents (s.view d), S x)
    (hposts : ∀ x ∈ (postFeed.fetchData.collection (me d)).documents (s.view d), O x)
    (htap : ∀ imgN v v' rs refs, e = .act d (.tap imgN) → (s.phone d).more = some v →
      v.changeLike (me d) imgN = some (v', rs, refs) → V v')
    (h : step me s e = some s') : Shown S O V (s'.phone d) := by
  by_cases hd : d = e.client
  swap
  · rw [step_phone h hd]
    exact hI
  subst hd
  cases e with
  | act c a =>
      obtain ⟨-, p, rs, hrun, hs'⟩ := step_act h
      have hphone : s'.phone c = p := by
        rw [hs']
        exact setPhone_self ..
      rw [Event.client, hphone]
      refine hI.run hopens (fun imgN v v' rs refs ha => ?_) hrun
      exact htap imgN v v' rs refs (congrArg (Event.act c) ha)
  | answer c k ok =>
      obtain ⟨a, hread, hs'⟩ := step_answer h
      rw [Event.client, hs', setPhone_self]
      refine { hI with socialSnap := fun snap hr => ?_, postsSnap := fun snap hr => ?_ }
      · rcases List.mem_or_eq_of_mem_set hr with hr | hr
        · exact hI.socialSnap snap hr
        · obtain ⟨rfl, hans⟩ := Read.mk.inj hr
          cases ok with
          | false => simp at hans
          | true =>
              obtain rfl : snap = _ := by simpa [Ask.answerOf] using hans
              exact hsocial
      · rcases List.mem_or_eq_of_mem_set hr with hr | hr
        · exact hI.postsSnap snap hr
        · obtain ⟨rfl, hans⟩ := Read.mk.inj hr
          cases ok with
          | false => simp at hans
          | true =>
              obtain rfl : snap = _ := by simpa [Ask.answerOf] using hans
              exact hposts
  | arrive c k =>
      obtain ⟨a, answer, p, rs, hread, hcall, hs'⟩ := step_arrive h
      have hphone : s'.phone c = p := by
        rw [hs']
        exact setPhone_self ..
      have hmem := List.mem_of_getElem? hread
      rw [Event.client, hphone]
      refine (hI.eraseRead k).callback hopens ?_ ?_ hcall
      · rintro snap rfl rfl
        exact hI.socialSnap snap hmem
      · rintro snap rfl rfl
        exact hI.postsSnap snap hmem
  | upload c k ok =>
      obtain ⟨ref, -, hs'⟩ := step_upload h
      have hphone : s'.phone c
          = { s.phone c with uploads := (s.phone c).uploads.eraseIdx k } := by
        rw [hs']
        exact setPhone_self ..
      rw [Event.client, hphone]
      exact { hI with }
  | commit c =>
      obtain ⟨r, rest, net, -, -, hs'⟩ := step_commit h
      have hphone : s'.phone c = completed (s.phone c) r := by
        rw [hs']
        exact setPhone_self ..
      rw [Event.client, hphone]
      cases r with
      | deletePost uid id => exact hI.fetchData
      | _ => exact hI

end World

end UTrend
