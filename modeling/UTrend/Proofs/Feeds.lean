/-
The public feed and the authors' feeds.

A submission is two writes with a read between them, and a deletion is two writes.
When the read fails, only the author's copy is made; when its answer comes after
the deletion has been applied, only the public copy is left.  `Follows` names the
steps at which neither happens.

The invariant is `Filed`: a post that has been made is still asked about, or it is
published, or it is being deleted.  When nothing is pending the first is out, and
the two collections hold the same posts.
-/
import UTrend.Proofs.Deletion

namespace UTrend

variable {C : Type} {me : C → String} {s s' : World C} {u id : String}

open World

/-- The post that a question about an author is asked for. -/
def Ask.post : Ask → Option String
  | .author id _ => some id
  | _ => none

/-- The post whose public copy a request makes. -/
def Request.publicId : Request → Option String
  | .publish _ id _ _ _ _ => some id
  | _ => none

/-- A request that writes a count. -/
def Request.counts : Request → Bool
  | .countPost _ _ _ | .countSocial _ _ => true
  | _ => false

/-- The public copy follows the author's: the question about the author of a post fails
only once the post is being deleted, and a public copy is not applied after its own
deletion. -/
def Follows (me : C → String) (s : World C) : Event C → Prop
  | .answer c k ok => ok = false → ∀ r ∈ (s.phone c).reads[k]?, ∀ id ∈ r.ask.post,
      s.net.Issued (.deletePost (me c) id)
  | .commit c => ∀ r ∈ (s.net.queue c).head?, ∀ id ∈ r.publicId,
      .deleteSocial id ∉ s.net.committed
  | _ => True

instance [DecidableEq C] [Fintype C] (me : C → String) (s : World C) :
    ∀ e, Decidable (Follows me s e)
  | .answer c k ok => inferInstanceAs (Decidable (ok = false → ∀ r ∈ (s.phone c).reads[k]?,
      ∀ id ∈ r.ask.post, s.net.Issued (.deletePost (me c) id)))
  | .commit c => inferInstanceAs (Decidable (∀ r ∈ (s.net.queue c).head?, ∀ id ∈ r.publicId,
      .deleteSocial id ∉ s.net.committed))
  | .act .. | .arrive .. | .upload .. => isTrue trivial

/-- Where a submission stands, when nobody taps: a post that has been made is still asked
about, or published, or being deleted. -/
structure Filed (me : C → String) [DecidableEq C] (s : World C) : Prop where
  uncounted : ∀ c, ∀ r ∈ s.net.history c, r.counts = false
  paired : ∀ c id, .deletePost (me c) id ∈ s.net.history c ↔ .deleteSocial id ∈ s.net.history c
  answered : ∀ c, ∀ r ∈ (s.phone c).reads, ∀ id form a, r = ⟨.author id form, some a⟩ →
    (∃ doc, a = .doc doc) ∨ s.net.Issued (.deletePost (me c) id)
  awaited : ∀ c id, Created (s.net.history c) (me c) id →
    (∃ r ∈ (s.phone c).reads, r.asksAuthor id) ∨ Published (s.net.history c) (me c) id ∨
      s.net.Issued (.deletePost (me c) id)

namespace Effect

variable {c : C} {e : Event C} {rs : List Request} {reads : List Read}
  {uploads : List StorageRef}

theorem uncounted (h : Effect me s c e rs reads uploads) (he : e.taps = false) :
    ∀ r ∈ rs, r.counts = false := by
  cases h with
  | tap imgN => simp [Event.taps] at he
  | _ => simp [Request.counts]

theorem paired (h : Effect me s c e rs reads uploads) (id : String) :
    .deletePost (me c) id ∈ rs ↔ .deleteSocial id ∈ rs := by
  cases h with
  | tap imgN =>
      simp only [SocialMore.tapRequests]
      split <;> simp
  | _ => simp

/-- The answer to a question about an author is a document or a failure. -/
theorem answered_author (h : Effect me s c e rs reads uploads) {id : String} {form : PostInfo}
    {a : Answer} (hr : ⟨.author id form, some a⟩ ∈ reads) :
    ⟨.author id form, some a⟩ ∈ (s.phone c).reads ∨ (∃ doc, a = .doc doc) ∨
      ∃ k, e = .answer c k false ∧ (s.phone c).reads[k]? = some ⟨.author id form, none⟩ := by
  rcases h.read_cases hr with hr | ⟨hnone, -⟩ | ⟨k, ok, rfl, hread, ha⟩
  · exact Or.inl hr
  · simp at hnone
  · cases ok with
    | true => exact Or.inr (Or.inl ⟨_, Option.some.inj ha⟩)
    | false => exact Or.inr (Or.inr ⟨k, rfl, hread⟩)

/-- A question about an author stays, or its answer is published, or was a failure. -/
theorem awaited (h : Effect me s c e rs reads uploads) {id : String}
    (hr : ∃ r ∈ (s.phone c).reads, r.asksAuthor id) :
    (∃ r ∈ reads, r.asksAuthor id) ∨ Published rs (me c) id ∨
      ∃ form a, ⟨.author id form, some a⟩ ∈ (s.phone c).reads ∧ ∀ doc, a ≠ .doc doc := by
  obtain ⟨r, hr, ha⟩ := hr
  cases h with
  | asks | signUp | submit => exact Or.inl ⟨r, List.mem_append_left _ hr, ha⟩
  | answered k ok hread =>
      rename_i a
      obtain ⟨hk, hget⟩ := List.getElem?_eq_some_iff.mp hread
      rcases mem_eraseIdx_or_eq hr hread with rfl | hr
      · exact Or.inl ⟨_, List.mem_set hk _, ha⟩
      · refine Or.inl ⟨r, ?_, ha⟩
        have hperm := List.getElem_cons_eraseIdx_perm
          (l := (s.phone c).reads.set k
            ⟨a, some (if ok then a.answerOf (me c) (s.view c) else .error)⟩) (by simpa using hk)
        rw [List.eraseIdx_set_eq] at hperm
        exact hperm.mem_iff.mp (List.mem_cons_of_mem _ hr)
  | delivered k hread hsilent =>
      rcases mem_eraseIdx_or_eq hr hread with rfl | hr
      · obtain ⟨form, hform⟩ := Read.asksAuthor_iff.mp ha
        obtain rfl : _ = Ask.author id form := hform
        exact Or.inr (Or.inr ⟨form, _, List.mem_of_getElem? hread,
          fun doc => hsilent id form doc rfl⟩)
      · exact Or.inl ⟨r, hr, ha⟩
  | publish k hread =>
      rcases mem_eraseIdx_or_eq hr hread with rfl | hr
      · obtain ⟨form, hform⟩ := Read.asksAuthor_iff.mp ha
        obtain ⟨rfl, rfl⟩ := Ask.author.inj hform
        exact Or.inr (Or.inl ⟨_, List.mem_singleton_self _, by simp [Request.publishes]⟩)
      · exact Or.inl ⟨r, hr, ha⟩
  | _ => exact Or.inl ⟨r, hr, ha⟩

end Effect

variable [DecidableEq C]

theorem issued_step {e : Event C} (h : step me s e = some s') {r : Request}
    (hr : s.net.Issued r) : s'.net.Issued r :=
  hr.imp fun _ hr => mem_seen_step h hr

theorem filed_init : Filed me (init : World C) := by
  constructor <;> simp [init, Created]

/-- **Every event keeps the submissions filed, when the public copies follow.** -/
theorem filed_step {e : Event C} (hF : Filed me s) (hfollows : Follows me s e)
    (htap : e.taps = false) (h : step me s e = some s') : Filed me s' where
  uncounted c r hr := by
    obtain ⟨rs, heff, hhist⟩ := step_history h c
    rw [hhist] at hr
    rcases List.mem_append.mp hr with hr | hr
    · exact hF.uncounted c r hr
    · exact heff.uncounted htap r hr
  paired c id := by
    obtain ⟨rs, heff, hhist⟩ := step_history h c
    rw [hhist, List.mem_append, List.mem_append, hF.paired c id, heff.paired id]
  answered c r hr id form a hra := by
    subst hra
    obtain ⟨rs, heff, -⟩ := step_history h c
    rcases heff.answered_author hr with hr | hdoc | ⟨k, rfl, hread⟩
    · exact (hF.answered c _ hr id form a rfl).imp_right (issued_step h)
    · exact Or.inl hdoc
    · exact Or.inr (issued_step h (hfollows rfl _ hread id rfl))
  awaited c id hc := by
    obtain ⟨rs, heff, hhist⟩ := step_history h c
    rw [hhist] at hc ⊢
    obtain ⟨r, hr, hrc⟩ := hc
    rcases List.mem_append.mp hr with hr | hr
    · rcases hF.awaited c id ⟨r, hr, hrc⟩ with hread | hpub | hdel
      · rcases heff.awaited hread with hread | hpub | ⟨form, a, hread, hnot⟩
        · exact Or.inl hread
        · exact Or.inr (Or.inl (hpub.mono fun x hx => List.mem_append_right _ hx))
        · rcases hF.answered c _ hread id form a rfl with ⟨doc, rfl⟩ | hdel
          · exact absurd rfl (hnot doc)
          · exact Or.inr (Or.inr (issued_step h hdel))
      · exact Or.inr (Or.inl (hpub.mono fun x hx => List.mem_append_left _ hx))
      · exact Or.inr (Or.inr (issued_step h hdel))
    · left
      obtain ⟨caption, imgName, rfl⟩ := Request.creates_iff.mp hrc
      generalize (s'.phone c).reads = reads, (s'.phone c).uploads = uploads at heff
      cases heff with
      | tap imgN => simpa using SocialMore.mem_tapRequests hr
      | submit id' hform hadd hfresh =>
          obtain ⟨-, rfl, -, -⟩ := Request.create.inj (List.mem_singleton.mp hr)
          exact ⟨_, List.mem_append_right _ (List.mem_singleton_self _),
            by simp [Read.asksAuthor]⟩
      | _ => simp at hr

/-- Without counts, the public writes are timely when they follow. -/
theorem timely_of_follows (hF : Filed me s) {e : Event C} (hfollows : Follows me s e)
    (id : String) : OnCommit (fun s _ r => r.Timely id s.net.committed) s e := by
  cases e with
  | commit c =>
      intro r hr
      have hcount := hF.uncounted c r (Net.mem_history_of_queue (List.mem_of_mem_head? hr))
      cases r with
      | publish uid i caption imgName profImg username =>
          rintro rfl
          exact hfollows _ hr i rfl
      | countPost uid i tap => simp [Request.counts] at hcount
      | countSocial i tap => simp [Request.counts] at hcount
      | _ => trivial
  | _ => trivial

/-! ### The documents, when nothing is pending -/

/-- An author's copy exists from its creation to its deletion. -/
theorem mem_post_iff (hS : Sound me s) (hB : Buried id s.net.committed) :
    Path.post u id ∈ s.db ↔
      Created s.net.committed u id ∧ .deletePost u id ∉ s.net.committed := by
  refine ⟨fun h => ⟨hS.created_of_mem h, hB.post u h⟩, fun ⟨⟨r, hr, hc⟩, hkept⟩ => ?_⟩
  obtain ⟨caption, imgName, rfl⟩ := Request.creates_iff.mp hc
  refine mem_contents ⟨_, hr, rfl⟩ fun x hx hpath => ?_
  rcases Request.path_eq_post hpath with ⟨_, _, rfl⟩ | ⟨_, rfl⟩ | rfl
  · rfl
  · rfl
  · exact absurd hx hkept

/-- A public copy exists from its publication to its deletion. -/
theorem mem_social_iff (hS : Sound me s) (hB : Buried id s.net.committed) :
    Path.social id ∈ s.db ↔
      (∃ u, Published s.net.committed u id) ∧ .deleteSocial id ∉ s.net.committed := by
  refine ⟨fun h => ⟨hS.published_of_mem h, hB.social h⟩, fun ⟨⟨u, r, hr, hp⟩, hkept⟩ => ?_⟩
  obtain ⟨caption, imgName, profImg, username, rfl⟩ := Request.publishes_iff.mp hp
  refine mem_contents ⟨_, hr, rfl⟩ fun x hx hpath => ?_
  rcases Request.path_eq_social hpath with ⟨_, _, _, _, _, rfl⟩ | ⟨_, rfl⟩ | rfl
  · rfl
  · rfl
  · exact absurd hx hkept

/-- A public copy that nobody has counted in names its author. -/
theorem uid_of_social {rs : List Request} (hcount : ∀ r ∈ rs, r.counts = false) {d : Doc}
    (h : (contents rs).lookup (.social id) = some d) :
    ∃ u, Doc.string d "uid" = some u ∧ Published rs u id := by
  suffices hI : (∀ r ∈ rs, r.counts = false) → ∀ d, (contents rs).lookup (.social id) = some d →
      ∃ u, Doc.string d "uid" = some u ∧ Published rs u id from hI hcount d h
  refine contents_induction (p := .social id)
    (I := fun rs doc => (∀ r ∈ rs, r.counts = false) → ∀ d, doc = some d →
      ∃ u, Doc.string d "uid" = some u ∧ Published rs u id) ?_ ?_ ?_ rs
  · simp
  · intro rs r doc ih _ hcount d hd
    obtain ⟨u, hu, hp⟩ := ih (fun x hx => hcount x (List.mem_append_left _ hx)) d hd
    exact ⟨u, hu, hp.mono fun x hx => List.mem_append_left _ hx⟩
  · intro rs r doc _ hpath hcount d hd
    rcases Request.path_eq_social hpath with
      ⟨u, caption, imgName, profImg, username, rfl⟩ | ⟨tap, rfl⟩ | rfl
    · obtain rfl := (Option.some.inj hd).symm
      exact ⟨u, rfl, _, List.mem_append_right _ (List.mem_singleton_self _),
        by simp [Request.publishes]⟩
    · exact absurd (hcount (.countSocial id tap) (by simp)) (by simp [Request.counts])
    · simp [Request.write, DocStore.Write.result] at hd

/-- When nothing waits, both copies of a post have been deleted or neither has. -/
theorem Filed.deleted_iff (hF : Filed me s) (hS : Sound me s) (hquiet : s.net.Quiet)
    (hu : Created s.net.committed u id) :
    .deletePost u id ∈ s.net.committed ↔ .deleteSocial id ∈ s.net.committed := by
  constructor
  · intro hdel
    obtain ⟨c, hc⟩ := Net.exists_history_of_committed hdel
    obtain rfl := hS.deleter hc
    exact hquiet.mem_committed ((hF.paired c id).mp hc)
  · intro hdel
    obtain ⟨c, hc⟩ := Net.exists_history_of_committed hdel
    have hpost := hquiet.mem_committed ((hF.paired c id).mpr hc)
    obtain ⟨x, hx, hxc⟩ := (hS.deleteOrder (me c) id).committed hpost rfl
    rwa [hS.author_eq_committed hu ⟨x, hx, hxc⟩]

/-- When nothing is pending, a post that has been made is published or deleted. -/
theorem Filed.published_or_deleted (hF : Filed me s) (hS : Sound me s) (hidle : s.Idle)
    (hu : Created s.net.committed u id) :
    Published s.net.committed u id ∨ .deletePost u id ∈ s.net.committed := by
  obtain ⟨hquiet, hreads⟩ := hidle
  obtain ⟨c, hc⟩ := Sound.exists_created_history hu fun _ hr => hr
  obtain ⟨rfl, -⟩ := hS.drawn.create c u id hc
  rcases hF.awaited c id hc with ⟨r, hr, -⟩ | ⟨r, hr, hp⟩ | hdel
  · simp [(hreads c).1] at hr
  · exact Or.inl ⟨r, hquiet.mem_committed hr, hp⟩
  · exact Or.inr (hdel.committed_of_quiet hquiet)

/-- **When nothing is pending, the public feed has the posts of the authors' feeds.** -/
theorem Filed.same_posts (hF : Filed me s) (hS : Sound me s) (hB : Buried id s.net.committed)
    (hidle : s.Idle) :
    (Path.social id ∈ s.db ↔ ∃! u, Path.post u id ∈ s.db) ∧
      ∀ u d, Path.post u id ∈ s.db → s.db.lookup (.social id) = some d →
        Doc.string d "uid" = some u := by
  have hquiet := hidle.1
  rw [mem_social_iff hS hB]
  refine ⟨⟨?_, ?_⟩, ?_⟩
  · rintro ⟨⟨u, r, hr, hp⟩, hkept⟩
    have hcreated : Created s.net.committed u id := (hS.publishOrder u id).committed hr hp
    refine ⟨u, (mem_post_iff hS hB).mpr ⟨hcreated, fun hdel => ?_⟩, fun w hw => ?_⟩
    · exact hkept ((hF.deleted_iff hS hquiet hcreated).mp hdel)
    · exact hS.author_eq_committed (hS.created_of_mem hw) hcreated
  · rintro ⟨u, hu, -⟩
    obtain ⟨hcreated, hkept⟩ := (mem_post_iff hS hB).mp hu
    have hpub : Published s.net.committed u id :=
      (hF.published_or_deleted hS hidle hcreated).resolve_right hkept
    exact ⟨⟨u, hpub⟩, fun hdel => hkept ((hF.deleted_iff hS hquiet hcreated).mpr hdel)⟩
  · intro u d hu hd
    have hcount : ∀ r ∈ s.net.committed, r.counts = false := by
      intro r hr
      obtain ⟨c, hc⟩ := Net.exists_history_of_committed hr
      exact hF.uncounted c r hc
    obtain ⟨w, hw, hpub⟩ := uid_of_social hcount hd
    rw [hw, hS.publisher_eq hpub (hS.created_of_mem hu)]

/-- **The feeds agree whenever nothing is pending, in runs whose public copies follow the
authors'.** -/
theorem feeds_agree {es : List (Event C)} (hrun : Machine.run (step me) init es = some s)
    (hfollows : Machine.Along (step me) (Follows me) init es)
    (htap : ∀ e ∈ es, e.taps = false) (hidle : s.Idle) (id : String) :
    (Path.social id ∈ s.db ↔ ∃! u, Path.post u id ∈ s.db) ∧
      ∀ u d, Path.post u id ∈ s.db → s.db.lookup (.social id) = some d →
        Doc.string d "uid" = some u := by
  have halong := Machine.along_and.mpr ⟨hfollows, Machine.along_of_forall htap init⟩
  have hstep : ∀ (s : World C) e s', Filed me s → Follows me s e ∧ e.taps = false →
      step me s e = some s' → Filed me s' :=
    fun s e s' hF hP h => filed_step hF hP.1 hP.2 h
  have hB : Buried id s.net.committed := buried_run hrun
    (Machine.along_of_invariant hstep (fun s e hF hP => timely_of_follows hF hP.1 id)
      filed_init halong)
  exact (Machine.invariant_run hstep filed_init halong hrun).same_posts (sound_run hrun) hB
    hidle

set_option maxRecDepth 100000 in
/-- Ann posts and bob posts, and ann deletes her post. -/
theorem feeds_agree_duo :
    ∃ s, Machine.run (step duo) init (signingUp ++ submitting ++ publishing ++ bobPosting
        ++ deleting ++ fetchingAgain) = some s ∧
      Path.social "p" ∉ s.db ∧ Path.social "q" ∈ s.db ∧
      ∀ id, (Path.social id ∈ s.db ↔ ∃! u, Path.post u id ∈ s.db) ∧
        ∀ u d, Path.post u id ∈ s.db → s.db.lookup (.social id) = some d →
          Doc.string d "uid" = some u := by
  obtain ⟨s, hs, hidle, hgone, hthere⟩ : ∃ s, Machine.run (step duo) init (signingUp
      ++ submitting ++ publishing ++ bobPosting ++ deleting ++ fetchingAgain) = some s ∧
      s.Idle ∧ Path.social "p" ∉ s.db ∧ Path.social "q" ∈ s.db := by
    decide +kernel
  exact ⟨s, hs, hgone, hthere, feeds_agree hs (by decide +kernel) (by decide) hidle⟩

set_option maxRecDepth 100000 in
/-- **The question about the author fails, and the post is in the author's feed alone.** -/
theorem post_missing_from_socialFeed :
    ∃ s, Machine.run (step duo) init (signingUp ++ submitting
        ++ [.answer 0 0 false, .arrive 0 0, .commit 0]) = some s ∧
      s.Idle ∧ ¬ (Path.social "p" ∈ s.db ↔ ∃! u, Path.post u "p" ∈ s.db) := by
  obtain ⟨s, hs, hidle, hpost, hsocial⟩ : ∃ s, Machine.run (step duo) init (signingUp
      ++ submitting ++ [.answer 0 0 false, .arrive 0 0, .commit 0]) = some s ∧
        s.Idle ∧ Path.post "ann" "p" ∈ s.db ∧ Path.social "p" ∉ s.db := by
    decide +kernel
  have hS := sound_run hs
  refine ⟨s, hs, hidle, fun h => hsocial (h.mpr ⟨"ann", hpost, fun w hw => ?_⟩)⟩
  exact hS.author_eq_committed (hS.created_of_mem hw) (hS.created_of_mem hpost)

end UTrend
