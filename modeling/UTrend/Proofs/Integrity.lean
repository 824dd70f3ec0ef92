/-
Whose writes a document holds.

A phone writes for its own user, and all it writes into the documents of others are
the counts of a tap.  So what the database holds of a user, counts aside, is what the
writes of that user's own phones make of it; whatever the other phones did, and in
whatever order, can be left out.  A count of theirs can bring a copy back that is not
there, but then the count is all that the copy holds.

`IssuedBy` says where the requests of a list come from.  `confined` is the result
for any such list, and `own_documents` takes it to the database and to what each phone
sees of it.
-/
import UTrend.Proofs.Cells

namespace UTrend

open DocStore World

variable {C : Type} {me : C → String} {s s' : World C} {u id : String}

/-- The user a request is issued for, where it says so. -/
def Request.user : Request → Option String
  | .signUp uid _ _ | .picture uid _ | .create uid _ _ _ | .publish uid _ _ _ _ _
  | .like uid _ _ _ | .unlike uid _ _ | .deletePost uid _ | .clothes uid _ _ _ => some uid
  | .countPost _ _ _ | .countSocial _ _ | .deleteSocial _ => none

/-- The requests of a list that `u`'s phones have issued. -/
def ownPart (me : C → String) (u : String) (l : List (C × Request)) : List Request :=
  (l.filter fun x => me x.1 = u).map Prod.snd

/-- The writes of `u`'s phones that have been applied. -/
def World.ownWrites (me : C → String) (s : World C) (u : String) : List Request :=
  ownPart me u s.net.log

/-- The requests `all` leave of `u` what the requests `own` leave: the same documents, but for
those that a count has brought back, and in them the same fields, but for the counts. -/
structure SameOf (u : String) (all own : List Request) : Prop where
  user : (contents all).lookup (.user u) = (contents own).lookup (.user u)
  like : ∀ id, (contents all).lookup (.like u id) = (contents own).lookup (.like u id)
  clothes : ∀ id, (contents all).lookup (.clothes u id) = (contents own).lookup (.clothes u id)
  postThere : ∀ id, Path.post u id ∈ contents all ↔
    Path.post u id ∈ contents own ∨ CountedAway (.post u id) all
  post : ∀ id k, k ≠ "likes" →
    field (contents all) (.post u id) k = field (contents own) (.post u id) k
  socialThere : ∀ id, Created all u id → (Path.social id ∈ contents all ↔
    Path.social id ∈ contents own ∨ CountedAway (.social id) all)
  social : ∀ id, Created all u id → ∀ k, k ≠ "likes" →
    field (contents all) (.social id) k = field (contents own) (.social id) k

/-! ### What a phone issues -/

/-- **A phone issues requests for its own user.** -/
theorem Effect.user_eq {c : C} {e : Event C} {rs : List Request} {reads : List Read}
    {uploads : List StorageRef} (h : Effect me s c e rs reads uploads) {r : Request}
    (hr : r ∈ rs) (hu : r.user = some u) : u = me c := by
  cases h with
  | tap imgN =>
      rcases SocialMore.mem_tapRequests hr with rfl | rfl | ⟨-, rfl⟩ | ⟨-, rfl⟩
      · simp [Request.user] at hu
      · simp [Request.user] at hu
      · exact (Option.some.inj hu).symm
      · exact (Option.some.inj hu).symm
  | delete k =>
      simp only [List.mem_cons, List.not_mem_nil, or_false] at hr
      rcases hr with rfl | rfl
      · exact (Option.some.inj hu).symm
      · simp [Request.user] at hu
  | signUp | submit | addToCloset | picture | publish =>
      obtain rfl := List.mem_singleton.mp hr
      exact (Option.some.inj hu).symm
  | _ => simp at hr

variable [DecidableEq C]

/-- What the phones have issued says so: each request is for the phone's own user, and a
public copy is removed together with the author's. -/
structure Owned (me : C → String) (s : World C) : Prop where
  user : ∀ c, ∀ r ∈ s.net.history c, ∀ u, r.user = some u → u = me c
  paired : ∀ c id, .deletePost (me c) id ∈ s.net.history c ↔ .deleteSocial id ∈ s.net.history c

theorem owned_init : Owned me (init : World C) := by
  constructor <;> simp [init]

/-- **Every event keeps it so.** -/
theorem owned_step (hO : Owned me s) {e : Event C} (h : step me s e = some s') :
    Owned me s' where
  user c r hr u hu := by
    obtain ⟨rs, heff, hhist⟩ := step_history h c
    rw [hhist] at hr
    rcases List.mem_append.mp hr with hr | hr
    · exact hO.user c r hr u hu
    · exact heff.user_eq hr hu
  paired c id := by
    obtain ⟨rs, heff, hhist⟩ := step_history h c
    rw [hhist, List.mem_append, List.mem_append, hO.paired c id, heff.paired id]

theorem owned_run {es : List (Event C)} (h : Machine.run (step me) init es = some s) :
    Owned me s :=
  Machine.invariant_run_all (fun _ _ _ hO hs => owned_step hO hs) owned_init h

/-! ### What the others leave alone -/

/-- Every request of the list was issued by the phone it is given with. -/
def IssuedBy (s : World C) (l : List (C × Request)) : Prop :=
  ∀ x ∈ l, x.2 ∈ s.net.history x.1

theorem exists_history_of_seen {c : C} {r : Request} (h : r ∈ s.net.seen c) :
    ∃ d, r ∈ s.net.history d := by
  rcases List.mem_append.mp h with h | h
  · exact Net.exists_history_of_committed h
  · exact ⟨c, Net.mem_history_of_queue h⟩

/-- **A public copy is made and removed by phones of the author alone.** -/
theorem Sound.issuer_eq (hS : Sound me s) (hO : Owned me s) {c d : C} {r : Request}
    (hr : r ∈ s.net.history c) (hpath : r.path = .social id) (hcount : r.counts = false)
    (hcreated : Created (s.net.history d) u id) : me c = u := by
  have hseen : ∀ {x : Request}, x ∈ s.net.history c → x ∈ s.net.seen c := fun hx =>
    List.mem_append.mpr (Net.mem_committed_of_history hx)
  -- it was issued after the creation of a post for the same user
  have hown : ∃ x ∈ s.net.seen c, x.creates (me c) id = true := by
    rcases Request.path_eq_social hpath with
      ⟨uid, caption, imgName, profImg, username, rfl⟩ | ⟨tap, rfl⟩ | rfl
    · obtain rfl := hO.user c _ hr uid rfl
      exact (hS.publishOrder (me c) id c).exists_mem (hseen hr) (by simp [Request.publishes])
    · simp [Request.counts] at hcount
    · exact (hS.deleteOrder (me c) id c).exists_mem (hseen ((hO.paired c id).mpr hr)) rfl
  obtain ⟨x, hx, hxc⟩ := hown
  obtain ⟨e, he⟩ := exists_history_of_seen hx
  exact hS.author_eq ⟨x, he, hxc⟩ hcreated

section Others

variable {l : List (C × Request)} {p : Path}

omit [DecidableEq C] in
/-- Counts of the others leave the other fields of a document as they are. -/
theorem field_ownPart (hothers : ∀ x ∈ l, me x.1 ≠ u → x.2.path = p → x.2.counts = true)
    {k : String} (hk : k ≠ "likes") :
    field (contents (l.map Prod.snd)) p k = field (contents (ownPart me u l)) p k := by
  simp only [contents, ownPart, List.map_map]
  refine (field_replay_filter fun x hx hother => ?_).symm
  by_cases hp : x.2.path = p
  · obtain ⟨-, n, hwrite⟩ := Request.write_of_counts (hothers x hx (by simpa using hother) hp) hp
    have hne : (k == "likes") = false := beq_false_of_ne hk
    rw [Function.comp_apply, hwrite]
    intro _
    simp only [List.lookup_cons, hne, List.lookup_nil]
  · exact Write.spares_of_ne hp

omit [DecidableEq C] in
/-- **Counts of the others leave a copy there or away**, unless one of them brings it back. -/
theorem mem_ownPart (hp : p.mergedField = some "likes")
    (hothers : ∀ x ∈ l, me x.1 ≠ u → x.2.path = p → x.2.counts = true) :
    p ∈ contents (l.map Prod.snd) ↔
      p ∈ contents (ownPart me u l) ∨ CountedAway p (l.map Prod.snd) := by
  constructor
  · intro hmem
    obtain ⟨d, hd⟩ := DocStore.exists_lookup_of_mem hmem
    rcases (formed_of_lookup hd).ghost_or hp with hwhole | hghost
    · -- a copy that has a caption has it from its author
      have hcaption := field_ownPart hothers (k := "caption") (by decide)
      rw [field, hd, Option.bind_some] at hcaption
      have hsome := hwhole "caption" (Path.caption_mem hp)
      rw [hcaption, field, Option.isSome_bind] at hsome
      refine Or.inl (DocStore.mem_iff_isSome.mp ?_)
      cases hown : (contents (ownPart me u l)).lookup p with
      | none => simp [hown] at hsome
      | some e => rfl
    · exact Or.inr ((ghost_iff _ p).mp ⟨d, hd, hghost⟩)
  · rintro (hmem | haway)
    · simp only [contents, ownPart, List.map_map] at hmem ⊢
      refine DocStore.mem_replay_of_filter (fun x hx hother hpath => ?_) hmem
      obtain ⟨-, n, hwrite⟩ :=
        Request.write_of_counts (hothers x hx (by simpa using hother) hpath) hpath
      rw [Function.comp_apply, hwrite]
      rfl
    · obtain ⟨d, hd, -⟩ := (ghost_iff _ p).mpr haway
      exact DocStore.mem_of_lookup hd

end Others

/-- **What the others have issued leaves the documents of a user as they are**, but for the
counts. -/
theorem confined (hS : Sound me s) (hO : Owned me s) {l : List (C × Request)}
    (hl : IssuedBy s l) (u : String) : SameOf u (l.map Prod.snd) (ownPart me u l) := by
  have hkeep : ∀ x ∈ l, x.2.user = some u → decide (me x.1 = u) = true := fun x hx hu =>
    decide_eq_true (hO.user x.1 x.2 (hl x hx) u hu).symm
  have hpost : ∀ id, ∀ x ∈ l, me x.1 ≠ u → x.2.path = .post u id → x.2.counts = true := by
    intro id x hx hother hp
    rcases Request.path_eq_post hp with ⟨_, _, hr⟩ | ⟨tap, hr⟩ | hr
    · exact absurd (of_decide_eq_true (hkeep x hx (by rw [hr]; rfl))) hother
    · rw [hr]
      rfl
    · exact absurd (of_decide_eq_true (hkeep x hx (by rw [hr]; rfl))) hother
  have hsocial : ∀ id, Created (l.map Prod.snd) u id →
      ∀ x ∈ l, me x.1 ≠ u → x.2.path = .social id → x.2.counts = true := by
    rintro id ⟨y, hy, hyc⟩ x hx hother hp
    obtain ⟨z, hz, rfl⟩ := List.mem_map.mp hy
    by_contra hcount
    exact hother (hS.issuer_eq hO (hl x hx) hp (by simpa using hcount) ⟨_, hl z hz, hyc⟩)
  constructor
  · simp only [contents, ownPart, List.map_map]
    refine (lookup_replay_filter fun x hx hp => hkeep x hx ?_).symm
    rcases Request.path_eq_user hp with ⟨_, _, hr⟩ | ⟨_, hr⟩ <;> rw [hr] <;> rfl
  · simp only [contents, ownPart, List.map_map]
    refine fun id => (lookup_replay_filter fun x hx hp => hkeep x hx ?_).symm
    rcases Request.path_eq_like hp with ⟨_, _, hr⟩ | ⟨_, hr⟩ <;> rw [hr] <;> rfl
  · simp only [contents, ownPart, List.map_map]
    refine fun id => (lookup_replay_filter fun x hx hp => hkeep x hx ?_).symm
    obtain ⟨_, _, hr⟩ := Request.path_eq_clothes hp
    rw [hr]
    rfl
  · exact fun id => mem_ownPart rfl (hpost id)
  · exact fun id k hk => field_ownPart (hpost id) hk
  · exact fun id hcreated => mem_ownPart rfl (hsocial id hcreated)
  · exact fun id hcreated k hk => field_ownPart (hsocial id hcreated) hk

theorem issuedBy_seen (s : World C) (c : C) :
    IssuedBy s (s.net.log ++ (s.net.queue c).map fun r => (c, r)) := by
  intro x hx
  rcases List.mem_append.mp hx with hx | hx
  · refine List.mem_append_left _ (List.mem_map.mpr ⟨x, List.mem_filter.mpr ⟨hx, by simp⟩, rfl⟩)
  · obtain ⟨r, hr, rfl⟩ := List.mem_map.mp hx
    exact Net.mem_history_of_queue hr

/-- **What there is of a user is what the writes of that user's phones make of it**, counts
aside, in the database and as each of those phones sees it, whatever the others have done. -/
theorem own_documents {es : List (Event C)} (hrun : Machine.run (step me) init es = some s) :
    (∀ u, SameOf u s.net.committed (s.ownWrites me u)) ∧
    ∀ c, SameOf (me c) (s.net.seen c) (s.ownWrites me (me c) ++ s.net.queue c) := by
  have hS : Sound me s := sound_run hrun
  have hO : Owned me s := owned_run hrun
  constructor
  · have hlog : IssuedBy s s.net.log := fun x hx =>
      List.mem_append_left _ (List.mem_map.mpr ⟨x, List.mem_filter.mpr ⟨hx, by simp⟩, rfl⟩)
    exact fun u => confined hS hO hlog u
  · intro c
    have hconf := confined hS hO (issuedBy_seen s c) (me c)
    have hall : (s.net.log ++ (s.net.queue c).map fun r => (c, r)).map Prod.snd
        = s.net.seen c := by
      simp [Net.seen, Net.committed]
    have hown : ownPart me (me c) (s.net.log ++ (s.net.queue c).map fun r => (c, r))
        = s.ownWrites me (me c) ++ s.net.queue c := by
      simp [ownPart, ownWrites, List.filter_map, Function.comp_def]
    rw [hall, hown] at hconf
    exact hconf

set_option maxRecDepth 100000 in
/-- Bob likes a post of ann's, and ann deletes it; bob takes his like back, and so brings both
copies back with nothing but a count. -/
theorem own_documents_duo :
    ∃ s, Machine.run (step duo) init (signingUp ++ submitting ++ publishing ++ opening 1
        ++ tapping 1 ++ deleting ++ tapping 1) = some s ∧
      Created s.net.committed "ann" "p" ∧ Path.social "p" ∈ s.db ∧
      Path.social "p" ∉ contents (s.ownWrites duo "ann") ∧
      SameOf "ann" s.net.committed (s.ownWrites duo "ann") := by
  obtain ⟨s, hs, hcreated, hthere, hgone⟩ : ∃ s, Machine.run (step duo) init (signingUp
      ++ submitting ++ publishing ++ opening 1 ++ tapping 1 ++ deleting ++ tapping 1) = some s ∧
      (Request.create "ann" "p" "hi" "img") ∈ s.net.committed ∧ Path.social "p" ∈ s.db ∧
      Path.social "p" ∉ contents (s.ownWrites duo "ann") := by
    decide +kernel
  exact ⟨s, hs, ⟨_, hcreated, by simp [Request.creates]⟩, hthere, hgone,
    (own_documents hs).1 "ann"⟩

end UTrend
