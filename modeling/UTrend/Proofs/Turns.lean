/-
Users who take turns.

`WritesInOrder` is about the moment when a write is applied, and no user can see that.  Here
is what a user can see to, at the moment of an act.  A heart is tapped where the screen says
what the database has, and a post is tapped or deleted only while no phone has anything
about it under way.  Acts about other posts, and all other acts, may be under way meanwhile.
Then every write is in order when it is applied: `in_order_of_turns`.

The phones take turns with each post, so the invariant is `Net.TakesTurns`, for the writes
about the post.  What has to be said of the app is what each act sends, and that it will
find what it needs: `Effect.ready`.
-/
import UTrend.Lib.Turns
import UTrend.Proofs.Refinement

namespace UTrend

open World

variable {C : Type} {me : C → String} {s s' : World C} {id : String}

/-! ### Conditions on acts -/

/-- The request is about the post. -/
def Request.isAbout (id : String) (r : Request) : Bool := r.path.about == some id

/-- A phone has something about the post under way: a write that waits, or the question about
the author. -/
def World.Busy (id : String) (s : World C) (c : C) : Prop :=
  s.net.kept (Request.isAbout id) c ≠ [] ∨ ∃ r ∈ (s.phone c).reads, r.ask.post = some id

instance (id : String) (s : World C) (c : C) : Decidable (s.Busy id c) :=
  inferInstanceAs (Decidable (_ ∨ _))

/-- The post that a tap or a deletion is about. -/
def World.concerns (s : World C) : Event C → Option String
  | .act c (.tap _) => (s.phone c).more.bind (·.id)
  | .act c (.delete k) => (s.phone c).cells[k]?.join
  | _ => none

/-- The screen says what the database has: the author's copy is there, the count is that of the
public copy, and the heart is filled when the user likes the post. -/
def SocialMore.UpToDate (me : String) (db : Store) (v : SocialMore) : Prop :=
  ∀ uID ∈ v.uID, ∀ id ∈ v.id, Path.post uID id ∈ db ∧
    storedNumber db (.social id) "likes" = v.likes.bind intOfText ∧
    (v.likeHeartImg = some .fillLikeheart ↔ Path.like me id ∈ db)

instance (me : String) (db : Store) (v : SocialMore) : Decidable (v.UpToDate me db) :=
  inferInstanceAs (Decidable (∀ uID ∈ v.uID, ∀ id ∈ v.id, _ ∧ _ ∧ _))

/-- A post is tapped or deleted while no phone has anything about it under way, and tapped where
the screen is up to date. -/
def InTurns (me : C → String) (s : World C) (e : Event C) : Prop :=
  (∀ id ∈ s.concerns e, ∀ c, ¬ s.Busy id c) ∧
    (e.taps = true → ∀ v ∈ (s.phone e.client).more, v.UpToDate (me e.client) s.db)

instance [DecidableEq C] [Fintype C] (me : C → String) (s : World C) (e : Event C) :
    Decidable (InTurns me s e) :=
  inferInstanceAs (Decidable ((∀ id ∈ s.concerns e, ∀ c, ¬ s.Busy id c) ∧ _))

/-! ### What a write needs of the log -/

/-- The phones whose taps a log has applied to a copy. -/
def turnsOf (f : Request → Option Tap) (log : List (C × Request)) : List C :=
  (tapsOf f log).map Prod.fst

/-- The write is up to date, timely and not crossed when it is applied to this log. -/
def Meets (id : String) (log : List (C × Request)) (c : C) (r : Request) : Prop :=
  r.Current id (contents (log.map Prod.snd)) ∧ r.Timely id (log.map Prod.snd) ∧
    ((r.socialTap id).isSome →
      turnsOf (Request.socialTap id) log ++ [c] <+: turnsOf (Request.postTap id) log)

/-- The phones have got to both copies, in the same order. -/
def Even (id : String) (log : List (C × Request)) : Prop :=
  turnsOf (Request.socialTap id) log = turnsOf (Request.postTap id) log

theorem turnsOf_concat (f : Request → Option Tap) (log : List (C × Request)) (c : C)
    (r : Request) :
    turnsOf f (log ++ [(c, r)]) = turnsOf f log ++ if (f r).isSome then [c] else [] := by
  unfold turnsOf tapsOf
  rw [List.filterMap_append, List.map_append]
  cases hf : f r <;> simp [hf]

theorem taps_eq_none {r : Request} (h : r.isAbout id = false) :
    r.socialTap id = none ∧ r.postTap id = none := by
  have hpath : r.path.about ≠ some id := by simpa [Request.isAbout] using h
  cases r with
  | countPost u i tap => exact ⟨rfl, if_neg fun hi => hpath (congrArg some hi)⟩
  | countSocial i tap => exact ⟨if_neg fun hi => hpath (congrArg some hi), rfl⟩
  | _ => exact ⟨rfl, rfl⟩

/-- Requests about other posts can be left out. -/
theorem turnsOf_filter {f : Request → Option Tap} (h : ∀ r, r.isAbout id = false → f r = none)
    (log : List (C × Request)) :
    turnsOf f (log.filter fun x => x.2.isAbout id) = turnsOf f log := by
  unfold turnsOf tapsOf
  rw [List.filterMap_filter]
  congr 1
  refine List.filterMap_congr fun x _ => ?_
  cases hx : x.2.isAbout id with
  | true => rfl
  | false => simp [h x.2 hx]

theorem lookup_filter {p : Path} (hp : p.about = some id) (log : List (C × Request)) :
    (contents ((log.filter fun x => x.2.isAbout id).map Prod.snd)).lookup p
      = (contents (log.map Prod.snd)).lookup p := by
  simp only [contents, List.map_map]
  refine DocStore.lookup_replay_filter fun x _ hx => ?_
  have hpath : x.2.path = p := hx
  rw [Request.isAbout, hpath, hp, beq_self_eq_true]

theorem mem_filter_iff {p : Path} (hp : p.about = some id) (log : List (C × Request)) :
    p ∈ contents ((log.filter fun x => x.2.isAbout id).map Prod.snd)
      ↔ p ∈ contents (log.map Prod.snd) := by
  rw [← DocStore.mem_iff_isSome, ← DocStore.mem_iff_isSome, lookup_filter hp]

theorem upToDate_filter {m : String} {v : SocialMore} {log : List (C × Request)}
    (hid : v.id = some id) (h : v.UpToDate m (contents (log.map Prod.snd))) :
    v.UpToDate m (contents ((log.filter fun x => x.2.isAbout id).map Prod.snd)) := by
  intro uID huID i hi
  obtain rfl : id = i := Option.some.inj (hid.symm.trans hi)
  rw [mem_filter_iff rfl, mem_filter_iff rfl, storedNumber, lookup_filter rfl]
  exact h uID huID id hi

/-- **A write finds what it needs about its post, whatever else is in the log.** -/
theorem meets_of_filter {log : List (C × Request)} {c : C} {r : Request}
    (h : Meets id (log.filter fun x => x.2.isAbout id) c r) : Meets id log c r := by
  obtain ⟨hcurrent, htimely, hturn⟩ := h
  refine ⟨?_, ?_, ?_⟩
  · cases r with
    | countSocial i tap =>
        intro hi
        have hfound := hcurrent hi
        rwa [storedNumber, lookup_filter rfl] at hfound
    | like u i imgN tap => exact fun hi hmem => hcurrent hi ((mem_filter_iff rfl log).mpr hmem)
    | unlike u i tap => exact fun hi => (mem_filter_iff rfl log).mp (hcurrent hi)
    | _ => trivial
  · cases r with
    | countPost u i tap =>
        intro hi
        subst hi
        exact (mem_filter_iff rfl log).mp (htimely rfl)
    | countSocial i tap =>
        intro hi
        subst hi
        exact (mem_filter_iff rfl log).mp (htimely rfl)
    | publish u i caption imgName profImg username =>
        intro hi hdel
        subst hi
        obtain ⟨x, hx, hxd⟩ := List.mem_map.mp hdel
        refine htimely rfl (List.mem_map.mpr ⟨x, List.mem_filter.mpr ⟨hx, ?_⟩, hxd⟩)
        rw [hxd]
        exact beq_self_eq_true _
    | _ => trivial
  · intro hr
    have hprefix := hturn hr
    rwa [turnsOf_filter fun x hx => (taps_eq_none hx).1,
      turnsOf_filter fun x hx => (taps_eq_none hx).2] at hprefix

/-! ### What is sent is ready -/

section Ready

variable {log : List (C × Request)} {c : C} {m imgN uID : String} {tap : Tap}

theorem lookup_after {r : Request} {p : Path} (h : r.path ≠ p) :
    (contents ((log ++ [(c, r)]).map Prod.snd)).lookup p
      = (contents (log.map Prod.snd)).lookup p := by
  rw [List.map_append]
  exact lookup_concat_of_ne h

theorem mem_after {r : Request} {p : Path} (h : r.path ≠ p) :
    p ∈ contents ((log ++ [(c, r)]).map Prod.snd) ↔ p ∈ contents (log.map Prod.snd) := by
  rw [← DocStore.mem_iff_isSome, ← DocStore.mem_iff_isSome, lookup_after h]

theorem meets_countPost (hpost : Path.post uID id ∈ contents (log.map Prod.snd)) :
    Meets id log c (.countPost uID id tap) :=
  ⟨trivial, fun _ => hpost, by simp [Request.socialTap]⟩

theorem meets_countSocial
    (hcount : storedNumber (contents (log.map Prod.snd)) (.social id) "likes" = some tap.number)
    (hturn : turnsOf (Request.socialTap id) log ++ [c] = turnsOf (Request.postTap id) log) :
    Meets id log c (.countSocial id tap) := by
  refine ⟨fun _ => hcount, fun _ => ?_, fun _ => hturn ▸ List.prefix_rfl⟩
  obtain ⟨d, hd, -⟩ := Option.bind_eq_some_iff.mp hcount
  exact DocStore.mem_of_lookup hd

/-- **The writes of a tap are ready when the screen is up to date.** -/
theorem ready_tap (heven : Even id log) (hpost : Path.post uID id ∈ contents (log.map Prod.snd))
    (hcount : storedNumber (contents (log.map Prod.snd)) (.social id) "likes" = some tap.number)
    (hliked : tap.filled = true ↔ Path.like m id ∈ contents (log.map Prod.snd)) :
    Net.Ready (Meets id) (Even id) c log (SocialMore.tapRequests m imgN uID id tap) := by
  have hturns : turnsOf (Request.socialTap id) log = turnsOf (Request.postTap id) log := heven
  unfold SocialMore.tapRequests
  split
  · rename_i hfilled
    refine ⟨meets_countPost hpost, meets_countSocial ?_ ?_,
      ⟨fun _ => ?_, trivial, by simp [Request.socialTap]⟩, ?_⟩
    · rw [storedNumber, lookup_after Path.noConfusion]
      exact hcount
    · simp [turnsOf_concat, Request.socialTap, Request.postTap, hturns]
    · rw [mem_after Path.noConfusion, mem_after Path.noConfusion]
      exact hliked.mp hfilled
    · unfold Net.Ready Even
      simp only [turnsOf_concat, hturns]
      simp [Request.socialTap, Request.postTap]
  · rename_i hfilled
    refine ⟨⟨fun _ hmem => hfilled (hliked.mpr hmem), trivial, by simp [Request.socialTap]⟩,
      meets_countPost ((mem_after Path.noConfusion).mpr hpost), meets_countSocial ?_ ?_, ?_⟩
    · rw [storedNumber, lookup_after Path.noConfusion, lookup_after Path.noConfusion]
      exact hcount
    · simp only [turnsOf_concat, hturns]
      simp [Request.socialTap, Request.postTap]
    · unfold Net.Ready Even
      simp only [turnsOf_concat, hturns]
      simp [Request.socialTap, Request.postTap]

end Ready

/-- Requests about one post are ready for another, since they are not kept. -/
theorem ready_filter {log : List (C × Request)} {c : C} {rs : List Request} {i : String}
    (habout : ∀ r ∈ rs, r.path.about = some i) (heven : Even id log)
    (hready : i = id → Net.Ready (Meets id) (Even id) c log rs) :
    Net.Ready (Meets id) (Even id) c log (rs.filter (Request.isAbout id)) := by
  by_cases hi : i = id
  · have hall : rs.filter (Request.isAbout id) = rs := by
      refine List.filter_eq_self.mpr fun r hr => ?_
      rw [Request.isAbout, habout r hr, hi, beq_self_eq_true]
    rw [hall]
    exact hready hi
  · have hnone : rs.filter (Request.isAbout id) = [] := by
      refine List.filter_eq_nil_iff.mpr fun r hr => ?_
      simpa [Request.isAbout, habout r hr] using hi
    rw [hnone]
    exact heven

/-- **What an event sends about a post is ready**, behind what its phone has waiting. -/
theorem Effect.ready {c : C} {e : Event C} {rs : List Request} {reads : List Read}
    {uploads : List StorageRef} (h : Effect me s c e rs reads uploads) {log : List (C × Request)}
    (heven : Even id log)
    (htap : e.taps = true → ∀ v ∈ (s.phone c).more, v.id = some id →
      v.UpToDate (me c) (contents (log.map Prod.snd)))
    (hasked : (∃ r ∈ (s.phone c).reads, r.ask.post = some id) →
      .deleteSocial id ∉ log.map Prod.snd) :
    Net.Ready (Meets id) (Even id) c log (rs.filter (Request.isAbout id)) := by
  have hone : ∀ r : Request, r.socialTap id = none → r.postTap id = none → Meets id log c r →
      Net.Ready (Meets id) (Even id) c log [r] := by
    intro r hsocial hpost hmeets
    refine ⟨hmeets, ?_⟩
    unfold Net.Ready Even
    rw [turnsOf_concat, turnsOf_concat, hsocial, hpost, heven]
  cases h with
  | tap imgN hv huID hid hnumber hfilled =>
      rename_i v uID i tap
      refine ready_filter (i := i) (fun r hr => ?_) heven fun hi => ?_
      · rcases SocialMore.mem_tapRequests hr with rfl | rfl | ⟨-, rfl⟩ | ⟨-, rfl⟩ <;> rfl
      · subst hi
        obtain ⟨hpost, hcount, hliked⟩ := htap rfl v hv hid uID huID i hid
        refine ready_tap heven hpost (hcount.trans hnumber) ?_
        rw [hfilled, decide_eq_true_iff, hliked]
  | submit i hform hadd hfresh =>
      exact ready_filter (List.forall_mem_singleton.mpr rfl) heven fun _ =>
        hone _ rfl rfl ⟨trivial, trivial, by simp [Request.socialTap]⟩
  | delete k hcell =>
      refine ready_filter
        (List.forall_mem_cons.mpr ⟨rfl, List.forall_mem_singleton.mpr rfl⟩) heven fun _ => ?_
      refine ⟨⟨trivial, trivial, by simp [Request.socialTap]⟩,
        ⟨trivial, trivial, by simp [Request.socialTap]⟩, ?_⟩
      unfold Net.Ready Even
      simp only [turnsOf_concat]
      rw [heven]
      rfl
  | publish k hread =>
      refine ready_filter (List.forall_mem_singleton.mpr rfl) heven fun hi => ?_
      subst hi
      refine hone _ rfl rfl ⟨trivial, fun _ => ?_, by simp [Request.socialTap]⟩
      exact hasked ⟨_, List.mem_of_getElem? hread, rfl⟩
  | _ => exact heven

/-! ### One event -/

/-- Where a write about a post comes from: an act about it, a new id, or the question that has
been answered. -/
theorem Effect.about {c : C} {e : Event C} {rs : List Request} {reads : List Read}
    {uploads : List StorageRef} (h : Effect me s c e rs reads uploads) {r : Request}
    (hr : r ∈ rs) (hid : r.path.about = some id) :
    s.concerns e = some id ∨ e = .act c (.submit id) ∧ id ∉ s.posted.map Prod.fst ∨
      ∃ x ∈ (s.phone c).reads, x.ask.post = some id := by
  cases h with
  | tap imgN hv huID hid' hnumber hfilled =>
      refine Or.inl ?_
      rw [← hid]
      rcases SocialMore.mem_tapRequests hr with rfl | rfl | ⟨-, rfl⟩ | ⟨-, rfl⟩ <;>
        simp [concerns, hv, hid', Request.path, Request.write, DocStore.Write.path, Path.about]
  | submit i hform hadd hfresh =>
      obtain rfl := List.mem_singleton.mp hr
      obtain rfl : i = id := Option.some.inj hid
      exact Or.inr (Or.inl ⟨rfl, hfresh⟩)
  | delete k hcell =>
      refine Or.inl ?_
      rw [← hid]
      simp only [List.mem_cons, List.not_mem_nil, or_false] at hr
      rcases hr with rfl | rfl <;>
        simp [concerns, hcell, Request.path, Request.write, DocStore.Write.path, Path.about]
  | publish k hread =>
      obtain rfl := List.mem_singleton.mp hr
      exact Or.inr (Or.inr ⟨_, List.mem_of_getElem? hread, hid⟩)
  | signUp | addToCloset | picture =>
      obtain rfl := List.mem_singleton.mp hr
      simp [Request.path, Request.write, DocStore.Write.path, Path.about] at hid
  | _ => simp at hr

theorem Effect.asks_post {c : C} {e : Event C} {rs : List Request} {reads : List Read}
    {uploads : List StorageRef} (h : Effect me s c e rs reads uploads)
    (hr : ∃ r ∈ reads, r.ask.post = some id) :
    (∃ r ∈ (s.phone c).reads, r.ask.post = some id) ∨
      e = .act c (.submit id) ∧ id ∉ s.posted.map Prod.fst := by
  obtain ⟨r, hr, hid⟩ := hr
  cases hask : r.ask with
  | author i form =>
      rw [hask] at hid
      obtain rfl : i = id := Option.some.inj hid
      rcases h.asks_author hr hask with ⟨x, hx, hxa⟩ | hnew
      · exact Or.inl ⟨x, hx, by rw [hxa]; rfl⟩
      · exact Or.inr hnew
  | _ => simp [hask, Ask.post] at hid

/-- A public copy is removed by an act about the post. -/
theorem Effect.deletes {c : C} {e : Event C} {rs : List Request} {reads : List Read}
    {uploads : List StorageRef} (h : Effect me s c e rs reads uploads)
    (hr : .deleteSocial id ∈ rs) : s.concerns e = some id := by
  cases h with
  | tap imgN => simpa using SocialMore.mem_tapRequests hr
  | delete k hcell =>
      obtain rfl : id = _ := by simpa using hr
      exact Option.join_eq_some_iff.mpr hcell
  | _ => simp at hr

theorem concerns_of_taps {e : Event C} {v : SocialMore} (htap : e.taps = true)
    (hv : v ∈ (s.phone e.client).more) : s.concerns e = v.id := by
  cases e with
  | act c a =>
      cases a with
      | tap imgN => exact congrArg (·.bind (·.id)) hv
      | _ => simp [Event.taps] at htap
  | _ => simp [Event.taps] at htap

variable [DecidableEq C]

/-- Whatever is written about a post has the id of a submission. -/
def Known (s : World C) : Prop :=
  ∀ c, ∀ r ∈ s.net.history c, ∀ id ∈ r.path.about, id ∈ s.posted.map Prod.fst

theorem posted_of_created (hS : Sound me s) {c : C} {u : String}
    (h : Created (s.net.seen c) u id) : id ∈ s.posted.map Prod.fst := by
  obtain ⟨x, hx, hxc⟩ := h
  obtain ⟨d, hd⟩ := exists_history_of_seen hx
  exact List.mem_map_of_mem (hS.drawn.create d u id ⟨x, hd, hxc⟩).2

theorem posted_of_concerns (hS : Sound me s) {e : Event C} (h : s.concerns e = some id) :
    id ∈ s.posted.map Prod.fst := by
  cases e with
  | act c a =>
      cases a with
      | tap imgN =>
          obtain ⟨v, hv, hid⟩ := Option.bind_eq_some_iff.mp h
          obtain ⟨u, -, x, hx, hpub⟩ := published_of_more hS hv hid
          exact posted_of_created hS ((hS.publishOrder u id c).exists_mem hx hpub)
      | delete k =>
          have hcell := List.mem_of_getElem? (Option.join_eq_some_iff.mp h)
          exact posted_of_created hS ((hS.informed c).cells _ hcell id rfl)
      | _ => simp [concerns] at h
  | _ => simp [concerns] at h

theorem posted_of_asked (hS : Sound me s) {c : C} {r : Read} (hr : r ∈ (s.phone c).reads)
    (h : r.ask.post = some id) : id ∈ s.posted.map Prod.fst := by
  cases hask : r.ask with
  | author i form =>
      rw [hask] at h
      obtain rfl : i = id := Option.some.inj h
      exact List.mem_map_of_mem (hS.drawn.author c r hr i form hask)
  | _ => simp [hask, Ask.post] at h

theorem known_step (hS : Sound me s) (hK : Known s) {e : Event C} (h : step me s e = some s') :
    Known s' := by
  intro c r hr id hid
  have hmono : id ∈ s.posted.map Prod.fst → id ∈ s'.posted.map Prod.fst := by
    intro hmem
    obtain ⟨x, hx, rfl⟩ := List.mem_map.mp hmem
    exact List.mem_map_of_mem (mem_posted_step h hx)
  obtain ⟨rs, heff, hhist⟩ := step_history h c
  rw [hhist] at hr
  rcases List.mem_append.mp hr with hr | hr
  · exact hmono (hK c r hr id hid)
  · rcases heff.about hr hid with hconcerns | ⟨rfl, -⟩ | ⟨x, hx, hxa⟩
    · exact hmono (posted_of_concerns hS hconcerns)
    · exact List.mem_map_of_mem (mem_posted_submit h)
    · exact hmono (posted_of_asked hS hx hxa)

/-- With a new id nobody is busy. -/
theorem not_busy_of_fresh (hS : Sound me s) (hK : Known s) (hfresh : id ∉ s.posted.map Prod.fst)
    (c : C) : ¬ s.Busy id c := by
  rintro (hkept | ⟨r, hr, hra⟩)
  · obtain ⟨r, hr⟩ := List.exists_mem_of_ne_nil _ hkept
    obtain ⟨hr, habout⟩ := List.mem_filter.mp hr
    exact hfresh (hK c r (Net.mem_history_of_queue hr) id (beq_iff_eq.mp habout))
  · exact hfresh (posted_of_asked hS hr hra)

/-- The phones take turns with the post, and it is not deleted before its author is known. -/
structure Turning (id : String) (s : World C) : Prop where
  turns : s.net.TakesTurns (Request.isAbout id) (Meets id) (Even id) (s.Busy id)
  asked : ∀ c, (∃ r ∈ (s.phone c).reads, r.ask.post = some id) →
    .deleteSocial id ∉ s.net.seen c

omit [DecidableEq C] in
theorem turning_init : Turning id (init : World C) where
  turns := by
    refine ⟨fun c hc => absurd rfl hc, ?_, fun c _ => rfl⟩
    rintro c d (hc | ⟨r, hr, -⟩)
    · exact absurd rfl hc
    · simp [init] at hr
  asked c := by simp [init]

omit [DecidableEq C] in
theorem kept_ne_nil_iff {c : C} : s.net.kept (Request.isAbout id) c ≠ [] ↔
    ∃ r ∈ s.net.queue c, r.path.about = some id := by
  unfold Net.kept
  simp [List.filter_eq_nil_iff, Request.isAbout]

/-- Nobody becomes busy with a post before the others are done with it. -/
theorem busy_step (hS : Sound me s) (hK : Known s) {e : Event C} (hturn : InTurns me s e)
    (h : step me s e = some s') (hbusy : s'.Busy id e.client) :
    s.Busy id e.client ∨ ∀ d, ¬ s.Busy id d := by
  rcases hbusy with hkept | hasked
  · obtain ⟨r, hr, hid⟩ := kept_ne_nil_iff.mp hkept
    rcases mem_queue_step h hr with hold | ⟨rs, heff, hnew⟩
    · exact Or.inl (Or.inl (kept_ne_nil_iff.mpr ⟨r, hold, hid⟩))
    · rcases heff.about hnew hid with hconcerns | ⟨-, hfresh⟩ | hasked
      · exact Or.inr (hturn.1 id hconcerns)
      · exact Or.inr (not_busy_of_fresh hS hK hfresh)
      · exact Or.inl (Or.inr hasked)
  · obtain ⟨rs, heff, -⟩ := step_effect h
    rcases heff.asks_post hasked with hold | ⟨-, hfresh⟩
    · exact Or.inl (Or.inr hold)
    · exact Or.inr (not_busy_of_fresh hS hK hfresh)

/-- What the other phones are busy with stays. -/
theorem busy_ne {e : Event C} (h : step me s e = some s') {d : C} (hd : d ≠ e.client) :
    s'.Busy id d ↔ s.Busy id d := by
  have hqueue : s'.net.queue d = s.net.queue d := by
    obtain ⟨rs, -, hnet | ⟨-, -, hnet⟩⟩ := step_effect h
    · rw [hnet, Net.issue_queue_ne _ hd]
    · obtain ⟨r, rest, -, hnet⟩ := Net.commit_eq_some.mp hnet
      rw [hnet]
      exact Function.update_of_ne hd _ _
  unfold Busy Net.kept
  rw [hqueue, step_phone h hd]

/-- **Every event of a run in turns is one client's turn.** -/
theorem turns_step (hS : Sound me s) (hK : Known s) (hT : Turning id s) {e : Event C}
    (hturn : InTurns me s e) (h : step me s e = some s') :
    s'.net.TakesTurns (Request.isAbout id) (Meets id) (Even id) (s'.Busy id) := by
  have hfree : s'.Busy id e.client → s.Busy id e.client ∨ ∀ d, ¬ s.Busy id d :=
    busy_step hS hK hturn h
  obtain ⟨rs, heff, hnet | ⟨-, -, hnet⟩⟩ := step_effect h
  · rw [hnet]
    refine hT.turns.issue (fun d hd => busy_ne h hd) (fun hne => Or.inl (hnet ▸ hne)) hfree
      fun heven => heff.ready heven (fun htap v hv hid => ?_) fun hasked hdel => ?_
    · have hconcerns : s.concerns e = some id := (concerns_of_taps htap hv).trans hid
      have hnone : s.net.kept (Request.isAbout id) e.client = [] :=
        hT.turns.kept_eq_nil (hturn.1 id hconcerns _)
      rw [hnone, List.map_nil, List.append_nil]
      exact upToDate_filter hid (hturn.2 htap v hv)
    · obtain ⟨x, hx, hxd⟩ := List.mem_map.mp hdel
      refine hT.asked e.client hasked (hxd ▸ List.mem_append.mpr ?_)
      refine (List.mem_append.mp hx).imp (fun hlog => ?_) fun hkept => ?_
      · exact List.mem_map_of_mem (List.mem_filter.mp hlog).1
      · obtain ⟨r, hr, rfl⟩ := List.mem_map.mp hkept
        exact (List.mem_filter.mp hr).1
  · exact hT.turns.commit hnet (fun d hd => busy_ne h hd) Or.inl hfree

theorem mem_seen_of_step {e : Event C} (h : step me s e = some s') {c : C} {r : Request}
    (hr : r ∈ s'.net.seen c) : r ∈ s.net.seen c ∨
      (∃ rs, Effect me s c e rs (s'.phone c).reads (s'.phone c).uploads ∧ r ∈ rs) ∨
      ∃ d, r ∈ s.net.queue d := by
  rcases List.mem_append.mp hr with hr | hr
  · rcases step_log h with hlog | ⟨d, x, rest, -, hq, hlog⟩
    · rw [Net.committed, hlog] at hr
      exact Or.inl (List.mem_append_left _ hr)
    · rw [Net.committed, hlog, List.map_append] at hr
      rcases List.mem_append.mp hr with hr | hr
      · exact Or.inl (List.mem_append_left _ hr)
      · obtain rfl := List.mem_singleton.mp hr
        exact Or.inr (Or.inr ⟨d, by rw [hq]; exact List.mem_cons_self⟩)
  · rcases mem_queue_step h hr with hr | hr
    · exact Or.inl (List.mem_append_right _ hr)
    · exact Or.inr (Or.inl hr)

/-- **A post is not deleted while its author is asked about.** -/
theorem asked_step (hK : Known s) (hT : Turning id s) {e : Event C}
    (hturn : InTurns me s e) (h : step me s e = some s') (c : C)
    (hasked : ∃ r ∈ (s'.phone c).reads, r.ask.post = some id) :
    .deleteSocial id ∉ s'.net.seen c := by
  intro hdel
  obtain ⟨rs, heff, -⟩ := step_history h c
  rcases heff.asks_post hasked with hold | ⟨rfl, hfresh⟩
  · have hbusy : s.Busy id c := Or.inr hold
    have hkept := hT.asked c hold
    rcases mem_seen_of_step h hdel with hseen | ⟨rs, heff, hnew⟩ | ⟨d, hd⟩
    · exact hkept hseen
    · exact hturn.1 id (heff.deletes hnew) c hbusy
    · -- the deletion would be another phone's turn
      have hother : s.Busy id d := Or.inl (kept_ne_nil_iff.mpr ⟨_, hd, rfl⟩)
      obtain rfl := hT.turns.alone d c hother hbusy
      exact hkept (List.mem_append_right _ hd)
  · obtain ⟨d, hd⟩ := exists_history_of_seen hdel
    obtain ⟨rs, heff, hhist⟩ := step_history h d
    rw [hhist] at hd
    rcases List.mem_append.mp hd with hd | hd
    · exact hfresh (hK d _ hd id rfl)
    · simpa [concerns] using heff.deletes hd

theorem turning_step (hS : Sound me s) (hK : Known s) (hT : Turning id s) {e : Event C}
    (hturn : InTurns me s e) (h : step me s e = some s') : Turning id s' :=
  ⟨turns_step hS hK hT hturn h, asked_step hK hT hturn h⟩

/-! ### Runs -/

end UTrend
