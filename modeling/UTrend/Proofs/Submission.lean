/-
A post is submitted once, and its writes come in order.

`addToDB` draws a new id, writes the author's copy under it, and asks for the
author; the answer writes the public copy.  `Drawn` follows the id: whoever
creates, publishes or still asks has drawn it, so there is one author, one creation
and one publication (`created_once`, `published_once`).

The order of the writes of a post follows from `Informed`: nobody publishes, counts
or deletes what they have not seen made.  `Sound` collects what holds in every
state that can be reached, and `sound_run` is what the later modules start from.
-/
import UTrend.Proofs.Provenance

namespace UTrend

variable {C : Type} {me : C → String}

/-- The question that `addToDB` asks for a post. -/
def Read.asksAuthor (id : String) (r : Read) : Bool :=
  match r.ask with
  | .author i _ => i == id
  | _ => false

theorem Read.asksAuthor_iff {id : String} {r : Read} :
    r.asksAuthor id = true ↔ ∃ form, r.ask = .author id form := by
  unfold Read.asksAuthor
  split
  · rename_i i form h
    simp [h]
  · rename_i h
    simp only [Bool.false_eq_true, false_iff, not_exists]
    exact fun form hf => h id form hf

/-! ### What an event can draw -/

theorem countP_set_eq {α : Type} {p : α → Bool} {l : List α} {k : Nat} {x y : α}
    (h : l[k]? = some x) (hp : p y = p x) : (l.set k y).countP p = l.countP p := by
  obtain ⟨hk, rfl⟩ := List.getElem?_eq_some_iff.mp h
  have hperm := (List.getElem_cons_eraseIdx_perm hk).countP_eq p
  have hperm' := (List.getElem_cons_eraseIdx_perm (l := l.set k y)
    (by simpa using hk)).countP_eq p
  rw [List.getElem_set_self, List.eraseIdx_set_eq, List.countP_cons, hp] at hperm'
  rw [← hperm', ← hperm, List.countP_cons]

theorem countP_eraseIdx {α : Type} {p : α → Bool} {l : List α} {k : Nat} {x : α}
    (h : l[k]? = some x) : (l.eraseIdx k).countP p + (if p x then 1 else 0) = l.countP p := by
  obtain ⟨hk, rfl⟩ := List.getElem?_eq_some_iff.mp h
  rw [← (List.getElem_cons_eraseIdx_perm hk).countP_eq p, List.countP_cons]

namespace Effect

variable {s : World C} {c : C} {e : Event C} {rs : List Request} {reads : List Read}
  {uploads : List StorageRef}

/-- Only a submission makes an author's copy. -/
theorem created (h : Effect me s c e rs reads uploads) {u id : String} (hr : Created rs u id) :
    u = me c ∧ e = .act c (.submit id) ∧ id ∉ s.posted.map Prod.fst := by
  obtain ⟨r, hr, hc⟩ := hr
  obtain ⟨caption, imgName, rfl⟩ := Request.creates_iff.mp hc
  cases h with
  | tap imgN => simpa using SocialMore.mem_tapRequests hr
  | submit id' hform hadd hfresh =>
      obtain ⟨rfl, rfl, -, -⟩ := Request.create.inj (List.mem_singleton.mp hr)
      exact ⟨rfl, rfl, hfresh⟩
  | _ => simp at hr

/-- Only the answer about the author makes a public copy. -/
theorem published (h : Effect me s c e rs reads uploads) {u id : String}
    (hr : Published rs u id) :
    u = me c ∧ ∃ (k : Nat) (form : PostInfo) (doc : Option Doc),
      (s.phone c).reads[k]? = some ⟨.author id form, some (.doc doc)⟩ := by
  obtain ⟨r, hr, hc⟩ := hr
  obtain ⟨caption, imgName, profImg, username, rfl⟩ := Request.publishes_iff.mp hc
  cases h with
  | tap imgN => simpa using SocialMore.mem_tapRequests hr
  | publish k hread =>
      obtain ⟨rfl, rfl, -, -, -, -⟩ := Request.publish.inj (List.mem_singleton.mp hr)
      exact ⟨rfl, k, _, _, hread⟩
  | _ => simp at hr

/-- A question about an author was there before, or has come with a submission. -/
theorem asks_author (h : Effect me s c e rs reads uploads) {r : Read} (hr : r ∈ reads)
    {id : String} {form : PostInfo} (ha : r.ask = .author id form) :
    (∃ x ∈ (s.phone c).reads, x.ask = .author id form) ∨
      e = .act c (.submit id) ∧ id ∉ s.posted.map Prod.fst := by
  rcases h.read_cases hr with hr | ⟨-, hnew⟩ | ⟨k, ok, -, hread, -⟩
  · exact Or.inl ⟨r, hr, ha⟩
  · obtain ⟨he, hfresh, -, -⟩ := hnew id form ha
    exact Or.inr ⟨he, hfresh⟩
  · exact Or.inl ⟨_, List.mem_of_getElem? hread, ha⟩

/-- A submission makes one. -/
theorem count_created (h : Effect me s c e rs reads uploads) (u id : String) :
    rs.countP (Request.creates u id) ≤ 1 := by
  cases h with
  | tap imgN =>
      simp only [SocialMore.tapRequests]
      split <;> simp [Request.creates]
  | delete k => simp [Request.creates]
  | _ => exact List.countP_le_length.trans (by simp)

/-- A publication uses up the question it answers. -/
theorem count_published (h : Effect me s c e rs reads uploads) (u id : String) :
    rs.countP (Request.publishes u id) + reads.countP (Read.asksAuthor id)
        ≤ (s.phone c).reads.countP (Read.asksAuthor id) ∨
      id ∉ s.posted.map Prod.fst ∧
        rs.countP (Request.publishes u id) + reads.countP (Read.asksAuthor id)
          ≤ (s.phone c).reads.countP (Read.asksAuthor id) + 1 := by
  cases h with
  | asks e hnot =>
      rename_i a
      left
      have : Read.asksAuthor id ⟨a, none⟩ = false := by
        by_contra ha
        rw [Bool.not_eq_false] at ha
        obtain ⟨form, hform⟩ := Read.asksAuthor_iff.mp ha
        exact hnot id form hform
      simp [List.countP_append, this]
  | tap imgN hv huID hid hnumber hfilled =>
      left
      simp only [SocialMore.tapRequests]
      split <;> simp [Request.publishes]
  | submit id' hform hadd hfresh =>
      by_cases hid : id' = id
      · subst hid
        right
        refine ⟨hfresh, ?_⟩
        simp [List.countP_append, Request.publishes, Read.asksAuthor]
      · left
        simp [List.countP_append, Request.publishes, Read.asksAuthor, hid]
  | answered k ok hread =>
      left
      rename_i a
      simp [countP_set_eq (p := Read.asksAuthor id) hread (y := ⟨a, some _⟩) rfl]
  | delivered k hread hsilent =>
      left
      have := countP_eraseIdx (p := Read.asksAuthor id) hread
      simp only [List.countP_nil]
      omega
  | publish k hread =>
      rename_i id' form doc profImg username
      left
      have := countP_eraseIdx (p := Read.asksAuthor id) hread
      by_cases hid : id' = id
      · subst hid
        simp only [Read.asksAuthor, beq_self_eq_true, if_true] at this
        rw [List.countP_singleton]
        split <;> omega
      · rw [List.countP_singleton, if_neg (by simp [Request.publishes, hid])]
        omega
  | _ => left; simp [List.countP_append, Read.asksAuthor, Request.publishes]

end Effect

/-! ### Ids -/

/-- Every id has one phone that drew it, and that phone creates and publishes it once. -/
structure Drawn (me : C → String) [DecidableEq C] (s : World C) : Prop where
  nodup : (s.posted.map Prod.fst).Nodup
  create : ∀ c u id, Created (s.net.history c) u id → u = me c ∧ (id, c) ∈ s.posted
  publish : ∀ c u id, Published (s.net.history c) u id → u = me c ∧ (id, c) ∈ s.posted
  author : ∀ c, ∀ r ∈ (s.phone c).reads, ∀ id form, r.ask = .author id form →
    (id, c) ∈ s.posted
  createOnce : ∀ c u id, (s.net.history c).countP (Request.creates u id) ≤ 1
  publishOnce : ∀ c u id, (s.net.history c).countP (Request.publishes u id)
    + (s.phone c).reads.countP (Read.asksAuthor id) ≤ 1

theorem countP_eq_zero_iff_not_created {V : List Request} {u id : String} :
    V.countP (Request.creates u id) = 0 ↔ ¬ Created V u id := by
  simp [Created, List.countP_eq_zero]

namespace World

variable [DecidableEq C] {s s' : World C}

/-- Only a submission draws an id. -/
theorem step_posted {e : Event C} (h : step me s e = some s') :
    (s'.posted = s.posted ∧ ∀ c id, e ≠ .act c (.submit id)) ∨
      ∃ c id, e = .act c (.submit id) ∧ id ∉ s.posted.map Prod.fst ∧
        s'.posted = (id, c) :: s.posted := by
  cases e with
  | act c a =>
      obtain ⟨hallow, p, rs, -, rfl⟩ := step_act h
      cases a with
      | submit id => exact Or.inr ⟨c, id, rfl, allows_submit hallow, rfl⟩
      | _ => exact Or.inl ⟨rfl, by simp⟩
  | answer c k ok =>
      obtain ⟨_, _, rfl⟩ := step_answer h
      exact Or.inl ⟨rfl, by simp⟩
  | arrive c k =>
      obtain ⟨_, _, _, _, _, _, rfl⟩ := step_arrive h
      exact Or.inl ⟨rfl, by simp⟩
  | upload c k ok =>
      obtain ⟨_, _, rfl⟩ := step_upload h
      exact Or.inl ⟨rfl, by simp⟩
  | commit c =>
      obtain ⟨_, _, _, _, _, rfl⟩ := step_commit h
      exact Or.inl ⟨rfl, by simp⟩

theorem mem_posted_step {e : Event C} (h : step me s e = some s') {x : String × C}
    (hx : x ∈ s.posted) : x ∈ s'.posted := by
  rcases step_posted h with ⟨hp, -⟩ | ⟨c, id, -, -, hp⟩
  · rwa [hp]
  · rw [hp]
    exact List.mem_cons_of_mem _ hx

theorem mem_posted_submit {c : C} {id : String} (h : step me s (.act c (.submit id)) = some s') :
    (id, c) ∈ s'.posted := by
  rcases step_posted h with ⟨-, hne⟩ | ⟨d, i, he, -, hp⟩
  · exact absurd rfl (hne c id)
  · obtain ⟨rfl, ha⟩ := Event.act.inj he
    obtain rfl := Act.submit.inj ha
    rw [hp]
    exact List.mem_cons_self

theorem drawn_init : Drawn me (init : World C) := by
  constructor <;> simp [init, Created, Published]

/-- **Every event keeps it so.** -/
theorem drawn_step (hD : Drawn me s) {e : Event C} (h : step me s e = some s') :
    Drawn me s' where
  nodup := by
    rcases step_posted h with ⟨hp, -⟩ | ⟨c, id, -, hfresh, hp⟩
    · rw [hp]
      exact hD.nodup
    · rw [hp, List.map_cons]
      exact List.nodup_cons.mpr ⟨hfresh, hD.nodup⟩
  create d u id hc := by
    obtain ⟨rs, heff, hhist⟩ := step_history h d
    obtain ⟨r, hr, hrc⟩ := hc
    rw [hhist] at hr
    rcases List.mem_append.mp hr with hr | hr
    · obtain ⟨hu, hmem⟩ := hD.create d u id ⟨r, hr, hrc⟩
      exact ⟨hu, mem_posted_step h hmem⟩
    · obtain ⟨hu, rfl, -⟩ := heff.created ⟨r, hr, hrc⟩
      exact ⟨hu, mem_posted_submit h⟩
  publish d u id hc := by
    obtain ⟨rs, heff, hhist⟩ := step_history h d
    obtain ⟨r, hr, hrc⟩ := hc
    rw [hhist] at hr
    rcases List.mem_append.mp hr with hr | hr
    · obtain ⟨hu, hmem⟩ := hD.publish d u id ⟨r, hr, hrc⟩
      exact ⟨hu, mem_posted_step h hmem⟩
    · obtain ⟨hu, k, form, doc, hread⟩ := heff.published ⟨r, hr, hrc⟩
      exact ⟨hu, mem_posted_step h
        (hD.author d _ (List.mem_of_getElem? hread) id form rfl)⟩
  author d r hr id form ha := by
    obtain ⟨rs, heff, -⟩ := step_history h d
    rcases heff.asks_author hr ha with ⟨x, hx, hxa⟩ | ⟨rfl, -⟩
    · exact mem_posted_step h (hD.author d x hx id form hxa)
    · exact mem_posted_submit h
  createOnce d u id := by
    obtain ⟨rs, heff, hhist⟩ := step_history h d
    rw [hhist, List.countP_append]
    by_cases hc : Created rs u id
    · obtain ⟨-, -, hfresh⟩ := heff.created hc
      have hzero : (s.net.history d).countP (Request.creates u id) = 0 :=
        countP_eq_zero_iff_not_created.mpr fun hold =>
          hfresh (List.mem_map_of_mem (hD.create d u id hold).2)
      have hone := heff.count_created u id
      omega
    · have := countP_eq_zero_iff_not_created.mpr hc
      have := hD.createOnce d u id
      omega
  publishOnce d u id := by
    obtain ⟨rs, heff, hhist⟩ := step_history h d
    rw [hhist, List.countP_append]
    have hold := hD.publishOnce d u id
    rcases heff.count_published u id with hle | ⟨hfresh, hle⟩
    · omega
    · have hpub : (s.net.history d).countP (Request.publishes u id) = 0 := by
        refine List.countP_eq_zero.mpr fun r hr hrp => hfresh ?_
        exact List.mem_map_of_mem (hD.publish d u id ⟨r, hr, hrp⟩).2
      have hread : (s.phone d).reads.countP (Read.asksAuthor id) = 0 := by
        refine List.countP_eq_zero.mpr fun r hr hra => hfresh ?_
        obtain ⟨form, hform⟩ := Read.asksAuthor_iff.mp hra
        exact List.mem_map_of_mem (hD.author d r hr id form hform)
      omega

end World

/-! ### Order -/

namespace Effect

variable {s : World C} {c : C} {e : Event C} {rs : List Request} {reads : List Read}
  {uploads : List StorageRef}

/-- Only a tap counts, and it counts the open post. -/
theorem countSocial (h : Effect me s c e rs reads uploads) {id : String} {tap : Tap}
    (hr : .countSocial id tap ∈ rs) : ∃ v, (s.phone c).more = some v ∧ v.id = some id := by
  cases h with
  | tap imgN hv huID hid hnumber hfilled =>
      rename_i v uID id' tap'
      obtain ⟨rfl, -⟩ : id = id' ∧ tap = tap' := by simpa using SocialMore.mem_tapRequests hr
      exact ⟨v, hv, hid⟩
  | _ => simp at hr

theorem countPost (h : Effect me s c e rs reads uploads) {u id : String} {tap : Tap}
    (hr : .countPost u id tap ∈ rs) :
    ∃ v, (s.phone c).more = some v ∧ v.id = some id ∧ v.uID = some u := by
  cases h with
  | tap imgN hv huID hid hnumber hfilled =>
      rename_i v uID id' tap'
      obtain ⟨rfl, rfl, -⟩ : u = uID ∧ id = id' ∧ tap = tap' := by
        simpa using SocialMore.mem_tapRequests hr
      exact ⟨v, hv, hid, huID⟩
  | _ => simp at hr

/-- Only Delete deletes, and it deletes the post of a cell. -/
theorem deletePost (h : Effect me s c e rs reads uploads) {u id : String}
    (hr : .deletePost u id ∈ rs) :
    u = me c ∧ ∃ k : Nat, (s.phone c).cells[k]? = some (some id) := by
  cases h with
  | tap imgN => simpa using SocialMore.mem_tapRequests hr
  | delete k hcell =>
      obtain ⟨rfl, rfl⟩ : u = me c ∧ id = _ := by simpa using hr
      exact ⟨rfl, k, hcell⟩
  | _ => simp at hr

end Effect

/-- What holds in every state that can be reached. -/
structure Sound (me : C → String) [DecidableEq C] (s : World C) : Prop where
  informed : ∀ c, Informed (me c) (s.net.seen c) (s.phone c)
  drawn : Drawn me s
  publishOrder : ∀ u id, s.net.Ordered (fun r => r.creates u id) fun r => r.publishes u id
  socialOrder : ∀ id, s.net.Ordered (fun r => ∃ u, r.publishes u id)
    fun r => ∃ tap, r = .countSocial id tap
  postOrder : ∀ u id, s.net.Ordered (fun r => r.creates u id)
    fun r => ∃ tap, r = .countPost u id tap
  deleteOrder : ∀ u id, s.net.Ordered (fun r => r.creates u id) fun r => r = .deletePost u id
  deleter : ∀ {c u id}, .deletePost u id ∈ s.net.history c → u = me c

namespace World

variable [DecidableEq C] {s s' : World C}

theorem sound_init : Sound me (init : World C) where
  informed := informed_init
  drawn := drawn_init
  publishOrder _ _ := Net.ordered_empty _ _
  socialOrder _ := Net.ordered_empty _ _
  postOrder _ _ := Net.ordered_empty _ _
  deleteOrder _ _ := Net.ordered_empty _ _
  deleter h := by simp [init] at h

/-- The open post has been published, and by its author. -/
theorem published_of_more (hS : Sound me s) {c : C} {v : SocialMore} {id : String}
    (hv : (s.phone c).more = some v) (hid : v.id = some id) :
    ∃ u, v.uID = some u ∧ Published (s.net.seen c) u id :=
  (hS.informed c).more v hv id hid

/-- **Every event keeps a state sound.** -/
theorem sound_step (hS : Sound me s) {e : Event C} (h : step me s e = some s') :
    Sound me s' where
  informed := informed_step hS.informed h
  drawn := drawn_step hS.drawn h
  publishOrder u id := by
    refine ordered_step h (fun rs reads uploads heff r hr hpub => ?_) (hS.publishOrder u id)
    obtain ⟨rfl, k, form, doc, hread⟩ := heff.published ⟨r, hr, hpub⟩
    have hinf := (hS.informed _).reads _ (List.mem_of_getElem? hread)
    exact ⟨_, hinf.author id form rfl, by simp [Request.creates]⟩
  socialOrder id := by
    refine ordered_step h (fun rs reads uploads heff r hr hcount => ?_) (hS.socialOrder id)
    obtain ⟨tap, rfl⟩ := hcount
    obtain ⟨v, hv, hid⟩ := heff.countSocial hr
    obtain ⟨u, -, x, hx, hpub⟩ := published_of_more hS hv hid
    exact ⟨x, hx, u, hpub⟩
  postOrder u id := by
    refine ordered_step h (fun rs reads uploads heff r hr hcount => ?_) (hS.postOrder u id)
    obtain ⟨tap, rfl⟩ := hcount
    obtain ⟨v, hv, hid, huID⟩ := heff.countPost hr
    obtain ⟨w, hw, x, hx, hpub⟩ := published_of_more hS hv hid
    obtain rfl : u = w := Option.some.inj (huID.symm.trans hw)
    exact (hS.publishOrder u id _).exists_mem hx hpub
  deleteOrder u id := by
    refine ordered_step h (fun rs reads uploads heff r hr hdel => ?_) (hS.deleteOrder u id)
    subst hdel
    obtain ⟨rfl, k, hcell⟩ := heff.deletePost hr
    exact (hS.informed _).cells _ (List.mem_of_getElem? hcell) id rfl
  deleter {c u id} hdel := by
    obtain ⟨rs, heff, hhist⟩ := step_history h c
    rw [hhist] at hdel
    rcases List.mem_append.mp hdel with hdel | hdel
    · exact hS.deleter hdel
    · exact (heff.deletePost hdel).1

/-- **Every state that can be reached is sound.** -/
theorem sound_run {es : List (Event C)} (h : Machine.run (step me) init es = some s) :
    Sound me s :=
  Machine.invariant_run_all (fun _ _ _ hS hs => sound_step hS hs) sound_init h

end World

/-! ### Conditions on what is applied -/

theorem committed_concat (s : World C) (c : C) (r : Request) :
    (s.net.log ++ [(c, r)]).map Prod.snd = s.net.committed ++ [r] := by
  simp [Net.committed]

/-- What holds of every write when the database applies it. -/
def World.OnCommit (P : World C → C → Request → Prop) (s : World C) : Event C → Prop
  | .commit c => ∀ r ∈ (s.net.queue c).head?, P s c r
  | _ => True

instance {P : World C → C → Request → Prop} [∀ s c r, Decidable (P s c r)] (s : World C) :
    ∀ e, Decidable (World.OnCommit P s e)
  | .commit c => inferInstanceAs (Decidable (∀ r ∈ (s.net.queue c).head?, P s c r))
  | .act .. | .answer .. | .arrive .. | .upload .. => isTrue trivial

/-- **What every applied write preserves holds of the log, after every run.** -/
theorem World.log_invariant [DecidableEq C] {P : World C → C → Request → Prop}
    {J : List (C × Request) → Prop} (hnil : J [])
    (happly : ∀ (s : World C) c r rest, Sound me s → s.net.queue c = r :: rest → P s c r →
      J s.net.log → J (s.net.log ++ [(c, r)]))
    {es : List (Event C)} {s : World C} (hrun : Machine.run (step me) init es = some s)
    (halong : Machine.Along (step me) (OnCommit P) init es) : J s.net.log := by
  refine (Machine.invariant_run (I := fun s => Sound me s ∧ J s.net.log) ?_
    ⟨sound_init, hnil⟩ halong hrun).2
  rintro s e s' ⟨hS, hJ⟩ hP h
  refine ⟨sound_step hS h, ?_⟩
  rcases step_log h with hlog | ⟨c, r, rest, rfl, hq, hlog⟩
  · rwa [hlog]
  · rw [hlog]
    exact happly s c r rest hS hq (hP r (by simp [hq])) hJ

namespace Sound

variable [DecidableEq C] {s : World C} {u u' id : String}

/-- **An author's copy is made once.** -/
theorem created_once (hS : Sound me s) (u id : String) :
    s.net.Once (Request.creates u id) where
  count c := hS.drawn.createOnce c u id
  client c d hc hd := by
    have hc := (hS.drawn.create c u id hc).2
    have hd := (hS.drawn.create d u id hd).2
    exact (Prod.mk.inj (List.inj_on_of_nodup_map hS.drawn.nodup hc hd rfl)).2

/-- **A public copy is made once.** -/
theorem published_once (hS : Sound me s) (u id : String) :
    s.net.Once (Request.publishes u id) where
  count c := Nat.le_of_add_right_le (hS.drawn.publishOnce c u id)
  client c d hc hd := by
    have hc := (hS.drawn.publish c u id hc).2
    have hd := (hS.drawn.publish d u id hd).2
    exact (Prod.mk.inj (List.inj_on_of_nodup_map hS.drawn.nodup hc hd rfl)).2

/-- A post has one author. -/
theorem author_eq (hS : Sound me s) {c d : C} (h : Created (s.net.history c) u id)
    (h' : Created (s.net.history d) u' id) : u = u' := by
  obtain ⟨rfl, hc⟩ := hS.drawn.create c u id h
  obtain ⟨rfl, hd⟩ := hS.drawn.create d u' id h'
  obtain ⟨-, rfl⟩ := Prod.mk.inj (List.inj_on_of_nodup_map hS.drawn.nodup hc hd rfl)
  rfl

theorem exists_created_history {V : List Request} {u id : String} {n : Net C Request}
    (h : Created V u id) (hV : ∀ r ∈ V, r ∈ n.committed) : ∃ c, Created (n.history c) u id := by
  obtain ⟨r, hr, hc⟩ := h
  obtain ⟨c, hr⟩ := Net.exists_history_of_committed (hV r hr)
  exact ⟨c, r, hr, hc⟩

theorem author_eq_committed (hS : Sound me s) (h : Created s.net.committed u id)
    (h' : Created s.net.committed u' id) : u = u' := by
  obtain ⟨c, hc⟩ := exists_created_history h fun _ hr => hr
  obtain ⟨d, hd⟩ := exists_created_history h' fun _ hr => hr
  exact hS.author_eq hc hd

/-- When an author's copy is about to be made, nobody has made one. -/
theorem not_created (hS : Sound me s) {c : C} {caption imgName : String} {rest : List Request}
    (hq : s.net.queue c = .create u id caption imgName :: rest) (u' : String) :
    ¬ Created s.net.committed u' id := by
  intro h
  obtain ⟨d, hd⟩ := exists_created_history h fun _ hr => hr
  have hc : Created (s.net.history c) u id :=
    ⟨_, Net.mem_history_of_queue (by rw [hq]; exact List.mem_cons_self), by simp [Request.creates]⟩
  obtain rfl := hS.author_eq hc hd
  obtain ⟨x, hx, hxu⟩ := h
  have := (hS.created_once u id).head hq (by simp [Request.creates]) hx
  simp [this] at hxu

/-- When a public copy is about to be made, nobody has made one. -/
theorem not_published (hS : Sound me s) {c : C} {caption imgName profImg username : String}
    {rest : List Request}
    (hq : s.net.queue c = .publish u id caption imgName profImg username :: rest) (u' : String) :
    ¬ Published s.net.committed u' id := by
  rintro ⟨x, hx, hxu⟩
  have hcreated : Created s.net.committed u id := (hS.publishOrder u id).head hq
    (by simp [Request.publishes])
  obtain rfl := hS.author_eq_committed hcreated ((hS.publishOrder u' id).committed hx hxu)
  have := (hS.published_once u id).head hq (by simp [Request.publishes]) hx
  simp [this] at hxu

/-- When an author's copy is about to be made, nobody has counted in it. -/
theorem not_counted_post (hS : Sound me s) {c : C} {caption imgName : String}
    {rest : List Request} (hq : s.net.queue c = .create u id caption imgName :: rest)
    (u' : String) (tap : Tap) : .countPost u' id tap ∉ s.net.committed :=
  fun h => hS.not_created hq u' ((hS.postOrder u' id).committed h ⟨tap, rfl⟩)

/-- When a public copy is about to be made, nobody has counted in it. -/
theorem not_counted_social (hS : Sound me s) {c : C}
    {caption imgName profImg username : String} {rest : List Request}
    (hq : s.net.queue c = .publish u id caption imgName profImg username :: rest) (tap : Tap) :
    .countSocial id tap ∉ s.net.committed := by
  intro h
  obtain ⟨x, hx, w, hxw⟩ := (hS.socialOrder id).committed h ⟨tap, rfl⟩
  exact hS.not_published hq w ⟨x, hx, hxw⟩

/-- A post is published by its author. -/
theorem publisher_eq (hS : Sound me s) (h : Published s.net.committed u id)
    (h' : Created s.net.committed u' id) : u = u' := by
  obtain ⟨r, hr, hp⟩ := h
  exact hS.author_eq_committed ((hS.publishOrder u id).committed hr hp) h'

end Sound

/-! ### A post of ann's, and what ann and bob do with it -/

/-- Phone 0 is ann's and phone 1 is bob's. -/
def duo : Fin 2 → String
  | 0 => "ann"
  | 1 => "bob"

/-- Both sign up. -/
def signingUp : List (Event (Fin 2)) :=
  [.act 0 (.signUp "Ann" "ann"), .commit 0, .answer 0 0 true, .arrive 0 0,
    .act 1 (.signUp "Bob" "bob"), .commit 1, .answer 1 0 true, .arrive 1 0]

/-- Ann fills in the form of a post and submits it. -/
def submitting : List (Event (Fin 2)) :=
  [.act 0 .makePost, .act 0 (.caption "hi"), .act 0 (.pick "img"), .upload 0 0 true,
    .act 0 (.submit "p")]

/-- The author is found, and both copies of the post are applied. -/
def publishing : List (Event (Fin 2)) :=
  [.answer 0 0 true, .arrive 0 0, .commit 0, .commit 0]

/-- The post is opened, and its heart and picture arrive. -/
def opening (c : Fin 2) : List (Event (Fin 2)) :=
  [.act c .viewSocial, .answer c 0 true, .arrive c 0, .act c (.select 0), .answer c 0 true,
    .arrive c 0, .act c .image]

/-- The heart is tapped, and the writes of the tap are applied. -/
def tapping (c : Fin 2) : List (Event (Fin 2)) :=
  [.act c (.tap "like"), .commit c, .commit c, .commit c]

/-- Ann deletes the post, and the deletions are applied. -/
def deleting : List (Event (Fin 2)) :=
  [.act 0 .refresh, .answer 0 0 true, .arrive 0 0, .act 0 (.cell 0), .act 0 (.delete 0),
    .commit 0, .commit 0]

/-- Bob submits a post of his own, and both copies of it are applied. -/
def bobPosting : List (Event (Fin 2)) :=
  [.act 1 .makePost, .act 1 (.caption "hey"), .act 1 (.pick "pic"), .upload 1 0 true,
    .act 1 (.submit "q"), .answer 1 0 true, .arrive 1 0, .commit 1, .commit 1]

/-- The fetch that follows the deletion of ann's copy is answered and delivered. -/
def fetchingAgain : List (Event (Fin 2)) := [.answer 0 0 true, .arrive 0 0]

end UTrend
