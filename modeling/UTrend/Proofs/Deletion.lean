/-
A post that has been deleted.

The two copies of a post are two documents, each removed by a write of its own.  A
tap on a post that is still open somewhere merges a count into a document that has
been removed, which makes it again, and an answer about the author that comes after
the deletion publishes the post that was deleted.  `Timely` names the writes that
are applied in time; in runs whose writes are timely a deleted post stays deleted.
-/
import UTrend.Proofs.Submission

namespace UTrend

variable {C : Type} [DecidableEq C] {me : C → String} {s s' : World C} {u id : String}

open World

/-! ### What exists was made -/

/-- A copy of the author's was made, or had a count merged into it. -/
theorem mem_post {rs : List Request} (h : Path.post u id ∈ contents rs) :
    Created rs u id ∨ ∃ tap, .countPost u id tap ∈ rs := by
  suffices hI : (∃ d, (contents rs).lookup (.post u id) = some d) →
      Created rs u id ∨ ∃ tap, .countPost u id tap ∈ rs from
    hI (DocStore.exists_lookup_of_mem h)
  refine contents_induction (p := .post u id)
    (I := fun rs doc => (∃ d, doc = some d) →
      Created rs u id ∨ ∃ tap, .countPost u id tap ∈ rs) ?_ ?_ ?_ rs
  · simp
  · intro rs r doc ih _ hd
    rcases ih hd with hc | ⟨tap, htap⟩
    · exact Or.inl (hc.mono fun x hx => List.mem_append_left _ hx)
    · exact Or.inr ⟨tap, List.mem_append_left _ htap⟩
  · intro rs r doc _ hpath hd
    rcases Request.path_eq_post hpath with ⟨caption, imgName, rfl⟩ | ⟨tap, rfl⟩ | rfl
    · exact Or.inl ⟨_, List.mem_append_right _ (List.mem_singleton_self _),
        by simp [Request.creates]⟩
    · exact Or.inr ⟨tap, List.mem_append_right _ (List.mem_singleton_self _)⟩
    · simp [Request.write, DocStore.Write.result] at hd

/-- A public copy was made, or had a count merged into it. -/
theorem mem_social {rs : List Request} (h : Path.social id ∈ contents rs) :
    (∃ u, Published rs u id) ∨ ∃ tap, .countSocial id tap ∈ rs := by
  suffices hI : (∃ d, (contents rs).lookup (.social id) = some d) →
      (∃ u, Published rs u id) ∨ ∃ tap, .countSocial id tap ∈ rs from
    hI (DocStore.exists_lookup_of_mem h)
  refine contents_induction (p := .social id)
    (I := fun rs doc => (∃ d, doc = some d) →
      (∃ u, Published rs u id) ∨ ∃ tap, .countSocial id tap ∈ rs) ?_ ?_ ?_ rs
  · simp
  · intro rs r doc ih _ hd
    rcases ih hd with ⟨u, hp⟩ | ⟨tap, htap⟩
    · exact Or.inl ⟨u, hp.mono fun x hx => List.mem_append_left _ hx⟩
    · exact Or.inr ⟨tap, List.mem_append_left _ htap⟩
  · intro rs r doc _ hpath hd
    rcases Request.path_eq_social hpath with
      ⟨u', caption, imgName, profImg, username, rfl⟩ | ⟨tap, rfl⟩ | rfl
    · exact Or.inl ⟨u', _, List.mem_append_right _ (List.mem_singleton_self _),
        by simp [Request.publishes]⟩
    · exact Or.inr ⟨tap, List.mem_append_right _ (List.mem_singleton_self _)⟩
    · simp [Request.write, DocStore.Write.result] at hd

theorem Sound.created_of_mem (hS : Sound me s) (h : Path.post u id ∈ s.db) :
    Created s.net.committed u id := by
  rcases mem_post h with hc | ⟨tap, htap⟩
  · exact hc
  · exact (hS.postOrder u id).committed htap ⟨tap, rfl⟩

theorem Sound.published_of_mem (hS : Sound me s) (h : Path.social id ∈ s.db) :
    ∃ u, Published s.net.committed u id := by
  rcases mem_social h with hp | ⟨tap, htap⟩
  · exact hp
  · obtain ⟨x, hx, u, hpub⟩ := (hS.socialOrder id).committed htap ⟨tap, rfl⟩
    exact ⟨u, x, hx, hpub⟩

/-! ### A deleted post -/

/-- The write does not bring the deleted post `id` back: a count finds its document, and
the public copy is not older news than its own deletion. -/
def Request.Timely (id : String) (rs : List Request) : Request → Prop
  | .countPost u i _ => i = id → Path.post u i ∈ contents rs
  | .countSocial i _ => i = id → Path.social i ∈ contents rs
  | .publish _ i _ _ _ _ => i = id → .deleteSocial i ∉ rs
  | _ => True

instance (id : String) (rs : List Request) : ∀ r : Request, Decidable (r.Timely id rs)
  | .countPost u i _ => inferInstanceAs (Decidable (i = id → Path.post u i ∈ contents rs))
  | .countSocial i _ => inferInstanceAs (Decidable (i = id → Path.social i ∈ contents rs))
  | .publish _ i _ _ _ _ => inferInstanceAs (Decidable (i = id → .deleteSocial i ∉ rs))
  | .signUp .. | .picture .. | .create .. | .like .. | .unlike .. | .deletePost ..
  | .deleteSocial .. | .clothes .. => isTrue trivial

/-- A copy that is there has not been deleted. -/
structure Buried (id : String) (rs : List Request) : Prop where
  post : ∀ u, Path.post u id ∈ contents rs → .deletePost u id ∉ rs
  social : Path.social id ∈ contents rs → .deleteSocial id ∉ rs

/-- **A timely write keeps the deleted copies away.** -/
theorem Sound.buried_concat (hS : Sound me s) {c : C} {r : Request} {rest : List Request}
    (hq : s.net.queue c = r :: rest) (htimely : r.Timely id s.net.committed)
    (hB : Buried id s.net.committed) : Buried id (s.net.committed ++ [r]) where
  post u hmem := by
    rw [mem_contents_concat] at hmem
    simp only [List.mem_append, List.mem_singleton, not_or]
    by_cases hpath : r.path = .post u id
    · rw [if_pos hpath] at hmem
      rcases Request.path_eq_post hpath with ⟨caption, imgName, rfl⟩ | ⟨tap, rfl⟩ | rfl
      · refine ⟨fun hdel => ?_, by simp⟩
        -- a deletion that has been applied has seen the creation, which happens once
        exact hS.not_created hq u ((hS.deleteOrder u id).committed hdel rfl)
      · exact ⟨hB.post u (htimely rfl), by simp⟩
      · simp [Request.write, DocStore.Write.deletes] at hmem
    · rw [if_neg hpath] at hmem
      refine ⟨hB.post u hmem, fun hr => hpath ?_⟩
      rw [← hr]
      rfl
  social hmem := by
    rw [mem_contents_concat] at hmem
    simp only [List.mem_append, List.mem_singleton, not_or]
    by_cases hpath : r.path = .social id
    · rw [if_pos hpath] at hmem
      rcases Request.path_eq_social hpath with
        ⟨u', caption, imgName, profImg, username, rfl⟩ | ⟨tap, rfl⟩ | rfl
      · exact ⟨htimely rfl, by simp⟩
      · exact ⟨hB.social (htimely rfl), by simp⟩
      · simp [Request.write, DocStore.Write.deletes] at hmem
    · rw [if_neg hpath] at hmem
      refine ⟨hB.social hmem, fun hr => hpath ?_⟩
      rw [← hr]
      rfl

theorem buried_run {es : List (Event C)} (hrun : Machine.run (step me) init es = some s)
    (htimely : Machine.Along (step me)
      (OnCommit fun s _ r => r.Timely id s.net.committed) init es) :
    Buried id s.net.committed := by
  refine log_invariant (J := fun log => Buried id (log.map Prod.snd)) ⟨by simp, by simp⟩
    (fun s c r rest hS hq hP hJ => ?_) hrun htimely
  rw [committed_concat]
  exact hS.buried_concat hq hP hJ

/-- What has been applied stays applied. -/
theorem committed_run {fs : List (Event C)} (h : Machine.run (step me) s fs = some s')
    {r : Request} (hr : r ∈ s.net.committed) : r ∈ s'.net.committed := by
  refine Machine.invariant_run_all (I := fun s => r ∈ s.net.committed) ?_ hr h
  intro s e s' hr h
  rcases step_log h with hlog | ⟨c, x, rest, -, -, hlog⟩
  · rwa [Net.committed, hlog]
  · rw [Net.committed, hlog, List.map_append]
    exact List.mem_append_left _ hr

/-- **A deleted post stays deleted, in runs whose writes are timely.** -/
theorem deleted_stays_deleted {es fs : List (Event C)}
    (hrun : Machine.run (step me) init es = some s)
    (hlater : Machine.run (step me) s fs = some s')
    (htimely : Machine.Along (step me)
      (OnCommit fun s _ r => r.Timely id s.net.committed) init (es ++ fs))
    (hpost : .deletePost u id ∈ s.net.committed)
    (hsocial : .deleteSocial id ∈ s.net.committed) :
    Path.post u id ∉ s'.db ∧ Path.social id ∉ s'.db := by
  have hB : Buried id s'.net.committed :=
    buried_run (Machine.run_append_eq_some.mpr ⟨s, hrun, hlater⟩) htimely
  exact ⟨fun h => hB.post u h (committed_run hlater hpost),
    fun h => hB.social h (committed_run hlater hsocial)⟩

set_option maxRecDepth 100000 in
/-- Bob likes the post before ann deletes it. -/
theorem deleted_stays_deleted_duo :
    ∃ s, Machine.run (step duo) init (signingUp ++ submitting ++ publishing ++ opening 1
        ++ tapping 1 ++ deleting) = some s ∧
      ∃ s', Machine.run (step duo) s [.act 1 .back, .answer 1 0 true] = some s' ∧
        Path.post "ann" "p" ∉ s'.db ∧ Path.social "p" ∉ s'.db := by
  obtain ⟨s, hs, hpost, hsocial, s', hs', -⟩ :
      ∃ s, Machine.run (step duo) init (signingUp ++ submitting ++ publishing ++ opening 1
          ++ tapping 1 ++ deleting) = some s ∧
        .deletePost "ann" "p" ∈ s.net.committed ∧ .deleteSocial "p" ∈ s.net.committed ∧
        ∃ s', Machine.run (step duo) s [.act 1 .back, .answer 1 0 true] = some s' ∧ True := by
    decide +kernel
  exact ⟨s, hs, s', hs', deleted_stays_deleted hs hs' (by decide +kernel) hpost hsocial⟩

set_option maxRecDepth 100000 in
/-- **A deleted post comes back.**  Bob has it open when ann deletes it; nothing is pending
any more, and then he taps the heart. -/
theorem deleted_post_comes_back :
    ∃ s, Machine.run (step duo) init (signingUp ++ submitting ++ publishing ++ opening 1
        ++ deleting) = some s ∧
      .deletePost "ann" "p" ∈ s.net.committed ∧ .deleteSocial "p" ∈ s.net.committed ∧
      s.net.Quiet ∧ (∀ c, ∀ r ∈ (s.phone c).reads, r.asksAuthor "p" = false) ∧
      ∃ s', Machine.run (step duo) s (tapping 1) = some s' ∧
        Path.post "ann" "p" ∈ s'.db ∧ Path.social "p" ∈ s'.db := by
  decide +kernel

end UTrend
