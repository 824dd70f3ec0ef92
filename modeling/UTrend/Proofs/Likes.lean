/-
The count of a post and the users who like it.

A tap reads the count off the label, adds or takes one, and writes the outcome over
the stored count, while the like itself is a document of its own.  So the count is
right as long as each write of a count finds the number it was computed from, and
each like changes whether there is one: `Current`.

The proof compares two sums over the log.  Under the condition the stored count is
what the counts have added up to, and the number of likes is what the likes have
added up to.  A tap adds the same to both, so the two sums agree for the history of
every phone, and once everything has been applied they agree for the log.
-/
import UTrend.Proofs.Deletion

namespace UTrend

variable {C : Type} {me : C → String} {s s' : World C} {u id : String}

open World

/-- The document is a like of the post. -/
def isLike (id : String) : Path → Bool
  | .like _ i => i == id
  | _ => false

/-- How many users like a post. -/
def likers (id : String) (db : Store) : Nat := DocStore.count (isLike id) db

/-- The write is up to date with the documents of the post when it is applied: a count
with the number it was computed from, a like with its being absent, a dislike with its
being there. -/
def Request.Current (id : String) (db : Store) : Request → Prop
  | .countSocial i tap => i = id → storedNumber db (.social id) "likes" = some tap.number
  | .like u i _ _ => i = id → Path.like u id ∉ db
  | .unlike u i _ => i = id → Path.like u id ∈ db
  | _ => True

instance (id : String) (db : Store) : ∀ r : Request, Decidable (r.Current id db)
  | .countSocial i tap => inferInstanceAs
      (Decidable (i = id → storedNumber db (.social id) "likes" = some tap.number))
  | .like u i _ _ => inferInstanceAs (Decidable (i = id → Path.like u id ∉ db))
  | .unlike u i _ => inferInstanceAs (Decidable (i = id → Path.like u id ∈ db))
  | .signUp .. | .picture .. | .create .. | .publish .. | .countPost .. | .deletePost ..
  | .deleteSocial .. | .clothes .. => isTrue trivial

/-! ### Two sums -/

/-- What a request adds to the public count. -/
def Request.counted (id : String) : Request → Int
  | .countSocial i tap => if i = id then tap.newNum - tap.number else 0
  | _ => 0

/-- What a request adds to the likes. -/
def Request.liked (id : String) : Request → Int
  | .like _ i _ _ => if i = id then 1 else 0
  | .unlike _ i _ => if i = id then -1 else 0
  | _ => 0

theorem Tap.newNum_sub (t : Tap) : t.newNum - t.number = if t.filled then -1 else 1 := by
  unfold Tap.newNum
  split <;> omega

/-- **A tap adds the same to both.** -/
theorem Effect.balanced {c : C} {e : Event C} {rs : List Request} {reads : List Read}
    {uploads : List StorageRef} (h : Effect me s c e rs reads uploads) (id : String) :
    (rs.map fun r => r.counted id - r.liked id).sum = 0 := by
  cases h with
  | tap imgN hv huID hid hnumber hfilled =>
      rename_i v uID i tap
      by_cases hi : i = id <;> cases hf : tap.filled <;>
        simp [SocialMore.tapRequests, Request.counted, Request.liked, Tap.newNum_sub, hi, hf]
  | _ => simp [Request.counted, Request.liked]

theorem sum_eq_zero {f : Request → Int} {l : List Request} (h : ∀ r ∈ l, f r = 0) :
    (l.map f).sum = 0 := by
  induction l with
  | nil => rfl
  | cons r l ih =>
      rw [List.map_cons, List.sum_cons, h r (by simp), ih fun x hx => h x (by simp [hx])]
      rfl

theorem sum_sub (f g : Request → Int) (l : List Request) :
    (l.map fun r => f r - g r).sum = (l.map f).sum - (l.map g).sum := by
  induction l with
  | nil => rfl
  | cons r l ih =>
      simp only [List.map_cons, List.sum_cons, ih]
      omega

/-- What the log has added up to is in the documents of the post. -/
structure Counted (id : String) (rs : List Request) : Prop where
  count : (∃ u, Published rs u id) → .deleteSocial id ∉ rs →
    storedNumber (contents rs) (.social id) "likes" = some (rs.map (Request.counted id)).sum
  likers : (likers id (contents rs) : Int) = (rs.map (Request.liked id)).sum

theorem counted_eq_zero {r : Request} (h : r.path ≠ .social id) : r.counted id = 0 := by
  cases r with
  | countSocial i tap =>
      have hi : i ≠ id := fun hi => h (hi ▸ rfl)
      simp [Request.counted, hi]
  | _ => rfl

theorem liked_eq_zero {r : Request} (h : isLike id r.path = false) : r.liked id = 0 := by
  cases r with
  | like u i imgN tap =>
      have hi : i ≠ id := by
        simpa [isLike, Request.path, Request.write, DocStore.Write.path] using h
      simp [Request.liked, hi]
  | unlike u i tap =>
      have hi : i ≠ id := by
        simpa [isLike, Request.path, Request.write, DocStore.Write.path] using h
      simp [Request.liked, hi]
  | _ => rfl

/-- A like or a dislike that is current changes the number of likes by one. -/
theorem likers_concat {rs : List Request} {r : Request} (hcurrent : r.Current id (contents rs)) :
    (likers id (contents (rs ++ [r])) : Int) = likers id (contents rs) + r.liked id := by
  rw [contents_concat, likers, likers]
  by_cases hlike : isLike id r.path = true
  · obtain ⟨u, hpath⟩ : ∃ u, r.path = .like u id := by
      revert hlike
      cases r.path <;> simp [isLike]
    rcases Request.path_eq_like hpath with ⟨imgN, tap, rfl⟩ | ⟨tap, rfl⟩
    · have hnew := hcurrent rfl
      simp [Request.write, DocStore.Write.apply, DocStore.count_insert_of_notMem hnew, isLike,
        Request.liked]
    · have herase := DocStore.count_erase_of_mem (q := isLike id) (hcurrent rfl)
      simp only [isLike, beq_self_eq_true, if_true] at herase
      simp only [Request.write, DocStore.Write.apply, Request.liked, if_true]
      omega
  · rw [Bool.not_eq_true] at hlike
    rw [DocStore.count_apply_of_not hlike, liked_eq_zero hlike]
    omega

variable [DecidableEq C]

/-- **A write that is current keeps the documents and the sums together.** -/
theorem Sound.counted_concat (hS : Sound me s) {c : C} {r : Request} {rest : List Request}
    (hq : s.net.queue c = r :: rest) (hcurrent : r.Current id s.db)
    (hC : Counted id s.net.committed) : Counted id (s.net.committed ++ [r]) where
  likers := by
    rw [likers_concat hcurrent, hC.likers, List.map_append, List.sum_append]
    simp
  count hpub hkept := by
    have hkept' : .deleteSocial id ∉ s.net.committed :=
      fun h => hkept (List.mem_append_left _ h)
    rw [List.map_append, List.sum_append, List.map_singleton, List.sum_singleton, storedNumber,
      lookup_contents_concat]
    by_cases hpath : r.path = .social id
    · rw [if_pos hpath]
      rcases Request.path_eq_social hpath with
        ⟨u, caption, imgName, profImg, username, rfl⟩ | ⟨tap, rfl⟩ | rfl
      · have hnone : ∀ x ∈ s.net.committed, x.counted id = 0 := by
          intro x hx
          cases x with
          | countSocial i tap =>
              refine if_neg fun hi => ?_
              subst hi
              exact hS.not_counted_social hq tap hx
          | _ => rfl
        rw [sum_eq_zero hnone]
        rfl
      · obtain ⟨x, hx, w, hxw⟩ := (hS.socialOrder id).head hq ⟨tap, rfl⟩
        have hstored := hC.count ⟨w, x, hx, hxw⟩ hkept'
        have hnumber : (s.net.committed.map (Request.counted id)).sum = tap.number :=
          Option.some.inj (hstored.symm.trans (hcurrent rfl))
        rw [hnumber]
        simp [Request.write, DocStore.Write.result, Request.counted, Doc.number,
          DocStore.Doc.update, Value.asNumber]
      · exact absurd (List.mem_append_right _ (List.mem_singleton_self _)) hkept
    · rw [if_neg hpath, counted_eq_zero hpath, add_zero]
      refine hC.count ?_ hkept'
      obtain ⟨u, x, hx, hxu⟩ := hpub
      rcases List.mem_append.mp hx with hx | hx
      · exact ⟨u, x, hx, hxu⟩
      · obtain rfl := List.mem_singleton.mp hx
        obtain ⟨_, _, _, _, rfl⟩ := Request.publishes_iff.mp hxu
        exact absurd rfl hpath

theorem balanced_run {es : List (Event C)} (hrun : Machine.run (step me) init es = some s)
    (c : C) : ((s.net.history c).map fun r => r.counted id - r.liked id).sum = 0 := by
  refine Machine.invariant_run_all
    (I := fun s => ((s.net.history c).map fun r => r.counted id - r.liked id).sum = 0)
    ?_ (by simp [init]) hrun
  intro s e s' hI h
  obtain ⟨rs, heff, hhist⟩ := step_history h c
  rw [hhist, List.map_append, List.sum_append, hI, heff.balanced id, add_zero]

/-- **The count is the number of users who like the post, in runs whose writes are
current.** -/
theorem likes_eq_likers {es : List (Event C)}
    (hrun : Machine.run (step me) init es = some s)
    (hcurrent : Machine.Along (step me) (OnCommit fun s _ r => r.Current id s.db) init es)
    (hquiet : s.net.Quiet) (hpub : ∃ u, Published s.net.committed u id)
    (hkept : .deleteSocial id ∉ s.net.committed) :
    storedNumber s.db (.social id) "likes" = some (likers id s.db : Int) := by
  have hC : Counted id s.net.committed := by
    refine log_invariant (J := fun log => Counted id (log.map Prod.snd))
      ⟨by simp [Published], rfl⟩ (fun s c r rest hS hq hP hJ => ?_) hrun hcurrent
    rw [committed_concat]
    exact hS.counted_concat hq hP hJ
  have hbalanced := Net.sum_eq_zero_of_each (fun x => x.2.counted id - x.2.liked id)
    s.net.log fun c => by
      have hc : ((s.net.history c).map fun r => r.counted id - r.liked id).sum = 0 :=
        balanced_run hrun c
      rwa [hquiet.history_eq, Net.committedBy, List.map_map] at hc
  have hsum : (s.net.committed.map fun r => r.counted id - r.liked id).sum = 0 := by
    rwa [Net.committed, List.map_map]
  rw [sum_sub] at hsum
  have hcount := hC.count hpub hkept
  rw [db, hcount, hC.likers]
  congr 1
  omega

set_option maxRecDepth 100000 in
/-- Bob likes the post, and ann opens it only after that and likes it too. -/
theorem likes_eq_likers_duo :
    ∃ s, Machine.run (step duo) init (signingUp ++ submitting ++ publishing ++ opening 1
        ++ tapping 1 ++ opening 0 ++ tapping 0) = some s ∧
      storedNumber s.db (.social "p") "likes" = some (likers "p" s.db : Int) := by
  obtain ⟨s, hs, hquiet, hpub, hkept⟩ :
      ∃ s, Machine.run (step duo) init (signingUp ++ submitting ++ publishing ++ opening 1
          ++ tapping 1 ++ opening 0 ++ tapping 0) = some s ∧
        s.net.Quiet ∧ (∃ r ∈ s.net.committed, r.publishes "ann" "p") ∧
        .deleteSocial "p" ∉ s.net.committed := by
    decide +kernel
  exact ⟨s, hs, likes_eq_likers hs (by decide +kernel) hquiet ⟨"ann", hpub⟩ hkept⟩

set_option maxRecDepth 100000 in
/-- **A like is lost.**  Ann and bob open the post when it has no likes, and then both tap:
it has two likes, and counts one. -/
theorem like_is_lost :
    ∃ s, Machine.run (step duo) init (signingUp ++ submitting ++ publishing ++ opening 0
        ++ opening 1 ++ tapping 0 ++ tapping 1) = some s ∧
      s.net.Quiet ∧ (∃ r ∈ s.net.committed, r.publishes "ann" "p") ∧
      .deleteSocial "p" ∉ s.net.committed ∧
      storedNumber s.db (.social "p") "likes" = some 1 ∧ likers "p" s.db = 2 := by
  decide +kernel

end UTrend
