/-
The two stored copies of a count.

A tap writes the new count to the author's copy and then to the public one, in two
writes.  When the pairs of two phones are applied crosswise, the last write to one
copy and the last write to the other come from different taps.  `Uncrossed` says
that the phones get to the public copy in the order in which they got to the
author's.

Each phone sends the same taps to both copies, in the same order, so when nothing
waits an uncrossed log has the same taps for both (`Net.eq_of_turns_prefix`), and
what each copy holds is the outcome of the last.
-/
import UTrend.Proofs.Deletion

namespace UTrend

variable {C : Type} {me : C → String} {s s' : World C} {u id : String}

open World

/-- The tap whose count a request puts into the author's copy of the post. -/
def Request.postTap (id : String) : Request → Option Tap
  | .countPost _ i tap => if i = id then some tap else none
  | _ => none

/-- The tap whose count a request puts into the public copy of the post. -/
def Request.socialTap (id : String) : Request → Option Tap
  | .countSocial i tap => if i = id then some tap else none
  | _ => none

/-- The taps that a log has applied, with the phone of each. -/
def tapsOf (f : Request → Option Tap) (log : List (C × Request)) : List (C × Tap) :=
  log.filterMap fun x => (f x.2).map fun tap => (x.1, tap)

/-- A count that is applied to the public copy of the post is from the phone whose turn it
is, by the order of the counts of the author's copy. -/
def Uncrossed (id : String) (s : World C) (c : C) (r : Request) : Prop :=
  (r.socialTap id).isSome → (tapsOf (Request.socialTap id) s.net.log).map Prod.fst ++ [c]
    <+: (tapsOf (Request.postTap id) s.net.log).map Prod.fst

instance [DecidableEq C] (id : String) (s : World C) (c : C) (r : Request) :
    Decidable (Uncrossed id s c r) :=
  inferInstanceAs (Decidable ((r.socialTap id).isSome → _ <+: _))

/-- What the last tap wrote; before any tap the count is 0. -/
def lastNum (taps : List Tap) : Int := (taps.getLast?.map Tap.newNum).getD 0

/-! ### One phone -/

/-- **An event sends the same taps to both copies.** -/
theorem Effect.same_taps {c : C} {e : Event C} {rs : List Request} {reads : List Read}
    {uploads : List StorageRef} (h : Effect me s c e rs reads uploads) (id : String) :
    rs.filterMap (Request.postTap id) = rs.filterMap (Request.socialTap id) := by
  cases h with
  | tap imgN hv huID hid hnumber hfilled =>
      rename_i v uID i tap
      by_cases hi : i = id <;> cases hf : tap.filled <;>
        simp [SocialMore.tapRequests, List.filterMap_cons, Request.postTap, Request.socialTap,
          hi, hf]
  | _ => simp [List.filterMap_cons, Request.postTap, Request.socialTap]

theorem tapsOf_each [DecidableEq C] (f : Request → Option Tap) (n : Net C Request) (c : C) :
    ((tapsOf f n.log).filter fun x => x.1 = c).map Prod.snd
      = (n.committedBy c).filterMap f := by
  rw [Net.committedBy, List.filterMap_map, tapsOf]
  induction n.log with
  | nil => rfl
  | cons x log ih =>
      by_cases hc : x.1 = c <;> cases hf : f x.2 <;>
        simp [hc, hf, ih]

theorem tapsOf_snd (f : Request → Option Tap) (log : List (C × Request)) :
    (tapsOf f log).map Prod.snd = (log.map Prod.snd).filterMap f := by
  rw [tapsOf, List.map_filterMap, List.filterMap_map]
  refine List.filterMap_congr fun x _ => ?_
  rw [Function.comp_apply, Option.map_map]
  exact Option.map_id'

/-! ### The log -/

variable [DecidableEq C]

theorem same_taps_run {es : List (Event C)} (hrun : Machine.run (step me) init es = some s)
    (c : C) : (s.net.history c).filterMap (Request.postTap id)
      = (s.net.history c).filterMap (Request.socialTap id) := by
  refine Machine.invariant_run_all
    (I := fun s => (s.net.history c).filterMap (Request.postTap id)
      = (s.net.history c).filterMap (Request.socialTap id)) ?_ (by simp [init]) hrun
  intro s e s' hI h
  obtain ⟨rs, heff, hhist⟩ := step_history h c
  rw [hhist, List.filterMap_append, List.filterMap_append, hI, heff.same_taps id]

theorem turns_run {es : List (Event C)} (hrun : Machine.run (step me) init es = some s)
    (huncrossed : Machine.Along (step me) (OnCommit (Uncrossed id)) init es) :
    (tapsOf (Request.socialTap id) s.net.log).map Prod.fst
      <+: (tapsOf (Request.postTap id) s.net.log).map Prod.fst := by
  refine log_invariant (P := Uncrossed id)
    (J := fun log => (tapsOf (Request.socialTap id) log).map Prod.fst
      <+: (tapsOf (Request.postTap id) log).map Prod.fst) List.prefix_rfl ?_ hrun huncrossed
  intro s c r rest _ _ hP hJ
  have hconcat : ∀ f : Request → Option Tap, (tapsOf f (s.net.log ++ [(c, r)])).map Prod.fst
      = (tapsOf f s.net.log).map Prod.fst ++ if (f r).isSome then [c] else [] := by
    intro f
    cases hf : f r <;> simp [tapsOf, List.filterMap_append, hf]
  rw [hconcat, hconcat]
  by_cases hr : (r.socialTap id).isSome
  · rw [if_pos hr]
    exact (hP hr).trans (List.prefix_append _ _)
  · rw [if_neg hr, List.append_nil]
    exact hJ.trans (List.prefix_append _ _)

/-- What the copies of a post hold is what the last tap wrote to each. -/
structure Latest (id : String) (rs : List Request) : Prop where
  post : ∀ u d, (contents rs).lookup (.post u id) = some d →
    Doc.number d "likes" = some (lastNum (rs.filterMap (Request.postTap id)))
  social : ∀ d, (contents rs).lookup (.social id) = some d →
    Doc.number d "likes" = some (lastNum (rs.filterMap (Request.socialTap id)))

theorem lastNum_concat (taps : List Tap) (tap : Tap) : lastNum (taps ++ [tap]) = tap.newNum := by
  simp [lastNum]

theorem filterMap_concat_none {f : Request → Option Tap} {rs : List Request} {r : Request}
    (h : f r = none) : (rs ++ [r]).filterMap f = rs.filterMap f := by
  simp [List.filterMap_append, h]

theorem filterMap_concat_some {f : Request → Option Tap} {rs : List Request} {r : Request}
    {tap : Tap} (h : f r = some tap) : (rs ++ [r]).filterMap f = rs.filterMap f ++ [tap] := by
  simp [List.filterMap_append, h]

/-- **Every write keeps the copies the latest.** -/
theorem Sound.latest_concat (hS : Sound me s) {c : C} {r : Request} {rest : List Request}
    (hq : s.net.queue c = r :: rest) (hL : Latest id s.net.committed) :
    Latest id (s.net.committed ++ [r]) where
  post u d hd := by
    rw [lookup_contents_concat] at hd
    by_cases hpath : r.path = .post u id
    · rw [if_pos hpath] at hd
      rcases Request.path_eq_post hpath with ⟨caption, imgName, rfl⟩ | ⟨tap, rfl⟩ | rfl
      · have hnone : s.net.committed.filterMap (Request.postTap id) = [] := by
          refine List.filterMap_eq_nil_iff.mpr fun x hx => ?_
          cases x with
          | countPost w i tap =>
              refine if_neg fun hi => ?_
              subst hi
              exact hS.not_counted_post hq w tap hx
          | _ => rfl
        rw [filterMap_concat_none rfl, hnone]
        obtain rfl := (Option.some.inj hd).symm
        rfl
      · rw [filterMap_concat_some (if_pos rfl), lastNum_concat]
        obtain rfl := (Option.some.inj hd).symm
        rfl
      · simp [Request.write, DocStore.Write.result] at hd
    · rw [if_neg hpath] at hd
      rw [filterMap_concat_none, hL.post u d hd]
      cases r with
      | countPost w i tap =>
          refine if_neg fun hi => ?_
          subst hi
          -- a count of another author's copy would be of another post
          have hw : Created s.net.committed w i := (hS.postOrder w i).head hq ⟨tap, rfl⟩
          have hu := hS.created_of_mem (DocStore.mem_of_lookup hd)
          obtain rfl := hS.author_eq_committed hw hu
          exact hpath rfl
      | _ => rfl
  social d hd := by
    rw [lookup_contents_concat] at hd
    by_cases hpath : r.path = .social id
    · rw [if_pos hpath] at hd
      rcases Request.path_eq_social hpath with
        ⟨u, caption, imgName, profImg, username, rfl⟩ | ⟨tap, rfl⟩ | rfl
      · have hnone : s.net.committed.filterMap (Request.socialTap id) = [] := by
          refine List.filterMap_eq_nil_iff.mpr fun x hx => ?_
          cases x with
          | countSocial i tap =>
              refine if_neg fun hi => ?_
              subst hi
              exact hS.not_counted_social hq tap hx
          | _ => rfl
        rw [filterMap_concat_none rfl, hnone]
        obtain rfl := (Option.some.inj hd).symm
        rfl
      · rw [filterMap_concat_some (if_pos rfl), lastNum_concat]
        obtain rfl := (Option.some.inj hd).symm
        rfl
      · simp [Request.write, DocStore.Write.result] at hd
    · rw [if_neg hpath] at hd
      rw [filterMap_concat_none, hL.social d hd]
      cases r with
      | countSocial i tap =>
          refine if_neg fun hi => ?_
          subst hi
          exact hpath rfl
      | _ => rfl

/-- **The two copies agree whenever nothing waits, in runs whose counts are not crossed.** -/
theorem copies_agree {es : List (Event C)} (hrun : Machine.run (step me) init es = some s)
    (huncrossed : Machine.Along (step me) (OnCommit (Uncrossed id)) init es)
    (hquiet : s.net.Quiet) (hpost : Path.post u id ∈ s.db) (hsocial : Path.social id ∈ s.db) :
    ∃ n, storedNumber s.db (.post u id) "likes" = some n ∧
      storedNumber s.db (.social id) "likes" = some n := by
  have hL : Latest id s.net.committed := by
    refine log_invariant (P := Uncrossed id) (J := fun log => Latest id (log.map Prod.snd))
      ⟨by simp, by simp⟩ (fun s c r rest hS hq _ hJ => ?_) hrun huncrossed
    rw [committed_concat]
    exact hS.latest_concat hq hJ
  have htaps : tapsOf (Request.socialTap id) s.net.log
      = tapsOf (Request.postTap id) s.net.log := by
    refine Net.eq_of_turns_prefix (turns_run hrun huncrossed) fun c => ?_
    rw [tapsOf_each, tapsOf_each, ← hquiet.history_eq, same_taps_run hrun c]
  have hsame := congrArg (List.map Prod.snd) htaps
  rw [tapsOf_snd, tapsOf_snd] at hsame
  obtain ⟨d, hd⟩ := DocStore.exists_lookup_of_mem hpost
  obtain ⟨d', hd'⟩ := DocStore.exists_lookup_of_mem hsocial
  refine ⟨lastNum (s.net.committed.filterMap (Request.postTap id)), ?_, ?_⟩
  · rw [storedNumber, hd]
    exact hL.post u d hd
  · rw [storedNumber, hd']
    exact (hL.social d' hd').trans (by rw [Net.committed, hsame])

set_option maxRecDepth 100000 in
/-- Bob's counts and then ann's are applied. -/
theorem copies_agree_duo :
    ∃ s, Machine.run (step duo) init (signingUp ++ submitting ++ publishing ++ opening 0
        ++ opening 1 ++ tapping 1 ++ tapping 0) = some s ∧
      ∃ n, storedNumber s.db (.post "ann" "p") "likes" = some n ∧
        storedNumber s.db (.social "p") "likes" = some n := by
  obtain ⟨s, hs, hquiet, hpost, hsocial⟩ :
      ∃ s, Machine.run (step duo) init (signingUp ++ submitting ++ publishing ++ opening 0
          ++ opening 1 ++ tapping 1 ++ tapping 0) = some s ∧
        s.net.Quiet ∧ Path.post "ann" "p" ∈ s.db ∧ Path.social "p" ∈ s.db := by
    decide +kernel
  exact ⟨s, hs, copies_agree hs (by decide +kernel) hquiet hpost hsocial⟩

/-- Ann likes the post and takes it back, bob likes it, and ann's last count of the public
copy is applied after bob's. -/
def crossing (ann bob : Fin 2) : List (Event (Fin 2)) :=
  [.act ann (.tap "ann's"), .act ann (.tap "ann's"), .act bob (.tap "bob's"), .commit ann,
    .commit ann, .commit ann, .commit ann, .commit bob, .commit bob, .commit bob, .commit ann,
    .commit ann]

set_option maxRecDepth 100000 in
/-- **The copies disagree.**  The last count of the author's copy is bob's, and the last of
the public copy is ann's. -/
theorem copies_disagree :
    ∃ s, Machine.run (step duo) init (signingUp ++ submitting ++ publishing ++ opening 0
        ++ opening 1 ++ crossing 0 1) = some s ∧
      s.net.Quiet ∧ storedNumber s.db (.post "ann" "p") "likes" = some 1 ∧
      storedNumber s.db (.social "p") "likes" = some 0 := by
  decide +kernel

end UTrend
