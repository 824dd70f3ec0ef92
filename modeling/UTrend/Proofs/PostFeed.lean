/-
Delete, and the post that was tapped.

The action deletes by the cell that is at the tapped index path when it is pressed.
Callbacks of fetches can run while the alert is up, and the reload after one of them gives
the index path another post, or none.  `Stays` says that this does not happen: the last
reload since the tap, if there is one, shows a post with the tapped one's id there.
`delete_right_iff` is that Delete then removes both copies of the tapped post, and
otherwise something else, or traps.
-/
import UTrend.Lib.Machine
import UTrend.Model.PostFeed

namespace UTrend

namespace PostFeed

variable {s s' : PostFeed}

/-- The array after some events. -/
def itemsAfter (items : List Post) : List FeedEvent → List Post
  | [] => items
  | .fetchData :: es => itemsAfter (postFeed.fetchData.call items) es
  | .arrive (some snap) :: es => itemsAfter (postFeed.fetchData.append items snap) es
  | .arrive none :: es | .reload _ :: es => itemsAfter items es

/-- The last reload among the events, if there is one, shows a post with the id `pid` at
`i`. -/
def Stays (i : Nat) (pid : String) (items : List Post) (es : List FeedEvent) : Prop :=
  ∀ before visible after, es = before ++ .reload visible :: after →
    (∀ v, .reload v ∉ after) →
      visible i = true ∧ ∃ post, (itemsAfter items before)[i]? = some post ∧ post.pid = some pid

/-! ### One event -/

theorem step_eq_some {e : FeedEvent} (h : s.step e = some s') :
    s.list.step postFeed.fetchData e.list = some s'.list ∧
      ((∀ v, e ≠ .reload v) → s'.cells = s.cells) ∧
      ∀ visible, e = .reload visible → s'.cells = layout s'.list.items visible := by
  obtain ⟨list, hlist, h⟩ := Option.bind_eq_some_iff.mp h
  cases e with
  | reload visible =>
      dsimp only at h
      split at h
      · obtain rfl := Option.some.inj h
        refine ⟨hlist, fun hne => absurd rfl (hne visible), ?_⟩
        rintro v ⟨rfl⟩
        rfl
      · simp at h
  | fetchData =>
      obtain rfl := Option.some.inj h
      exact ⟨hlist, fun _ => rfl, nofun⟩
  | arrive snap =>
      obtain rfl := Option.some.inj h
      exact ⟨hlist, fun _ => rfl, nofun⟩

/-- The array changes as its fetches and callbacks say. -/
theorem step_items {e : FeedEvent} (h : s.step e = some s') :
    s'.list.items = itemsAfter s.list.items [e] := by
  obtain ⟨hlist, -, -⟩ := step_eq_some h
  cases e with
  | fetchData =>
      obtain hs' := Option.some.inj hlist
      rw [← hs']
      rfl
  | arrive snap =>
      simp only [FeedEvent.list, ListView.step] at hlist
      split at hlist
      · simp at hlist
      · cases snap <;>
        · obtain hs' := Option.some.inj hlist
          rw [← hs']
          rfl
  | reload visible =>
      simp only [FeedEvent.list, ListView.step] at hlist
      split at hlist
      · simp at hlist
      · obtain hs' := Option.some.inj hlist
        rw [← hs']
        rfl

/-! ### Between the tap and the action -/

theorem itemsAfter_append (items : List Post) (es fs : List FeedEvent) :
    itemsAfter items (es ++ fs) = itemsAfter (itemsAfter items es) fs := by
  induction es generalizing items with
  | nil => rfl
  | cons e es ih =>
      cases e with
      | arrive snap => cases snap <;> exact ih _
      | _ => exact ih _

theorem run_items {es : List FeedEvent} (hrun : Machine.run step s es = some s') :
    s'.list.items = itemsAfter s.list.items es := by
  refine Machine.history_run_all
    (I := fun past (m : PostFeed) => m.list.items = itemsAfter s.list.items past) ?_ rfl hrun
  intro past m e m' hm h
  rw [step_items h, hm, itemsAfter_append]

/-- Without a reload the cells stay. -/
theorem run_cells {es : List FeedEvent} (hnone : ∀ v, .reload v ∉ es)
    (hrun : Machine.run step s es = some s') : s'.cells = s.cells := by
  have hall : ∀ e ∈ es, ∀ v, e ≠ .reload v := fun e he v hv => hnone v (hv ▸ he)
  refine Machine.invariant_run (I := fun m : PostFeed => m.cells = s.cells) ?_ rfl
    (Machine.along_of_forall hall s) hrun
  intro m e m' hm he h
  rw [(step_eq_some h).2.1 he, hm]

/-- After the last reload the cells show the array as it was then. -/
theorem run_cells_reload {before after : List FeedEvent} {visible : Nat → Bool}
    (hnone : ∀ v, .reload v ∉ after)
    (hrun : Machine.run step s (before ++ .reload visible :: after) = some s') :
    s'.cells = layout (itemsAfter s.list.items before) visible := by
  obtain ⟨m, hm, hrest⟩ := Machine.run_append_eq_some.mp hrun
  obtain ⟨t, ht, hlast⟩ := Machine.run_cons_eq_some.mp hrest
  rw [run_cells hnone hlast, (step_eq_some ht).2.2 visible rfl, step_items ht, run_items hm]
  rfl

/-- A list with a reload has a last one. -/
theorem exists_last_reload {es : List FeedEvent} (h : ∃ v, .reload v ∈ es) :
    ∃ before visible after, es = before ++ .reload visible :: after ∧
      ∀ v, .reload v ∉ after := by
  induction es with
  | nil => simp at h
  | cons e es ih =>
      by_cases hlater : ∃ v, .reload v ∈ es
      · obtain ⟨before, visible, after, rfl, hnone⟩ := ih hlater
        exact ⟨e :: before, visible, after, rfl, hnone⟩
      · obtain ⟨v, hv⟩ := h
        rcases List.mem_cons.mp hv with rfl | hv
        · exact ⟨[], v, es, rfl, fun w hw => hlater ⟨w, hw⟩⟩
        · exact absurd ⟨v, hv⟩ hlater

theorem deletePressed_eq_some_iff {me pid : String} {i : Nat} :
    s.deletePressed me i = some [.deletePost me pid, .deleteSocial pid] ↔
      (s.cells i).bind Post.pid = some pid := by
  unfold deletePressed postFeed.deleteAction
  cases (s.cells i).bind Post.pid with
  | none => simp
  | some x => simp

theorem layout_pid_iff {items : List Post} {visible : Nat → Bool} {i : Nat} {pid : String} :
    (layout items visible i).bind Post.pid = some pid ↔
      visible i = true ∧ ∃ post, items[i]? = some post ∧ post.pid = some pid := by
  unfold layout
  split
  · rename_i hvisible
    simp [hvisible, Option.bind_eq_some_iff]
  · rename_i hvisible
    simp [hvisible]

/-- **Delete removes both copies of the post that was tapped, and nothing else, if and only if
the post has an id and the last reload since the tap still shows it where it was.** -/
theorem delete_right_iff {me : String} {i : Nat} {post : Post} {es : List FeedEvent}
    (hcell : s.cells i = some post) (hrun : Machine.run step s es = some s') :
    (∃ pid, post.pid = some pid ∧
        s'.deletePressed me i = some [.deletePost me pid, .deleteSocial pid]) ↔
      ∃ pid, post.pid = some pid ∧ Stays i pid s.list.items es := by
  refine exists_congr fun pid => and_congr_right fun hpid => ?_
  rw [deletePressed_eq_some_iff]
  constructor
  · rintro hdelete before visible after rfl hnone
    rw [run_cells_reload hnone hrun] at hdelete
    exact layout_pid_iff.mp hdelete
  · intro hstays
    by_cases hreload : ∃ v, .reload v ∈ es
    · obtain ⟨before, visible, after, rfl, hnone⟩ := exists_last_reload hreload
      rw [run_cells_reload hnone hrun]
      exact layout_pid_iff.mpr (hstays before visible after rfl hnone)
    · rw [run_cells (fun v hv => hreload ⟨v, hv⟩) hrun, hcell]
      exact hpid

/-! ### Another post, or none -/

/-- The author's copy of a post. -/
def postDoc (id : String) : Doc :=
  DocStore.Doc.empty.update [("caption", .str "c"), ("postImg", .str "i"), ("likes", .num 0),
    ("timestamp", .str "1 day ago"), ("ID", .str id), ("uid", .str "amy")]

/-- One post has been shown, and the feed is fetched again. -/
def fetchedAgain : List FeedEvent :=
  [.fetchData, .arrive (some [postDoc "p"]), .reload fun _ => true, .fetchData]

/-- The fetch brings the same post, and Delete removes it. -/
theorem delete_right_again :
    ∃ s, Machine.run step {} fetchedAgain = some s ∧ ∃ post, s.cells 0 = some post ∧
      ∃ s', Machine.run step s [.arrive (some [postDoc "p"]), .reload fun _ => true] = some s' ∧
        ((∃ pid, post.pid = some pid ∧
            s'.deletePressed "amy" 0 = some [.deletePost "amy" pid, .deleteSocial pid]) ↔
          ∃ pid, post.pid = some pid ∧
            Stays 0 pid s.list.items [.arrive (some [postDoc "p"]), .reload fun _ => true]) := by
  obtain ⟨s, hs, hcell, s', hs', -⟩ : ∃ s, Machine.run step {} fetchedAgain = some s ∧
      (s.cells 0).isSome ∧
      ∃ s', Machine.run step s [.arrive (some [postDoc "p"]), .reload fun _ => true] = some s' ∧
        True := by
    decide +kernel
  obtain ⟨post, hcell⟩ := Option.isSome_iff_exists.mp hcell
  exact ⟨s, hs, post, hcell, s', hs', delete_right_iff hcell hs'⟩

/-- **Delete removes a post that was not tapped**, when a new one has come before it; and it
traps when the list has got shorter. -/
theorem deletes_another :
    ∃ s, Machine.run step {} fetchedAgain = some s ∧ (s.cells 0).bind Post.pid = some "p" ∧
      (∃ s', Machine.run step s [.arrive (some [postDoc "q", postDoc "p"]),
          .reload fun _ => true] = some s' ∧
        s'.deletePressed "amy" 0 = some [.deletePost "amy" "q", .deleteSocial "q"]) ∧
      ∃ s', Machine.run step s [.arrive (some []), .reload fun _ => true] = some s' ∧
        s'.deletePressed "amy" 0 = none := by
  decide +kernel

end PostFeed

end UTrend
