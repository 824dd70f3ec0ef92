/-
The arrays behind the collection views.

The array is emptied when its fetch is called and appended to when the callback
runs, and the view counts it when it reloads.  Two things go wrong between these.
Two calls that overlap both append to the array that both have emptied, so that it
holds two snapshots.  And from the call to the reload the view counts items that
the array no longer has, so that a subscript can be out of range.

A fetch that fails leaves the array empty, and the view as it was.

`Alone` is the condition against the first: a callback finds the array empty or
brings nothing.  For the second, `Since` follows what has happened to a view since
its last reload, and says exactly which subscripts are in range.
-/
import UTrend.Model.ListView

namespace UTrend

variable {α : Type} {L : Loader α} {v v' : ListView α}

namespace ListView

/-! ### One event -/

theorem step_arrive_some {snap : List Doc} (h : v.step L (.arrive (some snap)) = some v') :
    0 < v.pending ∧ v' = { v with
      items := L.append v.items snap
      pending := v.pending - 1
      reloads := v.reloads + 1 } := by
  simp only [step] at h
  split at h
  · simp at h
  · rename_i hpending
    exact ⟨Nat.pos_of_ne_zero hpending, (Option.some.inj h).symm⟩

theorem step_arrive_none (h : v.step L (.arrive none) = some v') :
    v' = { v with pending := v.pending - 1 } := by
  simp only [step] at h
  split at h
  · simp at h
  · exact (Option.some.inj h).symm

theorem step_reload (h : v.step L .reload = some v') :
    v' = { v with reloads := v.reloads - 1, cached := v.items.length } := by
  simp only [step] at h
  split at h
  · simp at h
  · exact (Option.some.inj h).symm

/-- Asking for a cell and tapping an item change nothing. -/
theorem step_item {e : ListEvent} {i : Nat} (he : e = .cellForItemAt i ∨ e = .didSelectItemAt i)
    (h : v.step L e = some v') : v' = v := by
  rcases he with rfl | rfl
  all_goals
    simp only [step] at h
    split at h
    · exact (Option.some.inj h).symm
    · simp at h

/-! ### Overlapping loads -/

/-- The snapshots that have been delivered. -/
def delivered : List ListEvent → List (List Doc)
  | [] => []
  | .arrive (some snap) :: es => snap :: delivered es
  | _ :: es => delivered es

/-- A callback finds the array empty, or brings nothing that is kept. -/
def Alone (L : Loader α) (v : ListView α) : ListEvent → Prop
  | .arrive (some snap) => v.items = [] ∨ L.listOf snap = []
  | _ => True

instance [DecidableEq α] (L : Loader α) (v : ListView α) : ∀ e, Decidable (Alone L v e)
  | .arrive (some snap) => inferInstanceAs (Decidable (v.items = [] ∨ L.listOf snap = []))
  | .arrive none | .fetch | .reload | .cellForItemAt _ | .didSelectItemAt _ => isTrue trivial

/-- The array is the list of one of the snapshots, or it is empty while a call waits, or
nothing has happened yet. -/
structure Loaded (L : Loader α) (snaps : List (List Doc)) (v : ListView α) : Prop where
  pending : 0 < v.pending → v.items = [] ∨ ∃ snap ∈ snaps, v.items = L.listOf snap
  idle : v.pending = 0 → snaps = [] ∨ ∃ snap ∈ snaps, v.items = L.listOf snap

/-- **A callback that is alone leaves the list of one snapshot.** -/
theorem loaded_step {snaps : List (List Doc)} {e : ListEvent} (hL : Loaded L snaps v)
    (halone : Alone L v e) (hok : e ≠ .arrive none) (h : v.step L e = some v') :
    Loaded L (snaps ++ delivered [e]) v' := by
  cases e with
  | fetch =>
      obtain rfl := (Option.some.inj h).symm
      exact ⟨fun _ => Or.inl rfl, by simp⟩
  | arrive snap =>
      cases snap with
      | none => exact absurd rfl hok
      | some snap =>
          obtain ⟨hpending, rfl⟩ := step_arrive_some h
          have hone : ∃ x ∈ snaps ++ delivered [.arrive (some snap)],
              L.append v.items snap = L.listOf x := by
            rw [Loader.append_eq]
            rcases hL.pending hpending with hnil | ⟨x, hx, hitems⟩
            · exact ⟨snap, by simp [delivered], by rw [hnil, List.nil_append]⟩
            · rcases halone with hnil | hnil
              · exact ⟨snap, by simp [delivered], by rw [hnil, List.nil_append]⟩
              · exact ⟨x, List.mem_append_left _ hx, by rw [hnil, List.append_nil, hitems]⟩
          exact ⟨fun _ => Or.inr hone, fun _ => Or.inr hone⟩
  | reload =>
      obtain rfl := step_reload h
      simpa [delivered] using ⟨hL.pending, hL.idle⟩
  | cellForItemAt i =>
      obtain rfl := step_item (Or.inl rfl) h
      simpa [delivered] using hL
  | didSelectItemAt i =>
      obtain rfl := step_item (Or.inr rfl) h
      simpa [delivered] using hL

theorem delivered_append (es fs : List ListEvent) :
    delivered (es ++ fs) = delivered es ++ delivered fs := by
  induction es with
  | nil => rfl
  | cons e es ih =>
      cases e with
      | arrive snap => cases snap <;> simp [delivered, ih]
      | _ => simp [delivered, ih]

theorem loaded_run {es : List ListEvent} (hok : .arrive none ∉ es) (hL : Loaded L [] v)
    (halone : Machine.Along (step L) (Alone L) v es)
    (hrun : Machine.run (step L) v es = some v') : Loaded L (delivered es) v' := by
  have hall : ∀ e ∈ es, e ≠ .arrive none := fun e he hnone => hok (hnone ▸ he)
  have halong := Machine.along_and.mpr ⟨halone, Machine.along_of_forall hall v⟩
  refine Machine.history_run (I := fun past v => Loaded L (delivered past) v) ?_ hL halong hrun
  intro past v e v' hL hP h
  rw [delivered_append]
  exact loaded_step hL hP.1 hP.2 h

end ListView

/-- **When every callback is alone, the list is that of one delivered snapshot, for each of
the seven loaders.** -/
theorem list_of_one_snapshot (k : View) {v v' : ListView k.Item} {es : List ListEvent}
    (hstart : v.pending = 0) (hrun : Machine.run (ListView.step k.loader) v es = some v')
    (hok : .arrive none ∉ es)
    (halone : Machine.Along (ListView.step k.loader) (ListView.Alone k.loader) v es)
    (hdelivered : ListView.delivered es ≠ []) (hnone : v'.pending = 0) :
    ∃ snap ∈ ListView.delivered es, v'.items = k.loader.listOf snap := by
  have hL : ListView.Loaded k.loader [] v :=
    ⟨fun h => absurd hstart (Nat.ne_of_gt h), fun _ => Or.inl rfl⟩
  have hloaded := ListView.loaded_run hok hL halone hrun
  exact (hloaded.idle hnone).resolve_left hdelivered

/-- A piece of clothing in the closet. -/
def aTop : Doc := DocStore.Doc.empty.update [("imgName", .str "img"), ("type", .str "top")]

/-- Two loads, one after the other. -/
theorem list_of_one_snapshot_tops :
    ∃ v', Machine.run (ListView.step View.tops.loader) {}
        [.fetch, .arrive (some [aTop]), .fetch, .arrive (some [aTop, aTop])] = some v' ∧
      ∃ snap ∈ [[aTop], [aTop, aTop]], v'.items = View.tops.loader.listOf snap := by
  obtain ⟨v', hv', hnone⟩ : ∃ v', Machine.run (ListView.step View.tops.loader) {}
      [.fetch, .arrive (some [aTop]), .fetch, .arrive (some [aTop, aTop])] = some v' ∧
        v'.pending = 0 := by
    decide +kernel
  exact ⟨v', hv', list_of_one_snapshot .tops rfl hv' (by simp) (by decide +kernel)
    (by simp [ListView.delivered]) hnone⟩

/-- **Two loads that overlap show everything twice.** -/
theorem overlapping_loads_duplicate :
    ∃ v', Machine.run (ListView.step View.tops.loader) {}
        [.fetch, .fetch, .arrive (some [aTop]), .arrive (some [aTop])] = some v' ∧
      v'.pending = 0 ∧ ∀ snap ∈ [[aTop], [aTop]], v'.items ≠ View.tops.loader.listOf snap := by
  decide +kernel

/-! ### Fetches that fail -/

/-- The view has shown what is in the array. -/
structure ListView.Settled (v : ListView α) : Prop where
  reloads : v.reloads = 0
  cached : v.cached = v.items.length

theorem ListView.failed_step {e : ListEvent} (hfail : ∀ snap, e ≠ .arrive (some snap))
    (hreloads : v.reloads = 0) (h : v.step L e = some v') :
    v'.reloads = 0 ∧ v'.cached = v.cached ∧ (e = .fetch → v'.items = []) ∧
      (e ≠ .fetch → v'.items = v.items) := by
  cases e with
  | fetch =>
      obtain rfl := (Option.some.inj h).symm
      exact ⟨hreloads, rfl, fun _ => rfl, fun hne => absurd rfl hne⟩
  | arrive snap =>
      cases snap with
      | none =>
          obtain rfl := step_arrive_none h
          exact ⟨hreloads, rfl, nofun, fun _ => rfl⟩
      | some snap => exact absurd rfl (hfail snap)
  | reload => simp [step, hreloads] at h
  | cellForItemAt i =>
      obtain rfl := step_item (Or.inl rfl) h
      exact ⟨hreloads, rfl, nofun, fun _ => rfl⟩
  | didSelectItemAt i =>
      obtain rfl := step_item (Or.inr rfl) h
      exact ⟨hreloads, rfl, nofun, fun _ => rfl⟩

/-- **Where no callback brings a snapshot, a call leaves the array empty.**  The view is not
reloaded. -/
theorem ListView.failed_run {es : List ListEvent} (hfail : ∀ snap, .arrive (some snap) ∉ es)
    (hreloads : v.reloads = 0) (hrun : Machine.run (step L) v es = some v') :
    v'.cached = v.cached ∧ (.fetch ∈ es → v'.items = []) ∧ (.fetch ∉ es → v'.items = v.items) := by
  have hall : ∀ e ∈ es, ∀ snap, e ≠ .arrive (some snap) :=
    fun e he snap hsome => hfail snap (hsome ▸ he)
  refine (Machine.history_run (I := fun past (m : ListView α) => m.reloads = 0 ∧
    m.cached = v.cached ∧ (.fetch ∈ past → m.items = []) ∧ (.fetch ∉ past → m.items = v.items))
    ?_ ⟨hreloads, rfl, by simp, fun _ => rfl⟩ (Machine.along_of_forall hall v) hrun).2
  rintro past m e m' ⟨hm, hcached, hfetch, hother⟩ he h
  obtain ⟨hm', hcached', hnow, hkept⟩ := failed_step he hm h
  refine ⟨hm', hcached'.trans hcached, fun hmem => ?_, fun hnone => ?_⟩
  · by_cases hlast : e = .fetch
    · exact hnow hlast
    · have hearlier : .fetch ∈ past := by simpa [Ne.symm hlast] using hmem
      rw [hkept hlast, hfetch hearlier]
  · simp only [List.mem_append, List.mem_singleton, not_or] at hnone
    rw [hkept (Ne.symm hnone.2), hother hnone.1]

/-- **Fetches that all fail leave the list as it was, and as long as the view shows it, if
and only if it was empty or none was called, for each of the seven loaders.** -/
theorem list_kept_iff (k : View) {v v' : ListView k.Item} {es : List ListEvent}
    (hsettled : v.Settled) (hrun : Machine.run (ListView.step k.loader) v es = some v')
    (hfail : ∀ snap, .arrive (some snap) ∉ es) :
    (v'.items = v.items ∧ v'.items.length = v'.cached) ↔ (v.items = [] ∨ .fetch ∉ es) := by
  obtain ⟨hcached, hfetch, hother⟩ := ListView.failed_run hfail hsettled.reloads hrun
  rw [hcached, hsettled.cached]
  constructor
  · rintro ⟨hitems, -⟩
    by_cases hmem : .fetch ∈ es
    · exact Or.inl (hitems ▸ hfetch hmem)
    · exact Or.inr hmem
  · intro h
    have hitems : v'.items = v.items := by
      by_cases hmem : .fetch ∈ es
      · rw [hfetch hmem, h.resolve_right (by simpa using hmem)]
      · exact hother hmem
    exact ⟨hitems, by rw [hitems]⟩

/-- A list that is empty stays so through two fetches that fail. -/
theorem list_kept_tops :
    ∃ v', Machine.run (ListView.step View.tops.loader) {} [.fetch, .fetch, .arrive none,
        .arrive none] = some v' ∧ v'.items = [] ∧ v'.items.length = v'.cached := by
  obtain ⟨v', hv', -⟩ : ∃ v', Machine.run (ListView.step View.tops.loader) {} [.fetch, .fetch,
      .arrive none, .arrive none] = some v' ∧ True := by
    decide +kernel
  exact ⟨v', hv', (list_kept_iff .tops ⟨rfl, rfl⟩ hv' (by simp)).mpr (Or.inl rfl)⟩

/-- **One failure loses the list.**  The rack has been loaded and shown, and is fetched
again. -/
theorem list_lost :
    ∃ v, Machine.run (ListView.step View.tops.loader) {} [.fetch, .arrive (some [aTop]),
        .reload] = some v ∧ v.items.length = 1 ∧ v.cached = 1 ∧ v.pending = 0 ∧ v.reloads = 0 ∧
      ∃ v', Machine.run (ListView.step View.tops.loader) v [.fetch, .arrive none] = some v' ∧
        v'.pending = 0 ∧ v'.items ≠ v.items ∧ v'.items.length ≠ v'.cached := by
  decide +kernel

/-! ### Subscripts -/

/-- What has happened to a view since its last reload: whether its fetch has been called,
and how many documents the callbacks have brought that are kept, counted from the last
call. -/
structure Since where
  fetched : Bool := false
  brought : Nat := 0

def Since.next (L : Loader α) (h : Since) : ListEvent → Since
  | .fetch => ⟨true, 0⟩
  | .arrive (some snap) => { h with brought := h.brought + (snap.filter L.keeps).length }
  | .reload => { h with fetched := false }
  | .arrive none | .cellForItemAt _ | .didSelectItemAt _ => h

def Since.of (L : Loader α) (es : List ListEvent) : Since := es.foldl (Since.next L) {}

/-- The item is not one that a call has thrown away since the last reload. -/
def Since.Keeps (h : Since) (i : Nat) : Prop := h.fetched = true → i < h.brought

/-- The array holds what the callbacks have brought, and what the view counts unless a call
has emptied it. -/
structure Tracks (h : Since) (v : ListView α) : Prop where
  length : v.items.length = h.brought
  cached : h.fetched = false → v.cached ≤ v.items.length

theorem tracks_step {h : Since} {e : ListEvent} (hT : Tracks h v)
    (hstep : v.step L e = some v') : Tracks (h.next L e) v' := by
  cases e with
  | fetch =>
      obtain rfl := (Option.some.inj hstep).symm
      exact ⟨rfl, by simp [Since.next]⟩
  | arrive snap =>
      cases snap with
      | none =>
          obtain rfl := ListView.step_arrive_none hstep
          exact ⟨hT.length, hT.cached⟩
      | some snap =>
          obtain ⟨-, rfl⟩ := ListView.step_arrive_some hstep
          have hlength : (L.append v.items snap).length
              = v.items.length + (snap.filter L.keeps).length := by
            rw [Loader.append_eq, List.length_append, Loader.listOf, List.length_map]
          refine ⟨?_, fun hf => ?_⟩
          · simp only [hlength, hT.length, Since.next]
          · have hcached := hT.cached hf
            simp only [hlength]
            omega
  | reload =>
      obtain rfl := ListView.step_reload hstep
      exact ⟨hT.length, fun _ => le_rfl⟩
  | cellForItemAt i =>
      obtain rfl := ListView.step_item (Or.inl rfl) hstep
      exact hT
  | didSelectItemAt i =>
      obtain rfl := ListView.step_item (Or.inr rfl) hstep
      exact hT

theorem tracks_run {es : List ListEvent} (hT : Tracks {} v)
    (hrun : Machine.run (ListView.step L) v es = some v') : Tracks (Since.of L es) v' := by
  refine Machine.history_run_all (I := fun past v => Tracks (Since.of L past) v) ?_ hT hrun
  intro past v e v' hT h
  rw [Since.of, List.foldl_concat]
  exact tracks_step hT h

/-- A subscript below the counted number is in range unless a call has thrown the item
away. -/
theorem Tracks.lt_length_iff {h : Since} (hT : Tracks h v) {i : Nat} (hi : i < v.cached) :
    i < v.items.length ↔ h.Keeps i := by
  unfold Since.Keeps
  cases hf : h.fetched with
  | false =>
      have := hT.cached hf
      simp only [Bool.false_eq_true, false_implies, iff_true]
      omega
  | true => simp only [hT.length, true_implies]

namespace Lists

/-- The events of one view. -/
def onView (k : View) : List ListsEvent → List ListEvent
  | [] => []
  | .on j e :: es => if j = k then e :: onView k es else onView k es
  | .newOutfit _ _ _ :: es => onView k es

/-- **A view runs by its own events.** -/
theorem run_view {es : List ListsEvent} (k : View) : ∀ {s s' : Lists},
    Machine.run step s es = some s' →
      Machine.run (ListView.step k.loader) (s.view k) (onView k es) = some (s'.view k) := by
  induction es with
  | nil =>
      intro s s' hrun
      obtain rfl := Option.some.inj hrun
      rfl
  | cons e es ih =>
      intro s s' hrun
      obtain ⟨m, hm, hrest⟩ := Machine.run_cons_eq_some.mp hrun
      cases e with
      | on j e =>
          obtain ⟨v, hv, rfl⟩ := Option.map_eq_some_iff.mp hm
          by_cases hj : j = k
          · subst hj
            rw [onView, if_pos rfl]
            refine Machine.run_cons_eq_some.mpr ⟨v, hv, ?_⟩
            simpa using ih hrest
          · rw [onView, if_neg hj]
            have hk : k ≠ j := fun h => hj h.symm
            simpa [Function.update_of_ne hk] using ih hrest
      | newOutfit randTop randBottom randShoes =>
          obtain rfl := (Option.some.inj hm).symm
          exact ih hrest

/-- A subscript is below the number that the view counts. -/
theorem lt_cached_of_mem {s : Lists} {e : ListsEvent} {x : View × Nat}
    (hx : x ∈ s.subscripts e) : x.2 < (s.view x.1).cached := by
  cases e with
  | on k e =>
      cases e with
      | cellForItemAt i =>
          simp only [subscripts] at hx
          split at hx
          · obtain rfl := List.mem_singleton.mp hx
            assumption
          · simp at hx
      | didSelectItemAt i =>
          cases k with
          | social =>
              simp only [subscripts] at hx
              split at hx
              · obtain rfl := List.mem_singleton.mp hx
                assumption
              · simp at hx
          | _ => simp [subscripts] at hx
      | _ => simp [subscripts] at hx
  | newOutfit randTop randBottom randShoes =>
      simp only [subscripts] at hx
      split at hx
      · split at hx
        · rename_i h
          simp only [List.mem_cons, List.not_mem_nil, or_false] at hx
          rcases hx with rfl | rfl | rfl
          · exact h.1
          · exact h.2.1
          · exact h.2.2
        · simp at hx
      · simp at hx

/-- Every subscript that `e` makes after the events `past` is in range. -/
def InRange (past : List ListsEvent) (e : ListsEvent) : Prop :=
  ∀ s, Machine.run step init past = some s → ∀ x ∈ s.subscripts e,
    x.2 < (s.view x.1).items.length

/-- Every subscript that `e` makes after the events `past` is at an item that no call has
thrown away since the view reloaded. -/
def Fresh (past : List ListsEvent) (e : ListsEvent) : Prop :=
  ∀ s, Machine.run step init past = some s → ∀ x ∈ s.subscripts e,
    (Since.of x.1.loader (onView x.1 past)).Keeps x.2

theorem inRange_iff_fresh (past : List ListsEvent) (e : ListsEvent) :
    InRange past e ↔ Fresh past e := by
  refine forall_congr' fun s => forall_congr' fun hs => ?_
  refine forall_congr' fun x => forall_congr' fun hx => ?_
  have hT : Tracks (Since.of x.1.loader (onView x.1 past)) (s.view x.1) :=
    tracks_run ⟨rfl, fun _ => le_rfl⟩ (run_view x.1 hs)
  exact hT.lt_length_iff (lt_cached_of_mem hx)

/-- **The subscripts of a run are all in range if and only if it touches only items that no
call has thrown away since the view reloaded.** -/
theorem subscripts_in_range_iff (es : List ListsEvent) :
    (∀ past e, past ++ [e] <+: es → InRange past e) ↔
      ∀ past e, past ++ [e] <+: es → Fresh past e := by
  refine forall_congr' fun past => forall_congr' fun e => ?_
  exact forall_congr' fun _ => inRange_iff_fresh past e

/-- **A subscript is out of range.**  The feed has been shown, is fetched again, and the view
asks for its cell before the callback. -/
theorem subscript_out_of_range :
    ∃ s, Machine.run step init [.on .social .fetch, .on .social (.arrive (some [aTop])),
        .on .social .reload, .on .social .fetch] = some s ∧
      ∃ x ∈ s.subscripts (.on .social (.cellForItemAt 0)),
        ¬ x.2 < (s.view x.1).items.length := by
  decide +kernel

end Lists

end UTrend
