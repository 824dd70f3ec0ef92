/-
From the closet form to the outfits.

The generator works on copies of the closet that may be old, doubled by two fetches at
once, or cut short by an error.  But the form refreshes it after every document, so the
latest fetch of a rack always knows the whole closet: `Racked`.  Once that fetch has been
answered, and the rack reloaded, a rack holds the pieces of its type and nothing else,
whatever older fetches have added to it; and then `newOutfit` can come to every
combination of the pieces that the form has stored, and to no other.
-/
import UTrend.Model.OutfitGenerator
import UTrend.Proofs.Closet

namespace UTrend

variable {Png : Type} {me : String} {placeholder : Png}

/-! ### Racks -/

/-- The list is one of clothes that the form has written, no two under one id. -/
structure Stored (me : String) (rs : List Request) : Prop where
  clothes : ∀ r ∈ rs, ∃ docId imgN b, r = .clothes me docId imgN (TypeButton.type b)
  nodup : (rs.map Request.path).Nodup

/-- The item that a rack makes of a document. -/
def TypeButton.itemOf (b : TypeButton) (imgN : String) : ClothingItem where
  uploadedImg := some imgN
  type := some b.type

theorem Stored.take {rs : List Request} (h : Stored me rs) (n : Nat) : Stored me (rs.take n) where
  clothes r hr := h.clothes r (List.mem_of_mem_take hr)
  nodup := h.nodup.sublist ((List.take_sublist n rs).map Request.path)

theorem Stored.concat {rs : List Request} (h : Stored me rs) {docId imgN : String}
    {b : TypeButton} (hfresh : Path.clothes me docId ∉ rs.map Request.path) :
    Stored me (rs ++ [.clothes me docId imgN b.type]) where
  clothes r hr := by
    rcases List.mem_append.mp hr with hr | hr
    · exact h.clothes r hr
    · exact ⟨docId, imgN, b, List.mem_singleton.mp hr⟩
  nodup := by
    rw [List.map_append]
    refine List.Nodup.append h.nodup (List.nodup_singleton _) ?_
    rintro p hp hq
    obtain rfl := List.mem_singleton.mp hq
    exact hfresh hp

/-- **What a rack makes of the closet**: an item for each document of its type. -/
theorem Stored.mem_rack {rs : List Request} (h : Stored me rs) (b : TypeButton)
    (item : ClothingItem) :
    item ∈ b.rack.listOf ((Collection.clothes me).documents (contents rs)) ↔
      ∃ docId imgN, .clothes me docId imgN b.type ∈ rs ∧ item = b.itemOf imgN := by
  have hnodup : ((rs.map Request.write).map DocStore.Write.path).Nodup := by
    rw [List.map_map]
    exact h.nodup
  have hrack : b.rack = rack b.type := by cases b <;> rfl
  rw [hrack, Loader.listOf, List.mem_map]
  constructor
  · rintro ⟨d, hd, rfl⟩
    obtain ⟨hd, hkeeps⟩ := List.mem_filter.mp hd
    obtain ⟨p, -, hlookup⟩ := DocStore.mem_docsIn hd
    obtain ⟨w, hw, -, hresult⟩ := (DocStore.lookup_replay_of_nodup hnodup).mp hlookup
    obtain ⟨r, hr, rfl⟩ := List.mem_map.mp hw
    obtain ⟨docId, imgN, b', rfl⟩ := h.clothes r hr
    obtain rfl := (Option.some.inj hresult).symm
    have htype : b' = b := by
      refine TypeButton.type_injective ?_
      simpa [rack, Doc.string, DocStore.Doc.update, List.lookup_cons, Value.asString]
        using hkeeps
    subst htype
    exact ⟨docId, imgN, hr, by simp [rack, TypeButton.itemOf, Doc.string, DocStore.Doc.update,
      List.lookup_cons, Value.asString]⟩
  · rintro ⟨docId, imgN, hr, rfl⟩
    have hlookup := (DocStore.lookup_replay_of_nodup hnodup).mpr
      ⟨_, List.mem_map_of_mem (f := Request.write) hr, rfl, rfl⟩
    refine ⟨_, List.mem_filter.mpr ⟨DocStore.mem_docsIn_of_lookup ?_ hlookup, ?_⟩, ?_⟩
    · simp [Request.write, DocStore.Write.path, Collection.holds]
    · simp [rack, Doc.string, DocStore.Doc.update, List.lookup_cons, Value.asString]
    · simp [rack, TypeButton.itemOf, Doc.string, DocStore.Doc.update, List.lookup_cons,
        Value.asString]

/-- What a rack holds of the closet, and what it is still to be told. -/
structure RackCell.Fills (me : String) (rs : List Request) (b : TypeButton) (cell : RackCell) :
    Prop where
  sound : ∀ item ∈ cell.items, ∃ docId imgN,
    Request.clothes me docId imgN b.type ∈ rs ∧ item = b.itemOf imgN
  /-- the latest fetch was called when all had been written -/
  latest : ∀ call ∈ cell.calls, call.latest = true → call.before = rs.length
  complete : cell.answered = true → ∀ docId imgN,
    Request.clothes me docId imgN b.type ∈ rs → b.itemOf imgN ∈ cell.items
  cached : cell.answered = true → cell.reloads = 0 → cell.cached = cell.items.length

namespace RackCell.Fills

variable {rs : List Request} {b : TypeButton} {cell cell' : RackCell}

/-- **A fetch starts over**, from any rack. -/
theorem fetch (cell : RackCell) : (cell.fetch b.rack rs.length).Fills me rs b where
  sound := by simp [RackCell.fetch, Loader.call]
  latest call hcall hlatest := by
    rcases List.mem_append.mp hcall with hcall | hcall
    · obtain ⟨old, -, rfl⟩ := List.mem_map.mp hcall
      exact Bool.noConfusion hlatest
    · rw [List.mem_singleton.mp hcall]
  complete h := Bool.noConfusion h
  cached h := Bool.noConfusion h

theorem reload (h : cell.Fills me rs b) (hreload : cell.reload = some cell') :
    cell'.Fills me rs b := by
  unfold RackCell.reload at hreload
  split at hreload
  · simp at hreload
  · obtain rfl := (Option.some.inj hreload).symm
    exact { h with cached := fun _ _ => rfl }

/-- **A callback adds pieces of the closet, and the latest adds all of them.** -/
theorem arrive (h : cell.Fills me rs b) (hrs : Stored me rs) {k : Nat} {call : RackCall}
    (hcall : cell.calls[k]? = some call) {snap : Option Nat}
    (hsnap : ∀ n ∈ snap, call.before ≤ n ∧ n ≤ rs.length)
    (harrive : cell.arrive b.rack k (snap.map fun n =>
      (Collection.clothes me).documents (contents (rs.take n))) = some cell') :
    cell'.Fills me rs b := by
  have herase : ∀ call ∈ cell.calls.eraseIdx k, call.latest = true → call.before = rs.length :=
    fun call hcall => h.latest call (List.mem_of_mem_eraseIdx hcall)
  cases snap with
  | none =>
      simp only [RackCell.arrive, hcall, Option.map_none, Option.bind_eq_bind,
        Option.bind_some] at harrive
      obtain rfl := (Option.some.inj harrive).symm
      exact { h with latest := herase }
  | some n =>
      obtain ⟨hbefore, hn⟩ := hsnap n rfl
      simp only [RackCell.arrive, hcall, Option.map_some, Option.bind_eq_bind,
        Option.bind_some, Loader.append_eq] at harrive
      obtain rfl := (Option.some.inj harrive).symm
      refine ⟨fun item hitem => ?_, herase, fun hanswered docId imgN hr => ?_, fun _ hreloads => ?_⟩
      · rcases List.mem_append.mp hitem with hitem | hitem
        · exact h.sound item hitem
        · obtain ⟨docId, imgN, hr, rfl⟩ := ((hrs.take n).mem_rack b item).mp hitem
          exact ⟨docId, imgN, List.mem_of_mem_take hr, rfl⟩
      · rcases Bool.or_eq_true_iff.mp hanswered with hanswered | hlatest
        · exact List.mem_append_left _ (h.complete hanswered docId imgN hr)
        · -- the snapshot has all that has been written
          have hall : rs.length ≤ n := h.latest call (List.mem_of_getElem? hcall) hlatest ▸ hbefore
          refine List.mem_append_right _ (((hrs.take n).mem_rack b _).mpr ⟨docId, imgN, ?_, rfl⟩)
          rwa [List.take_of_length_le hall]
      · exact absurd hreloads (Nat.succ_ne_zero _)

end RackCell.Fills

/-! ### One event -/

namespace Generator

/-- The racks are copies of the closet. -/
structure Racked (me : String) (s : Generator Png) : Prop where
  stored : Stored me s.closet.requests
  rows : ∀ b cell, s.row b = some cell → cell.Fills me s.closet.requests b
  /-- before the table there are no rows -/
  unloaded : s.tableView = false → ∀ b, s.row b = none

theorem length_requests (s : Closet Png) : s.requests.length = s.written.length := by
  simp [Closet.requests]

theorem Racked.update {s : Generator Png} (h : Racked me s) {b : TypeButton} {cell : RackCell}
    (hloaded : s.tableView = true) (hcell : cell.Fills me s.closet.requests b) :
    Racked me { s with row := Function.update s.row b (some cell) } where
  stored := h.stored
  rows b' cell' hrow := by
    dsimp only at hrow
    by_cases hb : b' = b
    · subst hb
      rw [Function.update_self, Option.some.injEq] at hrow
      exact hrow ▸ hcell
    · rw [Function.update_of_ne hb] at hrow
      exact h.rows b' cell' hrow
  unloaded hnot := by simp [hloaded] at hnot

/-- Where there is a row, there is the table. -/
theorem Racked.loaded {s : Generator Png} (h : Racked me s) {b : TypeButton} {cell : RackCell}
    (hrow : s.row b = some cell) : s.tableView = true := by
  cases hview : s.tableView with
  | true => rfl
  | false => simp [h.unloaded hview b] at hrow

/-- **A refresh makes the racks copies of whatever has been stored.** -/
theorem racked_refreshAll {s : Generator Png} (hstored : Stored me s.closet.requests)
    (hunloaded : s.tableView = false → ∀ b, s.row b = none) : Racked me s.refreshAll := by
  unfold refreshAll
  split
  · refine ⟨hstored, fun b cell hrow => ?_, fun hnot => by simp_all⟩
    obtain ⟨old, -, rfl⟩ := Option.map_eq_some_iff.mp hrow
    rw [← length_requests]
    exact RackCell.Fills.fetch old
  · rename_i hview
    have hnone := hunloaded (by simpa using hview)
    exact ⟨hstored, fun b cell hrow => by simp [hnone b] at hrow, hunloaded⟩

variable [DecidableEq Png] {s s' : Generator Png}

/-- The form adds one document, or none. -/
theorem requests_step {t t' : Closet Png} {e : FormEvent Png}
    (h : t.step placeholder me e = some t') :
    t'.requests = t.requests ∨ ∃ docId imgN b, e = .addToCloset docId imgN ∧
      t'.requests = t.requests ++ [.clothes me docId imgN (TypeButton.type b)] := by
  cases Closet.effect_step h with
  | add halert himage docId imgN b htype =>
      exact Or.inr ⟨docId, imgN, b, rfl, by simp [Closet.requests]⟩
  | _ => exact Or.inl rfl

omit [DecidableEq Png] in
theorem racked_init : Racked me (init placeholder) :=
  ⟨⟨by simp [init, Closet.init, Closet.requests], by simp [init, Closet.init, Closet.requests]⟩,
    by simp [init], fun _ _ => rfl⟩

/-- **Every event leaves the racks copies of the closet.** -/
theorem racked_step {e : GeneratorEvent Png} (hR : Racked me s)
    (h : s.step placeholder me e = some s') : Racked me s' := by
  cases e with
  | form e =>
      simp only [step] at h
      split at h
      · rename_i hfresh
        obtain ⟨closet, hcloset, rfl⟩ := Option.map_eq_some_iff.mp h
        rcases requests_step hcloset with hsame | ⟨docId, imgN, b, rfl, hadd⟩
        · rw [if_pos hsame]
          exact ⟨hsame ▸ hR.stored, fun b cell hrow => hsame ▸ hR.rows b cell hrow, hR.unloaded⟩
        · rw [if_neg (by simp [hadd])]
          refine racked_refreshAll ?_ hR.unloaded
          rw [hadd]
          exact hR.stored.concat (hfresh docId rfl)
      · simp at h
  | viewDidLoad =>
      simp only [step] at h
      split at h
      · simp at h
      · obtain rfl := (Option.some.inj h).symm
        exact ⟨hR.stored, hR.rows, fun hnot => by simp at hnot⟩
  | cellForRowAt b =>
      simp only [step] at h
      split at h
      · rename_i hview
        obtain rfl := (Option.some.inj h).symm
        rw [← length_requests]
        exact hR.update hview.1 (RackCell.Fills.fetch {})
      · simp at h
  | arrive b k snap =>
      simp only [step, Option.bind_eq_bind, Option.bind_eq_some_iff] at h
      obtain ⟨cell, hrow, call, hcall, h⟩ := h
      split at h
      · rename_i hsnap
        obtain ⟨cell', harrive, hs'⟩ := Option.bind_eq_some_iff.mp h
        obtain rfl := (Option.some.inj hs').symm
        rw [← length_requests] at hsnap
        have hcell := (hR.rows b cell hrow).arrive hR.stored hcall hsnap harrive
        exact hR.update (hR.loaded hrow) hcell
      · simp at h
  | reload b =>
      simp only [step, Option.bind_eq_bind, Option.bind_eq_some_iff] at h
      obtain ⟨cell, hrow, cell', hreload, hs'⟩ := h
      obtain rfl := (Option.some.inj hs').symm
      exact hR.update (hR.loaded hrow) ((hR.rows b cell hrow).reload hreload)
  | relaunch =>
      obtain rfl := (Option.some.inj h).symm
      exact ⟨hR.stored, fun b cell hrow => by simp at hrow, fun _ _ => rfl⟩

/-! ### Outfits -/

/-- The latest fetch of each row has been answered, and the row reloaded. -/
def Loaded (s : Generator Png) : Prop :=
  ∀ b, ∃ cell, s.row b = some cell ∧ cell.answered = true ∧ cell.reloads = 0

instance (s : Generator Png) : Decidable s.Loaded :=
  decidable_of_iff (∀ b ∈ [TypeButton.top, .bottom, .shoes],
      (s.row b).any (fun cell => cell.answered && cell.reloads == 0) = true) <| by
    have hall : ∀ b, b ∈ [TypeButton.top, .bottom, .shoes] := by
      intro b
      cases b <;> simp
    simp [Loaded, hall, Option.any_eq_true]

/-- The form has stored a piece of this type, with this picture. -/
def Stores (me : String) (s : Generator Png) (b : TypeButton) (imgN : String) : Prop :=
  ∃ docId, Request.clothes me docId imgN b.type ∈ s.closet.requests

omit [DecidableEq Png] in
/-- What `newOutfit` comes to, on rows that are there. -/
theorem mem_newOutfit {s : Generator Png} {cells : TypeButton → RackCell}
    (hrow : ∀ b, s.row b = some (cells b)) : ∃ outfits, s.newOutfit = some outfits ∧
      ∀ o, o ∈ outfits ↔ (o = .emptyWardrobe ∧ ∃ b, (cells b).cached = 0) ∨
        ((∀ b, (cells b).cached ≠ 0) ∧ ∀ b, ∃ i, o.item b = some i ∧ i < (cells b).cached) := by
  have hall : ∀ P : TypeButton → Prop, (∀ b, P b) ↔ P .top ∧ P .bottom ∧ P .shoes := fun P =>
    ⟨fun h => ⟨h _, h _, h _⟩, fun ⟨ht, hb, hs⟩ b => by cases b <;> assumption⟩
  simp only [newOutfit, hrow, Option.bind_eq_bind, Option.bind_some]
  split
  · rename_i hcounts
    refine ⟨_, rfl, fun o => ?_⟩
    have hpos := (hall fun b => (cells b).cached ≠ 0).mpr hcounts
    simp only [List.mem_flatMap, List.mem_map, List.mem_range, hall fun b => ∃ i, o.item b = some i
      ∧ i < (cells b).cached]
    constructor
    · rintro ⟨i, hi, j, hj, k, hk, rfl⟩
      exact Or.inr ⟨hpos, ⟨i, rfl, hi⟩, ⟨j, rfl, hj⟩, ⟨k, rfl, hk⟩⟩
    · rintro (⟨-, b, hzero⟩ | ⟨-, ⟨i, hitem, hi⟩, ⟨j, hj', hj⟩, k, hk', hk⟩)
      · exact absurd hzero (hpos b)
      · cases o with
        | emptyWardrobe => simp [Outfit.item] at hitem
        | items randTop randBottom randShoes =>
            obtain rfl := Option.some.inj hitem
            obtain rfl := Option.some.inj hj'
            obtain rfl := Option.some.inj hk'
            exact ⟨_, hi, _, hj, _, hk, rfl⟩
  · rename_i hcounts
    refine ⟨_, rfl, fun o => ?_⟩
    have hzero : ¬ ∀ b, (cells b).cached ≠ 0 := fun h => hcounts ((hall _).mp h)
    obtain ⟨b, hb⟩ := not_forall.mp hzero
    simp only [List.mem_singleton, hzero, false_and, or_false]
    exact ⟨fun ho => ⟨ho, b, not_not.mp hb⟩, And.left⟩

omit [DecidableEq Png] in
/-- The picture of a piece on a rack. -/
theorem picture_eq_some {s : Generator Png} {cell : RackCell} {b : TypeButton} {o : Outfit}
    (hrow : s.row b = some cell) {ref : StorageRef} : s.picture me o b = some ref ↔
      ∃ i item, o.item b = some i ∧ cell.items[i]? = some item ∧ b.cell me item = some ref := by
  simp only [picture, hrow, Option.bind_eq_bind, Option.bind_some, Option.bind_eq_some_iff,
    exists_and_left]

theorem cell_itemOf (me : String) (b : TypeButton) (imgN : String) :
    b.cell me (b.itemOf imgN) = some ⟨.clothes me, imgN⟩ := by
  cases b <;> rfl

omit [DecidableEq Png] in
/-- What is on a rack has been stored. -/
theorem Racked.exists_item (hR : Racked me s) {b : TypeButton} {cell : RackCell}
    (hrow : s.row b = some cell) {i : Nat} {item : ClothingItem}
    (hitem : cell.items[i]? = some item) :
    ∃ imgN, item = b.itemOf imgN ∧ s.Stores me b imgN := by
  obtain ⟨docId, imgN, hr, rfl⟩ :=
    (hR.rows b cell hrow).sound item (List.mem_of_getElem? hitem)
  exact ⟨imgN, rfl, docId, hr⟩

/-- **The generator draws from the whole closet and from nothing else.**  A row never shows
anything but a stored piece of its type.  Once the latest fetches have been answered the
alert comes if and only if a type is missing; otherwise every draw has a picture on each
row, and the outfits are all the combinations of stored pieces. -/
theorem newOutfit_closet {es : List (GeneratorEvent Png)}
    (hrun : Machine.run (step placeholder me) (init placeholder) es = some s) :
    (∀ o b ref, s.picture me o b = some ref →
      ∃ imgN, ref = ⟨.clothes me, imgN⟩ ∧ s.Stores me b imgN) ∧
    (s.Loaded → ∃ outfits, s.newOutfit = some outfits ∧
      (.emptyWardrobe ∈ outfits ↔ ∃ b, ∀ imgN, ¬ s.Stores me b imgN) ∧
      (∀ o ∈ outfits, o ≠ .emptyWardrobe → ∀ b, (s.picture me o b).isSome) ∧
      ∀ imgN : TypeButton → String,
        (∃ o ∈ outfits, ∀ b, s.picture me o b = some ⟨.clothes me, imgN b⟩) ↔
          ∀ b, s.Stores me b (imgN b)) := by
  have hR : Racked me s := Machine.invariant_run_all (fun s e s' hR h => racked_step hR h)
    racked_init hrun
  have hpicture : ∀ o b ref, s.picture me o b = some ref →
      ∃ imgN, ref = ⟨.clothes me, imgN⟩ ∧ s.Stores me b imgN := by
    intro o b ref hpic
    obtain ⟨cell, hrow, -⟩ := Option.bind_eq_some_iff.mp hpic
    obtain ⟨i, item, -, hitem, hcell⟩ := (picture_eq_some hrow).mp hpic
    obtain ⟨imgN, rfl, hstored⟩ := hR.exists_item hrow hitem
    rw [cell_itemOf] at hcell
    exact ⟨imgN, (Option.some.inj hcell).symm, hstored⟩
  refine ⟨hpicture, fun hloaded => ?_⟩
  choose cells hrow hanswered hreloads using hloaded
  have hcached : ∀ b, (cells b).cached = (cells b).items.length := fun b =>
    (hR.rows b _ (hrow b)).cached (hanswered b) (hreloads b)
  have hshown : ∀ b imgN, s.Stores me b imgN → ∃ i, (cells b).items[i]? = some (b.itemOf imgN) :=
    fun b imgN ⟨docId, hr⟩ =>
      List.getElem?_of_mem ((hR.rows b _ (hrow b)).complete (hanswered b) docId imgN hr)
  have hempty : ∀ b, (cells b).cached = 0 ↔ ∀ imgN, ¬ s.Stores me b imgN := by
    intro b
    rw [hcached, List.length_eq_zero_iff]
    constructor
    · intro hnil imgN hstored
      obtain ⟨i, hi⟩ := hshown b imgN hstored
      simp [hnil] at hi
    · intro hnone
      by_contra hne
      obtain ⟨item, hitem⟩ := List.exists_mem_of_ne_nil _ hne
      obtain ⟨i, hi⟩ := List.getElem?_of_mem hitem
      obtain ⟨imgN, -, hstored⟩ := hR.exists_item (hrow b) hi
      exact hnone imgN hstored
  obtain ⟨outfits, houtfits, hmem⟩ := mem_newOutfit hrow
  refine ⟨outfits, houtfits, ?_, fun o ho hne b => ?_, fun imgN => ⟨?_, fun hstored => ?_⟩⟩
  · rw [hmem]
    simp only [true_and, hempty]
    refine or_iff_left fun ⟨_, hitems⟩ => ?_
    obtain ⟨i, hitem, -⟩ := hitems .top
    simp [Outfit.item] at hitem
  · obtain ⟨-, hitems⟩ := ((hmem o).mp ho).resolve_left fun h => hne h.1
    obtain ⟨i, hitem, hi⟩ := hitems b
    have hget := List.getElem?_eq_getElem (hcached b ▸ hi)
    obtain ⟨imgN, hitemOf, -⟩ := hR.exists_item (hrow b) hget
    rw [hitemOf] at hget
    exact Option.isSome_iff_exists.mpr
      ⟨_, (picture_eq_some (hrow b)).mpr ⟨i, _, hitem, hget, cell_itemOf me b imgN⟩⟩
  · rintro ⟨o, -, hpics⟩ b
    obtain ⟨name, href, hstored⟩ := hpicture o b _ (hpics b)
    rwa [(StorageRef.mk.inj href).2]
  · -- an item for each of the three pieces, and the outfit that slides to them
    choose i hi using fun b => hshown b (imgN b) (hstored b)
    have hlt : ∀ b, i b < (cells b).cached := fun b =>
      hcached b ▸ (List.getElem?_eq_some_iff.mp (hi b)).1
    have hitem : ∀ b, Outfit.item (.items (i .top) (i .bottom) (i .shoes)) b = some (i b) := by
      intro b
      cases b <;> rfl
    refine ⟨.items (i .top) (i .bottom) (i .shoes), (hmem _).mpr (Or.inr ⟨fun b => ?_, fun b =>
      ⟨i b, hitem b, hlt b⟩⟩), fun b => ?_⟩
    · have := hlt b
      omega
    · exact (picture_eq_some (hrow b)).mpr ⟨i b, _, hitem b, hi b, cell_itemOf me b (imgN b)⟩

/-- Three pieces are stored one after the other.  The top rack is answered twice, and first
by a fetch that is not the latest. -/
def threePieces : List (GeneratorEvent Nat) :=
  [.viewDidLoad, .cellForRowAt .top, .cellForRowAt .bottom, .cellForRowAt .shoes,
    .form (.pick 1), .form .topButtonPressed, .form (.addToCloset "a" "x"), .form .okay,
    .form (.pick 2), .form .bottomButtonPressed, .form (.addToCloset "b" "y"), .form .okay,
    .form (.pick 3), .form .shoesButtonPressed, .form (.addToCloset "c" "z"),
    .arrive .top 1 (some 2), .arrive .top 2 (some 3), .arrive .bottom 0 none,
    .arrive .bottom 2 (some 3), .arrive .shoes 3 (some 3), .reload .top, .reload .top,
    .reload .bottom, .reload .shoes]

set_option maxRecDepth 100000 in
theorem newOutfit_closet_three :
    ∃ s, Machine.run (step 0 "amy") (init 0) threePieces = some s ∧
      s.newOutfit = some [.items 0 0 0, .items 1 0 0] ∧
      ((∃ o ∈ [Outfit.items 0 0 0, .items 1 0 0], ∀ b, s.picture "amy" o b = some ⟨.clothes "amy",
        match b with | .top => "x" | .bottom => "y" | .shoes => "z"⟩) ↔
        ∀ b, s.Stores "amy" b (match b with | .top => "x" | .bottom => "y" | .shoes => "z")) := by
  obtain ⟨s, hs, hloaded, hout⟩ : ∃ s, Machine.run (step 0 "amy") (init 0) threePieces = some s ∧
      s.Loaded ∧ s.newOutfit = some [.items 0 0 0, .items 1 0 0] := by
    decide +kernel
  obtain ⟨outfits, houtfits, -, -, hiff⟩ := (newOutfit_closet hs).2 hloaded
  obtain rfl := Option.some.inj (houtfits.symm.trans hout)
  exact ⟨s, hs, hout, hiff _⟩

end Generator

end UTrend
