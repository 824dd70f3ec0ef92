/-
What a cell finds in the document it shows.

A cell unwraps the name of its picture, and `Doc.Formed` says which documents have one.
All do, but for the documents of posts that hold a count and nothing else: a count that is
merged into a copy which is not there makes such a document.  They have no id
either, so what a listing tells posts apart by is there once: `listed_once`.
-/
import UTrend.Model.Cells
import UTrend.Proofs.Documents
import UTrend.Proofs.Feeds

namespace UTrend

variable {p : Path} {d : Doc} {rs : List Request}

/-- A document that holds a count and nothing else. -/
def Doc.Ghost (d : Doc) : Prop := d.Has ["likes"]

/-! ### Casts -/

/-- **A field of text is found when it is there.** -/
theorem Doc.Formed.string_isSome (h : Doc.Formed p d) {k : String} (hk : k ≠ "likes") :
    (Doc.string d k).isSome ↔ (d k).isSome := by
  unfold Doc.string
  cases hd : d k with
  | none => simp
  | some v =>
      have htext : v.asString ≠ none := fun hv => hk ((h.typed k v hd).mpr hv)
      simpa using Option.ne_none_iff_isSome.mp htext

/-- **A count is found when it is there.** -/
theorem Doc.Formed.number_isSome (h : Doc.Formed p d) :
    (Doc.number d "likes").isSome ↔ (d "likes").isSome := by
  unfold Doc.number
  cases hd : d "likes" with
  | none => simp
  | some v =>
      have hnum := (h.typed "likes" v hd).mp rfl
      cases v <;> simp [Value.asString, Value.asNumber] at hnum ⊢

/-- **A document has all the fields of its collection, or the one that is merged.** -/
theorem Doc.Formed.cases (h : Doc.Formed p d) :
    (∀ k ∈ p.fields, (d k).isSome) ∨ ∃ k, p.mergedField = some k ∧ d.Has [k] :=
  h.fields.imp (fun hd k hk => (hd k).mpr hk) id

theorem Doc.Ghost.string_eq_none (h : d.Ghost) {k : String} (hk : k ≠ "likes") :
    Doc.string d k = none := by
  have : d k = none := by
    rw [← Option.not_isSome_iff_eq_none, h k]
    simpa using hk
  rw [Doc.string, this, Option.bind_none]

theorem Path.caption_mem (hp : p.mergedField = some "likes") : "caption" ∈ p.fields := by
  cases p <;> simp [mergedField, fields] at hp ⊢

/-- A post has its fields, or it is a ghost. -/
theorem Doc.Formed.ghost_or (h : Doc.Formed p d) (hp : p.mergedField = some "likes") :
    (∀ k ∈ p.fields, (d k).isSome) ∨ d.Ghost := by
  refine h.cases.imp_right ?_
  rintro ⟨k, hk, hd⟩
  obtain rfl : "likes" = k := Option.some.inj (hp.symm.trans hk)
  exact hd

/-- A document of a collection that nothing is merged into has all its fields. -/
theorem Doc.Formed.complete (h : Doc.Formed p d) (hp : p.mergedField = none) :
    ∀ k ∈ p.fields, (d k).isSome := by
  refine h.cases.resolve_right ?_
  rintro ⟨k, hk, -⟩
  simp [hp] at hk

theorem Doc.not_ghost {k : String} (hd : (d k).isSome) (hk : k ≠ "likes") : ¬ d.Ghost :=
  fun hghost => hk (by simpa using (hghost k).mp hd)

/-! ### Cells -/

/-- A piece of clothing, or a like, is never a ghost. -/
theorem isSome_iff_not_ghost (h : Doc.Formed p d) (hp : p.mergedField = none) {k : String}
    (hk : k ∈ p.fields) (hlikes : k ≠ "likes") : (Doc.string d k).isSome ↔ ¬ d.Ghost := by
  have hd := h.complete hp k hk
  exact iff_of_true ((h.string_isSome hlikes).mpr hd) (Doc.not_ghost hd hlikes)

/-- A copy of a post names its picture unless it is a ghost. -/
theorem postImg_isSome_iff (h : Doc.Formed p d) (hp : p.mergedField = some "likes")
    (hk : "postImg" ∈ p.fields) : (Doc.string d "postImg").isSome ↔ ¬ d.Ghost := by
  rcases h.ghost_or hp with hd | hghost
  · exact iff_of_true ((h.string_isSome (by decide)).mpr (hd _ hk))
      (Doc.not_ghost (hd _ hk) (by decide))
  · exact iff_of_false (by simp [hghost.string_eq_none]) (not_not_intro hghost)

/-- Either kind of copy has a count. -/
theorem likes_isSome (h : Doc.Formed p d) (hp : p.mergedField = some "likes") :
    (Doc.number d "likes").isSome := by
  refine h.number_isSome.mpr ?_
  rcases h.ghost_or hp with hd | hghost
  · exact hd _ (Path.mem_fields_of_merged hp)
  · exact (hghost "likes").mpr (List.mem_singleton_self _)

/-- Where a collection keeps its documents. -/
def Collection.path : Collection → String → Path
  | .posts uid => .post uid
  | .likes uid => .like uid
  | .clothes uid => .clothes uid
  | .socialFeed => .social

theorem Collection.holds_iff {c : Collection} : c.holds p = true ↔ ∃ id, p = c.path id := by
  cases c with
  | posts uid | likes uid | clothes uid => cases p <;> simp [holds, path, and_comm]
  | socialFeed => cases p <;> simp [holds, path]

/-- **The documents that a cell can show** are those that are not ghosts. -/
theorem pictures_isSome_iff (me : String) (k : View)
    (hp : (k.loader.collection me).holds p = true) (hd : (contents rs).lookup p = some d) :
    (k.pictures me (k.loader.item d)).isSome ↔ ¬ d.Ghost := by
  obtain ⟨id, rfl⟩ := Collection.holds_iff.mp hp
  have hformed := formed_of_lookup hd
  cases k with
  | tops | bottoms | shoes | closet =>
      rw [← isSome_iff_not_ghost hformed rfl (k := "imgName") List.mem_cons_self (by decide)]
      simp [View.pictures, TopCell.cell, BottomCell.cell, ShoeCell.cell, rackCell,
        WardrobeCell.didSet, View.loader, TopCell.fetchTops, BottomCell.fetchBottoms,
        ShoeCell.fetchShoes, wardrobeFeed.fetchData, rack, feed]
  | likes =>
      rw [← isSome_iff_not_ghost hformed rfl (k := "likedImg") List.mem_cons_self (by decide)]
      simp [View.pictures, LikeCell.didSet, View.loader, LikeFeed.fetchData, feed]
  | posts =>
      obtain ⟨n, hn⟩ := Option.isSome_iff_exists.mp (likes_isSome hformed rfl)
      rw [← postImg_isSome_iff hformed rfl (List.mem_cons_of_mem _ List.mem_cons_self)]
      cases himg : Doc.string d "postImg" <;>
        simp [View.pictures, postCell.didSet, View.loader, postFeed.fetchData, feed, himg, hn]
  | social =>
      rw [← postImg_isSome_iff hformed rfl (List.mem_cons_of_mem _ List.mem_cons_self)]
      cases himg : Doc.string d "postImg" <;>
        simp [View.pictures, socialCell.didSet, View.loader, Social.fetchSocialPost, feed, himg]

/-! ### Where ghosts come from -/

/-- A count was merged into `p` while it was not there, and nothing has set or removed it
since. -/
def CountedAway (p : Path) (rs : List Request) : Prop :=
  ∃ pre r post, rs = pre ++ r :: post ∧ r.path = p ∧ r.counts = true ∧ p ∉ contents pre ∧
    ∀ x ∈ post, x.path = p → x.counts = true

theorem countedAway_nil : ¬ CountedAway p [] := by
  rintro ⟨pre, r, post, h, -⟩
  simp at h

/-- What the last request has to do with it. -/
theorem countedAway_concat {r : Request} : CountedAway p (rs ++ [r]) ↔
    (CountedAway p rs ∧ (r.path = p → r.counts = true)) ∨
      (r.path = p ∧ r.counts = true ∧ p ∉ contents rs) := by
  constructor
  · rintro ⟨pre, x, post, h, hx, hcount, hmem, hpost⟩
    rcases List.eq_nil_or_concat post with rfl | ⟨post, y, rfl⟩
    · obtain ⟨rfl, rfl⟩ : rs = pre ∧ r = x := by simpa using List.append_inj' h rfl
      exact Or.inr ⟨hx, hcount, hmem⟩
    · have hsplit : rs ++ [r] = (pre ++ x :: post) ++ [y] := by simpa using h
      obtain ⟨rfl, hy⟩ := List.append_inj' hsplit rfl
      obtain rfl := List.singleton_inj.mp hy
      refine Or.inl ⟨⟨pre, x, post, rfl, hx, hcount, hmem, fun z hz => hpost z (by simp [hz])⟩, ?_⟩
      exact hpost r (by simp)
  · rintro (⟨⟨pre, x, post, rfl, hx, hcount, hmem, hpost⟩, hr⟩ | ⟨hr, hcount, hmem⟩)
    · refine ⟨pre, x, post ++ [r], by simp, hx, hcount, hmem, fun z hz => ?_⟩
      rcases List.mem_append.mp hz with hz | hz
      · exact hpost z hz
      · exact List.mem_singleton.mp hz ▸ hr
    · exact ⟨rs, r, [], rfl, hr, hcount, hmem, by simp⟩

/-- What a count is, as a write. -/
theorem Request.write_of_counts {r : Request} (h : r.counts = true) (hp : r.path = p) :
    p.mergedField = some "likes" ∧ ∃ n, r.write = .merge p [("likes", .num n)] := by
  subst hp
  cases r <;> simp [counts] at h <;> exact ⟨rfl, _, rfl⟩

/-- What another request leaves is no ghost. -/
theorem Request.not_ghost {r : Request} {old : Option Doc} (h : r.counts = false)
    (hd : r.write.result old = some d) : ¬ d.Ghost := by
  have hfield : ∀ {k : String} {new : List (String × Value)} {e : Doc}, k ∈ new.map Prod.fst →
      (DocStore.Doc.update e new k).isSome := fun hk =>
    (DocStore.Doc.isSome_update _ _ _).mpr (Or.inl hk)
  cases r with
  | countPost | countSocial => simp [counts] at h
  | unlike | deletePost | deleteSocial => simp [write, DocStore.Write.result] at hd
  | signUp | picture | create | publish | like | clothes =>
      obtain rfl := (Option.some.inj hd).symm
      -- the first field it writes is not the count
      exact Doc.not_ghost (hfield List.mem_cons_self) (by simp)

/-- A count leaves a ghost where it finds one, or nothing. -/
theorem ghost_merge_iff {old : Option Doc} {n : Value} :
    Doc.Ghost (DocStore.Doc.update (old.getD DocStore.Doc.empty) [("likes", n)]) ↔
      ∀ e, old = some e → ∀ k, (e k).isSome → k = "likes" := by
  constructor
  · rintro h e rfl k hk
    have := (h k).mp ((DocStore.Doc.isSome_update _ _ _).mpr (Or.inr hk))
    simpa using this
  · intro h k
    rw [DocStore.Doc.isSome_update]
    refine ⟨fun hk => hk.elim (by simp) fun hk => ?_, fun hk => Or.inl (by simpa using hk)⟩
    cases old with
    | none => simp [DocStore.Doc.empty] at hk
    | some e => exact List.mem_singleton.mpr (h e rfl k hk)

/-- **A ghost is what a count leaves that came too late.** -/
theorem ghost_iff (rs : List Request) (p : Path) :
    (∃ d, (contents rs).lookup p = some d ∧ Doc.Ghost d) ↔ CountedAway p rs := by
  induction rs using List.reverseRecOn with
  | nil => simp [countedAway_nil]
  | append_singleton rs r ih =>
      rw [countedAway_concat, ← ih, lookup_contents_concat]
      by_cases hp : r.path = p
      swap
      · simp [hp]
      rw [if_pos hp]
      cases hcount : r.counts with
      | false =>
          have hnot : ¬ ∃ d, r.write.result ((contents rs).lookup p) = some d ∧ Doc.Ghost d :=
            fun ⟨d, hd, hghost⟩ => r.not_ghost hcount hd hghost
          simp [hnot, hp]
      | true =>
          obtain ⟨hmerged, n, hwrite⟩ := Request.write_of_counts hcount hp
          rw [hwrite]
          simp only [DocStore.Write.result, Option.some.injEq, exists_eq_left', ghost_merge_iff,
            implies_true, and_true, hp, true_and, ← DocStore.mem_iff_isSome]
          cases hold : (contents rs).lookup p with
          | none => simp
          | some e =>
              have hformed := formed_of_lookup hold
              simp only [Option.some.injEq, forall_eq', exists_eq_left', Option.isSome_some,
                not_true_eq_false, or_false]
              refine ⟨fun h => (hformed.ghost_or hmerged).resolve_left fun hd => ?_, ?_⟩
              · have hcaption := h "caption" (hd "caption" (Path.caption_mem hmerged))
                simp at hcaption
              · exact fun hghost k hk => by simpa using (hghost k).mp hk

/-! ### Listings -/

/-- The documents that a view makes items of. -/
def View.kept (me : String) (k : View) (db : Store) : List Doc :=
  ((k.loader.collection me).documents db).filter k.loader.keeps

/-- **A cell traps past the end of the list, and at the document of a count that came too
late**, and nowhere else. -/
theorem cellForItemAt_eq_none_iff (me : String) (k : View) (rs : List Request) (i : Nat) :
    k.cellForItemAt me (k.loader.listOf ((k.loader.collection me).documents (contents rs))) i
        = none ↔
      (k.kept me (contents rs)).length ≤ i ∨
        ∃ p d, (k.kept me (contents rs))[i]? = some d ∧
          (k.loader.collection me).holds p = true ∧ (contents rs).lookup p = some d ∧
          CountedAway p rs := by
  have hlist : k.loader.listOf ((k.loader.collection me).documents (contents rs))
      = (k.kept me (contents rs)).map k.loader.item := rfl
  rw [hlist, View.cellForItemAt, List.getElem?_map]
  cases hi : (k.kept me (contents rs))[i]? with
  | none => simp [List.getElem?_eq_none_iff.mp hi]
  | some d =>
      have hlt : ¬ (k.kept me (contents rs)).length ≤ i := by
        rw [← List.getElem?_eq_none_iff, hi]
        simp
      obtain ⟨p, hp, hd⟩ :=
        DocStore.mem_docsIn (List.mem_of_mem_filter (List.mem_of_getElem? hi))
      simp only [Option.map_some, Option.bind_some, hlt, false_or, Option.some.injEq,
        exists_eq_left', ← Option.not_isSome_iff_eq_none, pictures_isSome_iff me k hp hd, not_not]
      constructor
      · exact fun hghost => ⟨p, hp, hd, (ghost_iff rs p).mp ⟨d, hd, hghost⟩⟩
      · rintro ⟨q, -, hq, haway⟩
        obtain ⟨e, he, hghost⟩ := (ghost_iff rs q).mpr haway
        exact Option.some.inj (hq.symm.trans he) ▸ hghost

/-- The id that a document tells is the one it is filed under. -/
theorem Doc.Formed.id_eq {c : Collection} {id i : String} (h : Doc.Formed (c.path id) d)
    (hi : Doc.string d "ID" = some i) : i = id := by
  obtain ⟨v, hv, htext⟩ := Option.bind_eq_some_iff.mp hi
  cases c with
  | clothes uid =>
      have hmem : "ID" ∈ (Path.clothes uid id).fields := by
        rcases h.fields with hd | ⟨k, hk, -⟩
        · exact (hd "ID").mp (by rw [hv]; rfl)
        · simp [Collection.path, Path.mergedField] at hk
      simp [Path.fields] at hmem
  | posts | likes | socialFeed =>
      obtain rfl := h.tells "ID" id rfl v hv
      exact (Option.some.inj htext).symm

/-- Where the document is that tells an id. -/
theorem path_of_id {c : Collection} {p : Path} {d : Doc} (hp : c.holds p = true)
    (hd : (contents rs).lookup p = some d) {id : String} (hid : Doc.string d "ID" = some id) :
    c.path id = p := by
  obtain ⟨i, rfl⟩ := Collection.holds_iff.mp hp
  rw [(formed_of_lookup hd).id_eq hid]

/-- **A listing has no id twice.** -/
theorem nodup_ids (c : Collection) (rs : List Request) :
    ((c.documents (contents rs)).filterMap fun d => Doc.string d "ID").Nodup :=
  DocStore.nodup_filterMap_docsIn fun _ _ hp hd _ hid => path_of_id hp hd hid

/-- **The documents of a listing are told apart by their ids**: no id is there twice, each is
the one its document is filed under, and outside the closet only a ghost has none. -/
theorem listed_once (c : Collection) (rs : List Request) :
    ((c.documents (contents rs)).filterMap fun d => Doc.string d "ID").Nodup ∧
      ∀ d ∈ c.documents (contents rs),
        (∀ id, Doc.string d "ID" = some id → (contents rs).lookup (c.path id) = some d) ∧
        ((∀ uid, c ≠ .clothes uid) → Doc.string d "ID" = none → Doc.Ghost d) := by
  refine ⟨nodup_ids c rs, fun d hd => ?_⟩
  obtain ⟨p, hp, hlookup⟩ := DocStore.mem_docsIn hd
  refine ⟨fun id hid => path_of_id hp hlookup hid ▸ hlookup, fun hc hnone => ?_⟩
  obtain ⟨i, rfl⟩ := Collection.holds_iff.mp hp
  have hformed := formed_of_lookup hlookup
  have hid : ¬ (d "ID").isSome := by
    rw [← hformed.string_isSome (by decide), hnone]
    simp
  cases c with
  | clothes uid => exact absurd rfl (hc uid)
  | likes uid =>
      exact absurd (hformed.complete rfl "ID" (by simp [Collection.path, Path.fields])) hid
  | posts | socialFeed =>
      refine (hformed.ghost_or rfl).resolve_left fun hall => hid (hall "ID" ?_)
      simp [Collection.path, Path.fields]

end UTrend
