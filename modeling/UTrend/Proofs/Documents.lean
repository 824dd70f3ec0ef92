/-
What the documents of the database look like.

Firestore checks nothing, and every reader of the app asks for fields by name and
casts them.  `Doc.Formed` says what the writers keep to: the fields of a document, the
type of each, and that a document tells under which id and for which user it is filed.
A document has all the fields of its collection, unless it was only ever merged into;
then it has the one field that is merged.  It holds of every document, whatever the
writes and their order: `formed_of_lookup`.
-/
import UTrend.Model.Loader

namespace UTrend

/-- The fields of a document that has been set. -/
def Path.fields : Path → List String
  | .user _ => ["firstname", "username", "uid", "profileImg"]
  | .post _ _ => ["caption", "postImg", "likes", "timestamp", "ID", "uid"]
  | .like _ _ => ["likedImg", "ID"]
  | .clothes _ _ => ["imgName", "type"]
  | .social _ =>
      ["caption", "postImg", "profImg", "likes", "username", "timestamp", "ID", "uid"]

/-- The field that is merged into a document by itself. -/
def Path.mergedField : Path → Option String
  | .user _ => some "profileImg"
  | .post _ _ | .social _ => some "likes"
  | .like _ _ | .clothes _ _ => none

/-- What a document tells of its own place. -/
def Path.tells : Path → String → Option String
  | .user uid, "uid" => some uid
  | .post _ id, "ID" | .like _ id, "ID" | .social id, "ID" => some id
  | .post uid _, "uid" => some uid
  | _, _ => none

/-- The document has these fields and no others. -/
def Doc.Has (d : Doc) (fields : List String) : Prop := ∀ k, (d k).isSome ↔ k ∈ fields

/-- What every document of the app keeps to. -/
structure Doc.Formed (p : Path) (d : Doc) : Prop where
  /-- the likes are a number, and all else is text -/
  typed : ∀ k v, d k = some v → (k = "likes" ↔ v.asString = none)
  fields : d.Has p.fields ∨ ∃ k, p.mergedField = some k ∧ d.Has [k]
  tells : ∀ k x, p.tells k = some x → ∀ v, d k = some v → v = .str x

/-- Fields written over a document that has them leave it with the fields it had. -/
theorem Doc.Has.update {d : Doc} {fields : List String} (h : d.Has fields)
    {new : List (String × Value)} (hnew : ∀ x ∈ new, x.1 ∈ fields) :
    Doc.Has (DocStore.Doc.update d new) fields := by
  intro k
  rw [DocStore.Doc.isSome_update, h k]
  refine ⟨fun hk => hk.elim (fun hk => ?_) id, Or.inr⟩
  obtain ⟨x, hx, rfl⟩ := List.mem_map.mp hk
  exact hnew x hx

/-- A document that is set has the fields it is set with. -/
theorem Doc.has_set (new : List (String × Value)) :
    Doc.Has (DocStore.Doc.update DocStore.Doc.empty new) (new.map Prod.fst) := by
  intro k
  rw [DocStore.Doc.isSome_update]
  simp [DocStore.Doc.empty]

theorem Path.mem_fields_of_merged {p : Path} {k : String} (h : p.mergedField = some k) :
    k ∈ p.fields := by
  cases p with
  | like | clothes => simp [mergedField] at h
  | user | post | social =>
      obtain rfl := Option.some.inj h
      simp [fields]

/-- The fields of a write: all those of the collection, or the one that is merged. -/
def Path.Takes (p : Path) (fields : List String) : Prop :=
  fields = p.fields ∨ ∃ k, p.mergedField = some k ∧ fields = [k]

/-- **Fields that are merged into a document as it should be leave one.** -/
theorem Doc.formed_update {p : Path} {new : List (String × Value)} {old : Option Doc}
    (hold : ∀ d, old = some d → Doc.Formed p d) (htakes : p.Takes (new.map Prod.fst))
    (htyped : ∀ x ∈ new, x.1 = "likes" ↔ x.2.asString = none)
    (htells : ∀ x ∈ new, ∀ t, p.tells x.1 = some t → x.2 = .str t) :
    Doc.Formed p (DocStore.Doc.update (old.getD DocStore.Doc.empty) new) where
  typed k v hk := by
    rcases DocStore.Doc.update_eq_some hk with h | h
    · exact htyped _ h
    · cases old with
      | none => simp [DocStore.Doc.empty] at h
      | some d => exact (hold d rfl).typed k v h
  fields := by
    cases old with
    | none =>
        rcases htakes with h | ⟨k, hk, h⟩
        · exact Or.inl (h ▸ Doc.has_set new)
        · exact Or.inr ⟨k, hk, h ▸ Doc.has_set new⟩
    | some d =>
        have hmem : ∀ {fields : List String}, (∀ k ∈ new.map Prod.fst, k ∈ fields) →
            ∀ x ∈ new, x.1 ∈ fields := fun h x hx => h _ (List.mem_map_of_mem hx)
        rcases (hold d rfl).fields with hd | ⟨k, hk, hd⟩
        · refine Or.inl (hd.update (hmem fun j hj => ?_))
          rcases htakes with h | ⟨k, hk, h⟩
          · rwa [h] at hj
          · rw [h, List.mem_singleton] at hj
            exact hj ▸ Path.mem_fields_of_merged hk
        · -- a document that was only merged into: all its fields may come now
          rcases htakes with h | ⟨k', hk', h⟩
          · refine Or.inl fun j => ?_
            rw [Option.getD_some, DocStore.Doc.isSome_update, h, hd j, List.mem_singleton]
            exact or_iff_left_of_imp fun hj => hj ▸ Path.mem_fields_of_merged hk
          · obtain rfl : k = k' := Option.some.inj (hk.symm.trans hk')
            exact Or.inr ⟨k, hk, hd.update (hmem fun j hj => by rwa [h] at hj)⟩
  tells k x hx v hk := by
    rcases DocStore.Doc.update_eq_some hk with h | h
    · exact htells _ h x hx
    · cases old with
      | none => simp [DocStore.Doc.empty] at h
      | some d => exact (hold d rfl).tells k x hx v h

/-- **What a request leaves is as it should be**, if what it found was. -/
theorem Request.formed_result (r : Request) {old : Option Doc}
    (hold : ∀ d, old = some d → Doc.Formed r.path d) {d : Doc}
    (hd : r.write.result old = some d) : Doc.Formed r.path d := by
  cases r with
  | unlike | deletePost | deleteSocial => simp [write, DocStore.Write.result] at hd
  | signUp | create | publish | clothes =>
      obtain rfl := (Option.some.inj hd).symm
      have hnone : ∀ p d, (none : Option Doc) = some d → Doc.Formed p d := by simp
      refine Doc.formed_update (hnone _) (Or.inl rfl) ?_ ?_
      · simp [Value.asString]
      · simp [path, write, DocStore.Write.path, Path.tells]
  | like =>
      obtain rfl := (Option.some.inj hd).symm
      refine Doc.formed_update hold (Or.inl rfl) ?_ ?_
      · simp [Value.asString]
      · simp [path, write, DocStore.Write.path, Path.tells]
  | picture | countPost | countSocial =>
      obtain rfl := (Option.some.inj hd).symm
      refine Doc.formed_update hold (Or.inr ⟨_, rfl, rfl⟩) ?_ ?_
      · simp [Value.asString]
      · simp [path, write, DocStore.Write.path, Path.tells]

/-- **What every request keeps of a document holds of every document.** -/
theorem document_invariant {I : Path → Doc → Prop} {rs : List Request}
    (h : ∀ r ∈ rs, ∀ old, (∀ d, old = some d → I r.path d) →
      ∀ d, r.write.result old = some d → I r.path d) {p : Path} {d : Doc}
    (hd : (contents rs).lookup p = some d) : I p d := by
  refine DocStore.lookup_invariant (fun w hw old hold d hd => ?_) hd
  obtain ⟨r, hr, rfl⟩ := List.mem_map.mp hw
  exact h r hr old hold d hd

/-- **Every document is as it should be**, whatever has been written and in whatever order. -/
theorem formed_of_lookup {rs : List Request} {p : Path} {d : Doc}
    (h : (contents rs).lookup p = some d) : Doc.Formed p d :=
  document_invariant (fun r _ _ hold _ hd => r.formed_result hold hd) h

end UTrend
