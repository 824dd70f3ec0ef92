/-
The images that documents name.

Four handlers start an upload and write a document that names it, without waiting
for the one to do the other; only `addToDB` writes later, with the name that the
form has kept.  A failed upload is ignored.

`Stores` says that an upload fails only while nothing names its object, and that a
post is submitted only with a picture whose upload has not failed.  The invariant
is then that whatever is named (by a document, by a write that waits, by a question
that will become a write) is in Storage or on its way there.
-/
import UTrend.Proofs.Submission

namespace UTrend

variable {C : Type} {me : C → String} {s s' : World C}

open World

/-! ### Naming an image -/

/-- The field of a document that names an image, with the folder it is read from: by
`Profile.fetchUser`, by the cells of the feeds and `SocialMore`, by `LikeFeed`, and by the
racks and `wardrobeFeed`. -/
def Path.image : Path → Folder × String
  | .user _ => (.profile, "profileImg")
  | .post _ _ | .social _ => (.social, "postImg")
  | .like uid _ => (.likes uid, "likedImg")
  | .clothes uid _ => (.clothes uid, "imgName")

/-- The object of a name in a folder; the empty name stands for no image. -/
def Folder.ref (folder : Folder) (name : String) : Option StorageRef :=
  if name = "" then none else some ⟨folder, name⟩

theorem Folder.ref_eq_some {folder : Folder} {name : String} {o : StorageRef}
    (h : folder.ref name = some o) : o = ⟨folder, name⟩ := by
  unfold Folder.ref at h
  split at h
  · simp at h
  · exact (Option.some.inj h).symm

/-- The object that a document names. -/
def Doc.image (p : Path) (d : Doc) : Option StorageRef :=
  (Doc.string d p.image.2).bind p.image.1.ref

/-- The object that a request names. -/
def Request.image (r : Request) : Option StorageRef :=
  match r.write with
  | .set p fields | .merge p fields => Doc.image p (DocStore.Doc.empty.update fields)
  | .delete _ => none

/-- What each write names. -/
theorem Request.image_eq (r : Request) : r.image = match r with
    | .picture _ imgName => Folder.ref .profile imgName
    | .create _ _ _ imgName | .publish _ _ _ imgName _ _ => Folder.ref .social imgName
    | .like uid _ imgN _ => Folder.ref (.likes uid) imgN
    | .clothes uid _ imgN _ => Folder.ref (.clothes uid) imgN
    | _ => none := by
  cases r <;> simp [image, write, Doc.image, Path.image, Doc.string, DocStore.Doc.update,
    DocStore.Doc.empty, List.lookup_cons, Value.asString, Folder.ref]

/-- The object that the answer to a question will be used to name. -/
def Ask.image : Ask → Option StorageRef
  | .author _ form => some ⟨.social, form.imgName⟩
  | _ => none

/-- A document, a waiting write or a waiting question names the object. -/
def Named (s : World C) (o : StorageRef) : Prop :=
  (∃ e ∈ s.db.entries, Doc.image e.1 e.2 = some o) ∨
    (∃ c, ∃ r ∈ s.net.queue c, r.image = some o) ∨
    ∃ c, ∃ r ∈ (s.phone c).reads, r.ask.image = some o

/-- The object is in Storage or being uploaded. -/
def Held (s : World C) (o : StorageRef) : Prop :=
  o ∈ s.storage ∨ ∃ c, o ∈ (s.phone c).uploads

instance [Fintype C] (s : World C) (o : StorageRef) : Decidable (Named s o) :=
  inferInstanceAs (Decidable ((∃ e ∈ s.db.entries, Doc.image e.1 e.2 = some o) ∨
    (∃ c, ∃ r ∈ s.net.queue c, r.image = some o) ∨
    ∃ c, ∃ r ∈ (s.phone c).reads, r.ask.image = some o))

instance [Fintype C] (s : World C) (o : StorageRef) : Decidable (Held s o) :=
  inferInstanceAs (Decidable (o ∈ s.storage ∨ ∃ c, o ∈ (s.phone c).uploads))

/-- An upload fails only while nothing names its object, and a post is submitted only with
a picture whose upload has not failed. -/
def Stores (me : C → String) (s : World C) (e : Event C) : Prop :=
  (∀ o ∈ s.failing e, ¬ Named s o) ∧ ∀ r ∈ s.submission me e, ∀ o ∈ r.image, Held s o

instance [Fintype C] (me : C → String) (s : World C) (e : Event C) : Decidable (Stores me s e) :=
  inferInstanceAs (Decidable
    ((∀ o ∈ s.failing e, ¬ Named s o) ∧ ∀ r ∈ s.submission me e, ∀ o ∈ r.image, Held s o))

theorem mem_entries {db : Store} {p : Path} {d : Doc} (h : db.lookup p = some d) :
    ⟨p, d⟩ ∈ db.entries :=
  AList.mem_lookup_iff.mp h

/-! ### What a write leaves named -/

/-- A document that names an image after a write did so before, or the write names it. -/
theorem image_concat {rs : List Request} {r : Request} {p : Path} {d : Doc} {o : StorageRef}
    (hd : (contents (rs ++ [r])).lookup p = some d) (ho : Doc.image p d = some o) :
    r.image = some o ∨ ∃ d', (contents rs).lookup p = some d' ∧ Doc.image p d' = some o := by
  rw [lookup_contents_concat] at hd
  by_cases hpath : r.path = p
  · rw [if_pos hpath] at hd
    unfold Request.path at hpath
    unfold Request.image
    cases hw : r.write with
    | set q fields =>
        rw [hw] at hd hpath
        obtain rfl : q = p := hpath
        obtain rfl := (Option.some.inj hd).symm
        exact Or.inl ho
    | merge q fields =>
        rw [hw] at hd hpath
        obtain rfl : q = p := hpath
        obtain rfl := (Option.some.inj hd).symm
        cases hf : fields.lookup q.image.2 with
        | some value =>
            left
            simpa [Doc.image, Doc.string, DocStore.Doc.update, hf] using ho
        | none =>
            right
            cases hold : (contents rs).lookup q with
            | none =>
                simp [Doc.image, Doc.string, DocStore.Doc.update, DocStore.Doc.empty, hf, hold]
                  at ho
            | some d' =>
                refine ⟨d', rfl, ?_⟩
                simpa [Doc.image, Doc.string, DocStore.Doc.update, hf, hold] using ho
    | delete q =>
        rw [hw] at hd
        simp [DocStore.Write.result] at hd
  · rw [if_neg hpath] at hd
    exact Or.inr ⟨d, hd, ho⟩

/-- What a new picture, a like and a piece of clothing name has just begun to be uploaded,
and what a post names comes from its form. -/
theorem Effect.image {c : C} {e : Event C} {rs : List Request} {reads : List Read}
    {uploads : List StorageRef} (h : Effect me s c e rs reads uploads) {r : Request}
    (hr : r ∈ rs) {o : StorageRef} (ho : r.image = some o) :
    o ∈ uploads ∨ (∃ x ∈ (s.phone c).reads, x.ask.image = some o) ∨
      r ∈ s.submission me e := by
  rw [Request.image_eq] at ho
  cases h with
  | signUp firstname username =>
      obtain rfl := List.mem_singleton.mp hr
      simp at ho
  | tap imgN hv huID hid hnumber hfilled =>
      rename_i v uID id tap
      left
      rcases SocialMore.mem_tapRequests hr with rfl | rfl | ⟨-, rfl⟩ | ⟨hf, rfl⟩
      · simp at ho
      · simp at ho
      · simp at ho
      · obtain rfl := Folder.ref_eq_some ho
        exact List.mem_append_right _ (by simp [hf])
  | submit id hform hadd hfresh =>
      obtain rfl := List.mem_singleton.mp hr
      refine Or.inr (Or.inr ?_)
      rw [submission, hform]
      exact hadd
  | publish k hread =>
      obtain rfl := List.mem_singleton.mp hr
      obtain rfl := Folder.ref_eq_some ho
      exact Or.inr (Or.inl ⟨_, List.mem_of_getElem? hread, rfl⟩)
  | delete k hcell =>
      simp only [List.mem_cons, List.not_mem_nil, or_false] at hr
      rcases hr with rfl | rfl <;> simp at ho
  | addToCloset docId imgN type =>
      obtain rfl := List.mem_singleton.mp hr
      obtain rfl := Folder.ref_eq_some ho
      exact Or.inl (List.mem_append_right _ (List.mem_singleton_self _))
  | picture imgN =>
      obtain rfl := List.mem_singleton.mp hr
      obtain rfl := Folder.ref_eq_some ho
      exact Or.inl (List.mem_append_right _ (List.mem_singleton_self _))
  | _ => simp at hr

/-! ### Runs -/

/-- The picture of a form that passes is one that its writes name. -/
theorem PostInfo.image_of_addToDB {m id : String} {form : PostInfo} {r : Request}
    (h : form.addToDB m id = some r) : r.image = some ⟨.social, form.imgName⟩ := by
  unfold PostInfo.addToDB at h
  split at h
  · rename_i hform
    obtain rfl := (Option.some.inj h).symm
    rw [Request.image_eq]
    exact if_neg hform.2
  · simp at h

variable [DecidableEq C]

/-- What is held stays held, unless its upload fails. -/
theorem held_step {e : Event C} (h : step me s e = some s') {o : StorageRef} (ho : Held s o)
    (hfail : o ∉ s.failing e) : Held s' o := by
  rcases ho with ho | ⟨c, ho⟩
  · exact Or.inl (mem_storage_step h (Or.inl ho))
  · obtain ⟨rs, heff, -⟩ := step_history h c
    rcases heff.mem_uploads ho with ho | ⟨k, ok, rfl, hk⟩
    · exact Or.inr ⟨c, ho⟩
    · cases ok with
      | true => exact Or.inl (mem_storage_step h (Or.inr ⟨c, k, rfl, hk⟩))
      | false => exact absurd hk hfail

/-- What an event names anew is being uploaded, or was named before, or is the picture of a
submission. -/
theorem named_step {e : Event C} (h : step me s e = some s') {o : StorageRef}
    (ho : Named s' o) :
    Held s' o ∨ Named s o ∨ ∃ r ∈ s.submission me e, r.image = some o := by
  rcases ho with ⟨⟨p, d⟩, hmem, ho⟩ | ⟨c, r, hr, ho⟩ | ⟨c, r, hr, ho⟩
  · have hd : s'.db.lookup p = some d := AList.mem_lookup_iff.mpr hmem
    refine Or.inr (Or.inl ?_)
    rcases step_log h with hlog | ⟨c, r, rest, -, hq, hlog⟩
    · rw [db, Net.committed, hlog] at hd
      exact Or.inl ⟨⟨p, d⟩, mem_entries hd, ho⟩
    · rw [db, Net.committed, hlog, committed_concat] at hd
      rcases image_concat hd ho with hr | ⟨d', hd', ho⟩
      · exact Or.inr (Or.inl ⟨c, r, by rw [hq]; exact List.mem_cons_self, hr⟩)
      · exact Or.inl ⟨⟨p, d'⟩, mem_entries hd', ho⟩
  · rcases mem_queue_step h hr with hr | ⟨rs, heff, hr⟩
    · exact Or.inr (Or.inl (Or.inr (Or.inl ⟨c, r, hr, ho⟩)))
    · rcases heff.image hr ho with hup | ⟨x, hx, ho⟩ | hr
      · exact Or.inl (Or.inr ⟨c, hup⟩)
      · exact Or.inr (Or.inl (Or.inr (Or.inr ⟨c, x, hx, ho⟩)))
      · exact Or.inr (Or.inr ⟨r, hr, ho⟩)
  · obtain ⟨rs, heff, -⟩ := step_history h c
    rcases heff.read_cases hr with hr | ⟨-, hnew⟩ | ⟨k, ok, -, hread, -⟩
    · exact Or.inr (Or.inl (Or.inr (Or.inr ⟨c, r, hr, ho⟩)))
    · cases hask : r.ask with
      | author id form =>
          obtain ⟨rfl, -, hform, hadd⟩ := hnew id form hask
          refine Or.inr (Or.inr ⟨_, by rw [submission, hform]; exact hadd, ?_⟩)
          rw [PostInfo.image_of_addToDB hadd, ← ho, hask]
          rfl
      | _ => simp [hask, Ask.image] at ho
    · exact Or.inr (Or.inl (Or.inr (Or.inr ⟨c, _, List.mem_of_getElem? hread, ho⟩)))

/-- **Every event keeps what is named held, when uploads that are named do not fail.** -/
theorem named_held_step {e : Event C} (hI : ∀ o, Named s o → Held s o)
    (hstores : Stores me s e) (h : step me s e = some s') : ∀ o, Named s' o → Held s' o := by
  intro o ho
  rcases named_step h ho with hheld | hnamed | ⟨r, hr, hro⟩
  · exact hheld
  · exact held_step h (hI o hnamed) fun hfail => hstores.1 o hfail hnamed
  · refine held_step h (hstores.2 r hr o hro) fun hfail => ?_
    -- an event does not submit and fail at once
    cases e with
    | upload c k ok => simp [submission] at hr
    | _ => simp [failing] at hfail

/-- **Every image that a document names is in Storage when nothing is pending, in runs that
store what they name.** -/
theorem images_stored {es : List (Event C)} (hrun : Machine.run (step me) init es = some s)
    (hstores : Machine.Along (step me) (Stores me) init es) (hidle : s.Idle) {p : Path}
    {d : Doc} {o : StorageRef} (hd : s.db.lookup p = some d) (ho : Doc.image p d = some o) :
    o ∈ s.storage := by
  have hI : ∀ o, Named s o → Held s o := Machine.invariant_run
    (I := fun s => ∀ o, Named s o → Held s o)
    (fun s e s' hI hP h => named_held_step hI hP h) (by simp [Named, init, db]) hstores hrun
  rcases hI o (Or.inl ⟨⟨p, d⟩, mem_entries hd, ho⟩) with hstored | ⟨c, hup⟩
  · exact hstored
  · simp [(hidle.2 c).2] at hup

set_option maxRecDepth 100000 in
/-- Ann sets a picture and posts, and both uploads succeed. -/
theorem images_stored_duo :
    ∃ s, Machine.run (step duo) init (signingUp ++ [.act 0 (.picture "face"), .commit 0]
        ++ submitting ++ [.upload 0 0 true] ++ publishing) = some s ∧
      ∀ p d o, s.db.lookup p = some d → Doc.image p d = some o → o ∈ s.storage := by
  obtain ⟨s, hs, hidle⟩ : ∃ s, Machine.run (step duo) init (signingUp
      ++ [.act 0 (.picture "face"), .commit 0] ++ submitting ++ [.upload 0 0 true]
        ++ publishing) = some s ∧ s.Idle := by
    decide +kernel
  exact ⟨s, hs, fun p d o hd ho => images_stored hs (by decide +kernel) hidle hd ho⟩

set_option maxRecDepth 100000 in
/-- **A post names a picture that was never stored.**  Its upload has failed. -/
theorem picture_never_stored :
    ∃ s, Machine.run (step duo) init (signingUp ++ [.act 0 .makePost, .act 0 (.caption "hi"),
        .act 0 (.pick "img"), .act 0 (.submit "p"), .upload 0 0 false] ++ publishing) = some s ∧
      s.Idle ∧ (s.db.lookup (.social "p")).bind (Doc.image (.social "p"))
        = some ⟨.social, "img"⟩ ∧ ⟨.social, "img"⟩ ∉ s.storage := by
  decide +kernel

end UTrend
