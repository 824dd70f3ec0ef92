/-
The document of a user.

`Signup.signUpPressed` writes it; a Google sign-in does not.  Two handlers rely on
it: the header of the profile unwraps the name, and `addToDB` unwraps the document,
the picture and the name.  A user who came in through Google has no document, and a
picture that is set then is merged into one that holds nothing else.

`Documented` says that a picture is set and a post is submitted only by users whose
document is there.  Then every document of a user goes back to a sign-up, is never
removed, and keeps its name and its picture.
-/
import UTrend.Proofs.Submission

namespace UTrend

variable {C : Type} {me : C → String} {s s' : World C}

open World

/-- The document has what `addToDB` unwraps. -/
def Doc.Complete (d : Doc) : Prop :=
  (Doc.string d "username").isSome ∧ (Doc.string d "profileImg").isSome

/-- The sign-up of a user is among the writes. -/
def SignedUp (V : List Request) (uid : String) : Prop :=
  ∃ r ∈ V, ∃ firstname username, r = .signUp uid firstname username

/-- The callback of a read would run into a force unwrap of `nil`. -/
def Read.traps (m : String) (p : Phone) (r : Read) : Bool :=
  match r.answer with
  | some answer => (p.callback m r.ask answer).isNone
  | none => false

/-- A picture is set, and a post submitted, only by a user whose document is there. -/
def Documented (me : C → String) (s : World C) (e : Event C) : Prop :=
  e.pictures ∨ (s.submission me e).isSome → Path.user (me e.client) ∈ s.view e.client

instance [DecidableEq C] (me : C → String) (s : World C) (e : Event C) :
    Decidable (Documented me s e) :=
  inferInstanceAs (Decidable (_ → _))

/-! ### The document -/

/-- Before a sign-up nobody sets a picture. -/
def SignUpFirst (uid : String) : List Request → Prop :=
  Precedes (fun r => ∃ firstname username, r = .signUp uid firstname username)
    fun r => ∃ imgName, r = .picture uid imgName

theorem complete_merge_picture {d : Doc} (h : Doc.Complete d) (imgName : String) :
    Doc.Complete (DocStore.Doc.update d [("profileImg", .str imgName)]) := by
  refine ⟨?_, ?_⟩
  · simpa [Doc.string, DocStore.Doc.update, List.lookup_cons] using h.1
  · simp [Doc.string, DocStore.Doc.update, Value.asString]

/-- When every picture comes after the sign-up, there is a document from the sign-up on, and
it is complete. -/
theorem user_document {uid : String} (rs : List Request) (hfirst : SignUpFirst uid rs) :
    ((∃ d, (contents rs).lookup (.user uid) = some d) ↔ SignedUp rs uid) ∧
      ∀ d, (contents rs).lookup (.user uid) = some d → Doc.Complete d := by
  revert hfirst
  refine contents_induction (p := .user uid)
    (I := fun rs doc => SignUpFirst uid rs → ((∃ d, doc = some d) ↔ SignedUp rs uid) ∧
      ∀ d, doc = some d → Doc.Complete d) ?_ ?_ ?_ rs
  · simp [SignedUp]
  · intro rs r doc ih hpath hfirst
    obtain ⟨hiff, hcomplete⟩ := ih (precedes_append.mp hfirst).1
    refine ⟨hiff.trans ⟨?_, ?_⟩, hcomplete⟩
    · rintro ⟨x, hx, hsign⟩
      exact ⟨x, List.mem_append_left _ hx, hsign⟩
    · rintro ⟨x, hx, firstname, username, rfl⟩
      rcases List.mem_append.mp hx with hx | hx
      · exact ⟨_, hx, firstname, username, rfl⟩
      · exact absurd (List.mem_singleton.mp hx ▸ rfl) hpath
  · intro rs r doc ih hpath hfirst
    obtain ⟨hiff, hcomplete⟩ := ih (precedes_append.mp hfirst).1
    rcases Request.path_eq_user hpath with ⟨firstname, username, rfl⟩ | ⟨imgName, rfl⟩
    · refine ⟨⟨fun _ => ⟨_, List.mem_append_right _ (List.mem_singleton_self _), firstname,
        username, rfl⟩, fun _ => ⟨_, rfl⟩⟩, fun d hd => ?_⟩
      obtain rfl := (Option.some.inj hd).symm
      exact ⟨rfl, rfl⟩
    · -- the picture is merged into the document that the sign-up left
      obtain ⟨x, hx, hsign⟩ := hfirst.exists_before (m := []) ⟨imgName, rfl⟩
      obtain ⟨d, rfl⟩ := hiff.mpr ⟨x, hx, hsign⟩
      refine ⟨⟨fun _ => ⟨x, List.mem_append_left _ hx, hsign⟩, fun _ => ⟨_, rfl⟩⟩, fun e he => ?_⟩
      obtain rfl := (Option.some.inj he).symm
      exact complete_merge_picture (hcomplete d rfl) imgName

/-! ### Reads -/

/-- What a callback unwraps is there. -/
structure Intact (m : String) (V : List Request) (r : Read) : Prop where
  profile : ∀ d, r = ⟨.profile, some (.doc (some d))⟩ → (Doc.string d "username").isSome
  author : ∀ id form doc, r = ⟨.author id form, some (.doc doc)⟩ →
    ∃ d, doc = some d ∧ Doc.Complete d
  asked : ∀ id form, r.ask = .author id form → SignedUp V m

theorem SignedUp.mono {V W : List Request} {uid : String} (h : SignedUp V uid)
    (hVW : ∀ r ∈ V, r ∈ W) : SignedUp W uid :=
  h.imp fun _ hr => ⟨hVW _ hr.1, hr.2⟩

theorem Intact.mono {m : String} {V W : List Request} {r : Read} (h : Intact m V r)
    (hVW : ∀ x ∈ V, x ∈ W) : Intact m W r :=
  ⟨h.profile, h.author, fun id form ha => (h.asked id form ha).mono hVW⟩

/-- **A callback that finds what it unwraps does not trap.** -/
theorem Intact.traps {m : String} {V : List Request} {r : Read} (h : Intact m V r) (p : Phone) :
    r.traps m p = false := by
  obtain ⟨a, answer⟩ := r
  cases answer with
  | none => rfl
  | some answer =>
      cases a with
      | socialFeed | posts | heart => cases answer <;> rfl
      | author id form =>
          cases answer with
          | doc doc =>
              obtain ⟨d, rfl, huser, himg⟩ := h.author id form doc rfl
              obtain ⟨username, huser⟩ := Option.isSome_iff_exists.mp huser
              obtain ⟨profImg, himg⟩ := Option.isSome_iff_exists.mp himg
              simp [Read.traps, Phone.callback, PostInfo.addToDBDone, huser, himg]
          | _ => rfl
      | profile =>
          cases answer with
          | doc doc =>
              cases doc with
              | none => rfl
              | some d =>
                  obtain ⟨username, huser⟩ := Option.isSome_iff_exists.mp (h.profile d rfl)
                  simp [Read.traps, Phone.callback, Profile.fetchUserDone, huser]
          | _ => rfl

variable [DecidableEq C]

/-- Pictures come after sign-ups, and the reads find what they unwrap. -/
structure Profiled (me : C → String) (s : World C) : Prop where
  order : ∀ uid, s.net.Ordered
    (fun r => ∃ firstname username, r = .signUp uid firstname username)
    fun r => ∃ imgName, r = .picture uid imgName
  reads : ∀ c, ∀ r ∈ (s.phone c).reads, Intact (me c) (s.net.seen c) r

omit [DecidableEq C] in
theorem Profiled.signedUp (hP : Profiled me s) {c : C} (h : Path.user (me c) ∈ s.view c) :
    SignedUp (s.net.seen c) (me c) :=
  (user_document _ (hP.order (me c) c)).1.mp (DocStore.exists_lookup_of_mem h)

omit [DecidableEq C] in
theorem Effect.picture_eq {c : C} {e : Event C} {rs : List Request} {reads : List Read}
    {uploads : List StorageRef} (h : Effect me s c e rs reads uploads) {uid imgName : String}
    (hr : .picture uid imgName ∈ rs) : uid = me c ∧ e = .act c (.picture imgName) := by
  cases h with
  | tap imgN => simpa using SocialMore.mem_tapRequests hr
  | picture imgN =>
      obtain ⟨rfl, rfl⟩ := Request.picture.inj (List.mem_singleton.mp hr)
      exact ⟨rfl, rfl⟩
  | _ => simp at hr

omit [DecidableEq C] in
theorem profiled_init : Profiled me (init : World C) :=
  ⟨fun _ => Net.ordered_empty _ _, fun c r hr => by simp [init] at hr⟩

/-- **Every event keeps the reads intact, when pictures and posts are documented.** -/
theorem profiled_step (hP : Profiled me s) {e : Event C} (hdoc : Documented me s e)
    (h : step me s e = some s') : Profiled me s' where
  order uid := by
    refine ordered_step h (fun rs reads uploads heff r hr hpic => ?_) (hP.order uid)
    obtain ⟨imgName, rfl⟩ := hpic
    obtain ⟨rfl, he⟩ := heff.picture_eq hr
    exact hP.signedUp (hdoc (Or.inl (by rw [he]; rfl)))
  reads c r hr := by
    obtain ⟨rs, heff, -⟩ := step_history h c
    have hmono : ∀ x ∈ s.net.seen c, x ∈ s'.net.seen c := fun x hx => mem_seen_step h hx
    rcases heff.read_cases hr with hr | ⟨hnone, hnew⟩ | ⟨k, ok, rfl, hread, hans⟩
    · exact (hP.reads c r hr).mono hmono
    · refine ⟨?_, ?_, fun id form ha => ?_⟩
      · rintro d rfl
        simp at hnone
      · rintro id form doc rfl
        simp at hnone
      · obtain ⟨rfl, -, hform, hadd⟩ := hnew id form ha
        refine (hP.signedUp (hdoc (Or.inr ?_))).mono hmono
        rw [submission, hform, Option.bind_some, hadd]
        rfl
    · have hold := hP.reads c _ (List.mem_of_getElem? hread)
      obtain ⟨hiff, hcomplete⟩ := user_document _ (hP.order (me c) c)
      refine ⟨?_, ?_, fun id form ha => (hold.asked id form ha).mono hmono⟩
      · rintro d rfl
        cases ok with
        | false => simp at hans
        | true =>
            have hd : some d = (s.view c).lookup (.user (me c)) := by
              simpa [Ask.answerOf] using hans
            exact (hcomplete d hd.symm).1
      · rintro id form doc rfl
        cases ok with
        | false => simp at hans
        | true =>
            have hd : doc = (s.view c).lookup (.user (me c)) := by
              simpa [Ask.answerOf] using hans
            obtain ⟨d, hlookup⟩ := hiff.mpr (hold.asked id form rfl)
            exact ⟨d, hd.trans hlookup, hcomplete d hlookup⟩

/-- **No callback unwraps `nil`, in runs whose pictures and posts are documented.** -/
theorem callbacks_intact {es : List (Event C)}
    (hrun : Machine.run (step me) init es = some s)
    (hdoc : Machine.Along (step me) (Documented me) init es) (c : C) :
    ∀ r ∈ (s.phone c).reads,
      (∀ d, r = ⟨.profile, some (.doc (some d))⟩ → (Doc.string d "username").isSome) ∧
      (∀ id form doc, r = ⟨.author id form, some (.doc doc)⟩ → ∃ d, doc = some d ∧
        (Doc.string d "username").isSome ∧ (Doc.string d "profileImg").isSome) ∧
      r.traps (me c) (s.phone c) = false := by
  intro r hr
  have hP : Profiled me s := Machine.invariant_run
    (fun s e s' hP hd h => profiled_step hP hd h) profiled_init hdoc hrun
  have hintact := hP.reads c r hr
  exact ⟨hintact.profile, hintact.author, hintact.traps (s.phone c)⟩

set_option maxRecDepth 100000 in
/-- Ann signs up, sets a picture and posts, and the question about the author is answered. -/
theorem callbacks_intact_duo :
    ∃ s, Machine.run (step duo) init (signingUp ++ [.act 0 (.picture "face")] ++ submitting
        ++ [.answer 0 0 true]) = some s ∧
      ∀ r ∈ (s.phone 0).reads,
        (∀ d, r = ⟨.profile, some (.doc (some d))⟩ → (Doc.string d "username").isSome) ∧
        (∀ id form doc, r = ⟨.author id form, some (.doc doc)⟩ → ∃ d, doc = some d ∧
          (Doc.string d "username").isSome ∧ (Doc.string d "profileImg").isSome) ∧
        r.traps "ann" (s.phone 0) = false := by
  obtain ⟨s, hs, -⟩ : ∃ s, Machine.run (step duo) init (signingUp
      ++ [.act 0 (.picture "face")] ++ submitting ++ [.answer 0 0 true]) = some s ∧ True := by
    decide +kernel
  exact ⟨s, hs, callbacks_intact hs (by decide +kernel) 0⟩

set_option maxRecDepth 100000 in
/-- **A user who came in through Google has no document.**  The answer about the author of a
post is then unwrapped in vain, and so is the name in a document that holds a picture
alone. -/
theorem google_user_traps :
    (∃ s, Machine.run (step duo) init ([.act 0 .google, .answer 0 0 true, .arrive 0 0]
        ++ submitting ++ [.answer 0 0 true]) = some s ∧
      ∃ r ∈ (s.phone 0).reads, r.traps "ann" (s.phone 0) = true) ∧
    ∃ s, Machine.run (step duo) init [.act 0 .google, .act 0 (.picture "face"), .commit 0,
        .answer 0 0 true] = some s ∧
      ∃ r ∈ (s.phone 0).reads, r.traps "ann" (s.phone 0) = true := by
  decide +kernel

end UTrend
