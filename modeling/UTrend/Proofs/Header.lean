/-
What the profile says of its user.

The header is read off the user's document: the names of the sign-up, and the picture that
was set last.  It is asked for before the writes of a sign-up have been applied, and may
be asked for while pictures wait, but a phone sees its own writes, so what it is answered
is never older than what has been done on it.
-/
import UTrend.Proofs.Authorship
import UTrend.Proofs.Profiles

namespace UTrend

open World

variable {C : Type} [DecidableEq C] {me : C → String} {s : World C}

/-- The picture that a request leaves a user with; a new user has none. -/
def pictureAfter (uid imgName : String) : Request → String
  | .signUp u _ _ => if u = uid then "" else imgName
  | .picture u new => if u = uid then new else imgName
  | _ => imgName

/-- The picture that the requests leave a user with. -/
def lastPicture (uid : String) (rs : List Request) : String := rs.foldl (pictureAfter uid) ""

omit [DecidableEq C] in
/-- **The document of a user names the picture that was set last.** -/
theorem profileImg_of_lookup {rs : List Request} {uid : String} :
    ∀ {d : Doc}, (contents rs).lookup (.user uid) = some d →
      Doc.string d "profileImg" = some (lastPicture uid rs) := by
  refine contents_induction (p := .user uid) (I := fun rs doc => ∀ {d : Doc}, doc = some d →
    Doc.string d "profileImg" = some (lastPicture uid rs)) ?_ ?_ ?_ rs
  · simp
  · intro rs r doc ih hother d hd
    rw [ih hd, lastPicture, lastPicture, List.foldl_concat]
    cases r with
    | signUp u firstname username | picture u imgName =>
        have hu : u ≠ uid := fun hu => hother (hu ▸ rfl)
        rw [pictureAfter, if_neg hu]
    | _ => rfl
  · intro rs r doc _ hself d hd
    rw [lastPicture, List.foldl_concat]
    rcases Request.path_eq_user hself with ⟨firstname, username, rfl⟩ | ⟨imgName, rfl⟩
    · obtain rfl := (Option.some.inj hd).symm
      rw [pictureAfter, if_pos rfl]
      rfl
    · obtain rfl := (Option.some.inj hd).symm
      rw [pictureAfter, if_pos rfl]
      simp [Doc.string, DocStore.Doc.update, Value.asString]

/-- **A profile shows the names of the sign-up and the picture that was set last**, whenever its
phone has signed the user up or has seen that done; until then there is nothing to show. -/
theorem profile_header {es : List (Event C)} (hrun : Machine.run (step me) init es = some s)
    (hdoc : Machine.Along (step me) (Documented me) init es) (c : C) :
    (∀ firstname username, .signUp (me c) firstname username ∈ s.net.seen c →
      ∃ d, Ask.profile.answerOf (me c) (s.view c) = .doc (some d) ∧
        Profile.fetchUserDone (some d) = some (some {
          firstName := some firstname
          userName := "@" ++ username
          profileImage := if lastPicture (me c) (s.net.seen c) = "" then none
            else some ⟨.profile, lastPicture (me c) (s.net.seen c)⟩ })) ∧
    (¬ SignedUp (s.net.seen c) (me c) →
      Ask.profile.answerOf (me c) (s.view c) = .doc none) := by
  have hP : Profiled me s := Machine.invariant_run
    (fun s e s' hP hd h => profiled_step hP hd h) profiled_init hdoc hrun
  have hR : Registered s := Machine.invariant_run_all (fun s e s' hR h => registered_step hR h)
    registered_init hrun
  obtain ⟨hiff, hcomplete⟩ := user_document _ (hP.order (me c) c)
  refine ⟨fun firstname username hsign => ?_, fun hnot => ?_⟩
  · obtain ⟨d, hd⟩ := hiff.mpr ⟨_, hsign, firstname, username, rfl⟩
    obtain ⟨name, hname⟩ := Option.isSome_iff_exists.mp (hcomplete d hd).1
    obtain ⟨first, hfirst, hsign'⟩ := (user_fields hd).1 name hname
    -- a user signs up once, so these are the names of that sign-up
    obtain ⟨rfl, rfl⟩ := hR.once _ _ _ _ _ (exists_history_of_seen hsign)
      (exists_history_of_seen hsign')
    refine ⟨d, congrArg Answer.doc hd, ?_⟩
    simp only [Profile.fetchUserDone, hname, hfirst, profileImg_of_lookup hd,
      Option.bind_eq_bind, Option.bind_some, Option.filter_some]
    by_cases hpic : lastPicture (me c) (s.net.seen c) = "" <;> simp [hpic]
  · have hnone : (s.view c).lookup (.user (me c)) = none := by
      rw [← Option.not_isSome_iff_eq_none, Option.isSome_iff_exists]
      exact fun h => hnot (hiff.mp h)
    exact congrArg Answer.doc hnone

set_option maxRecDepth 100000 in
/-- Ann sets two pictures, and the profile is asked for before the second is applied. -/
theorem profile_header_duo :
    ∃ s, Machine.run (step duo) init (signingUp ++ [.act 0 (.picture "face"), .commit 0,
        .act 0 (.picture "hat")]) = some s ∧
      ∃ d, Ask.profile.answerOf "ann" (s.view 0) = .doc (some d) ∧
        Profile.fetchUserDone (some d) = some (some {
          firstName := some "Ann"
          userName := "@" ++ "ann"
          profileImage := if lastPicture "ann" (s.net.seen 0) = "" then none
            else some ⟨.profile, lastPicture "ann" (s.net.seen 0)⟩ }) ∧
        lastPicture "ann" (s.net.seen 0) = "hat" := by
  obtain ⟨s, hs, hsign, hlast⟩ : ∃ s, Machine.run (step duo) init (signingUp
      ++ [.act 0 (.picture "face"), .commit 0, .act 0 (.picture "hat")]) = some s ∧
      Request.signUp "ann" "Ann" "ann" ∈ s.net.seen 0 ∧
      lastPicture "ann" (s.net.seen 0) = "hat" := by
    decide +kernel
  obtain ⟨d, hd, hheader⟩ := (profile_header hs (by decide +kernel) 0).1 _ _ hsign
  exact ⟨s, hs, d, hd, hheader, hlast⟩

end UTrend
