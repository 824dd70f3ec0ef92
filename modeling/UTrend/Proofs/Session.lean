/-
Whose screens these are.

The main screens do everything for the current user, and are on the screen because
some user signed in.  The two come apart in two ways.  `logOut` leaves the current
user as it is.  And the current user changes when a sign-in succeeds, the screen only
when its handler runs, so that two sign-ins at once can leave either behind the other.

`Kept` says of a step that it is none of these, and one step keeps `Right` just when it
is `Kept`.
-/
import UTrend.Model.Session

namespace UTrend

namespace Session

variable {s s' : Session} {e : SessionEvent}

/-! ### One event -/

theorem step_toLogin (h : s.step .toLogin = some s') :
    (∀ uid, s.screen ≠ .main uid) ∧ s' = s.push (.login s.screen.loggedOut) := by
  cases hscreen : s.screen with
  | welcome out | signup out =>
      simp only [step, hscreen, Option.some.injEq] at h
      exact ⟨by simp, h.symm⟩
  | login out | main uid => simp [step, hscreen] at h

theorem step_toSignup (h : s.step .toSignup = some s') :
    (∀ uid, s.screen ≠ .main uid) ∧ s' = s.push (.signup s.screen.loggedOut) := by
  cases hscreen : s.screen with
  | welcome out | login out =>
      simp only [step, hscreen, Option.some.injEq] at h
      exact ⟨by simp, h.symm⟩
  | signup out | main uid => simp [step, hscreen] at h

theorem step_attempt {kind : SignIn} (h : s.step (.attempt kind) = some s') :
    s' = { s with pending := s.pending ++ [kind] } := by
  simp only [step] at h
  split at h
  · exact (Option.some.inj h).symm
  · simp at h

theorem step_succeed {k : Nat} {uid : String} (h : s.step (.succeed k uid) = some s') :
    ∃ kind, s' = { s with
      currentUser := some uid
      pending := s.pending.eraseIdx k
      waiting := s.waiting ++ [(kind, uid)]
      signedInSince := true } := by
  simp only [step] at h
  split at h
  · exact ⟨_, (Option.some.inj h).symm⟩
  · simp at h

theorem step_fail {k : Nat} (h : s.step (.fail k) = some s') :
    s' = { s with pending := s.pending.eraseIdx k } := by
  simp only [step] at h
  split at h
  · exact (Option.some.inj h).symm
  · simp at h

theorem step_handler {k : Nat} (h : s.step (.handler k) = some s') :
    ∃ x, s.waiting[k]? = some x ∧
      s' = ({ s with waiting := s.waiting.eraseIdx k } : Session).push (.main x.2) := by
  simp only [step] at h
  split at h
  · rename_i hk
    exact ⟨_, hk, (Option.some.inj h).symm⟩
  · simp at h

theorem step_logOut (h : s.step .logOut = some s') :
    ∃ uid, s.screen = .main uid ∧
      s' = ({ s with signedInSince := false } : Session).push (.welcome true) := by
  simp only [step] at h
  split at h
  · rename_i uid hscreen
    exact ⟨uid, hscreen, (Option.some.inj h).symm⟩
  · simp at h

theorem step_act {s s' : Session} (h : s.step .act = some s') :
    ∃ uid, s.screen = .main uid ∧ s' = { s with acts := s.acts ++ [(uid, s.currentUser)] } := by
  simp only [step] at h
  split at h
  · rename_i uid hscreen
    exact ⟨uid, hscreen, (Option.some.inj h).symm⟩
  · simp at h

/-! ### Whose screens -/

/-- The current user is the one whose screens are shown, there is none on the pages after a
log-out, and everything was done for the user whose screen it was done on. -/
structure Right (s : Session) : Prop where
  main : ∀ uid, s.screen = .main uid → s.currentUser = some uid
  out : s.screen.loggedOut = true → s.signedInSince = false → s.currentUser = none
  acts : ∀ a ∈ s.acts, a.2 = some a.1

/-- Nobody logs out, a sign-in that succeeds while the main screens are shown is of their
user, and a handler runs while its user is the current one. -/
def Kept (s : Session) : SessionEvent → Prop
  | .succeed _ uid => ∀ v, s.screen = .main v → v = uid
  | .handler k => ∀ x, s.waiting[k]? = some x → s.currentUser = some x.2
  | .logOut => False
  | _ => True

theorem right_start (remembered : Option String) : (start remembered).Right :=
  ⟨fun _ h => (nomatch h), fun h => (nomatch h), fun _ h => (nomatch h)⟩

/-- A page that is opened from another tells as much about a log-out as the other. -/
theorem Right.push (hR : s.Right) {screen : Screen}
    (hout : screen.loggedOut = s.screen.loggedOut) (hmain : ∀ uid, screen ≠ .main uid) :
    (s.push screen).Right where
  main uid h := absurd h (hmain uid)
  out h := hR.out (hout ▸ h)
  acts := hR.acts

/-- **One step keeps the screens right just when it is kept.** -/
theorem right_step_iff (hR : s.Right) (h : s.step e = some s') : s'.Right ↔ s.Kept e := by
  cases e with
  | toLogin =>
      obtain ⟨-, rfl⟩ := step_toLogin h
      exact iff_of_true (hR.push rfl (by simp)) trivial
  | toSignup =>
      obtain ⟨-, rfl⟩ := step_toSignup h
      exact iff_of_true (hR.push rfl (by simp)) trivial
  | attempt kind =>
      obtain rfl := step_attempt h
      exact iff_of_true { hR with } trivial
  | succeed k uid =>
      obtain ⟨kind, rfl⟩ := step_succeed h
      constructor
      · intro hR' v hv
        exact Option.some.inj (hR'.main v hv).symm
      · intro hK
        exact ⟨fun v hv => congrArg some (hK v hv).symm, fun _ h => (nomatch h), hR.acts⟩
  | fail k =>
      obtain rfl := step_fail h
      exact iff_of_true { hR with } trivial
  | handler k =>
      obtain ⟨x, hk, rfl⟩ := step_handler h
      constructor
      · intro hR' y hy
        obtain rfl : x = y := Option.some.inj (hk.symm.trans hy)
        exact hR'.main x.2 rfl
      · intro hK
        refine ⟨fun uid hscreen => ?_, fun h => (nomatch h), hR.acts⟩
        obtain rfl : x.2 = uid := by simpa [Session.push] using hscreen
        exact hK x hk
  | logOut =>
      -- the user of the screen is still there on the Welcome page
      obtain ⟨uid, hscreen, rfl⟩ := step_logOut h
      refine iff_of_false (fun hR' => ?_) id
      have hsome : s.currentUser = some uid := hR.main uid hscreen
      have hnone : s.currentUser = none := hR'.out rfl rfl
      simp [hsome] at hnone
  | act =>
      obtain ⟨uid, hscreen, rfl⟩ := step_act h
      refine iff_of_true { hR with acts := fun a ha => ?_ } trivial
      rcases List.mem_append.mp ha with hold | hnew
      · exact hR.acts a hold
      · obtain rfl := List.mem_singleton.mp hnew
        exact hR.main uid hscreen

/-- **The screens act for their own user all through a run if and only if every step of it is
kept.** -/
theorem right_iff_kept (remembered : Option String) {es : List SessionEvent}
    (hrun : Machine.run step (start remembered) es = some s') :
    (∀ pre, pre <+: es → ∀ m, Machine.run step (start remembered) pre = some m → m.Right) ↔
      Machine.Along step Kept (start remembered) es :=
  Machine.forall_prefix_iff_along (fun _ _ _ => right_step_iff) (right_start remembered) hrun

/-- Someone tries Google and the form, signs up with the form, and adds a piece of clothing. -/
def signingUp : List SessionEvent :=
  [.toSignup, .attempt .google, .attempt .signUp, .fail 0, .succeed 0 "ann", .handler 0, .act]

/-- All of it is done for the one who signed up. -/
theorem right_iff_kept_signingUp :
    ∃ s, Machine.run step (start none) signingUp = some s ∧
      ∀ pre, pre <+: signingUp → ∀ m, Machine.run step (start none) pre = some m → m.Right := by
  obtain ⟨s, hs⟩ : ∃ s, Machine.run step (start none) signingUp = some s := ⟨_, rfl⟩
  have hkept : Machine.Along step Kept (start none) signingUp := by
    simp [signingUp, Machine.Along, step, Kept, start, push, Screen.offers]
  exact ⟨s, hs, (right_iff_kept none hs).mpr hkept⟩

/-- **Signing out leaves the user signed in.** -/
theorem signed_in_after_logOut :
    ∃ m, Machine.run step (start none) (signingUp ++ [.logOut]) = some m ∧
      m.screen = .welcome true ∧ m.signedInSince = false ∧ m.currentUser = some "ann" ∧
      ¬ m.Right := by
  refine ⟨_, rfl, rfl, rfl, rfl, fun hR => ?_⟩
  have hnone : some "ann" = none := hR.out rfl rfl
  simp at hnone

/-! ### One user -/

/-- Kept steps leave the main screens with the user whose they were. -/
theorem mine_step (hR : s.Right) (hmine : ∀ a ∈ s.acts, s.screen = .main a.1) (hK : s.Kept e)
    (h : s.step e = some s') : ∀ a ∈ s'.acts, s'.screen = .main a.1 := by
  intro a ha
  cases e with
  | toLogin =>
      obtain ⟨hnot, rfl⟩ := step_toLogin h
      exact absurd (hmine a ha) (hnot a.1)
  | toSignup =>
      obtain ⟨hnot, rfl⟩ := step_toSignup h
      exact absurd (hmine a ha) (hnot a.1)
  | attempt kind =>
      obtain rfl := step_attempt h
      exact hmine a ha
  | succeed k uid =>
      obtain ⟨kind, rfl⟩ := step_succeed h
      exact hmine a ha
  | fail k =>
      obtain rfl := step_fail h
      exact hmine a ha
  | handler k =>
      -- the handler's user is the current one, and so is the user of the screen it covers
      obtain ⟨x, hk, rfl⟩ := step_handler h
      have hscreen : s.currentUser = some a.1 := hR.main a.1 (hmine a ha)
      have hhandler : s.currentUser = some x.2 := hK x hk
      rw [Option.some.inj (hscreen.symm.trans hhandler)]
      rfl
  | logOut => exact absurd hK id
  | act =>
      obtain ⟨uid, hscreen, rfl⟩ := step_act h
      rcases List.mem_append.mp ha with hold | hnew
      · exact hmine a hold
      · obtain rfl := List.mem_singleton.mp hnew
        exact hscreen

/-- **In a kept run the phone belongs to one user**: everything on the main screens is done by
that user and for that user.  This is what lets a phone of the world have a user of its own. -/
theorem acts_of_one_user (remembered : Option String) {es : List SessionEvent}
    (hrun : Machine.run step (start remembered) es = some s')
    (hkept : Machine.Along step Kept (start remembered) es) :
    ∃ u, ∀ a ∈ s'.acts, a = (u, some u) := by
  have hstart : ∀ a ∈ (start remembered).acts, (start remembered).screen = .main a.1 := by
    simp [start]
  obtain ⟨hR, hmine⟩ : s'.Right ∧ ∀ a ∈ s'.acts, s'.screen = .main a.1 :=
    Machine.invariant_run (I := fun s => s.Right ∧ ∀ a ∈ s.acts, s.screen = .main a.1)
      (fun s e s' hI hK h => ⟨(right_step_iff hI.1 h).mpr hK, mine_step hI.1 hI.2 hK h⟩)
      ⟨right_start remembered, hstart⟩ hkept hrun
  by_cases hscreen : ∃ u, s'.screen = .main u
  · obtain ⟨u, hu⟩ := hscreen
    refine ⟨u, fun a ha => ?_⟩
    have hau : a.1 = u := by simpa [hu] using (hmine a ha).symm
    exact Prod.ext hau (by rw [hR.acts a ha, hau])
  · exact ⟨"", fun a ha => absurd ⟨a.1, hmine a ha⟩ hscreen⟩

/-! ### No log-out signs out -/

/-- Whoever has had main screens, or is about to, has signed in. -/
def SignedIn (s : Session) : Prop :=
  (∃ uid, .main uid ∈ s.screen :: s.below) ∨ s.waiting ≠ [] → s.currentUser.isSome

theorem SignedIn.push (hS : s.SignedIn) {screen : Screen} (hmain : ∀ uid, screen ≠ .main uid) :
    (s.push screen).SignedIn := by
  rintro (⟨uid, huid⟩ | hwaiting)
  · rcases List.mem_cons.mp huid with huid | huid
    · exact absurd huid.symm (hmain uid)
    · exact hS (Or.inl ⟨uid, huid⟩)
  · exact hS (Or.inr hwaiting)

theorem signedIn_step (hS : s.SignedIn) (h : s.step e = some s') : s'.SignedIn := by
  cases e with
  | toLogin =>
      obtain ⟨-, rfl⟩ := step_toLogin h
      exact hS.push (by simp)
  | toSignup =>
      obtain ⟨-, rfl⟩ := step_toSignup h
      exact hS.push (by simp)
  | attempt kind =>
      obtain rfl := step_attempt h
      exact hS
  | succeed k uid =>
      obtain ⟨kind, rfl⟩ := step_succeed h
      exact fun _ => rfl
  | fail k =>
      obtain rfl := step_fail h
      exact hS
  | handler k =>
      obtain ⟨x, hk, rfl⟩ := step_handler h
      exact fun _ => hS (Or.inr fun hnil => by simp [hnil] at hk)
  | logOut =>
      obtain ⟨uid, hscreen, rfl⟩ := step_logOut h
      exact fun _ => hS (Or.inl ⟨uid, by rw [hscreen]; exact List.mem_cons_self⟩)
  | act =>
      obtain ⟨uid, -, rfl⟩ := step_act h
      exact hS

/-- **After a log-out there is always a current user**, whatever came before it. -/
theorem isSome_after_logOut (remembered : Option String) {es : List SessionEvent}
    (hrun : Machine.run step (start remembered) (es ++ [.logOut]) = some s') :
    s'.currentUser.isSome := by
  obtain ⟨m, hm, hlast⟩ := Machine.run_append_eq_some.mp hrun
  have hstart : (start remembered).SignedIn := by
    rintro (⟨uid, h⟩ | h) <;> simp [start] at h
  have hS : m.SignedIn := Machine.invariant_run_all (fun _ _ _ => signedIn_step) hstart hm
  rw [Machine.run_singleton] at hlast
  obtain ⟨uid, hscreen, rfl⟩ := step_logOut hlast
  exact hS (Or.inl ⟨uid, by rw [hscreen]; exact List.mem_cons_self⟩)

end Session

end UTrend
