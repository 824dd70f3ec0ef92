/-
What is typed at sign-up and at login.

Both forms trim their fields, so what they do depends on a text up to the white space
around it.  `SameText` is that relation.  A login therefore presents the account that a
sign-up has made if and only if the same texts are typed again, however they are spaced.
-/
import UTrend.Proofs.Signup

namespace UTrend

/-! ### The ends of a list -/

section Ends

variable {α : Type} {p : α → Bool}

theorem rdropWhile_append_of_pos {l r : List α} (hr : ∀ a ∈ r, p a = true) :
    (l ++ r).rdropWhile p = l.rdropWhile p := by
  unfold List.rdropWhile
  rw [List.reverse_append, List.dropWhile_append_of_pos fun a ha => hr a (List.mem_reverse.mp ha)]

/-- **What is dropped from the ends of a list makes no difference to the rest.** -/
theorem dropWhile_ends {l r : List α} (hl : ∀ a ∈ l, p a = true) (hr : ∀ a ∈ r, p a = true)
    (core : List α) : ((l ++ core ++ r).dropWhile p).rdropWhile p
      = (core.dropWhile p).rdropWhile p := by
  rw [List.append_assoc, List.dropWhile_append_of_pos hl, List.dropWhile_append]
  split
  · rename_i hempty
    -- nothing is left of `core`, and then nothing of the whole
    rw [List.isEmpty_iff.mp hempty, List.dropWhile_eq_nil_iff.mpr hr]
  · exact rdropWhile_append_of_pos hr

/-- A list is what is left of it with what has been dropped from its ends. -/
theorem exists_ends (p : α → Bool) (s : List α) : ∃ l r : List α,
    (∀ a ∈ l, p a = true) ∧ (∀ a ∈ r, p a = true) ∧
      s = l ++ (s.dropWhile p).rdropWhile p ++ r := by
  refine ⟨s.takeWhile p, (s.dropWhile p).rtakeWhile p, fun a ha => List.mem_takeWhile_imp ha,
    fun a ha => List.mem_rtakeWhile_imp ha, ?_⟩
  rw [List.append_assoc, List.rdropWhile_append_rtakeWhile, List.takeWhile_append_dropWhile]

end Ends

/-! ### Texts -/

/-- The text is `core` with white space around it. -/
def Spaced (core s : String) : Prop := ∃ l r : List Char,
  (∀ c ∈ l, whitespacesAndNewlines c = true) ∧ (∀ c ∈ r, whitespacesAndNewlines c = true) ∧
    s.toList = l ++ core.toList ++ r

/-- The two texts differ in the white space around them at most. -/
def SameText (s t : String) : Prop := ∃ core, Spaced core s ∧ Spaced core t

theorem spaced_trimmed (s : String) : Spaced (trimmed s) s := by
  obtain ⟨l, r, hl, hr, hs⟩ := exists_ends whitespacesAndNewlines s.toList
  exact ⟨l, r, hl, hr, by simpa [trimmed, trimmingCharacters] using hs⟩

theorem trimmed_of_spaced {core s : String} (h : Spaced core s) : trimmed s = trimmed core := by
  obtain ⟨l, r, hl, hr, hs⟩ := h
  rw [trimmed, trimmed, trimmingCharacters, trimmingCharacters, hs, dropWhile_ends hl hr]

/-- **Fields hold the same for the code if and only if they hold the same text.** -/
theorem trimmed_eq_iff {s t : String} : trimmed s = trimmed t ↔ SameText s t := by
  constructor
  · exact fun h => ⟨trimmed s, spaced_trimmed s, h ▸ spaced_trimmed t⟩
  · rintro ⟨core, hs, ht⟩
    rw [trimmed_of_spaced hs, trimmed_of_spaced ht]

theorem trimmed_idempotent (s : String) : trimmed (trimmed s) = trimmed s :=
  (trimmed_of_spaced (spaced_trimmed s)).symm

theorem sameText_trimmed (s : String) : SameText (trimmed s) s :=
  trimmed_eq_iff.mp (trimmed_idempotent s)

/-! ### The forms -/

namespace Signup

/-- The forms hold the same texts. -/
structure Same (s t : Signup) : Prop where
  firstName : SameText s.firstName t.firstName
  emailsu : SameText s.emailsu t.emailsu
  usernamesu : SameText s.usernamesu t.usernamesu
  passwordsu : SameText s.passwordsu t.passwordsu

/-- **A form does the same for the same texts**: its check, its button and the callback. -/
theorem Same.handlers {s t : Signup} (h : Same s t) (d : DigitClass) :
    s.validateFields d = t.validateFields d ∧ s.signUpPressed d = t.signUpPressed d ∧
      ∀ uid, s.createUserDone uid = t.createUserDone uid := by
  have hfirst := trimmed_eq_iff.mpr h.firstName
  have hemail := trimmed_eq_iff.mpr h.emailsu
  have huser := trimmed_eq_iff.mpr h.usernamesu
  have hpassword := trimmed_eq_iff.mpr h.passwordsu
  have hcheck : s.validateFields d = t.validateFields d := by
    simp only [validateFields, hfirst, hemail, huser, hpassword]
  refine ⟨hcheck, ?_, fun uid => ?_⟩
  · simp only [signUpPressed, hcheck, hemail, hpassword]
  · cases uid <;> simp only [createUserDone, hfirst, huser]

/-- **The account of a sign-up is reached by typing its texts again**, and by nothing else.  The
same form, spaced in another way, makes the same account; and the names that are stored for
it are the ones typed, without space around them, and not empty. -/
theorem account_of_texts {d : DigitClass} {s : Signup} {email password : String}
    (h : s.signUpPressed d = .createUser email password) :
    (∀ l : Login, l.loginPressed = (email, password) ↔
      SameText l.emailli s.emailsu ∧ SameText l.passwordli s.passwordsu) ∧
    (∀ t : Signup, Same s t → t.signUpPressed d = .createUser email password ∧
      ∀ uid, t.createUserDone uid = s.createUserDone uid) ∧
    ∀ uid, ∃ firstname username,
      s.createUserDone (some uid) = .inr (.signUp uid firstname username) ∧
      SameText firstname s.firstName ∧ trimmed firstname = firstname ∧ firstname ≠ "" ∧
      SameText username s.usernamesu ∧ trimmed username = username ∧ username ≠ "" := by
  obtain ⟨hcheck, rfl, rfl⟩ := (signUpPressed_eq_createUser_iff d s email password).mp h
  obtain ⟨⟨hfirst, huser, -, -⟩, -, -⟩ := (validateFields_eq_none_iff d s).mp hcheck
  refine ⟨fun l => ?_, fun t hsame => ?_, fun uid => ?_⟩
  · rw [Login.loginPressed, Prod.mk.injEq, trimmed_eq_iff, trimmed_eq_iff]
  · obtain ⟨-, hpressed, hdone⟩ := hsame.handlers d
    exact ⟨hpressed ▸ h, fun uid => (hdone uid).symm⟩
  · exact ⟨trimmed s.firstName, trimmed s.usernamesu, rfl, sameText_trimmed _,
      trimmed_idempotent _, hfirst, sameText_trimmed _, trimmed_idempotent _, huser⟩

/-- Ada logs in with a blank behind her address and a line end behind her password. -/
theorem account_of_texts_ada :
    ({ emailli := "ada@mail.com ", passwordli := "abcdefg!\n" } : Login).loginPressed
      = ("ada@mail.com", "abcdefg!") ∧
    SameText "ada@mail.com " noNumber.emailsu ∧ SameText "abcdefg!\n" noNumber.passwordsu := by
  have hpressed : noNumber.signUpPressed asciiDigits = .createUser "ada@mail.com" "abcdefg!" := by
    decide +kernel
  have hlogin : ({ emailli := "ada@mail.com ", passwordli := "abcdefg!\n" } : Login).loginPressed
      = ("ada@mail.com", "abcdefg!") := by
    decide +kernel
  exact ⟨hlogin, ((account_of_texts hpressed).1 _).mp hlogin⟩

end Signup

end UTrend
