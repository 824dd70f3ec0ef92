/-
What the two patterns of the sign-up form accept.

The message of the form announces a password of at least 8 characters with a special
character and a number.  The pattern asks for a lower-case letter where the message says
a number.  `isPasswordValid_iff` is what it accepts, and from it follows for which
texts the form does what it announces.

The pattern for addresses repeats a class that has the dot in it.  `isEmailValid_iff`
says what it accepts by the labels of the domain: they may be empty, as long as
the part in front of the last dot is not.
-/
import UTrend.Model.Phone
import UTrend.Model.Signup

namespace UTrend

/-! ### The password -/

/-- A character of the password's alphabet is no end of a line. -/
theorem inLine_of_allowed (d : DigitClass) {c : Char}
    (h : (c.isAlpha || d.mem c || special c) = true) : (!lineTerminator c) = true := by
  simp only [Bool.or_eq_true] at h
  rcases h with (halpha | hdigit) | hspecial
  · have hrange : 65 ≤ c.toNat ∧ c.toNat ≤ 90 ∨ 97 ≤ c.toNat ∧ c.toNat ≤ 122 := by
      have halpha : (decide (c.val ≥ 'A'.val ∧ c.val ≤ 'Z'.val) ||
          (c.val ≥ 'a'.val && c.val ≤ 'z'.val)) = true := halpha
      simpa [UInt32.le_iff_toNat_le] using halpha
    have hline : lineTerminator c = false := by
      simp only [lineTerminator, Bool.or_eq_false_iff, Bool.and_eq_false_iff,
        decide_eq_false_iff_not, beq_eq_false_iff_ne]
      omega
    simp [hline]
  · simp [d.inLine c hdigit]
  · have hmem : c ∈ ['$', '@', '$', '#', '!', '%', '*', '?', '&'] := by
      simpa [special] using hspecial
    have hall : ['$', '@', '$', '#', '!', '%', '*', '?', '&'].all
        (fun x => !lineTerminator x) = true := by
      decide
    exact List.all_eq_true.mp hall c hmem

/-- What the message announces, but for the number. -/
structure Shape (d : DigitClass) (password : String) : Prop where
  length : 8 ≤ password.toList.length
  allowed : ∀ c ∈ password.toList, (c.isAlpha || d.mem c || special c) = true
  special : ∃ c ∈ password.toList, special c = true

/-- What the message announces. -/
structure PasswordRule (d : DigitClass) (password : String) : Prop extends
    Shape d password where
  number : ∃ c ∈ password.toList, d.mem c = true

/-- **The pattern asks for a lower-case letter, and not for a number.** -/
theorem isPasswordValid_iff (d : DigitClass) (password : String) :
    Signup.isPasswordValid d password = true ↔
      Shape d password ∧ ∃ c ∈ password.toList, c.isLower = true := by
  unfold Signup.isPasswordValid testingPassword
  rw [Regex.isMatch_iff, Regex.reads_seq_start, Regex.reads_seq_ahead, Regex.reads_seq_ahead,
    List.append_nil]
  constructor
  · rintro ⟨hlower, hspecial, hall, hlen, -⟩
    have hline := fun c hc => inLine_of_allowed d (hall c hc)
    exact ⟨⟨hlen, hall, (Regex.reads_search hline).mp hspecial⟩,
      (Regex.reads_search hline).mp hlower⟩
  · rintro ⟨hshape, hlower⟩
    have hline := fun c hc => inLine_of_allowed d (hshape.allowed c hc)
    exact ⟨(Regex.reads_search hline).mpr hlower,
      (Regex.reads_search hline).mpr hshape.special, hshape.allowed, hshape.length, by simp⟩

namespace Signup

/-- No field is empty. -/
def Filled (s : Signup) : Prop :=
  trimmed s.firstName ≠ "" ∧ trimmed s.usernamesu ≠ "" ∧ trimmed s.emailsu ≠ "" ∧
    trimmed s.passwordsu ≠ ""

theorem validateFields_eq_none_iff (d : DigitClass) (s : Signup) :
    s.validateFields d = none ↔ s.Filled ∧ isEmailValid (trimmed s.emailsu) = true ∧
      isPasswordValid d (trimmed s.passwordsu) = true := by
  unfold validateFields Filled
  split
  · rename_i hempty
    refine iff_of_false (by simp) ?_
    rintro ⟨⟨hfirst, huser, hemail, hpassword⟩, -, -⟩
    rcases hempty with h | h | h | h
    · exact hfirst h
    · exact huser h
    · exact hemail h
    · exact hpassword h
  · rename_i hfilled
    simp only [not_or] at hfilled
    cases hemail : isEmailValid (trimmed s.emailsu) with
    | false => simp [hemail]
    | true =>
        cases hpassword : isPasswordValid d (trimmed s.passwordsu) with
        | false => simp [hemail, hpassword]
        | true => simpa [hemail, hpassword] using hfilled

/-- The button creates a user for a form that passes, and passes the trimmed texts on. -/
theorem signUpPressed_eq_createUser_iff (d : DigitClass) (s : Signup) (email password : String) :
    s.signUpPressed d = .createUser email password ↔
      s.validateFields d = none ∧ email = trimmed s.emailsu ∧ password = trimmed s.passwordsu := by
  unfold signUpPressed
  cases s.validateFields d with
  | none =>
      simp only [Pressed.createUser.injEq, true_and]
      exact ⟨fun h => ⟨h.1.symm, h.2.symm⟩, fun h => ⟨h.1.symm, h.2.symm⟩⟩
  | some error => simp

/-- The document of a new user is the one that a phone writes when it signs up. -/
theorem createUserDone_act {s : Signup} {me : String} {r : Request}
    (h : s.createUserDone (some me) = .inr r) {p : Phone} (hout : p.signedIn = false) :
    Act.run me p (.signUp (trimmed s.firstName) (trimmed s.usernamesu)) =
      some (p.start, [r]) := by
  obtain rfl := Sum.inr.inj h
  simp only [Act.run, hout, Bool.false_eq_true, if_false]

/-- The form does what its message announces: a user is created only with a password of the
rule, and a password of the rule passes. -/
structure Enforces (d : DigitClass) (s : Signup) : Prop where
  only : ∀ email password, s.signUpPressed d = .createUser email password →
    PasswordRule d password
  passes : s.Filled → isEmailValid (trimmed s.emailsu) = true →
    PasswordRule d (trimmed s.passwordsu) → s.validateFields d = none

/-- **The form enforces its rule if and only if the password has a lower-case letter exactly
when it has a number**, where all the rest is in order. -/
theorem enforces_iff (d : DigitClass) (s : Signup) :
    s.Enforces d ↔
      (s.Filled → isEmailValid (trimmed s.emailsu) = true → Shape d (trimmed s.passwordsu) →
        ((∃ c ∈ (trimmed s.passwordsu).toList, c.isLower = true) ↔
          ∃ c ∈ (trimmed s.passwordsu).toList, d.mem c = true)) := by
  constructor
  · intro hE hfilled hemail hshape
    constructor
    · intro hlower
      have hvalid := (isPasswordValid_iff d _).mpr ⟨hshape, hlower⟩
      have hnone := (validateFields_eq_none_iff d s).mpr ⟨hfilled, hemail, hvalid⟩
      have hpressed := (signUpPressed_eq_createUser_iff d s _ _).mpr ⟨hnone, rfl, rfl⟩
      exact (hE.only _ _ hpressed).number
    · intro hnumber
      have hnone := hE.passes hfilled hemail ⟨hshape, hnumber⟩
      have hvalid := ((validateFields_eq_none_iff d s).mp hnone).2.2
      exact ((isPasswordValid_iff d _).mp hvalid).2
  · intro hiff
    constructor
    · intro email password hpressed
      obtain ⟨hnone, -, rfl⟩ := (signUpPressed_eq_createUser_iff d s _ _).mp hpressed
      obtain ⟨hfilled, hemail, hvalid⟩ := (validateFields_eq_none_iff d s).mp hnone
      obtain ⟨hshape, hlower⟩ := (isPasswordValid_iff d _).mp hvalid
      exact ⟨hshape, (hiff hfilled hemail hshape).mp hlower⟩
    · intro hfilled hemail hrule
      have hlower := (hiff hfilled hemail hrule.toShape).mpr hrule.number
      have hvalid := (isPasswordValid_iff d _).mpr ⟨hrule.toShape, hlower⟩
      exact (validateFields_eq_none_iff d s).mpr ⟨hfilled, hemail, hvalid⟩

end Signup

/-- The digits of ASCII alone. -/
def asciiDigits : DigitClass where
  mem := Char.isDigit
  ascii _ h := h
  inLine c h := by
    have hrange : 48 ≤ c.toNat ∧ c.toNat ≤ 57 := Char.isDigit_iff_toNat.mp h
    simp only [lineTerminator, Bool.or_eq_false_iff, Bool.and_eq_false_iff,
      decide_eq_false_iff_not, beq_eq_false_iff_ne]
    omega

/-- A form with a password that has no number. -/
def noNumber : Signup where
  firstName := "Ada"
  emailsu := "ada@mail.com"
  usernamesu := "ada"
  passwordsu := "abcdefg!"

/-- A form with a password that has one, but no lower-case letter. -/
def noLower : Signup := { noNumber with passwordsu := "ABCDEF1!" }

/-- **A password without a number is accepted, and one with a number refused.** -/
theorem number_not_enforced :
    noNumber.signUpPressed asciiDigits = .createUser "ada@mail.com" "abcdefg!" ∧
      ¬ noNumber.Enforces asciiDigits ∧
      noLower.validateFields asciiDigits = some
        "Please enter a password with at least 8 characters, a special character, and a number." ∧
      ¬ noLower.Enforces asciiDigits := by
  have hpressed : noNumber.signUpPressed asciiDigits =
      .createUser "ada@mail.com" "abcdefg!" := by
    decide +kernel
  have hrefused : noLower.validateFields asciiDigits = some
      "Please enter a password with at least 8 characters, a special character, and a number." := by
    decide +kernel
  refine ⟨hpressed, fun hE => ?_, hrefused, fun hE => ?_⟩
  · have hnumber : "abcdefg!".toList.any asciiDigits.mem = false := by decide +kernel
    obtain ⟨c, hc, hdigit⟩ := (hE.only _ _ hpressed).number
    exact List.any_eq_false.mp hnumber c hc hdigit
  · have hrule : PasswordRule asciiDigits (trimmed noLower.passwordsu) :=
      { length := by decide +kernel
        allowed := List.all_eq_true.mp (by decide +kernel)
        special := List.any_eq_true.mp (by decide +kernel)
        number := List.any_eq_true.mp (by decide +kernel) }
    have hfilled : noLower.Filled :=
      ⟨by decide +kernel, by decide +kernel, by decide +kernel, by decide +kernel⟩
    have hnone := hE.passes hfilled (by decide +kernel) hrule
    simp [hrefused] at hnone

/-! ### The address -/

/-- A text with one '@', a user before it, and a domain whose labels are over the alphabet of
labels, the last one of 2 to 64 letters.  Nothing is said of how many come before the last,
nor that they are not empty. -/
structure Address (text user : List Char) (front : List (List Char)) (last : List Char) :
    Prop where
  sides : ∃ domain, text.splitOn '@' = [user, domain] ∧ domain.splitOn '.' = front ++ [last]
  user_ne : user ≠ []
  user : ∀ c ∈ user, userChar c = true
  front : ∀ l ∈ front, ∀ c ∈ l, labelChar c = true
  last : (∀ c ∈ last, c.isAlpha = true) ∧ 2 ≤ last.length ∧ last.length ≤ 64

/-- An address with at least two labels, and none of them empty. -/
def WellFormed (text : List Char) : Prop :=
  ∃ user front last, Address text user front last ∧ front ≠ [] ∧ [] ∉ front

/-- An address with at least three labels, and an empty one among them. -/
def EmptyLabel (text : List Char) : Prop :=
  ∃ user front last, Address text user front last ∧ 2 ≤ front.length ∧ [] ∈ front

/-- A text is an address in one way. -/
theorem Address.unique {text user user' last last' : List Char} {front front' : List (List Char)}
    (h : Address text user front last) (h' : Address text user' front' last') :
    front = front' := by
  obtain ⟨domain, hsides, hlabels⟩ := h.sides
  obtain ⟨domain', hsides', hlabels'⟩ := h'.sides
  have hdomain : domain = domain' := by
    simpa using (List.cons.inj (hsides.symm.trans hsides')).2
  rw [hdomain] at hlabels
  exact (List.append_inj' (hlabels.symm.trans hlabels') rfl).1

/-- **The pattern accepts the addresses with a part in front of the last dot**, empty labels
in it or not. -/
theorem isEmailValid_iff (email : String) :
    emailCorrect.isMatch email.toList = true ↔
      ∃ user front last, Address email.toList user front last ∧ front ≠ [] ∧ front ≠ [[]] := by
  rw [Regex.isMatch_iff]
  constructor
  · rintro ⟨user, _, hemail, ⟨huser, hne, -⟩, _, domain, rfl, ⟨c, hc, rfl⟩, hdomain⟩
    obtain rfl : c = '@' := by simpa using hc
    have huser' : '@' ∉ user := fun h => absurd (huser '@' h) (by decide)
    obtain ⟨front, last, hlabels, hfront, hempty, hall, hlast, hlo, hhi⟩ :=
      (Regex.reads_pieces (by decide)).mp hdomain
    have hdomain' : '@' ∉ domain := by
      intro hat
      have hchars : ∀ c ∈ domain, c = '.' ∨ (labelChar c || c.isAlpha) = true := by
        refine List.forall_mem_splitOn.mp fun l hl c hc => ?_
        rw [hlabels] at hl
        rcases List.mem_append.mp hl with hl | hl
        · simp [hall l hl c hc]
        · obtain rfl := List.mem_singleton.mp hl
          simp [hlast c hc]
      exact absurd (hchars '@' hat) (by decide)
    refine ⟨user, front, last, ?_, hfront, hempty⟩
    have hsides : email.toList.splitOn '@' = [user, domain] := by
      rw [hemail, List.singleton_append, List.splitOn_concat hdomain',
        List.splitOn_eq_singleton huser']
      rfl
    exact ⟨⟨domain, hsides, hlabels⟩, List.length_pos_iff.mp hne, huser, hall, hlast, hlo,
      hhi 64 rfl⟩
  · rintro ⟨user, front, last, ⟨⟨domain, hsides, hlabels⟩, hne, huser, hall, hlast⟩, hfront,
      hempty⟩
    obtain ⟨t, hemail, ht, -⟩ := List.splitOn_eq_concat (List.cons_ne_nil user []) hsides
    obtain rfl : t = user := by
      have hjoin : ['@'].intercalate (t.splitOn '@') = t := List.intercalate_splitOn '@'
      rw [ht, List.intercalate_singleton] at hjoin
      exact hjoin.symm
    refine ⟨t, '@' :: domain, hemail, ⟨huser, List.length_pos_iff.mpr hne, by simp⟩, ['@'],
      domain, rfl, ⟨'@', by simp, rfl⟩, ?_⟩
    refine (Regex.reads_pieces (by decide)).mpr ⟨front, last, hlabels, hfront, hempty, hall,
      hlast.1, hlast.2.1, ?_⟩
    rintro h ⟨rfl⟩
    exact hlast.2.2

/-- **An address is accepted if and only if it is well formed, unless it has at least three
labels and an empty one among them.**  Login checks addresses as sign-up does. -/
theorem email_accepted_iff (email : String) :
    ((Signup.isEmailValid email = true ↔ WellFormed email.toList) ∧
        (Login.isEmailValid email = true ↔ WellFormed email.toList)) ↔
      ¬ EmptyLabel email.toList := by
  have hsame : Login.isEmailValid email = Signup.isEmailValid email := rfl
  rw [hsame, and_self, Signup.isEmailValid, isEmailValid_iff]
  constructor
  · rintro hiff ⟨user, front, last, haddress, hlen, hempty⟩
    have hfront : front ≠ [] ∧ front ≠ [[]] := by
      constructor
      all_goals
        rintro rfl
        simp at hlen
    obtain ⟨user', front', last', haddress', -, hnot⟩ :=
      hiff.mp ⟨user, front, last, haddress, hfront⟩
    rw [haddress.unique haddress'] at hempty
    exact hnot hempty
  · intro hnone
    constructor
    · rintro ⟨user, front, last, haddress, hfront, hone⟩
      refine ⟨user, front, last, haddress, hfront, fun hempty => hnone ?_⟩
      refine ⟨user, front, last, haddress, ?_, hempty⟩
      match front with
      | [] => exact absurd rfl hfront
      | [x] => exact absurd (by simpa using hempty) hone
      | _ :: _ :: _ => simp
    · rintro ⟨user, front, last, haddress, hfront, hnot⟩
      refine ⟨user, front, last, haddress, hfront, ?_⟩
      rintro rfl
      simp at hnot

/-- **An address with an empty label is accepted.** -/
theorem empty_label_accepted :
    Signup.isEmailValid "ada@mail..com" = true ∧ Login.isEmailValid "ada@mail..com" = true ∧
      ¬ WellFormed "ada@mail..com".toList := by
  refine ⟨by decide +kernel, by decide +kernel, ?_⟩
  rintro ⟨user, front, last, ⟨⟨domain, hsides, hlabels⟩, -, -, -, -⟩, -, hnot⟩
  have hpieces : "ada@mail..com".toList.splitOn '@' = ["ada".toList, "mail..com".toList] := by
    decide +kernel
  have hparts : "mail..com".toList.splitOn '.' = ["mail".toList, []] ++ ["com".toList] := by
    decide +kernel
  obtain rfl : "mail..com".toList = domain := by
    simpa using (List.cons.inj (hpieces.symm.trans hsides)).2
  have hfront := (List.append_inj' (hparts.symm.trans hlabels) rfl).1
  rw [← hfront] at hnot
  simp at hnot

end UTrend
