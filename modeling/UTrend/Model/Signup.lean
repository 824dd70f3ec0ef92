/-
The forms that are checked before anyone is signed up: `Signup` and `Login`.

A field is trimmed before anything looks at it.  The address and the password are
each checked against a pattern, which has to match all of the text.  The two
patterns are written here part by part, as the source has them.

`\d` is the digits of every script, by a table of Unicode's that the app does not
have, so the class is a parameter: `DigitClass`.
-/
import Mathlib.Data.List.DropRight
import UTrend.Lib.Regex
import UTrend.Model.Firestore

namespace UTrend

/-- The set `.whitespacesAndNewlines`: the separators of Unicode, the tab, and the ends of a
line. -/
def whitespacesAndNewlines (c : Char) : Bool :=
  let n := c.toNat
  0x09 ≤ n && n ≤ 0x0D || n == 0x20 || n == 0x85 || n == 0xA0 || n == 0x1680 ||
    0x2000 ≤ n && n ≤ 0x200A || n == 0x2028 || n == 0x2029 || n == 0x202F || n == 0x205F ||
    n == 0x3000

/-- `trimmingCharacters(in:)` -/
def trimmingCharacters (set : Char → Bool) (s : String) : String :=
  String.ofList ((s.toList.dropWhile set).rdropWhile set)

/-- What a field holds for the code that reads it. -/
def trimmed (s : String) : String := trimmingCharacters whitespacesAndNewlines s

/-- What `.` does not match. -/
def lineTerminator (c : Char) : Bool :=
  let n := c.toNat
  0x0A ≤ n && n ≤ 0x0D || n == 0x85 || n == 0x2028 || n == 0x2029

/-- The class `\d`.  The ASCII digits are in it, and no end of a line is. -/
structure DigitClass where
  mem : Char → Bool
  ascii : ∀ c, c.isDigit = true → mem c = true
  inLine : ∀ c, mem c = true → lineTerminator c = false

/-- `.*` -/
def dots : Regex Char := .rep (fun c => !lineTerminator c) 0 none

/-- `[$@$#!%*?&]` -/
def special (c : Char) : Bool := ['$', '@', '$', '#', '!', '%', '*', '?', '&'].contains c

/-! ### The patterns -/

/-- `^(?=.*[a-z])(?=.*[$@$#!%*?&])[A-Za-z\d$@$#!%*?&]{8,}` -/
def testingPassword (d : DigitClass) : Regex Char :=
  .seq .start <|
  .seq (.ahead (.seq dots (.chars Char.isLower))) <|
  .seq (.ahead (.seq dots (.chars special))) <|
  .rep (fun c => c.isAlpha || d.mem c || special c) 8 none

/-- `[A-Z0-9a-z._%+-]` -/
def userChar (c : Char) : Bool := c.isAlphanum || ['.', '_', '%', '+', '-'].contains c

/-- `[A-Za-z0-9-]`, the characters between the dots of a domain -/
def labelChar (c : Char) : Bool := c.isAlphanum || c == '-'

/-- `[A-Z0-9a-z._%+-]+@[A-Za-z0-9.-]+\.[A-Za-z]{2,64}` -/
def emailCorrect : Regex Char :=
  .seq (.rep userChar 1 none) <|
  .seq (.chars (· == '@')) <|
  .seq (.rep (fun c => labelChar c || c == '.') 1 none) <|
  .seq (.chars (· == '.')) <|
  .rep Char.isAlpha 2 (some 64)

/-! ### Signup -/

/-- The texts of the four fields. -/
structure Signup where
  firstName : String
  emailsu : String
  usernamesu : String
  passwordsu : String
deriving DecidableEq, Repr

namespace Signup

def isPasswordValid (d : DigitClass) (password : String) : Bool :=
  (testingPassword d).isMatch password.toList

def isEmailValid (email : String) : Bool := emailCorrect.isMatch email.toList

def validateFields (d : DigitClass) (s : Signup) : Option String :=
  if trimmed s.firstName = "" ∨ trimmed s.usernamesu = "" ∨ trimmed s.emailsu = "" ∨
      trimmed s.passwordsu = "" then
    some "Please fill in all fields."
  else
    let givenEmail := trimmed s.emailsu
    if isEmailValid givenEmail = false then
      some "Please enter a valid email."
    else
      let givenPassword := trimmed s.passwordsu
      if isPasswordValid d givenPassword = false then
        some <|
        "Please enter a password with at least 8 characters, a special character, and a number."
      else none

/-- What the button does at once. -/
inductive Pressed
  | showError (message : String)
  /-- `Auth.createUser` -/
  | createUser (email password : String)
deriving DecidableEq, Repr

def signUpPressed (d : DigitClass) (s : Signup) : Pressed :=
  match s.validateFields d with
  | some error => .showError error
  | none => .createUser (trimmed s.emailsu) (trimmed s.passwordsu)

/-- The callback of `createUser`: a message, or the document of the new user. -/
def createUserDone (s : Signup) : Option String → String ⊕ Request
  | none => .inl "Error occured when creating user"
  | some uid => .inr (.signUp uid (trimmed s.firstName) (trimmed s.usernamesu))

end Signup

/-! ### Login -/

/-- The texts of the two fields. -/
structure Login where
  emailli : String
  passwordli : String
deriving DecidableEq, Repr

/-- What `Auth.signIn` is called with.  The fields are not checked first. -/
def Login.loginPressed (l : Login) : String × String :=
  (trimmed l.emailli, trimmed l.passwordli)

/-- The same pattern as at sign-up. -/
def Login.isEmailValid (email : String) : Bool := emailCorrect.isMatch email.toList

end UTrend
