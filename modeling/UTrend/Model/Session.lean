/-
Signing in and out.

Firebase keeps one current user for the phone.  A sign-in that succeeds sets it at once
and puts the completion handler on the main queue; the handler pushes the main screens.
The navigation bar is hidden and nothing is ever popped, so the screens only pile up.

The Welcome page that `logOut` pushes is told from the first one, and so are the pages
that are opened from it: they are `loggedOut`.
-/
import UTrend.Lib.Machine

namespace UTrend

inductive Screen
  | welcome (loggedOut : Bool)
  | login (loggedOut : Bool)
  | signup (loggedOut : Bool)
  /-- the MainTabBar that the sign-in of this user pushed -/
  | main (uid : String)
deriving DecidableEq, Repr

/-- The page was reached by logging out. -/
def Screen.loggedOut : Screen → Bool
  | .welcome out | .login out | .signup out => out
  | .main _ => false

inductive SignIn
  /-- `Signup.signUpPressed` -/
  | signUp
  /-- `Login.loginPressed` -/
  | login
  /-- `googleLPressed` and `googleSpressed` -/
  | google
deriving DecidableEq, Repr

/-- The sign-ins that a page has a button for. -/
def Screen.offers : Screen → SignIn → Bool
  | .login _, .login | .login _, .google => true
  | .signup _, .signUp | .signup _, .google => true
  | _, _ => false

structure Session where
  /-- `Auth.auth().currentUser?.uid` -/
  currentUser : Option String
  screen : Screen
  /-- the screens underneath -/
  below : List Screen := []
  /-- sign-ins that Firebase has not answered -/
  pending : List SignIn := []
  /-- the users of the sign-ins that have succeeded and whose handler has not run -/
  waiting : List (SignIn × String) := []
  /-- a sign-in has succeeded since the last `logOut` -/
  signedInSince : Bool := false
  /-- what was done on the main screens: whose screen it was, and for whom it was done -/
  acts : List (String × Option String) := []
deriving DecidableEq, Repr

inductive SessionEvent
  /-- the segue to Login -/
  | toLogin
  /-- the segue to Signup -/
  | toSignup
  | attempt (kind : SignIn)
  /-- one of the pending sign-ins succeeds -/
  | succeed (k : Nat) (uid : String)
  | fail (k : Nat)
  /-- the completion handler of one that has succeeded -/
  | handler (k : Nat)
  | logOut
  /-- anything on the main screens that reads `currentUser` -/
  | act

namespace Session

/-- `pushViewController` -/
def push (s : Session) (screen : Screen) : Session :=
  { s with screen := screen, below := s.screen :: s.below }

/-- The app is opened.  Firebase may remember a user; nothing asks it. -/
def start (remembered : Option String) : Session :=
  { currentUser := remembered, screen := .welcome false }

def step (s : Session) : SessionEvent → Option Session
  | .toLogin =>
      match s.screen with
      | .welcome out | .signup out => some (s.push (.login out))
      | .login _ | .main _ => none
  | .toSignup =>
      match s.screen with
      | .welcome out | .login out => some (s.push (.signup out))
      | .signup _ | .main _ => none
  | .attempt kind =>
      if s.screen.offers kind then some { s with pending := s.pending ++ [kind] } else none
  | .succeed k uid =>
      match s.pending[k]? with
      | some kind => some { s with
          currentUser := some uid
          pending := s.pending.eraseIdx k
          waiting := s.waiting ++ [(kind, uid)]
          signedInSince := true }
      | none => none
  | .fail k =>
      match s.pending[k]? with
      | some _ => some { s with pending := s.pending.eraseIdx k }
      | none => none
  | .handler k =>
      -- all of the handlers push, whatever is on the screen by then
      match s.waiting[k]? with
      | some (_, uid) =>
          some (({ s with waiting := s.waiting.eraseIdx k } : Session).push (.main uid))
      | none => none
  | .logOut =>
      -- pushes a new Welcome page, and does not call `signOut`
      match s.screen with
      | .main _ => some (({ s with signedInSince := false } : Session).push (.welcome true))
      | _ => none
  | .act =>
      match s.screen with
      | .main uid => some { s with acts := s.acts ++ [(uid, s.currentUser)] }
      | _ => none

end Session

end UTrend
