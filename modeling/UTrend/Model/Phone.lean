/-
A phone: the screens of one signed-in user and the handlers behind them.

`Act` lists what the user (or UIKit) does, and `Act.run` is the handler.  A
handler changes the screens, issues writes, and may start an upload or ask the
database something; the answer comes later and runs a callback.  A read that has
been asked waits in `reads`, first without and then with its answer.

A handler that would run into a force unwrap of `nil`, or that acts on something
that is not there, gives `none`.  Which screen is in front limits which acts can
happen on a device; that is not modelled, so the phone can do more here.
-/
import UTrend.Model.SocialMore

namespace UTrend

/-! ### The other handlers -/

/-- The form of a new post, `postInfo`. -/
structure PostInfo where
  caption : String := ""
  imgName : String := ""
deriving DecidableEq, Repr

/-- `addToDB` on the button: the author's copy, unless the form is incomplete. -/
def PostInfo.addToDB (me randomDoc : String) (form : PostInfo) : Option Request :=
  if form.caption ≠ "" ∧ form.imgName ≠ "" then
    some (.create me randomDoc form.caption form.imgName)
  else none

/-- `addToDB`, the callback without an error: the public copy, made with the author's
picture and name.  `data!`, `profImg!` and `username!` trap. -/
def PostInfo.addToDBDone (me randomDoc : String) (form : PostInfo) (doc : Option Doc) :
    Option Request := do
  let data ← doc
  let profImg ← Doc.string data "profileImg"
  let username ← Doc.string data "username"
  some (.publish me randomDoc form.caption form.imgName profImg username)

/-- What the header of the profile shows. -/
structure ProfileHeader where
  firstName : Option String
  userName : String
  profileImage : Option StorageRef
deriving DecidableEq, Repr

/-- `Profile.fetchUser`, the callback without an error; `none` inside when there is no
document.  The cast of `username` is unwrapped. -/
def Profile.fetchUserDone : Option Doc → Option (Option ProfileHeader)
  | none => some none
  | some data => do
    let username ← Doc.string data "username"
    some (some {
      firstName := Doc.string data "firstname"
      userName := "@" ++ username
      profileImage := ((Doc.string data "profileImg").filter (· ≠ "")).map (⟨.profile, ·⟩) })

/-- `postCell.postItem`: the cell remembers the post's id.  `imgName!` and `likes!` trap. -/
def postCell.postItem (post : Post) : Option (Option String) := do
  let _ ← post.postImg
  let _ ← post.likes
  some post.pid

/-- The Delete action of `postFeed`: both copies, by the id of the cell. -/
def postFeed.deleteAction (me : String) (postId : Option String) : Option (List Request) := do
  let postID ← postId
  some [.deletePost me postID, .deleteSocial postID]

/-! ### Reads -/

/-- What the database was asked, with what the callback remembers. -/
inductive Ask
  /-- `Social.fetchSocialPost` -/
  | socialFeed
  /-- `postFeed.fetchData` -/
  | posts
  /-- `Social.prepare`, for the view opened as number `view` -/
  | heart (view : Nat) (id : String)
  /-- `postInfo.addToDB` -/
  | author (id : String) (form : PostInfo)
  /-- `Profile.fetchUser` -/
  | profile

/-- What comes back. -/
inductive Answer
  | error
  | docs (snap : List Doc)
  | doc (doc : Option Doc)

/-- A read that has not been delivered. -/
structure Read where
  ask : Ask
  answer : Option Answer := none

/-- The answer of a database, as the phone sees it.  A client that is offline may be answered from
its cache instead, with old documents or some of them; this is left out. -/
def Ask.answerOf (me : String) (db : Store) : Ask → Answer
  | .socialFeed => .docs ((Social.fetchSocialPost.collection me).documents db)
  | .posts => .docs ((postFeed.fetchData.collection me).documents db)
  | .heart _ id => .doc (db.lookup (.like me id))
  | .author _ _ | .profile => .doc (db.lookup (.user me))

/-! ### The phone -/

structure Phone where
  signedIn : Bool := false
  /-- `Social.posts` -/
  posts : List Post := []
  /-- `postFeed.posts` -/
  feed : List Post := []
  /-- the `postId` of every cell of `postFeed` set so far -/
  cells : List (Option String) := []
  /-- the post that is open -/
  more : Option SocialMore := none
  /-- how many posts have been opened -/
  opened : Nat := 0
  /-- the form of a new post, until it is submitted -/
  info : Option PostInfo := none
  reads : List Read := []
  /-- uploads that have neither succeeded nor failed -/
  uploads : List StorageRef := []

namespace Phone

def ask (p : Phone) (a : Ask) : Phone := { p with reads := p.reads ++ [⟨a, none⟩] }

/-- `MainTabBar` is pushed, and its first page asks for the user. -/
def start (p : Phone) : Phone := { p with signedIn := true }.ask .profile

/-- `Social.fetchSocialPost` -/
def fetchSocialPost (p : Phone) : Phone :=
  { p with posts := Social.fetchSocialPost.call p.posts }.ask .socialFeed

/-- `postFeed.fetchData` -/
def fetchData (p : Phone) : Phone :=
  { p with feed := postFeed.fetchData.call p.feed }.ask .posts

/-- The callback of a read. -/
def callback (me : String) (p : Phone) : Ask → Answer → Option (Phone × List Request)
  | .socialFeed, .docs snap =>
      some ({ p with posts := Social.fetchSocialPost.append p.posts snap }, [])
  | .posts, .docs snap => some ({ p with feed := postFeed.fetchData.append p.feed snap }, [])
  | .heart view _, answer =>
      -- an error leaves `doc` nil, which counts as "not liked"
      let liked := match answer with
        | .doc (some _) => true
        | _ => false
      some (if view = p.opened then { p with more := p.more.map (·.showHeart liked) } else p, [])
  | .author id form, .doc doc => (form.addToDBDone me id doc).map fun r => (p, [r])
  | .profile, .doc doc => (Profile.fetchUserDone doc).map fun _ => (p, [])
  | _, _ => some (p, [])

end Phone

/-- What happens on a phone. -/
inductive Act
  /-- `Signup.signUpPressed` has created the user -/
  | signUp (firstname username : String)
  /-- `Login.loginPressed` has signed in -/
  | login
  /-- `sign(_:didSignInFor:withError:)` of either screen has signed in -/
  | google
  /-- the public feed appears -/
  | viewSocial
  /-- the user's own posts are fetched -/
  | refresh
  /-- `postFeed.cellForItemAt` -/
  | cell (i : Nat)
  /-- `Social.didSelectItemAt` -/
  | select (i : Nat)
  /-- the picture of the open post has arrived -/
  | image
  /-- the heart is tapped; `imgN` is the UUID that `addImg` would draw -/
  | tap (imgN : String)
  /-- back from the open post -/
  | back
  /-- a new post is begun -/
  | makePost
  | caption (text : String)
  /-- an image is picked for the post -/
  | pick (imgN : String)
  /-- `postInfo.addToDB`; `id` is the UUID it draws -/
  | submit (id : String)
  /-- Delete is confirmed for a cell -/
  | delete (k : Nat)
  /-- `AddImage.addToCloset` uploads -/
  | addToCloset (docId imgN type : String)
  /-- `Profile.imagePickerController` -/
  | picture (imgN : String)
deriving DecidableEq, Repr

/-- The handler of an act, for the user `me`.  Storage is not on the phone: whether it has the
picture that arrives with `image` is for the system to say. -/
def Act.run (me : String) (p : Phone) : Act → Option (Phone × List Request)
  | .signUp firstname username =>
      if p.signedIn then none else some (p.start, [.signUp me firstname username])
  | .login | .google => if p.signedIn then none else some (p.start, [])
  | .viewSocial => some (p.fetchSocialPost, [])
  | .refresh => some (p.fetchData, [])
  | .cell i => do
      let post ← p.feed[i]?
      let postId ← postCell.postItem post
      some ({ p with cells := p.cells ++ [postId] }, [])
  | .select i => do
      let post ← p.posts[i]?
      let pid ← post.pid
      some ({ p with
        more := some (Social.prepare post).setUp
        opened := p.opened + 1 }.ask (.heart (p.opened + 1) pid), [])
  | .image => do
      let v ← p.more
      let _ ← v.imageName
      some ({ p with more := some { v with postImg := true } }, [])
  | .tap imgN => do
      let v ← p.more
      let (v', rs, refs) ← v.changeLike me imgN
      some ({ p with more := some v', uploads := p.uploads ++ refs }, rs)
  | .back => do
      let _ ← p.more
      some ({ p with more := none }.fetchSocialPost, [])
  | .makePost => some ({ p with info := some {} }, [])
  | .caption text => do
      let form ← p.info
      some ({ p with info := some { form with caption := text } }, [])
  | .pick imgN => do
      let form ← p.info
      some ({ p with
        info := some { form with imgName := imgN }
        uploads := p.uploads ++ [⟨.social, imgN⟩] }, [])
  | .submit id => do
      let form ← p.info
      match form.addToDB me id with
      -- the alert is modal and its button leaves the form, which is not edited again
      | some r => some ({ p with info := none }.ask (.author id form), [r])
      | none => some (p, [])
  | .delete k => do
      let postId ← p.cells[k]?
      let rs ← postFeed.deleteAction me postId
      some (p, rs)
  | .addToCloset docId imgN type =>
      some ({ p with uploads := p.uploads ++ [⟨.clothes me, imgN⟩] },
        [.clothes me docId imgN type])
  | .picture imgN =>
      some ({ p with uploads := p.uploads ++ [⟨.profile, imgN⟩] }, [.picture me imgN])

/-- Signing in is what a phone does first, and once. -/
def Act.signsIn : Act → Bool
  | .signUp _ _ | .login | .google => true
  | _ => false

end UTrend
