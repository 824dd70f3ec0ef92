/-
The screen of one post: `SocialMore`.

`prepare` hands the fields of a `Post` over, `setUp` fills the labels when the
view loads, and `changeLike` runs on every tap of the heart.  The heart has no
image until the answer to `prepare`'s question arrives.  A handler that runs into
a force unwrap of `nil` gives `none` here.

`changeLike` parses the count off the label, and writes the new count as a number
to both copies of the post.
-/
import Mathlib.Algebra.Ring.Int.Defs
import UTrend.Lib.Decimal
import UTrend.Model.Loader

namespace UTrend

/-- Arithmetic on `Int` traps outside 64 bits. -/
def int64 (n : Int) : Option Int := if -2 ^ 63 ≤ n ∧ n < 2 ^ 63 then some n else none

/-- `Int(_:)` of a text -/
def intOfText (s : String) : Option Int := (Decimal.parse s).bind int64

theorem intOfText_text (n : Int) : intOfText (Decimal.text n) = int64 n := by
  rw [intOfText, Decimal.parse_text, Option.bind_some]

theorem int64_eq_some {n m : Int} (h : int64 n = some m) : m = n := by
  unfold int64 at h
  split at h
  · exact (Option.some.inj h).symm
  · simp at h

/-- The folders of Storage. -/
inductive Folder
  /-- `users/{uid}/clothes` -/
  | clothes (uid : String)
  /-- `users/{uid}/likes` -/
  | likes (uid : String)
  /-- `profile` -/
  | profile
  /-- `social` -/
  | social
deriving DecidableEq, Repr

/-- An object in Storage. -/
structure StorageRef where
  folder : Folder
  name : String
deriving DecidableEq, Repr

/-- The two images of the heart. -/
inductive HeartImage
  | likeheart
  | fillLikeheart
deriving DecidableEq, Repr

structure SocialMore where
  imageName : Option String
  caption : Option String
  timeStamp : Option String
  numLikes : Option Int
  userPic : Option String
  username : Option String
  id : Option String
  uID : Option String
  /-- whether the post's picture is on the image view -/
  postImg : Bool := false
  likeHeartImg : Option HeartImage := none
  /-- the text of the likes label -/
  likes : Option String := none
deriving DecidableEq, Repr

/-- `Social.prepare`: the fields that are handed over. -/
def Social.prepare (post : Post) : SocialMore where
  imageName := post.postImg
  timeStamp := post.time
  username := post.username
  numLikes := post.likes
  caption := post.textCaption
  userPic := post.userPic
  id := post.pid
  uID := post.uid

namespace SocialMore

/-- The labels, as far as a handler reads them.  A post without a caption empties the
likes label. -/
def setUp (v : SocialMore) : SocialMore :=
  let v := match v.numLikes with
    | some num => { v with likes := some (Decimal.text num) }
    | none => { v with likes := some "0" }
  match v.caption with
  | some _ => v
  | none => { v with likes := some "" }

/-- The callback of `Social.prepare`, once it knows whether the like exists. -/
def showHeart (v : SocialMore) (liked : Bool) : SocialMore :=
  { v with likeHeartImg := some (if liked then .fillLikeheart else .likeheart) }

/-- `addImg`: the picture goes to the user's own folder and the like into the user's
collection.  There must be a picture to upload. -/
def addImg (me imgN : String) (v : SocialMore) (id : String) (tap : Tap) :
    Option (Request × StorageRef) :=
  if v.postImg then some (.like me id imgN tap, ⟨.likes me, imgN⟩) else none

/-- What a tap of the heart does: to the screen, to the database, to Storage. -/
def changeLike (me imgN : String) (v : SocialMore) :
    Option (SocialMore × List Request × List StorageRef) := do
  let number ← v.likes.bind intOfText
  let tap : Tap := ⟨number, decide (v.likeHeartImg = some .fillLikeheart)⟩
  let newNum ← int64 tap.newNum
  let uID ← v.uID
  let id ← v.id
  if tap.filled then
    some ({ v with likeHeartImg := some .likeheart, likes := some (Decimal.text newNum) },
      [.countPost uID id tap, .countSocial id tap, .unlike me id tap], [])
  else
    let (like, ref) ← v.addImg me imgN id tap
    some ({ v with likeHeartImg := some .fillLikeheart, likes := some (Decimal.text newNum) },
      [like, .countPost uID id tap, .countSocial id tap], [ref])

/-- A count that is handed over is what the label shows, if it shows anything. -/
theorem setUp_likes {v : SocialMore} {n : Int} (h : v.numLikes = some n) :
    v.setUp.likes = some (Decimal.text n) ∨ v.setUp.likes = some "" := by
  cases hcap : v.caption <;> simp [setUp, h, hcap]

/-- The writes of one tap. -/
def tapRequests (me imgN uID id : String) (tap : Tap) : List Request :=
  if tap.filled then [.countPost uID id tap, .countSocial id tap, .unlike me id tap]
  else [.like me id imgN tap, .countPost uID id tap, .countSocial id tap]

theorem mem_tapRequests {me imgN uID id : String} {tap : Tap} {r : Request}
    (h : r ∈ tapRequests me imgN uID id tap) :
    r = .countPost uID id tap ∨ r = .countSocial id tap ∨
      (tap.filled = true ∧ r = .unlike me id tap) ∨
      (tap.filled = false ∧ r = .like me id imgN tap) := by
  unfold tapRequests at h
  cases hf : tap.filled with
  | true =>
      simp only [hf, if_true, List.mem_cons, List.not_mem_nil, or_false] at h
      rcases h with rfl | rfl | rfl <;> simp
  | false =>
      simp only [hf, Bool.false_eq_true, if_false, List.mem_cons, List.not_mem_nil,
        or_false] at h
      rcases h with rfl | rfl | rfl <;> simp

/-- **What a tap that does not trap has done.** -/
theorem changeLike_eq_some {me imgN : String} {v v' : SocialMore} {rs : List Request}
    {refs : List StorageRef} (h : v.changeLike me imgN = some (v', rs, refs)) :
    ∃ number uID id newNum, v.likes.bind intOfText = some number ∧ v.uID = some uID ∧
      v.id = some id ∧
      let tap : Tap := ⟨number, decide (v.likeHeartImg = some .fillLikeheart)⟩
      int64 tap.newNum = some newNum ∧ rs = tapRequests me imgN uID id tap ∧
      refs = (if tap.filled then [] else [⟨.likes me, imgN⟩]) ∧
      v' = { v with
        likeHeartImg := some (if tap.filled then .likeheart else .fillLikeheart)
        likes := some (Decimal.text newNum) } := by
  simp only [changeLike, Option.bind_eq_bind, Option.bind_eq_some_iff] at h
  obtain ⟨number, hnumber, newNum, hnew, uID, huID, id, hid, h⟩ := h
  refine ⟨number, uID, id, newNum, by simpa [Option.bind_eq_some_iff] using hnumber, huID, hid,
    hnew, ?_⟩
  by_cases hfilled : v.likeHeartImg = some .fillLikeheart
  · simp only [hfilled, decide_true, if_true, Option.some.injEq, Prod.mk.injEq] at h ⊢
    obtain ⟨rfl, rfl, rfl⟩ := h
    exact ⟨rfl, rfl, rfl⟩
  · simp only [hfilled, decide_false, Bool.false_eq_true, if_false, addImg,
      Option.bind_eq_some_iff] at h ⊢
    obtain ⟨⟨like, ref⟩, hadd, h⟩ := h
    split at hadd
    · simp only [Option.some.injEq, Prod.mk.injEq] at hadd h
      obtain ⟨rfl, rfl⟩ := hadd
      obtain ⟨rfl, rfl, rfl⟩ := h
      exact ⟨rfl, rfl, rfl⟩
    · simp at hadd

end SocialMore

/-! ### An open post and the database -/

/-- The database after the writes of a handler. -/
def written (db : Store) (rs : List Request) : Store :=
  (rs.map Request.write).foldl DocStore.Write.apply db

/-- What happens to a post that is open. -/
inductive ViewEvent
  /-- the answer to the question of `prepare` -/
  | heart (liked : Bool)
  /-- the picture has arrived -/
  | image
  /-- a tap of the heart; `imgN` is the UUID that `addImg` would draw -/
  | changeLike (imgN : String)
deriving DecidableEq, Repr

/-- An open post, and the database as its phone sees it. -/
structure LikeSession where
  view : SocialMore
  db : Store

/-- One event.  Storage is not in the session, so a picture that the post names may arrive at any
time. -/
def LikeSession.step (me : String) (s : LikeSession) : ViewEvent → Option LikeSession
  | .heart liked => some { s with view := s.view.showHeart liked }
  | .image => do
    let _ ← s.view.imageName
    some { s with view := { s.view with postImg := true } }
  | .changeLike imgN => do
    let (view, rs, _) ← s.view.changeLike me imgN
    some ⟨view, written s.db rs⟩

end UTrend
