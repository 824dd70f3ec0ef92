/-
The database of the app: its documents and the writes that reach them.

Firestore documents are untyped maps, and the readers of the app ask for a field
by name and cast it, so field names are strings here as they are there.  The
app's collections are `users/{uid}` with the subcollections `posts`, `likes` and
`clothes`, and the public `socialFeed/{id}`.

A `Request` is one write as a statement of the app issues it, and
`Request.write` is the raw write that statement hands to Firestore.  The writes
of a heart tap carry the `Tap` they came from: what was on the screen.  The
server never looks at it; `newNum` is the only thing the write takes from it.
-/
import Mathlib.Data.List.Induction
import UTrend.Lib.DocStore

namespace UTrend

/-- A field of a document, as far as the app stores any. -/
inductive Value
  | str (s : String)
  | num (n : Int)
deriving DecidableEq, Repr

/-- `as? String` -/
def Value.asString : Value → Option String
  | .str s => some s
  | .num _ => none

/-- `as? NSNumber` -/
def Value.asNumber : Value → Option Int
  | .num n => some n
  | .str _ => none

abbrev Doc := DocStore.Doc String Value

/-- `doc[field] as? String` -/
def Doc.string (d : Doc) (field : String) : Option String := (d field).bind Value.asString

/-- `doc[field] as? NSNumber` -/
def Doc.number (d : Doc) (field : String) : Option Int := (d field).bind Value.asNumber

/-- Where a document is. -/
inductive Path
  /-- `users/{uid}` -/
  | user (uid : String)
  /-- `users/{uid}/posts/{id}` -/
  | post (uid id : String)
  /-- `users/{uid}/likes/{id}` -/
  | like (uid id : String)
  /-- `users/{uid}/clothes/{id}` -/
  | clothes (uid id : String)
  /-- `socialFeed/{id}` -/
  | social (id : String)
deriving DecidableEq, Repr

abbrev Store := DocStore.Store Path String Value

abbrev Write := DocStore.Write Path String Value

/-- A number stored in a document, if the document is there and has it. -/
def storedNumber (db : Store) (p : Path) (field : String) : Option Int :=
  (db.lookup p).bind fun d => Doc.number d field

/-- What the screen showed when the heart was tapped. -/
structure Tap where
  /-- the number on the likes label -/
  number : Int
  /-- whether the heart was the filled one -/
  filled : Bool
deriving DecidableEq, Repr

/-- The count the tap puts on the label and writes: one less to unlike, one more to like. -/
def Tap.newNum (t : Tap) : Int := if t.filled then t.number - 1 else t.number + 1

/-- The writes of the app, one constructor a statement. -/
inductive Request
  /-- `Signup.signUpPressed`: the new user's document -/
  | signUp (uid firstname username : String)
  /-- `Profile.imagePickerController`: the new picture's name -/
  | picture (uid imgName : String)
  /-- `postInfo.addToDB`: the author's copy of a post -/
  | create (uid id caption imgName : String)
  /-- `postInfo.addToDB`, in its callback: the public copy -/
  | publish (uid id caption imgName profImg username : String)
  /-- `SocialMore.addImg`: the like -/
  | like (uid id imgN : String) (tap : Tap)
  /-- `SocialMore.changeLike`: the like is taken back -/
  | unlike (uid id : String) (tap : Tap)
  /-- `SocialMore.changeLike`: the count in the author's copy -/
  | countPost (uID id : String) (tap : Tap)
  /-- `SocialMore.changeLike`: the count in the public copy -/
  | countSocial (id : String) (tap : Tap)
  /-- `postFeed`, Delete: the author's copy -/
  | deletePost (uid id : String)
  /-- `postFeed`, Delete: the public copy -/
  | deleteSocial (id : String)
  /-- `AddImage.addToCloset`: a new document in the closet -/
  | clothes (uid docId imgN type : String)
deriving DecidableEq, Repr

/-- The write that is handed to Firestore. -/
def Request.write : Request → Write
  | .signUp uid firstname username => .set (.user uid)
      [("firstname", .str firstname), ("username", .str username), ("uid", .str uid),
        ("profileImg", .str "")]
  | .picture uid imgName => .merge (.user uid) [("profileImg", .str imgName)]
  | .create uid id caption imgName => .set (.post uid id)
      [("caption", .str caption), ("postImg", .str imgName), ("likes", .num 0),
        ("timestamp", .str "1 day ago"), ("ID", .str id), ("uid", .str uid)]
  | .publish uid id caption imgName profImg username => .set (.social id)
      [("caption", .str caption), ("postImg", .str imgName), ("profImg", .str profImg),
        ("likes", .num 0), ("username", .str username), ("timestamp", .str "1 day ago"),
        ("ID", .str id), ("uid", .str uid)]
  | .like uid id imgN _ => .merge (.like uid id) [("likedImg", .str imgN), ("ID", .str id)]
  | .unlike uid id _ => .delete (.like uid id)
  | .countPost uID id tap => .merge (.post uID id) [("likes", .num tap.newNum)]
  | .countSocial id tap => .merge (.social id) [("likes", .num tap.newNum)]
  | .deletePost uid id => .delete (.post uid id)
  | .deleteSocial id => .delete (.social id)
  | .clothes uid docId imgN type => .set (.clothes uid docId)
      [("imgName", .str imgN), ("type", .str type)]

/-- The documents after the requests, in order, from an empty database. -/
def contents (rs : List Request) : Store := DocStore.replay (rs.map Request.write)

/-- The document a request is about. -/
def Request.path (r : Request) : Path := r.write.path

/-! ### Who writes a document -/

theorem Request.path_eq_user {r : Request} {uid : String} (h : r.path = .user uid) :
    (∃ firstname username, r = .signUp uid firstname username) ∨
      ∃ imgName, r = .picture uid imgName := by
  cases r <;> simp_all [path, write, DocStore.Write.path]

theorem Request.path_eq_post {r : Request} {uid id : String} (h : r.path = .post uid id) :
    (∃ caption imgName, r = .create uid id caption imgName) ∨
      (∃ tap, r = .countPost uid id tap) ∨ r = .deletePost uid id := by
  cases r <;> simp_all [path, write, DocStore.Write.path]

theorem Request.path_eq_like {r : Request} {uid id : String} (h : r.path = .like uid id) :
    (∃ imgN tap, r = .like uid id imgN tap) ∨ ∃ tap, r = .unlike uid id tap := by
  cases r <;> simp_all [path, write, DocStore.Write.path]

theorem Request.path_eq_clothes {r : Request} {uid docId : String}
    (h : r.path = .clothes uid docId) : ∃ imgN type, r = .clothes uid docId imgN type := by
  cases r <;> simp_all [path, write, DocStore.Write.path]

theorem Request.path_eq_social {r : Request} {id : String} (h : r.path = .social id) :
    (∃ uid caption imgName profImg username,
      r = .publish uid id caption imgName profImg username) ∨
      (∃ tap, r = .countSocial id tap) ∨ r = .deleteSocial id := by
  cases r <;> simp_all [path, write, DocStore.Write.path]

/-! ### The outcome of requests -/

@[simp] theorem contents_nil : contents [] = ∅ := rfl

theorem lookup_contents_concat (rs : List Request) (r : Request) (p : Path) :
    (contents (rs ++ [r])).lookup p =
      if r.path = p then r.write.result ((contents rs).lookup p)
      else (contents rs).lookup p := by
  simp only [contents, List.map_append, List.map_cons, List.map_nil]
  exact DocStore.lookup_replay_concat _ _ _

theorem contents_concat (rs : List Request) (r : Request) :
    contents (rs ++ [r]) = r.write.apply (contents rs) := by
  simp only [contents, List.map_append, List.map_cons, List.map_nil]
  exact DocStore.replay_concat _ _

theorem mem_contents_concat (rs : List Request) (r : Request) (p : Path) :
    p ∈ contents (rs ++ [r]) ↔
      if r.path = p then r.write.deletes = false else p ∈ contents rs := by
  rw [contents_concat]
  exact DocStore.mem_apply _ _ _

/-- **What holds of every document that requests leave, holds of what they leave.**
The induction is on the list of requests, for one document. -/
theorem contents_induction {p : Path} {I : List Request → Option Doc → Prop}
    (hnil : I [] none)
    (hother : ∀ rs r d, I rs d → r.path ≠ p → I (rs ++ [r]) d)
    (hself : ∀ rs r d, I rs d → r.path = p → I (rs ++ [r]) (r.write.result d))
    (rs : List Request) : I rs ((contents rs).lookup p) := by
  induction rs using List.reverseRecOn with
  | nil => exact hnil
  | append_singleton rs r ih =>
      rw [lookup_contents_concat]
      by_cases h : r.path = p
      · rw [if_pos h]
        exact hself rs r _ ih h
      · rw [if_neg h]
        exact hother rs r _ ih h

/-- What was written and never removed exists. -/
theorem mem_contents {rs : List Request} {p : Path} (h : ∃ r ∈ rs, r.path = p)
    (hkept : ∀ r ∈ rs, r.path = p → r.write.deletes = false) : p ∈ contents rs := by
  induction rs using List.reverseRecOn with
  | nil => simp at h
  | append_singleton rs r ih =>
      rw [mem_contents_concat]
      by_cases hr : r.path = p
      · rw [if_pos hr]
        exact hkept r (by simp) hr
      · rw [if_neg hr]
        obtain ⟨x, hx, hxp⟩ := h
        rcases List.mem_append.mp hx with hx | hx
        · exact ih ⟨x, hx, hxp⟩ fun y hy => hkept y (by simp [hy])
        · exact absurd (List.mem_singleton.mp hx ▸ hxp) hr

end UTrend
