/-
The lists the screens show, and how they are fetched.

Seven methods fetch a list: three racks of the outfit generator, the three feeds
of the profile and the public feed.  They are copies of one another.  Each empties
its array, asks for the documents of one collection, and in the callback appends
one item for each document it keeps.  `Loader` says what differs: the collection,
which documents are kept, and what is read off a document.
-/
import UTrend.Model.Firestore

namespace UTrend

/-- A post, as the feeds show it. -/
structure Post where
  postImg : Option String := none
  textCaption : Option String := none
  likes : Option Int := none
  time : Option String := none
  username : Option String := none
  userPic : Option String := none
  /-- post id -/
  pid : Option String := none
  /-- user id -/
  uid : Option String := none
deriving DecidableEq, Repr

/-- A piece of clothing. -/
structure ClothingItem where
  uploadedImg : Option String := none
  type : Option String := none
deriving DecidableEq, Repr

/-- The collections that are listed. -/
inductive Collection
  /-- `users/{uid}/posts` -/
  | posts (uid : String)
  /-- `users/{uid}/likes` -/
  | likes (uid : String)
  /-- `users/{uid}/clothes` -/
  | clothes (uid : String)
  /-- `socialFeed` -/
  | socialFeed
deriving DecidableEq, Repr

/-- The documents of a collection. -/
def Collection.holds : Collection → Path → Bool
  | .posts uid, .post u _ | .likes uid, .like u _ | .clothes uid, .clothes u _ => u == uid
  | .socialFeed, .social _ => true
  | _, _ => false

/-- `getDocuments`: what a collection holds.  Firestore lists it by document id, and here it comes
in the order of the last writes; no result is about the order. -/
def Collection.documents (c : Collection) (db : Store) : List Doc := DocStore.docsIn c.holds db

/-- What distinguishes one list from another. -/
structure Loader (α : Type) where
  /-- the collection, for the user who is signed in -/
  collection : String → Collection
  /-- whether the loop makes an item of a document -/
  keeps : Doc → Bool
  /-- the item -/
  item : Doc → α

namespace Loader

variable {α : Type} (L : Loader α)

/-- The call: the array is emptied before anything is known. -/
def call (_L : Loader α) (_items : List α) : List α := []

/-- The loop of the callback over the documents of the snapshot. -/
def append (items : List α) : List Doc → List α
  | [] => items
  | doc :: snap => append (if L.keeps doc then items ++ [L.item doc] else items) snap

/-- The list that a snapshot stands for: an item for each document kept, in order. -/
def listOf (snap : List Doc) : List α := (snap.filter L.keeps).map L.item

/-- **The callback adds the snapshot's list behind what is there.** -/
theorem append_eq (snap : List Doc) : ∀ items : List α,
    L.append items snap = items ++ L.listOf snap := by
  induction snap with
  | nil => intro items; simp [append, listOf]
  | cons doc snap ih =>
      intro items
      rw [append, ih]
      by_cases h : L.keeps doc
      · simp [listOf, h]
      · simp [listOf, h]

end Loader

/-- The racks of the outfit generator: the clothes of one type. -/
def rack (type : String) : Loader ClothingItem where
  collection := .clothes
  keeps doc := Doc.string doc "type" == some type
  item doc := { type := Doc.string doc "type", uploadedImg := Doc.string doc "imgName" }

def TopCell.fetchTops : Loader ClothingItem := rack "top"

def BottomCell.fetchBottoms : Loader ClothingItem := rack "bottom"

def ShoeCell.fetchShoes : Loader ClothingItem := rack "shoes"

/-- The feeds that make an item of every document. -/
def feed {α : Type} (collection : String → Collection) (item : Doc → α) : Loader α where
  collection := collection
  keeps _ := true
  item := item

def postFeed.fetchData : Loader Post := feed .posts fun doc =>
  { postImg := Doc.string doc "postImg", likes := Doc.number doc "likes",
    textCaption := Doc.string doc "caption", time := Doc.string doc "timestamp",
    pid := Doc.string doc "ID" }

def LikeFeed.fetchData : Loader Post := feed .likes fun doc =>
  { postImg := Doc.string doc "likedImg" }

def wardrobeFeed.fetchData : Loader ClothingItem := feed .clothes fun doc =>
  { uploadedImg := Doc.string doc "imgName" }

def Social.fetchSocialPost : Loader Post := feed (fun _ => .socialFeed) fun doc =>
  { postImg := Doc.string doc "postImg", textCaption := Doc.string doc "caption",
    likes := Doc.number doc "likes", username := Doc.string doc "username",
    userPic := Doc.string doc "profImg", pid := Doc.string doc "ID",
    uid := Doc.string doc "uid" }

end UTrend
