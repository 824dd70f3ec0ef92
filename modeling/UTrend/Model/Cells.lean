/-
The cells of the collection views, and what they put on the screen.

A cell is given an item and loads the picture that the item names.  The name is force
unwrapped, so an item without one gives `none` here.  The pictures of a closet and of
the likes are in folders of the user who is signed in, the others in folders that all
users share.
-/
import UTrend.Model.ListView
import UTrend.Model.SocialMore

namespace UTrend

/-- What `postCell` shows. -/
structure PostCell where
  comment : Option String
  postImage : StorageRef
  likes : String
  timeStamp : Option String
  postId : Option String
deriving DecidableEq, Repr

/-- `postCell.postItem`, once it is set.  `imgName!` and `likes!` trap. -/
def postCell.didSet (post : Post) : Option PostCell := do
  let imgName ← post.postImg
  let likes ← post.likes
  some {
    comment := post.textCaption
    postImage := ⟨.social, imgName⟩
    likes := Decimal.text likes
    timeStamp := post.time
    postId := post.pid }

/-- What `socialCell` shows. -/
structure SocialCell where
  timeStamp : Option String
  comment : Option String
  userName : Option String
  postImage : StorageRef
  userImg : Option StorageRef
deriving DecidableEq, Repr

/-- `socialCell.socialPost`, once it is set.  `imgName!` traps; a post without a user
picture is shown without one. -/
def socialCell.didSet (post : Post) : Option SocialCell := do
  let imgName ← post.postImg
  some {
    timeStamp := post.time
    comment := post.textCaption
    userName := post.username
    postImage := ⟨.social, imgName⟩
    userImg := post.userPic.map (⟨.profile, ·⟩) }

/-- `LikeCell.liked`, once it is set. -/
def LikeCell.didSet (me : String) (liked : Post) : Option StorageRef :=
  liked.postImg.map (⟨.likes me, ·⟩)

/-- `WardrobeCell.item`, once it is set. -/
def WardrobeCell.didSet (me : String) (item : ClothingItem) : Option StorageRef :=
  item.uploadedImg.map (⟨.clothes me, ·⟩)

/-- The cell of a rack: the picture of a piece of clothing. -/
def rackCell (me : String) (item : ClothingItem) : Option StorageRef :=
  item.uploadedImg.map (⟨.clothes me, ·⟩)

def TopCell.cell : String → ClothingItem → Option StorageRef := rackCell

def BottomCell.cell : String → ClothingItem → Option StorageRef := rackCell

def ShoeCell.cell : String → ClothingItem → Option StorageRef := rackCell

/-- The pictures that the cell of an item loads. -/
def View.pictures (me : String) : (k : View) → k.Item → Option (List StorageRef)
  | .tops, item => (TopCell.cell me item).map ([·])
  | .bottoms, item => (BottomCell.cell me item).map ([·])
  | .shoes, item => (ShoeCell.cell me item).map ([·])
  | .posts, post => (postCell.didSet post).map fun cell => [cell.postImage]
  | .likes, post => (LikeCell.didSet me post).map ([·])
  | .closet, item => (WardrobeCell.didSet me item).map ([·])
  | .social, post => (socialCell.didSet post).map fun cell =>
      cell.postImage :: cell.userImg.toList

/-- `cellForItemAt` of a view: the subscript traps past the end of the array. -/
def View.cellForItemAt (me : String) (k : View) (items : List k.Item) (i : Nat) :
    Option (List StorageRef) :=
  items[i]?.bind (k.pictures me)

end UTrend
