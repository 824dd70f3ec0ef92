/-
The form that puts a piece of clothing into the closet: `AddImage`.

The form is an image view, the type that was chosen, and the colours of the three
buttons it is chosen with.  An image is known by its PNG data, which is all that
`addToCloset` compares.  An alert is modal: while one is up, only its button can be
pressed.

`Closet` is the form together with what it has written, each document with the number of
the image that was picked last.  The number is kept for the proofs; nothing reads it.
-/
import UTrend.Model.SocialMore

namespace UTrend

/-- The three buttons. -/
inductive TypeButton
  | top
  | bottom
  | shoes
deriving DecidableEq, Repr

/-- The type a button stands for. -/
def TypeButton.type : TypeButton → String
  | .top => "top"
  | .bottom => "bottom"
  | .shoes => "shoes"

/-- The background of a button. -/
inductive Colour
  /-- from the storyboard -/
  | storyboard
  /-- 248, 238, 230 -/
  | defaultColor
  /-- 255, 244, 243 -/
  | pressed
deriving DecidableEq, Repr

/-- The alerts of `addToCloset`. -/
inductive ClosetAlert
  /-- "Wait!" -/
  | wait
  /-- "Added" -/
  | added
deriving DecidableEq, Repr

structure AddImage (Png : Type) where
  imageView : Png
  clothingType : Option String := none
  topButton : Colour := .storyboard
  bottomButton : Colour := .storyboard
  shoesButton : Colour := .storyboard
  alert : Option ClosetAlert := none
deriving DecidableEq, Repr

namespace AddImage

variable {Png : Type}

def colour (s : AddImage Png) : TypeButton → Colour
  | .top => s.topButton
  | .bottom => s.bottomButton
  | .shoes => s.shoesButton

/-- `imagePickerController(_:didFinishPickingMediaWithInfo:)` -/
def imagePickerController (newImage : Png) (s : AddImage Png) : AddImage Png :=
  { s with imageView := newImage }

def resetColors (s : AddImage Png) : AddImage Png :=
  { s with
    topButton := .defaultColor
    bottomButton := .defaultColor
    shoesButton := .defaultColor }

def setColour (c : Colour) (s : AddImage Png) : TypeButton → AddImage Png
  | .top => { s with topButton := c }
  | .bottom => { s with bottomButton := c }
  | .shoes => { s with shoesButton := c }

/-- What the three handlers do: choose the type, and colour the button alone. -/
def typePressed (b : TypeButton) (s : AddImage Png) : AddImage Png :=
  setColour .pressed { s with clothingType := some b.type }.resetColors b

def topButtonPressed (s : AddImage Png) : AddImage Png := s.typePressed .top

def bottomButtonPressed (s : AddImage Png) : AddImage Png := s.typePressed .bottom

def shoesButtonPressed (s : AddImage Png) : AddImage Png := s.typePressed .shoes

/-- The type that `addToCloset` uploads with, if there is one. -/
def uploadType (s : AddImage Png) : Option String :=
  if s.clothingType = some "top" then some "top"
  else if s.clothingType = some "bottom" then some "bottom"
  else if s.clothingType = some "shoes" then some "shoes"
  else none

/-- `addToCloset`: the form, the document and the picture.  `docId` is drawn by
`addDocument`, `imgN` is a UUID. -/
def addToCloset [DecidableEq Png] (placeholder : Png) (me docId imgN : String)
    (s : AddImage Png) : AddImage Png × List Request × List StorageRef :=
  if placeholder ≠ s.imageView then
    match s.uploadType with
    | some type => ({ s with alert := some .added }, [.clothes me docId imgN type],
        [⟨.clothes me, imgN⟩])
    | none => ({ s with alert := some .wait }, [], [])
  else (s, [], [])

/-- The button of the alert that says "Added". -/
def okay (placeholder : Png) (s : AddImage Png) : AddImage Png :=
  { { s with imageView := placeholder }.resetColors with
    clothingType := some ""
    alert := none }

/-- The button of the alert that says "Wait!". -/
def ok (s : AddImage Png) : AddImage Png := { s with alert := none }

end AddImage

/-! ### Events -/

inductive FormEvent (Png : Type)
  /-- an image has been picked or taken -/
  | pick (newImage : Png)
  /-- `imagePickerControllerDidCancel` -/
  | cancel
  | topButtonPressed
  | bottomButtonPressed
  | shoesButtonPressed
  | addToCloset (docId imgN : String)
  /-- "Added" is confirmed -/
  | okay
  /-- "Wait!" is confirmed -/
  | ok
deriving DecidableEq, Repr

structure Closet (Png : Type) where
  form : AddImage Png
  /-- how many images have been picked -/
  picks : Nat := 0
  /-- the documents, each with the number of the image picked last -/
  written : List (Nat × Request) := []
deriving DecidableEq, Repr

namespace Closet

variable {Png : Type} (placeholder : Png)

/-- The storyboard: the image view shows the placeholder, and no type is chosen. -/
def init : Closet Png where
  form := { imageView := placeholder }

/-- The documents of the closet, in the order written. -/
def requests (s : Closet Png) : List Request := s.written.map Prod.snd

/-- An event while no alert is up. -/
def handle [DecidableEq Png] (me : String) (s : Closet Png) : FormEvent Png → Closet Png
  | .pick newImage =>
      { s with form := s.form.imagePickerController newImage, picks := s.picks + 1 }
  | .topButtonPressed => { s with form := s.form.topButtonPressed }
  | .bottomButtonPressed => { s with form := s.form.bottomButtonPressed }
  | .shoesButtonPressed => { s with form := s.form.shoesButtonPressed }
  | .addToCloset docId imgN =>
      let (form, rs, _) := s.form.addToCloset placeholder me docId imgN
      { s with form := form, written := s.written ++ rs.map (s.picks, ·) }
  | .cancel | .okay | .ok => s

def step [DecidableEq Png] (me : String) (s : Closet Png) : FormEvent Png → Option (Closet Png)
  | .okay =>
      if s.form.alert = some .added then some { s with form := s.form.okay placeholder }
      else none
  | .ok => if s.form.alert = some .wait then some { s with form := s.form.ok } else none
  | e => if s.form.alert = none then some (s.handle placeholder me e) else none

end Closet

end UTrend
