/-
The tab that puts outfits together: `OutfitGenerator`, with the closet it draws from.

Its table has a row for each type of clothing.  The cell of a row fetches when it is made,
and again whenever the closet form has written, if the table is there by then.  The form
is on another tab, so it may be used before the generator has been looked at, and the
callbacks of a rack come in any order, with whatever had been written by the time the
database answered.

`relaunch` is the app being left and started again: the screens are gone, and the closet
is still there.
-/
import UTrend.Lib.Machine
import UTrend.Model.AddImage
import UTrend.Model.Cells

namespace UTrend

/-- How the cell of a row is fetched. -/
def TypeButton.rack : TypeButton → Loader ClothingItem
  | .top => TopCell.fetchTops
  | .bottom => BottomCell.fetchBottoms
  | .shoes => ShoeCell.fetchShoes

/-- What an item of the row shows. -/
def TypeButton.cell : TypeButton → String → ClothingItem → Option StorageRef
  | .top => TopCell.cell
  | .bottom => BottomCell.cell
  | .shoes => ShoeCell.cell

/-- A fetch whose callback has not run. -/
structure RackCall where
  /-- how many documents had been written when it was called -/
  before : Nat
  /-- nothing has been fetched since -/
  latest : Bool
deriving DecidableEq, Repr

/-- `TopCell`, `BottomCell` or `ShoeCell`. -/
structure RackCell where
  items : List ClothingItem := []
  calls : List RackCall := []
  /-- the callback of the latest fetch has run, with a snapshot -/
  answered : Bool := false
  /-- reloads that wait on the main queue -/
  reloads : Nat := 0
  /-- the number of items at the last reload -/
  cached : Nat := 0
deriving DecidableEq, Repr

namespace RackCell

/-- `fetchTops`, `fetchBottoms`, `fetchShoes`, once `written` documents have been written. -/
def fetch (L : Loader ClothingItem) (written : Nat) (cell : RackCell) : RackCell :=
  { cell with
    items := L.call cell.items
    calls := cell.calls.map (fun call => { call with latest := false }) ++ [⟨written, true⟩]
    answered := false }

/-- The callback of a fetch. -/
def arrive (L : Loader ClothingItem) (k : Nat) (snap : Option (List Doc)) (cell : RackCell) :
    Option RackCell := do
  let call ← cell.calls[k]?
  match snap with
  | some snap => some { cell with
      items := L.append cell.items snap
      calls := cell.calls.eraseIdx k
      answered := cell.answered || call.latest
      reloads := cell.reloads + 1 }
  | none => some { cell with calls := cell.calls.eraseIdx k }

/-- `reloadData` -/
def reload (cell : RackCell) : Option RackCell :=
  if cell.reloads = 0 then none
  else some { cell with reloads := cell.reloads - 1, cached := cell.items.length }

end RackCell

structure Generator (Png : Type) where
  closet : Closet Png
  /-- whether the table is there -/
  tableView : Bool := false
  /-- `cellForRow(at:)` -/
  row : TypeButton → Option RackCell := fun _ => none

inductive GeneratorEvent (Png : Type)
  /-- something is done to the closet form -/
  | form (e : FormEvent Png)
  | viewDidLoad
  /-- `cellForRowAt` makes the cell of a row, and `awakeFromNib` fetches -/
  | cellForRowAt (b : TypeButton)
  /-- a callback runs, with the first `n` documents or with an error -/
  | arrive (b : TypeButton) (k : Nat) (snap : Option Nat)
  | reload (b : TypeButton)
  | relaunch
deriving DecidableEq, Repr

/-- The id that `addDocument` draws. -/
def FormEvent.docId {Png : Type} : FormEvent Png → Option String
  | .addToCloset docId _ => some docId
  | _ => none

namespace Generator

variable {Png : Type} (placeholder : Png)

def init : Generator Png where
  closet := Closet.init placeholder

/-- `refreshAll` -/
def refreshAll (s : Generator Png) : Generator Png :=
  if s.tableView then
    { s with row := fun b => (s.row b).map (.fetch b.rack s.closet.written.length) }
  else s

/-- The documents, once `n` have been written. -/
def documents (me : String) (s : Generator Png) (n : Nat) : List Doc :=
  (Collection.clothes me).documents (contents (s.closet.requests.take n))

/-- `addDocument` draws no id twice, and a snapshot holds at least what had been written
when it was asked for. -/
def step [DecidableEq Png] (me : String) (s : Generator Png) :
    GeneratorEvent Png → Option (Generator Png)
  | .form e =>
      if ∀ docId ∈ e.docId, Path.clothes me docId ∉ s.closet.requests.map Request.path then
        (s.closet.step placeholder me e).map fun closet =>
          let t := { s with closet := closet }
          -- `shouldUpload`
          if closet.requests = s.closet.requests then t else t.refreshAll
      else none
  | .viewDidLoad => if s.tableView then none else some { s with tableView := true }
  | .cellForRowAt b =>
      if s.tableView ∧ s.row b = none then
        let cell := RackCell.fetch b.rack s.closet.written.length {}
        some { s with row := Function.update s.row b (some cell) }
      else none
  | .arrive b k snap => do
      let cell ← s.row b
      let call ← cell.calls[k]?
      if ∀ n ∈ snap, call.before ≤ n ∧ n ≤ s.closet.written.length then
        let cell ← cell.arrive b.rack k (snap.map (s.documents me))
        some { s with row := Function.update s.row b (some cell) }
      else none
  | .reload b => do
      let cell ← s.row b
      let cell ← cell.reload
      some { s with row := Function.update s.row b (some cell) }
  | .relaunch => some {
      closet := { s.closet with form := { imageView := placeholder } } }

end Generator

/-! ### Outfits -/

/-- What `newOutfit` comes to. -/
inductive Outfit
  /-- the alert "Empty Wardrobe" -/
  | emptyWardrobe
  /-- the three views slide to these items -/
  | items (randTop randBottom randShoes : Nat)
deriving DecidableEq, Repr

/-- The item that the view of a row slides to. -/
def Outfit.item : Outfit → TypeButton → Option Nat
  | .emptyWardrobe, _ => none
  | .items randTop _ _, .top => some randTop
  | .items _ randBottom _, .bottom => some randBottom
  | .items _ _ randShoes, .shoes => some randShoes

namespace Generator

variable {Png : Type}

/-- `newOutfit`: all that its three draws can come to.  A row without a cell traps. -/
def newOutfit (s : Generator Png) : Option (List Outfit) := do
  let topCV ← s.row .top
  let botCV ← s.row .bottom
  let shoeCV ← s.row .shoes
  let topCount := topCV.cached
  let bottomCount := botCV.cached
  let shoeCount := shoeCV.cached
  if topCount ≠ 0 ∧ bottomCount ≠ 0 ∧ shoeCount ≠ 0 then
    some ((List.range topCount).flatMap fun randTop =>
      (List.range bottomCount).flatMap fun randBottom =>
        (List.range shoeCount).map fun randShoes => .items randTop randBottom randShoes)
  else some [.emptyWardrobe]

/-- The picture that a row shows of an outfit: the subscript and the name may trap. -/
def picture (me : String) (s : Generator Png) (o : Outfit) (b : TypeButton) :
    Option StorageRef := do
  let cell ← s.row b
  let i ← o.item b
  let item ← cell.items[i]?
  b.cell me item

end Generator

end UTrend
