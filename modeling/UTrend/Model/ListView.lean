/-
The collection views, each with the array behind it.

A view asks its data source for the number of items when `reloadData` runs, and
keeps the number it got.  Until the next reload it may ask for the cell of any item
below that number.  The array goes its own way: `fetchData` empties it at once, the
callback appends to it and puts a reload on the main queue, and a callback with an
error does neither.

The seven views are `View`, and `View.loader` says how each is fetched.
-/
import UTrend.Lib.Machine
import UTrend.Model.Loader

namespace UTrend

/-- A collection view and its data source. -/
structure ListView (α : Type) where
  /-- the array -/
  items : List α := []
  /-- calls whose callback has not run -/
  pending : Nat := 0
  /-- reloads that wait on the main queue -/
  reloads : Nat := 0
  /-- the number of items at the last reload -/
  cached : Nat := 0
deriving DecidableEq, Repr

inductive ListEvent
  /-- the fetch is called -/
  | fetch
  /-- a callback runs, with a snapshot or with an error -/
  | arrive (snap : Option (List Doc))
  /-- `reloadData` -/
  | reload
  /-- the view asks for a cell -/
  | cellForItemAt (i : Nat)
  /-- an item is tapped -/
  | didSelectItemAt (i : Nat)

namespace ListView

variable {α : Type} (L : Loader α)

def step (v : ListView α) : ListEvent → Option (ListView α)
  | .fetch => some { v with items := L.call v.items, pending := v.pending + 1 }
  | .arrive snap =>
      if v.pending = 0 then none else
        match snap with
        | some snap => some { v with
            items := L.append v.items snap
            pending := v.pending - 1
            reloads := v.reloads + 1 }
        | none => some { v with pending := v.pending - 1 }
  | .reload =>
      if v.reloads = 0 then none
      else some { v with reloads := v.reloads - 1, cached := v.items.length }
  | .cellForItemAt i | .didSelectItemAt i => if i < v.cached then some v else none

end ListView

/-! ### The seven views -/

inductive View
  /-- `TopCell.tops` -/
  | tops
  /-- `BottomCell.bottoms` -/
  | bottoms
  /-- `ShoeCell.shoes` -/
  | shoes
  /-- `postFeed.posts` -/
  | posts
  /-- `LikeFeed.likes` -/
  | likes
  /-- `wardrobeFeed.closet` -/
  | closet
  /-- `Social.posts` -/
  | social
deriving DecidableEq, Repr

/-- What the array of a view holds. -/
abbrev View.Item : View → Type
  | .tops | .bottoms | .shoes | .closet => ClothingItem
  | .posts | .likes | .social => Post

/-- How a view is fetched. -/
def View.loader : (k : View) → Loader k.Item
  | .tops => TopCell.fetchTops
  | .bottoms => BottomCell.fetchBottoms
  | .shoes => ShoeCell.fetchShoes
  | .posts => postFeed.fetchData
  | .likes => LikeFeed.fetchData
  | .closet => wardrobeFeed.fetchData
  | .social => Social.fetchSocialPost

/-- All of them. -/
structure Lists where
  view : (k : View) → ListView k.Item

inductive ListsEvent
  /-- something happens to one view -/
  | on (k : View) (e : ListEvent)
  /-- `OutfitGenerator.newOutfit`, with the numbers it draws -/
  | newOutfit (randTop randBottom randShoes : Nat)

namespace Lists

def init : Lists := ⟨fun _ => {}⟩

def step (s : Lists) : ListsEvent → Option Lists
  | .on k e => ((s.view k).step k.loader e).map fun v => ⟨Function.update s.view k v⟩
  | .newOutfit _ _ _ => some s

/-- The subscripts that an event makes.  The view asks for the cell of an item it counts;
of the seven `didSelectItemAt` only that of `Social` reads its array; and `newOutfit` draws
below the counts of the three racks and scrolls there, unless one of them is 0.  It subscripts
nothing itself: the cells it scrolls to are taken to be asked for at once. -/
def subscripts (s : Lists) : ListsEvent → List (View × Nat)
  | .on k (.cellForItemAt i) => if i < (s.view k).cached then [(k, i)] else []
  | .on .social (.didSelectItemAt i) => if i < (s.view .social).cached then [(.social, i)] else []
  | .newOutfit randTop randBottom randShoes =>
      let topCount := (s.view .tops).cached
      let bottomCount := (s.view .bottoms).cached
      let shoeCount := (s.view .shoes).cached
      if topCount ≠ 0 ∧ bottomCount ≠ 0 ∧ shoeCount ≠ 0 then
        if randTop < topCount ∧ randBottom < bottomCount ∧ randShoes < shoeCount then
          [(.tops, randTop), (.bottoms, randBottom), (.shoes, randShoes)]
        else []
      else []
  | _ => []

end Lists

end UTrend
