/-
The three pages of the profile, and when each is fetched.

The pages are the cells of one collection view that scrolls sideways.  A page that is
out of view has no cell to ask for, and `refreshAllData` passes it by.  A page that
scrolls into view is given a cell: a new one, which fetches when its view is built, or
one that was there before, with the list it had.  The first layout brings the first page
in as a scroll does.

`now` counts the events, so that a fetch, a selection and the state of the database each
have a moment.
-/
import Mathlib.Logic.Function.Basic

namespace UTrend

/-- The pages, in the order of the menu. -/
inductive Page
  | posts
  | likes
  | wardrobe
deriving DecidableEq, Repr

structure Tabs where
  /-- the page at rest, or the one where a scroll began -/
  page : Page := .posts
  /-- where a scroll is going -/
  target : Option Page := some .posts
  /-- the pages for which `cellForItem(at:)` gives a cell -/
  inView : Page → Bool := fun _ => false
  /-- when the cell of a page called `fetchData` last -/
  fetched : Page → Option Nat := fun _ => none
  /-- the moment of the database that a page's list is from -/
  shown : Page → Option Nat := fun _ => none
  now : Nat := 0
  /-- when a page was selected last -/
  selectedAt : Page → Option Nat := fun _ => none

inductive TabEvent
  /-- `Profile.viewWillAppear` -/
  | viewWillAppear
  /-- `ProfileBar.didSelectItemAt` -/
  | didSelectItemAt (i : Page)
  /-- a swipe begins that will end at a page -/
  | swipe (i : Page)
  /-- a page scrolls into view, with a new cell or with the one it had -/
  | enter (i : Page) (created : Bool)
  /-- a page scrolls out of view -/
  | leave (i : Page)
  /-- the scroll ends -/
  | rest
  /-- the database changes -/
  | change
  /-- the callback of a page's last fetch runs, with the database of moment `m` -/
  | arrive (i : Page) (m : Nat)
deriving DecidableEq, Repr

namespace Tabs

/-- The cell of a page calls `fetchData`. -/
def fetchData (i : Page) (s : Tabs) : Tabs :=
  { s with fetched := Function.update s.fetched i (some s.now) }

/-- `cellForItem(at:)?.fetchData()` -/
def fetchInView (i : Page) (s : Tabs) : Tabs := if s.inView i then s.fetchData i else s

def refreshAllData (s : Tabs) : Tabs :=
  ((s.fetchInView .posts).fetchInView .likes).fetchInView .wardrobe

/-- `scrollToItem`, animated.  At the page it is at, it does nothing. -/
def scrollToMenuIndex (i : Page) (s : Tabs) : Tabs :=
  if s.target = none ∧ s.page = i then s else { s with target := some i }

/-- The moment of a selection is noted, for the proofs. -/
def select (i : Page) (s : Tabs) : Tabs :=
  { s with selectedAt := Function.update s.selectedAt i (some s.now) }

/-- A page gets a new cell, whose view fetches when it is built. -/
def createCell (i : Page) (s : Tabs) : Tabs :=
  { s with shown := Function.update s.shown i none }.fetchData i

def tick (s : Tabs) : Tabs := { s with now := s.now + 1 }

def step (s : Tabs) : TabEvent → Option Tabs
  | .viewWillAppear => some s.refreshAllData.tick
  | .didSelectItemAt i => some ((s.select i).scrollToMenuIndex i).refreshAllData.tick
  | .swipe i => some { s with target := some i }.tick
  | .enter i created =>
      if s.target = none ∨ s.inView i ∨ (created = false ∧ s.fetched i = none) then none
      else
        let s := if created then s.createCell i else s
        some { s with inView := Function.update s.inView i true }.tick
  | .leave i =>
      if s.target = none ∨ s.inView i = false then none
      else some { s with inView := Function.update s.inView i false }.tick
  | .rest => do
      let i ← s.target
      if s.inView i then
        some { s with page := i, target := none, inView := fun j => j = i }.tick
      else none
  | .change => some s.tick
  | .arrive i m => do
      let f ← s.fetched i
      if f ≤ m ∧ m ≤ s.now then
        some { s with shown := Function.update s.shown i (some m) }.tick
      else none

/-- The page at rest has fetched at or after its last selection. -/
def Fresh (s : Tabs) : Prop :=
  s.target = none → ∀ t ∈ s.selectedAt s.page, ∃ f ∈ s.fetched s.page, t ≤ f

instance (s : Tabs) : Decidable s.Fresh :=
  inferInstanceAs (Decidable (s.target = none → ∀ t ∈ s.selectedAt s.page, _))

/-- What makes the cell of page `i` fetch: it is new, or it is in view at a refresh. -/
def Renews (s : Tabs) (i : Page) : TabEvent → Prop
  | .enter j created => j = i ∧ created = true
  | .viewWillAppear | .didSelectItemAt _ => s.inView i = true
  | _ => False

instance (s : Tabs) (i : Page) : DecidablePred (s.Renews i)
  | .enter j created => inferInstanceAs (Decidable (j = i ∧ created = true))
  | .viewWillAppear | .didSelectItemAt _ => inferInstanceAs (Decidable (s.inView i = true))
  | .swipe _ | .leave _ | .rest | .change | .arrive _ _ => isFalse id

end Tabs

end UTrend
