/-
The feed of a user's own posts, with the cells that are on the screen.

A cell is given a post when the view lays out, and keeps it until the next reload;
the array behind the view can be another one by then.  `reload` is `reloadData` with
the layout that follows: the index paths in view get a cell each, holding the post
that the array has there now.

A tap raises an alert.  Its Delete action looks the cell up again, by the index path of
the tap.
-/
import UTrend.Model.ListView
import UTrend.Model.Phone

namespace UTrend

structure PostFeed where
  list : ListView Post := {}
  /-- `cellForItem(at:)`: the post that the cell on the screen was given last -/
  cells : Nat → Option Post := fun _ => none

inductive FeedEvent
  | fetchData
  /-- a callback of `fetchData` runs, with a snapshot or with an error -/
  | arrive (snap : Option (List Doc))
  /-- `reloadData`; `visible` are the index paths in view -/
  | reload (visible : Nat → Bool)

/-- What the collection view sees of an event. -/
def FeedEvent.list : FeedEvent → ListEvent
  | .fetchData => .fetch
  | .arrive snap => .arrive snap
  | .reload _ => .reload

namespace PostFeed

/-- The cells of a layout: each takes the post at its index. -/
def layout (items : List Post) (visible : Nat → Bool) (i : Nat) : Option Post :=
  if visible i then items[i]? else none

/-- No cell of a layout traps on its post. -/
def Fits (items : List Post) (visible : Nat → Bool) : Prop :=
  ∀ i < items.length, ∀ post ∈ layout items visible i, (postCell.postItem post).isSome

instance (items : List Post) (visible : Nat → Bool) : Decidable (Fits items visible) :=
  inferInstanceAs (Decidable (∀ i < items.length, ∀ post ∈ layout items visible i,
    (postCell.postItem post).isSome))

def step (s : PostFeed) (e : FeedEvent) : Option PostFeed := do
  let list ← s.list.step postFeed.fetchData e.list
  match e with
  | .reload visible =>
    if Fits list.items visible then some ⟨list, layout list.items visible⟩ else none
  | _ => some { s with list := list }

/-- The Delete action of the alert that a tap at `i` has raised, when it is pressed.
`postID!` traps when there is no cell, or none with an id. -/
def deletePressed (me : String) (s : PostFeed) (i : Nat) : Option (List Request) :=
  postFeed.deleteAction me ((s.cells i).bind Post.pid)

end PostFeed

end UTrend
