/-
A board: people who write, and who like what the others have written.

This is what a feed is for, with nothing of devices, copies or stored counts in it.  A deed
is done at once, and only where it is allowed.  Who likes an entry is a set, so nobody likes
it twice, and the number of likes is the size of that set.

A `Board` carries what holds of it: the author of an entry is one of the people, and an
entry is liked by those who have saved it.
-/
import Mathlib.Data.Finset.Card
import Mathlib.Data.Finset.Insert
import Mathlib.Logic.Function.Basic

namespace Board

/-- Someone with a name, and a picture. -/
structure Person (N P : Type*) where
  name : N
  picture : P

/-- What someone has written. -/
structure Entry (U T P : Type*) where
  author : U
  text : T
  /-- the picture of the author when it was shared, if it is shared -/
  shared : Option P

/-- What can be done: `U` are the users, `I` the ids, `N` the names, `T` the texts, `P` the
pictures and `G` what is stored away. -/
inductive Deed (U I N T P G : Type*)
  | join (u : U) (name : N) (p : P)
  | portray (u : U) (p : P)
  | write (u : U) (i : I) (t : T)
  | share (i : I) (p : P)
  | like (u : U) (i : I) (p : P)
  | unlike (u : U) (i : I)
  | remove (i : I)
  | store (u : U) (i : I) (g : G)

end Board

structure Board (U I N T P G : Type*) where
  people : U → Option (Board.Person N P)
  entries : I → Option (Board.Entry U T P)
  likers : I → Finset U
  /-- what a user has saved of an entry -/
  saved : U → I → Option P
  closet : U → I → Option G
  author : ∀ i e, entries i = some e → (people e.author).isSome
  mem_likers : ∀ u i, u ∈ likers i ↔ (saved u i).isSome

namespace Board

variable {U I N T P G : Type*}

/-- Nobody is there yet. -/
def empty : Board U I N T P G where
  people _ := none
  entries _ := none
  likers _ := ∅
  saved _ _ := none
  closet _ _ := none
  author := by simp
  mem_likers := by simp

variable [DecidableEq U] [DecidableEq I]

/-- A function of two arguments with one value changed. -/
def set {α : Type*} (f : U → I → α) (u : U) (i : I) (a : α) : U → I → α :=
  Function.update f u (Function.update (f u) i a)

theorem set_apply {α : Type*} (f : U → I → α) (u : U) (i : I) (a : α) (v : U) (j : I) :
    set f u i a v j = if v = u ∧ j = i then a else f v j := by
  unfold set
  by_cases hv : v = u
  · subst hv
    by_cases hj : j = i <;> simp [hj]
  · simp [hv]

theorem isSome_update {α : Type*} {f : U → Option α} {u v : U} {o : Option α}
    (ho : (f u).isSome → o.isSome) (hv : (f v).isSome) : (Function.update f u o v).isSome := by
  by_cases h : v = u
  · subst h
    rw [Function.update_self]
    exact ho hv
  · rwa [Function.update_of_ne h]

/-! ### Deeds -/

def join (b : Board U I N T P G) (u : U) (name : N) (p : P) : Board U I N T P G :=
  { b with
    people := Function.update b.people u (some ⟨name, p⟩)
    author := fun i e he => isSome_update (fun _ => rfl) (b.author i e he) }

def portray (b : Board U I N T P G) (u : U) (p : P) : Board U I N T P G :=
  { b with
    people := Function.update b.people u ((b.people u).map fun x => { x with picture := p })
    author := fun i e he => isSome_update (by simp) (b.author i e he) }

def write (b : Board U I N T P G) (u : U) (i : I) (t : T) (hu : (b.people u).isSome) :
    Board U I N T P G :=
  { b with
    entries := Function.update b.entries i (some ⟨u, t, none⟩)
    author := by
      intro j e he
      by_cases hj : j = i
      · subst hj
        rw [Function.update_self, Option.some.injEq] at he
        exact he ▸ hu
      · rw [Function.update_of_ne hj] at he
        exact b.author j e he }

def share (b : Board U I N T P G) (i : I) (p : P) : Board U I N T P G :=
  { b with
    entries := Function.update b.entries i ((b.entries i).map fun e => { e with shared := some p })
    author := by
      intro j e he
      by_cases hj : j = i
      · subst hj
        rw [Function.update_self] at he
        obtain ⟨old, hold, rfl⟩ := Option.map_eq_some_iff.mp he
        exact b.author j old hold
      · rw [Function.update_of_ne hj] at he
        exact b.author j e he }

def like (b : Board U I N T P G) (u : U) (i : I) (p : P) : Board U I N T P G :=
  { b with
    likers := Function.update b.likers i (insert u (b.likers i))
    saved := set b.saved u i (some p)
    mem_likers := by
      intro v j
      rw [set_apply]
      by_cases hj : j = i
      · subst hj
        by_cases hv : v = u <;> simp [hv, b.mem_likers]
      · simp [hj, b.mem_likers] }

def unlike (b : Board U I N T P G) (u : U) (i : I) : Board U I N T P G :=
  { b with
    likers := Function.update b.likers i ((b.likers i).erase u)
    saved := set b.saved u i none
    mem_likers := by
      intro v j
      rw [set_apply]
      by_cases hj : j = i
      · subst hj
        by_cases hv : v = u <;> simp [hv, b.mem_likers]
      · simp [hj, b.mem_likers] }

def remove (b : Board U I N T P G) (i : I) : Board U I N T P G :=
  { b with
    entries := Function.update b.entries i none
    author := by
      intro j e he
      by_cases hj : j = i
      · simp [hj] at he
      · rw [Function.update_of_ne hj] at he
        exact b.author j e he }

def store (b : Board U I N T P G) (u : U) (i : I) (g : G) : Board U I N T P G :=
  { b with closet := set b.closet u i (some g) }

/-- One deed, if it can be done: people join once, write and are portrayed after that, entries
are shared once, and a like is given by those who do not like it yet. -/
def step (b : Board U I N T P G) : Deed U I N T P G → Option (Board U I N T P G)
  | .join u name p => if (b.people u).isNone then some (b.join u name p) else none
  | .portray u p => if (b.people u).isSome then some (b.portray u p) else none
  | .write u i t =>
      if h : (b.people u).isSome ∧ (b.entries i).isNone then some (b.write u i t h.1) else none
  | .share i p =>
      if (b.entries i).any (·.shared.isNone) then some (b.share i p) else none
  | .like u i p => if u ∉ b.likers i then some (b.like u i p) else none
  | .unlike u i => if u ∈ b.likers i then some (b.unlike u i) else none
  | .remove i => some (b.remove i)
  | .store u i g => some (b.store u i g)

end Board
