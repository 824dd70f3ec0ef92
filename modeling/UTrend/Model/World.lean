/-
The system: phones, the database behind them, and Storage.

Every phone runs the app for one signed-in user, `me c`, as it does while nobody
logs out and sign-ins do not cross; several phones may have the same user.  A write
a phone issues waits in the phone's queue until Firestore applies it.  Writes of one
phone are applied in the order issued, writes of different phones in any order.  A
phone's own reads see its waiting writes.

An event is one act on one phone, or one thing that the environment does: answer
a read, deliver the answer, finish an upload, apply a write.
-/
import UTrend.Lib.Machine
import UTrend.Lib.Net
import UTrend.Model.Phone

namespace UTrend

variable {C : Type}

structure World (C : Type) where
  net : Net C Request
  phone : C → Phone
  /-- the objects in Storage -/
  storage : List StorageRef
  /-- the post ids drawn so far, with the phone that drew each -/
  posted : List (String × C)
  /-- the users that exist -/
  accounts : List String

inductive Event (C : Type)
  /-- something is done on a phone -/
  | act (c : C) (a : Act)
  /-- a read is answered, or fails -/
  | answer (c : C) (k : Nat) (ok : Bool)
  /-- an answer is delivered -/
  | arrive (c : C) (k : Nat)
  /-- an upload succeeds or fails -/
  | upload (c : C) (k : Nat) (ok : Bool)
  /-- the next write of a phone is applied -/
  | commit (c : C)
deriving DecidableEq, Repr

namespace World

/-- Nobody has signed in, and there is nothing in the database. -/
def init : World C := ⟨Net.empty, fun _ => {}, [], [], []⟩

/-- The database. -/
def db (s : World C) : Store := contents s.net.committed

/-- The database as a phone sees it, its own waiting writes included. -/
def view (s : World C) (c : C) : Store := contents (s.net.seen c)

/-- Whether the environment lets an act happen: a new user gets a uid of its own, a login
needs a user, no UUID is drawn twice, and a picture arrives only if Storage has it. -/
def allows (me : C → String) (s : World C) (c : C) : Act → Bool
  | .signUp _ _ => me c ∉ s.accounts
  | .login => me c ∈ s.accounts
  | .submit id => id ∉ s.posted.map Prod.fst
  | .image => (s.phone c).more.any fun v =>
      v.imageName.any fun name => ⟨.social, name⟩ ∈ s.storage
  | a => a.signsIn || (s.phone c).signedIn

variable [DecidableEq C]

def setPhone (s : World C) (c : C) (p : Phone) : World C :=
  { s with phone := Function.update s.phone c p }

/-- What the environment notes of an act. -/
def register (me : C → String) (s : World C) (c : C) : Act → World C
  | .signUp _ _ | .google => { s with accounts := me c :: s.accounts }
  | .submit id => { s with posted := (id, c) :: s.posted }
  | _ => s

/-- The completion handler of a write.  Only the deletion of a post has one: the feed is
fetched again. -/
def completed (p : Phone) : Request → Phone
  | .deletePost _ _ => p.fetchData
  | _ => p

/-- One event. -/
def step (me : C → String) (s : World C) : Event C → Option (World C)
  | .act c a =>
      if s.allows me c a then
        (a.run (me c) (s.phone c)).map fun (p, rs) =>
          { (s.register me c a).setPhone c p with net := s.net.issue c rs }
      else none
  | .answer c k ok =>
      match (s.phone c).reads[k]? with
      | some ⟨ask, none⟩ =>
          let answer := if ok then ask.answerOf (me c) (s.view c) else .error
          some (s.setPhone c { s.phone c with
            reads := (s.phone c).reads.set k ⟨ask, some answer⟩ })
      | _ => none
  | .arrive c k =>
      match (s.phone c).reads[k]? with
      | some ⟨ask, some answer⟩ =>
          let p := { s.phone c with reads := (s.phone c).reads.eraseIdx k }
          (p.callback (me c) ask answer).map fun (p, rs) =>
            { s.setPhone c p with net := s.net.issue c rs }
      | _ => none
  | .upload c k ok =>
      match (s.phone c).uploads[k]? with
      | some ref =>
          some { s.setPhone c { s.phone c with uploads := (s.phone c).uploads.eraseIdx k } with
            storage := if ok then ref :: s.storage else s.storage }
      | none => none
  | .commit c =>
      match s.net.queue c with
      | [] => none
      | r :: _ => (s.net.commit c).map fun net =>
          { s.setPhone c (completed (s.phone c) r) with net := net }

/-- No write, read or upload is pending. -/
def Idle (s : World C) : Prop :=
  s.net.Quiet ∧ ∀ c, (s.phone c).reads = [] ∧ (s.phone c).uploads = []

instance [Fintype C] (s : World C) : Decidable s.Idle :=
  inferInstanceAs (Decidable
    (s.net.Quiet ∧ ∀ c, (s.phone c).reads = [] ∧ (s.phone c).uploads = []))

end World

end UTrend
