/-
The database as the copy of a board.

Most writes of the app are one deed each: a sign-up joins, `addToDB` writes and later
shares, a tap likes or unlikes.  The counts are no deeds, since a board counts for itself,
and of the two writes of a deletion the second one is the deed.

`Mirrors` says how a database copies a board: people, likes and closets document by
document, and the posts by the requests that have made them.  `Request.InTurn` is what a
write has to find, and then the deed it stands for can be done: `Mirrors.concat`.
-/
import UTrend.Lib.Board
import UTrend.Lib.Machine
import UTrend.Proofs.Likes
import UTrend.Proofs.Profiles

namespace UTrend

variable {rs : List Request} {r : Request}

/-- A board of users who have a first name and a username, and write captions for images; their
closets hold images and types. -/
abbrev Network := Board String String (String × String) (String × String) String (String × String)

/-- The deed that a write stands for. -/
def Request.deed : Request →
    Option (Board.Deed String String (String × String) (String × String) String (String × String))
  | .signUp uid firstname username => some (.join uid (firstname, username) "")
  | .picture uid imgName => some (.portray uid imgName)
  | .create uid id caption imgName => some (.write uid id (caption, imgName))
  | .publish _ id _ _ profImg _ => some (.share id profImg)
  | .like uid id imgN _ => some (.like uid id imgN)
  | .unlike uid id _ => some (.unlike uid id)
  | .deleteSocial id => some (.remove id)
  | .clothes uid docId imgN type => some (.store uid docId (imgN, type))
  | .countPost _ _ _ | .countSocial _ _ | .deletePost _ _ => none

/-! ### Documents -/

/-- The document of a user. -/
def userDoc (uid : String) (x : Board.Person (String × String) String) : Doc :=
  DocStore.Doc.empty.update
    [("firstname", .str x.name.1), ("username", .str x.name.2), ("uid", .str uid),
      ("profileImg", .str x.picture)]

/-- The document of a like. -/
def likeDoc (id imgN : String) : Doc :=
  DocStore.Doc.empty.update [("likedImg", .str imgN), ("ID", .str id)]

/-- The document of a piece of clothing. -/
def clothesDoc (g : String × String) : Doc :=
  DocStore.Doc.empty.update [("imgName", .str g.1), ("type", .str g.2)]

theorem userDoc_picture (uid : String) (x : Board.Person (String × String) String)
    (imgName : String) :
    DocStore.Doc.update (userDoc uid x) [("profileImg", .str imgName)]
      = userDoc uid { x with picture := imgName } := by
  funext k
  by_cases hk : k = "profileImg"
  · subst hk
    rfl
  · have hne : (k == "profileImg") = false := beq_false_of_ne hk
    simp [userDoc, DocStore.Doc.update, List.lookup_cons, hne]

/-- The documents of users are those of the people. -/
structure PeopleOf (rs : List Request)
    (people : String → Option (Board.Person (String × String) String)) : Prop where
  doc : ∀ uid, (contents rs).lookup (.user uid) = (people uid).map (userDoc uid)
  joined : ∀ uid, (people uid).isSome ↔ SignedUp rs uid

/-- The likes are those of the board, and as many. -/
structure LikesOf (rs : List Request) (likers : String → Finset String)
    (saved : String → String → Option String) : Prop where
  doc : ∀ uid id, (contents rs).lookup (.like uid id) = (saved uid id).map (likeDoc id)
  card : ∀ id, UTrend.likers id (contents rs) = (likers id).card

/-- The closets are those of the board. -/
def ClosetOf (rs : List Request) (closet : String → String → Option (String × String)) : Prop :=
  ∀ uid docId, (contents rs).lookup (.clothes uid docId) = (closet uid docId).map clothesDoc

/-- An entry is a post that has been created and not been deleted, and it is shared when it has
been published. -/
structure EntriesOf (rs : List Request)
    (entries : String → Option (Board.Entry String (String × String) String)) : Prop where
  made : ∀ id u caption imgName, (∃ pic, entries id = some ⟨u, (caption, imgName), pic⟩) ↔
    .create u id caption imgName ∈ rs ∧ .deleteSocial id ∉ rs
  shared : ∀ id e, entries id = some e → ∀ pic, e.shared = some pic ↔
    ∃ username, .publish e.author id e.text.1 e.text.2 pic username ∈ rs

/-- The database is a copy of the board, but for the counts. -/
structure Mirrors (rs : List Request) (n : Network) : Prop where
  people : PeopleOf rs n.people
  likes : LikesOf rs n.likers n.saved
  closet : ClosetOf rs n.closet
  entries : EntriesOf rs n.entries

theorem mirrors_empty : Mirrors [] Board.empty where
  people := ⟨fun _ => rfl, by simp [Board.empty, SignedUp]⟩
  likes := ⟨fun _ _ => rfl, fun _ => rfl⟩
  closet _ _ := rfl
  entries := ⟨by simp [Board.empty], by simp [Board.empty]⟩

/-! ### Writes that leave a part alone -/

theorem lookup_concat_of_ne {p : Path} (h : r.path ≠ p) :
    (contents (rs ++ [r])).lookup p = (contents rs).lookup p := by
  rw [lookup_contents_concat, if_neg h]

theorem lookup_concat_self {p : Path} (h : r.path = p) :
    (contents (rs ++ [r])).lookup p = r.write.result ((contents rs).lookup p) := by
  rw [lookup_contents_concat, if_pos h]

theorem PeopleOf.keep {people : String → Option (Board.Person (String × String) String)}
    (h : PeopleOf rs people) (hr : ∀ uid, r.path ≠ .user uid) : PeopleOf (rs ++ [r]) people where
  doc uid := by rw [lookup_concat_of_ne (hr uid), h.doc]
  joined uid := by
    rw [h.joined]
    refine ⟨fun hs => hs.mono fun x hx => List.mem_append_left _ hx, ?_⟩
    rintro ⟨x, hx, firstname, username, rfl⟩
    rcases List.mem_append.mp hx with hx | hx
    · exact ⟨_, hx, firstname, username, rfl⟩
    · exact absurd rfl (List.mem_singleton.mp hx ▸ hr uid)

theorem LikesOf.keep {likers : String → Finset String} {saved : String → String → Option String}
    (h : LikesOf rs likers saved) (hr : ∀ uid id, r.path ≠ .like uid id) :
    LikesOf (rs ++ [r]) likers saved where
  doc uid id := by rw [lookup_concat_of_ne (hr uid id), h.doc]
  card id := by
    have hnot : isLike id r.path = false := by
      cases hp : r.path with
      | like uid i => exact absurd hp (hr uid i)
      | _ => rfl
    rw [← h.card, contents_concat, UTrend.likers, UTrend.likers, DocStore.count_apply_of_not hnot]

theorem ClosetOf.keep {closet : String → String → Option (String × String)}
    (h : ClosetOf rs closet) (hr : ∀ uid docId, r.path ≠ .clothes uid docId) :
    ClosetOf (rs ++ [r]) closet := fun uid docId => by
  rw [lookup_concat_of_ne (hr uid docId), h]

theorem EntriesOf.keep {entries : String → Option (Board.Entry String (String × String) String)}
    (h : EntriesOf rs entries) (hcreate : ∀ u id, r.creates u id = false)
    (hpub : ∀ u id, r.publishes u id = false) (hdel : ∀ id, r ≠ .deleteSocial id) :
    EntriesOf (rs ++ [r]) entries where
  made id u caption imgName := by
    have hne : Request.create u id caption imgName ≠ r := by
      rintro rfl
      simpa [Request.creates] using hcreate u id
    simp [h.made, hne, (hdel id).symm]
  shared id e he pic := by
    rw [h.shared id e he]
    refine exists_congr fun username => ?_
    have hne : Request.publish e.author id e.text.1 e.text.2 pic username ≠ r := by
      rintro rfl
      simpa [Request.publishes] using hpub e.author id
    simp [hne]

/-! ### Writes that are deeds -/

theorem PeopleOf.join {people : String → Option (Board.Person (String × String) String)}
    (h : PeopleOf rs people) (uid firstname username : String) :
    PeopleOf (rs ++ [.signUp uid firstname username])
      (Function.update people uid (some ⟨(firstname, username), ""⟩)) where
  doc v := by
    by_cases hv : v = uid
    · subst hv
      have hself : (Request.signUp v firstname username).path = .user v := rfl
      rw [Function.update_self, lookup_concat_self hself]
      rfl
    · have hne : (Request.signUp uid firstname username).path ≠ .user v := fun he =>
        hv (Path.user.inj he).symm
      rw [Function.update_of_ne hv, lookup_concat_of_ne hne, h.doc]
  joined v := by
    by_cases hv : v = uid
    · subst hv
      rw [Function.update_self]
      exact iff_of_true rfl ⟨_, List.mem_append_right _ (List.mem_singleton_self _), _, _, rfl⟩
    · rw [Function.update_of_ne hv, h.joined]
      refine ⟨fun hs => hs.mono fun x hx => List.mem_append_left _ hx, ?_⟩
      rintro ⟨x, hx, f, u, rfl⟩
      rcases List.mem_append.mp hx with hx | hx
      · exact ⟨_, hx, f, u, rfl⟩
      · exact absurd (Request.signUp.inj (List.mem_singleton.mp hx)).1 hv

theorem PeopleOf.portray {people : String → Option (Board.Person (String × String) String)}
    (h : PeopleOf rs people) {uid : String} (hs : SignedUp rs uid) (imgName : String) :
    PeopleOf (rs ++ [.picture uid imgName]) (Function.update people uid
      ((people uid).map fun x => { x with picture := imgName })) where
  doc v := by
    by_cases hv : v = uid
    · subst hv
      obtain ⟨x, hx⟩ := Option.isSome_iff_exists.mp ((h.joined v).mpr hs)
      have hself : (Request.picture v imgName).path = .user v := rfl
      rw [Function.update_self, lookup_concat_self hself, h.doc, hx]
      exact congrArg some (userDoc_picture v x imgName)
    · have hne : (Request.picture uid imgName).path ≠ .user v := fun he =>
        hv (Path.user.inj he).symm
      rw [Function.update_of_ne hv, lookup_concat_of_ne hne, h.doc]
  joined v := by
    have hsame : (Function.update people uid ((people uid).map fun x =>
        { x with picture := imgName }) v).isSome = (people v).isSome := by
      by_cases hv : v = uid
      · subst hv
        rw [Function.update_self, Option.isSome_map]
      · rw [Function.update_of_ne hv]
    rw [hsame, h.joined]
    refine ⟨fun hs => hs.mono fun x hx => List.mem_append_left _ hx, ?_⟩
    rintro ⟨x, hx, f, u, rfl⟩
    exact ⟨_, by simpa using hx, f, u, rfl⟩

theorem LikesOf.like {likers : String → Finset String}
    {saved : String → String → Option String} (h : LikesOf rs likers saved) {uid id : String}
    (hnew : Path.like uid id ∉ contents rs) (hlikers : uid ∉ likers id) (imgN : String)
    (tap : Tap) : LikesOf (rs ++ [.like uid id imgN tap])
      (Function.update likers id (insert uid (likers id)))
      (Board.set saved uid id (some imgN)) where
  doc v i := by
    rw [Board.set_apply]
    by_cases hvi : v = uid ∧ i = id
    · obtain ⟨rfl, rfl⟩ := hvi
      have hnone : (contents rs).lookup (.like v i) = none := by
        rwa [← Option.not_isSome_iff_eq_none, DocStore.mem_iff_isSome]
      have hself : (Request.like v i imgN tap).path = .like v i := rfl
      rw [if_pos ⟨rfl, rfl⟩, lookup_concat_self hself, hnone]
      rfl
    · have hne : (Request.like uid id imgN tap).path ≠ .like v i := fun he =>
        hvi ⟨(Path.like.inj he).1.symm, (Path.like.inj he).2.symm⟩
      rw [if_neg hvi, lookup_concat_of_ne hne, h.doc]
  card i := by
    have hcurrent : (Request.like uid id imgN tap).Current i (contents rs) := by
      rintro rfl
      exact hnew
    have hadd := likers_concat hcurrent
    have hcard := h.card i
    by_cases hi : i = id
    · subst hi
      rw [Function.update_self, Finset.card_insert_of_notMem hlikers]
      simp only [Request.liked, if_true] at hadd
      omega
    · rw [Function.update_of_ne hi]
      have hother : id ≠ i := fun he => hi he.symm
      simp only [Request.liked, hother, if_false] at hadd
      omega

theorem LikesOf.unlike {likers : String → Finset String}
    {saved : String → String → Option String} (h : LikesOf rs likers saved) {uid id : String}
    (hold : Path.like uid id ∈ contents rs) (hlikers : uid ∈ likers id) (tap : Tap) :
    LikesOf (rs ++ [.unlike uid id tap])
      (Function.update likers id ((likers id).erase uid)) (Board.set saved uid id none) where
  doc v i := by
    rw [Board.set_apply]
    by_cases hvi : v = uid ∧ i = id
    · obtain ⟨rfl, rfl⟩ := hvi
      have hself : (Request.unlike v i tap).path = .like v i := rfl
      rw [if_pos ⟨rfl, rfl⟩, lookup_concat_self hself]
      rfl
    · have hne : (Request.unlike uid id tap).path ≠ .like v i := fun he =>
        hvi ⟨(Path.like.inj he).1.symm, (Path.like.inj he).2.symm⟩
      rw [if_neg hvi, lookup_concat_of_ne hne, h.doc]
  card i := by
    have hcurrent : (Request.unlike uid id tap).Current i (contents rs) := by
      rintro rfl
      exact hold
    have hadd := likers_concat hcurrent
    have hcard := h.card i
    by_cases hi : i = id
    · subst hi
      have hpos := Finset.card_pos.mpr ⟨uid, hlikers⟩
      rw [Function.update_self, Finset.card_erase_of_mem hlikers]
      simp only [Request.liked, if_true] at hadd
      omega
    · rw [Function.update_of_ne hi]
      have hother : id ≠ i := fun he => hi he.symm
      simp only [Request.liked, hother, if_false] at hadd
      omega

theorem ClosetOf.store {closet : String → String → Option (String × String)}
    (h : ClosetOf rs closet) (uid docId imgN type : String) :
    ClosetOf (rs ++ [.clothes uid docId imgN type])
      (Board.set closet uid docId (some (imgN, type))) := by
  intro v i
  rw [Board.set_apply]
  by_cases hvi : v = uid ∧ i = docId
  · obtain ⟨rfl, rfl⟩ := hvi
    have hself : (Request.clothes v i imgN type).path = .clothes v i := rfl
    rw [if_pos ⟨rfl, rfl⟩, lookup_concat_self hself]
    rfl
  · have hne : (Request.clothes uid docId imgN type).path ≠ .clothes v i := fun he =>
      hvi ⟨(Path.clothes.inj he).1.symm, (Path.clothes.inj he).2.symm⟩
    rw [if_neg hvi, lookup_concat_of_ne hne, h]

/-- What the app writes of a post into the two copies, an entry says. -/
theorem EntriesOf.write {entries : String → Option (Board.Entry String (String × String) String)}
    (h : EntriesOf rs entries) {uid id : String} (hnew : ∀ v, ¬ Created rs v id)
    (hpub : ∀ v, ¬ Published rs v id) (hkept : .deleteSocial id ∉ rs) (caption imgName : String) :
    EntriesOf (rs ++ [.create uid id caption imgName])
      (Function.update entries id (some ⟨uid, (caption, imgName), none⟩)) where
  made i u caption' imgName' := by
    by_cases hi : i = id
    · subst hi
      have hold : Request.create u i caption' imgName' ∉ rs := fun hr =>
        hnew u ⟨_, hr, by simp [Request.creates]⟩
      rw [Function.update_self]
      simp [hold, hkept, and_assoc, eq_comm]
    · rw [Function.update_of_ne hi, h.made]
      simp [hi]
  shared i e he pic := by
    by_cases hi : i = id
    · subst hi
      rw [Function.update_self, Option.some.injEq] at he
      subst he
      refine iff_of_false (by simp) ?_
      rintro ⟨username, hr⟩
      exact hpub uid ⟨_, by simpa using hr, by simp [Request.publishes]⟩
    · rw [Function.update_of_ne hi] at he
      rw [h.shared i e he]
      simp

theorem EntriesOf.share {entries : String → Option (Board.Entry String (String × String) String)}
    (h : EntriesOf rs entries) {uid id caption imgName : String}
    (hmade : .create uid id caption imgName ∈ rs) (hkept : .deleteSocial id ∉ rs)
    (hnew : ∀ v, ¬ Published rs v id) (profImg username : String) :
    entries id = some ⟨uid, (caption, imgName), none⟩ ∧
      EntriesOf (rs ++ [.publish uid id caption imgName profImg username])
        (Function.update entries id
          ((entries id).map fun e => { e with shared := some profImg })) := by
  obtain ⟨pic, hentry⟩ := (h.made id uid caption imgName).mpr ⟨hmade, hkept⟩
  have hnone : pic = none := by
    cases pic with
    | none => rfl
    | some pic =>
        obtain ⟨name, hr⟩ := (h.shared id _ hentry pic).mp rfl
        exact absurd ⟨_, hr, by simp [Request.publishes]⟩ (hnew uid)
  subst hnone
  refine ⟨hentry, ?_, ?_⟩
  · intro i u caption' imgName'
    by_cases hi : i = id
    · subst hi
      have hiff := h.made i u caption' imgName'
      rw [Function.update_self, hentry, Option.map_some]
      rw [hentry] at hiff
      simpa using hiff
    · rw [Function.update_of_ne hi, h.made]
      simp
  · intro i e he pic
    by_cases hi : i = id
    · subst hi
      rw [Function.update_self, hentry, Option.map_some, Option.some.injEq] at he
      subst he
      simp only [Option.some.injEq, List.mem_append, List.mem_singleton, Request.publish.injEq,
        true_and]
      constructor
      · rintro rfl
        exact ⟨username, Or.inr ⟨rfl, rfl⟩⟩
      · rintro ⟨name, hr | ⟨rfl, -⟩⟩
        · exact absurd ⟨_, hr, by simp [Request.publishes]⟩ (hnew uid)
        · rfl
    · rw [Function.update_of_ne hi] at he
      rw [h.shared i e he]
      simp [hi]

theorem EntriesOf.remove {entries : String → Option (Board.Entry String (String × String) String)}
    (h : EntriesOf rs entries) (id : String) :
    EntriesOf (rs ++ [.deleteSocial id]) (Function.update entries id none) where
  made i u caption imgName := by
    by_cases hi : i = id
    · simp [hi]
    · rw [Function.update_of_ne hi, h.made]
      simp [hi]
  shared i e he pic := by
    by_cases hi : i = id
    · simp [hi] at he
    · rw [Function.update_of_ne hi] at he
      rw [h.shared i e he]
      simp

/-! ### One write -/

/-- What a write has to find: a sign-up is the first of its user and comes before all else of
that user, a post is created once and then published once, and a like is new, or there when
it is taken back. -/
def Request.InTurn (rs : List Request) : Request → Prop
  | .signUp uid _ _ => ¬ SignedUp rs uid
  | .picture uid _ => SignedUp rs uid
  | .create uid id _ _ => SignedUp rs uid ∧ (∀ v, ¬ Created rs v id) ∧
      (∀ v, ¬ Published rs v id) ∧ .deleteSocial id ∉ rs
  | .publish uid id caption imgName _ _ => .create uid id caption imgName ∈ rs ∧
      .deleteSocial id ∉ rs ∧ ∀ v, ¬ Published rs v id
  | .like uid id _ _ => Path.like uid id ∉ contents rs
  | .unlike uid id _ => Path.like uid id ∈ contents rs
  | _ => True

theorem Mirrors.mem_likers {n : Network} (h : Mirrors rs n) {uid id : String} :
    uid ∈ n.likers id ↔ Path.like uid id ∈ contents rs := by
  rw [n.mem_likers, ← DocStore.mem_iff_isSome, h.likes.doc, Option.isSome_map]

/-- **The deed of a write that is in turn can be done, and leaves the board of which the database
is then the copy.** -/
theorem Mirrors.concat {n : Network} (h : Mirrors rs n) (hr : r.InTurn rs) :
    ∃ n', Machine.run Board.step n r.deed.toList = some n' ∧ Mirrors (rs ++ [r]) n' := by
  cases r with
  | countPost | countSocial | deletePost =>
      exact ⟨n, rfl, h.people.keep fun _ => Path.noConfusion,
        h.likes.keep fun _ _ => Path.noConfusion, h.closet.keep fun _ _ => Path.noConfusion,
        h.entries.keep (fun _ _ => rfl) (fun _ _ => rfl) (by simp)⟩
  | signUp uid firstname username =>
      have hnone : (n.people uid).isNone := by
        rw [Option.isNone_iff_eq_none, ← Option.not_isSome_iff_eq_none, h.people.joined]
        exact hr
      refine ⟨n.join uid (firstname, username) "", ?_, h.people.join uid firstname username,
        h.likes.keep fun _ _ => Path.noConfusion, h.closet.keep fun _ _ => Path.noConfusion,
        h.entries.keep (fun _ _ => rfl) (fun _ _ => rfl) (by simp)⟩
      rw [Request.deed, Option.toList_some, Machine.run_singleton, Board.step, if_pos hnone]
  | picture uid imgName =>
      refine ⟨n.portray uid imgName, ?_, h.people.portray hr imgName,
        h.likes.keep fun _ _ => Path.noConfusion, h.closet.keep fun _ _ => Path.noConfusion,
        h.entries.keep (fun _ _ => rfl) (fun _ _ => rfl) (by simp)⟩
      rw [Request.deed, Option.toList_some, Machine.run_singleton, Board.step,
        if_pos ((h.people.joined uid).mpr hr)]
  | create uid id caption imgName =>
      obtain ⟨hsigned, hnew, hpub, hkept⟩ := hr
      have huser : (n.people uid).isSome := (h.people.joined uid).mpr hsigned
      have hnone : (n.entries id).isNone := by
        rw [Option.isNone_iff_eq_none]
        cases he : n.entries id with
        | none => rfl
        | some e =>
            obtain ⟨author, ⟨caption, imgName⟩, pic⟩ := e
            have hold := (h.entries.made id author caption imgName).mp ⟨pic, he⟩
            exact absurd ⟨_, hold.1, by simp [Request.creates]⟩ (hnew author)
      refine ⟨n.write uid id (caption, imgName) huser, ?_,
        h.people.keep fun _ => Path.noConfusion, h.likes.keep fun _ _ => Path.noConfusion,
        h.closet.keep fun _ _ => Path.noConfusion, h.entries.write hnew hpub hkept caption imgName⟩
      rw [Request.deed, Option.toList_some, Machine.run_singleton, Board.step,
        dif_pos ⟨huser, hnone⟩]
  | publish uid id caption imgName profImg username =>
      obtain ⟨hmade, hkept, hnew⟩ := hr
      obtain ⟨hentry, hentries⟩ := h.entries.share hmade hkept hnew profImg username
      refine ⟨n.share id profImg, ?_, h.people.keep fun _ => Path.noConfusion,
        h.likes.keep fun _ _ => Path.noConfusion, h.closet.keep fun _ _ => Path.noConfusion,
        hentries⟩
      rw [Request.deed, Option.toList_some, Machine.run_singleton, Board.step, hentry]
      rfl
  | like uid id imgN tap =>
      have hlikers : uid ∉ n.likers id := fun hmem => hr (h.mem_likers.mp hmem)
      refine ⟨n.like uid id imgN, ?_, h.people.keep fun _ => Path.noConfusion,
        h.likes.like hr hlikers imgN tap, h.closet.keep fun _ _ => Path.noConfusion,
        h.entries.keep (fun _ _ => rfl) (fun _ _ => rfl) (by simp)⟩
      rw [Request.deed, Option.toList_some, Machine.run_singleton, Board.step, if_pos hlikers]
  | unlike uid id tap =>
      have hlikers : uid ∈ n.likers id := h.mem_likers.mpr hr
      refine ⟨n.unlike uid id, ?_, h.people.keep fun _ => Path.noConfusion,
        h.likes.unlike hr hlikers tap, h.closet.keep fun _ _ => Path.noConfusion,
        h.entries.keep (fun _ _ => rfl) (fun _ _ => rfl) (by simp)⟩
      rw [Request.deed, Option.toList_some, Machine.run_singleton, Board.step, if_pos hlikers]
  | deleteSocial id =>
      exact ⟨n.remove id, rfl, h.people.keep fun _ => Path.noConfusion,
        h.likes.keep fun _ _ => Path.noConfusion, h.closet.keep fun _ _ => Path.noConfusion,
        h.entries.remove id⟩
  | clothes uid docId imgN type =>
      exact ⟨n.store uid docId (imgN, type), rfl, h.people.keep fun _ => Path.noConfusion,
        h.likes.keep fun _ _ => Path.noConfusion, h.closet.store uid docId imgN type,
        h.entries.keep (fun _ _ => rfl) (fun _ _ => rfl) (by simp)⟩

end UTrend
