/-
How far a count of likes can go.

A tap writes one more or one less than its label shows, and the label may be of any
age: it was read off some snapshot, and other taps may have been made since.  So counts
go wrong, but not without bounds.  Wherever a number for a post is found, in a copy, in
a snapshot on its way, on a label, or in a write that waits, it is at most the number of
times anyone has liked the post, and at least minus the times anyone has unliked it.
-/
import UTrend.Proofs.Cells
import UTrend.Proofs.Integrity
import UTrend.Proofs.Screens
import UTrend.Proofs.Taps

namespace UTrend

open World

variable {C : Type} {me : C → String} {s s' : World C} {B B' : String → Int → Prop}

/-- The post whose count a request writes, and the number. -/
def Request.countOf : Request → Option (String × Int)
  | .countPost _ id tap | .countSocial id tap => some (id, tap.newNum)
  | _ => none

/-- The post that a copy is of. -/
def Path.postId : Path → Option String
  | .post _ id | .social id => some id
  | _ => none

/-- A heart of post `id` is tapped that shows the filled image, or one that does not. -/
def World.tapsHeart (filled : Bool) (id : String) (s : World C) : Event C → Bool
  | .act c (.tap _) => (s.phone c).more.any fun v =>
      v.id == some id && decide (v.likeHeartImg = some .fillLikeheart) == filled
  | _ => false

theorem World.tapsHeart_tap {c : C} {imgN : String} {v : SocialMore} {id : String}
    {filled : Bool} (hv : (s.phone c).more = some v) (hid : v.id = some id) :
    tapsHeart filled id s (.act c (.tap imgN)) =
      (decide (v.likeHeartImg = some .fillLikeheart) == filled) := by
  simp [tapsHeart, hv, hid]

/-! ### Documents and views -/

/-- The count of a public document is one that `B` allows. -/
def DocWithin (B : String → Int → Prop) (d : Doc) : Prop :=
  ∀ id n, Doc.string d "ID" = some id → Doc.number d "likes" = some n → B id n

/-- The number on the label is one that `B` allows. -/
def ViewWithin (B : String → Int → Prop) (v : SocialMore) : Prop :=
  ∀ id n, v.id = some id → v.likes.bind Decimal.parse = some n → B id n

/-- The number that a tap finds is the one on the label. -/
theorem parse_of_intOfText {v : SocialMore} {n : Int} (h : v.likes.bind intOfText = some n) :
    v.likes.bind Decimal.parse = some n := by
  obtain ⟨t, ht, hn⟩ := Option.bind_eq_some_iff.mp h
  obtain ⟨m, hm, hn⟩ := Option.bind_eq_some_iff.mp hn
  rw [ht, Option.bind_some, hm, int64_eq_some hn]

/-- What a request leaves for a count, it wrote itself; a new copy has no likes. -/
theorem Request.likes_result {r : Request} {old : Option Doc} {d : Doc} {id : String} {n : Int}
    (hid : r.path.postId = some id) (hd : r.write.result old = some d)
    (hn : Doc.number d "likes" = some n) : n = 0 ∨ r.countOf = some (id, n) := by
  cases r with
  | signUp | picture | like | unlike | clothes =>
      simp [path, write, DocStore.Write.path, Path.postId] at hid
  | deletePost | deleteSocial => simp [write, DocStore.Write.result] at hd
  | create | publish =>
      obtain rfl := (Option.some.inj hd).symm
      left
      simpa [Doc.number, DocStore.Doc.update, List.lookup_cons, Value.asNumber, eq_comm] using hn
  | countPost | countSocial =>
      obtain rfl := (Option.some.inj hd).symm
      obtain rfl := Option.some.inj hid
      right
      simpa [Doc.number, DocStore.Doc.update, Value.asNumber, countOf] using hn

/-- **The count of a copy is one that was written**, or the one it was made with. -/
theorem likes_of_lookup {rs : List Request} (hzero : ∀ id, B id 0)
    (hcounts : ∀ r ∈ rs, ∀ id n, r.countOf = some (id, n) → B id n) {p : Path} {d : Doc}
    (hd : (contents rs).lookup p = some d) {id : String} {n : Int} (hid : p.postId = some id)
    (hn : Doc.number d "likes" = some n) : B id n := by
  refine document_invariant (I := fun p d => ∀ id n, p.postId = some id →
    Doc.number d "likes" = some n → B id n) ?_ hd id n hid hn
  intro r hr old _ d hd id n hid hn
  rcases r.likes_result hid hd hn with rfl | hcount
  · exact hzero id
  · exact hcounts r hr id n hcount

/-- The label of a post that is opened shows its count, or can not be read. -/
theorem opens_within (hzero : ∀ id, B id 0) : Opens (DocWithin B) (ViewWithin B) where
  setUp d pid hd _ id n hid hn := by
    rw [SocialMore.setUp_likes_eq] at hn
    rw [(SocialMore.setUp_post _).1] at hid
    split at hn
    · rw [Option.bind_some, Decimal.parse_text] at hn
      obtain rfl := Option.some.inj hn
      cases hlikes : (Social.fetchSocialPost.item d).likes with
      | none => exact hzero id
      | some m => exact hd id m hid hlikes
    · have hempty : Decimal.parse "" = none := rfl
      simp [hempty] at hn
  heart _ _ hv := hv
  image _ hv := hv

/-! ### One event -/

variable [DecidableEq C]

/-- Every number that a phone has sent, or shows, is one that `B` allows. -/
structure Numbered (B : String → Int → Prop) (me : C → String) (s : World C) : Prop where
  net : ∀ c, ∀ r ∈ s.net.history c, ∀ id n, r.countOf = some (id, n) → B id n
  shown : ∀ c, Shown (DocWithin B) (DocWithin B) (ViewWithin B) (s.phone c)

theorem Numbered.likes (hC : Numbered B me s) (hzero : ∀ id, B id 0) {c : C} {p : Path} {d : Doc}
    (hd : (s.view c).lookup p = some d) {id : String} {n : Int} (hid : p.postId = some id)
    (hn : Doc.number d "likes" = some n) : B id n := by
  refine likes_of_lookup hzero (fun r hr => ?_) hd hid hn
  obtain ⟨e, he⟩ := exists_history_of_seen hr
  exact hC.net e r he

/-- The documents that a feed of posts lists have counts that `B` allows. -/
theorem Numbered.docWithin (hC : Numbered B me s) (hzero : ∀ id, B id 0) {c : C} {k : Collection}
    (hk : ∀ id, (k.path id).postId = some id) {d : Doc} (hd : d ∈ k.documents (s.view c)) :
    DocWithin B d := by
  obtain ⟨p, hp, hlookup⟩ := DocStore.mem_docsIn hd
  obtain ⟨i, rfl⟩ := Collection.holds_iff.mp hp
  intro id n hid hn
  -- the id that the document tells is the one that the count is kept under
  obtain rfl := (formed_of_lookup hlookup).id_eq hid
  exact hC.likes hzero hlookup (hk id) hn

theorem numbered_init : Numbered B me (init : World C) :=
  ⟨fun c r hr => by simp [init] at hr, shown_init⟩

omit [DecidableEq C] in
/-- Only a tap of the post writes a count for it. -/
theorem Effect.countOf {c : C} {e : Event C} {rs : List Request} {reads : List Read}
    {uploads : List StorageRef} (h : Effect me s c e rs reads uploads) {r : Request}
    (hr : r ∈ rs) {id : String} {n : Int} (hcount : r.countOf = some (id, n)) :
    ∃ imgN v, ∃ tap : Tap, e = .act c (.tap imgN) ∧ (s.phone c).more = some v ∧ v.id = some id ∧
      v.likes.bind intOfText = some tap.number ∧
      tap.filled = decide (v.likeHeartImg = some .fillLikeheart) ∧ n = tap.newNum := by
  cases h with
  | tap imgN hv huID hid hnumber hfilled =>
      rename_i v uID id' tap
      have hpost : id' = id ∧ tap.newNum = n := by
        rcases SocialMore.mem_tapRequests hr with rfl | rfl | ⟨-, rfl⟩ | ⟨-, rfl⟩
        · simpa [Request.countOf] using hcount
        · simpa [Request.countOf] using hcount
        · simp [Request.countOf] at hcount
        · simp [Request.countOf] at hcount
      obtain ⟨rfl, rfl⟩ := hpost
      exact ⟨imgN, v, tap, rfl, hv, hid, hnumber, hfilled, rfl⟩
  | delete k =>
      simp only [List.mem_cons, List.not_mem_nil, or_false] at hr
      rcases hr with rfl | rfl <;> simp [Request.countOf] at hcount
  | signUp | submit | addToCloset | picture | publish =>
      obtain rfl := List.mem_singleton.mp hr
      simp [Request.countOf] at hcount
  | _ => simp at hr

/-- **Every event keeps the numbers within bounds that grow with the taps.** -/
theorem numbered_step {e : Event C} (hC : Numbered B me s) (hmono : ∀ id n, B id n → B' id n)
    (hzero : ∀ id, B id 0)
    (htap : ∀ c imgN v id number, e = .act c (.tap imgN) → (s.phone c).more = some v →
      v.id = some id → B id number →
      B' id (Tap.newNum ⟨number, decide (v.likeHeartImg = some .fillLikeheart)⟩))
    (h : step me s e = some s') : Numbered B' me s' where
  net c r hr id n hcount := by
    obtain ⟨rs, heff, hhist⟩ := step_history h c
    rw [hhist] at hr
    rcases List.mem_append.mp hr with hr | hr
    · exact hmono id n (hC.net c r hr id n hcount)
    · obtain ⟨imgN, v, ⟨number, filled⟩, rfl, hv, hid, hnumber, hfilled, rfl⟩ :=
        heff.countOf hr hcount
      obtain rfl : filled = _ := hfilled
      have hallowed := (hC.shown c).more v hv id number hid (parse_of_intOfText hnumber)
      exact htap c imgN v id number rfl hv hid hallowed
  shown c := by
    have hdoc : ∀ d, DocWithin B d → DocWithin B' d := fun d hd id n hid hn =>
      hmono id n (hd id n hid hn)
    have hold : Shown (DocWithin B') (DocWithin B') (ViewWithin B') (s.phone c) :=
      (hC.shown c).mono hdoc hdoc fun v hv id n hid hn => hmono id n (hv id n hid hn)
    refine shown_step hold (opens_within fun id => hmono id 0 (hzero id))
      (fun d hd => hdoc d (hC.docWithin hzero (fun _ => rfl) hd))
      (fun d hd => hdoc d (hC.docWithin hzero (fun _ => rfl) hd))
      (fun imgN v v' rs refs he hv hchange => ?_) h
    obtain ⟨number, uID, id, newNum, hnumber, -, hid, hnew, -, -, rfl⟩ :=
        SocialMore.changeLike_eq_some hchange
    intro id' n hid' hn
    obtain rfl : id = id' := Option.some.inj (hid.symm.trans hid')
    rw [Option.bind_some, Decimal.parse_text] at hn
    obtain rfl := Option.some.inj hn
    rw [int64_eq_some hnew]
    have hallowed := (hC.shown c).more v hv id number hid (parse_of_intOfText hnumber)
    exact htap c imgN v id number he hv hid hallowed

/-! ### Runs -/

/-- The number is one that the taps of the run can make of the likes of `id`. -/
def WithinTaps (me : C → String) (es : List (Event C)) (id : String) (n : Int) : Prop :=
  -(Machine.count (step me) (tapsHeart true id) init es : Int) ≤ n ∧
    n ≤ Machine.count (step me) (tapsHeart false id) init es

/-- The number is given as the likes of `id`: in a copy, as the database has it or as a phone
sees it, in a feed on a phone, or on the label of the open post. -/
inductive World.Gives (s : World C) (id : String) (n : Int) : Prop
  | stored (p : Path) (hp : p.postId = some id) (hn : storedNumber s.db p "likes" = some n)
  | viewed (c : C) (p : Path) (hp : p.postId = some id)
      (hn : storedNumber (s.view c) p "likes" = some n)
  | listed (c : C) (post : Post) (hp : post ∈ (s.phone c).posts ∨ post ∈ (s.phone c).feed)
      (hid : post.pid = some id) (hn : post.likes = some n)
  | opened (c : C) (v : SocialMore) (hv : (s.phone c).more = some v) (hid : v.id = some id)
      (hn : v.likes.bind Decimal.parse = some n)

theorem numbered_run {es : List (Event C)} (hrun : Machine.run (step me) init es = some s) :
    Numbered (WithinTaps me es) me s := by
  refine (Machine.history_run_all (I := fun past s => Machine.run (step me) init past = some s ∧
    Numbered (WithinTaps me past) me s) ?_ ⟨rfl, numbered_init⟩ hrun).2
  rintro past s e s' ⟨hpast, hC⟩ h
  have hcount := fun filled id => Machine.count_concat (p := tapsHeart filled id) hpast e
  have hmono : ∀ id n, WithinTaps me past id n → WithinTaps me (past ++ [e]) id n := by
    intro id n ⟨hlo, hhi⟩
    rw [WithinTaps, hcount, hcount]
    omega
  have hzero : ∀ id, WithinTaps me past id 0 := fun id => ⟨by omega, by omega⟩
  refine ⟨Machine.run_append_eq_some.mpr ⟨s, hpast, by simpa using h⟩,
    numbered_step hC hmono hzero ?_ h⟩
  rintro c imgN v id number rfl hv hid ⟨hlo, hhi⟩
  have hnumbered : ∀ filled, tapsHeart filled id s (.act c (.tap imgN))
      = (decide (v.likeHeartImg = some .fillLikeheart) == filled) := fun _ => tapsHeart_tap hv hid
  rw [WithinTaps, hcount, hcount, hnumbered, hnumbered, Tap.newNum]
  -- the tap is counted under the image that the heart shows
  cases decide (v.likeHeartImg = some .fillLikeheart)
  · simp only [Bool.false_eq_true, if_false, BEq.rfl, if_true]
    omega
  · simp only [if_true, BEq.rfl]
    omega

/-- **A count is never more than the taps that like the post, nor less than minus those that
unlike it**, wherever it is given and however the taps have raced. -/
theorem likes_within_taps {es : List (Event C)} (hrun : Machine.run (step me) init es = some s)
    {id : String} {n : Int} (h : s.Gives id n) : WithinTaps me es id n := by
  have hC := numbered_run hrun
  have hzero : ∀ id, WithinTaps me es id 0 := fun id => ⟨by omega, by omega⟩
  cases h with
  | stored p hp hn =>
      obtain ⟨d, hd, hn⟩ := Option.bind_eq_some_iff.mp hn
      refine likes_of_lookup hzero (fun r hr => ?_) hd hp hn
      obtain ⟨c, hc⟩ := Net.exists_history_of_committed hr
      exact hC.net c r hc
  | viewed c p hp hn =>
      obtain ⟨d, hd, hn⟩ := Option.bind_eq_some_iff.mp hn
      exact hC.likes hzero hd hp hn
  | listed c post hp hid hn =>
      rcases hp with hp | hp
      · obtain ⟨d, hd, rfl⟩ := (hC.shown c).posts post hp
        exact hd id n hid hn
      · obtain ⟨d, hd, rfl⟩ := (hC.shown c).feed post hp
        exact hd id n hid hn
  | opened c v hv hid hn => exact (hC.shown c).more v hv id n hid hn

set_option maxRecDepth 100000 in
/-- Bob and ann each have the post open, and both like it: the count is 1, of two taps. -/
theorem likes_within_taps_duo :
    ∃ s, Machine.run (step duo) init (signingUp ++ submitting ++ publishing ++ opening 1
        ++ opening 0 ++ tapping 1 ++ tapping 0) = some s ∧
      s.Gives "p" 1 ∧ WithinTaps duo (signingUp ++ submitting ++ publishing ++ opening 1
        ++ opening 0 ++ tapping 1 ++ tapping 0) "p" 1 := by
  obtain ⟨s, hs, hn⟩ : ∃ s, Machine.run (step duo) init (signingUp ++ submitting ++ publishing
      ++ opening 1 ++ opening 0 ++ tapping 1 ++ tapping 0) = some s ∧
      storedNumber s.db (.social "p") "likes" = some 1 := by
    decide +kernel
  have hgives : s.Gives "p" 1 := .stored (.social "p") rfl hn
  exact ⟨s, hs, hgives, likes_within_taps hs hgives⟩

end UTrend
