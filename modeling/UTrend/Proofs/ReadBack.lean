/-
Reading back a post that was written.

A post is stored twice, and `changeLike` merges counts into both copies.  Whatever else
is written, the other fields stay as `addToDB` wrote them, and the count stays a number.

Two readers read the copies: `postFeed` the author's, and `Social` the public one, which
it hands over to `SocialMore` field by field.  `Social.fetchSocialPost` does not ask for
the timestamp, so there is none to hand over.  All the rest is read back.
-/
import UTrend.Proofs.Taps

namespace UTrend

open DocStore

/-- The request leaves a document alone, but for the number of its likes. -/
def OnlyLikes (p : Path) (r : Request) : Prop :=
  r.path = p → ∃ n : Int, r.write = .merge p [("likes", .num n)]

/-- **Every other field stays as it is.** -/
theorem field_written {p : Path} {k : String} (hk : k ≠ "likes") {rs : List Request}
    (h : ∀ r ∈ rs, OnlyLikes p r) (db : Store) : field (written db rs) p k = field db p k := by
  refine field_foldl_apply (fun w hw => ?_) db
  obtain ⟨r, hr, rfl⟩ := List.mem_map.mp hw
  by_cases hp : r.path = p
  · obtain ⟨n, hn⟩ := h r hr hp
    rw [hn]
    intro _
    have hbeq : (k == "likes") = false := beq_false_of_ne hk
    simp only [List.lookup_cons, hbeq, List.lookup_nil]
  · have hne : r.write.path ≠ p := hp
    cases hw : r.write with
    | merge q fields =>
        rw [hw] at hne
        exact fun hq => absurd hq hne
    | set q fields =>
        rw [hw] at hne
        exact hne
    | delete q =>
        rw [hw] at hne
        exact hne

/-- The number of likes stays a number. -/
theorem likes_written {p : Path} {rs : List Request} (h : ∀ r ∈ rs, OnlyLikes p r) :
    ∀ {db : Store}, (∃ n, storedNumber db p "likes" = some n) →
      ∃ n, storedNumber (written db rs) p "likes" = some n := by
  induction rs with
  | nil => intro db hn; exact hn
  | cons r rs ih =>
      intro db hn
      rw [written_cons]
      refine ih (fun x hx => h x (by simp [hx])) ?_
      rw [storedNumber, lookup_apply]
      by_cases hp : r.path = p
      · obtain ⟨n, hwrite⟩ := h r (by simp) hp
        have hpath : r.write.path = p := hp
        refine ⟨n, ?_⟩
        rw [if_pos hpath, hwrite]
        simp [Write.result, Doc.number, Doc.update, Value.asNumber]
      · have hpath : r.write.path ≠ p := hp
        rw [if_neg hpath]
        exact hn

/-- A document that is set, and then only counted: its fields, and its likes. -/
theorem lookup_set {p : Path} {fields : List (String × Value)} (pre : List Request)
    {post : List Request} {r : Request} (hr : r.write = .set p fields)
    (hpost : ∀ x ∈ post, OnlyLikes p x)
    (hlikes : ∃ n, fields.lookup "likes" = some (.num n)) :
    ∃ d, (contents (pre ++ [r] ++ post)).lookup p = some d ∧
      (∀ k, k ≠ "likes" → Doc.string d k = (fields.lookup k).bind Value.asString) ∧
      ∃ n, Doc.number d "likes" = some n := by
  have hset : (contents (pre ++ [r])).lookup p = some (Doc.empty.update fields) := by
    have hpath : r.path = p := by
      rw [Request.path, hr]
      rfl
    rw [lookup_contents_concat, if_pos hpath, hr]
    rfl
  have hstart : ∃ n, storedNumber (contents (pre ++ [r])) p "likes" = some n := by
    obtain ⟨n, hn⟩ := hlikes
    refine ⟨n, ?_⟩
    rw [storedNumber, hset, Option.bind_some, Doc.number, Doc.update, hn]
    rfl
  obtain ⟨n, hn⟩ := likes_written hpost hstart
  rw [written_contents]
  obtain ⟨d, hd, hnum⟩ := Option.bind_eq_some_iff.mp hn
  refine ⟨d, hd, fun k hk => ?_, n, hnum⟩
  have hfield := field_written hk hpost (contents (pre ++ [r]))
  rw [field, field, hd, hset, Option.bind_some, Option.bind_some] at hfield
  rw [Doc.string, hfield, Doc.update, Doc.empty, Option.or_none]

/-! ### A stored post -/

/-- The post has been stored in both places, in the order of `addToDB`, and since then
nothing but `changeLike` has written to its documents. -/
def StoredPost (uid id caption imgName profImg username : String) (rs : List Request) : Prop :=
  ∃ before between after,
    rs = before ++ [.create uid id caption imgName] ++ between ++
      [.publish uid id caption imgName profImg username] ++ after ∧
    (∀ r ∈ between ++ after, r.path = .post uid id → ∃ tap, r = .countPost uid id tap) ∧
    ∀ r ∈ after, r.path = .social id → ∃ tap, r = .countSocial id tap

/-- The hand-over has every field of the public copy. -/
structure HandsOver (d : Doc) (v : SocialMore) : Prop where
  caption : v.caption = Doc.string d "caption"
  imageName : v.imageName = Doc.string d "postImg"
  timeStamp : v.timeStamp = Doc.string d "timestamp"
  username : v.username = Doc.string d "username"
  userPic : v.userPic = Doc.string d "profImg"
  numLikes : v.numLikes = Doc.number d "likes"
  id : v.id = Doc.string d "ID"
  uID : v.uID = Doc.string d "uid"

/-- The author's feed has every field that it shows of the author's copy. -/
structure FeedShows (e : Doc) (q : Post) : Prop where
  caption : q.textCaption = Doc.string e "caption"
  postImg : q.postImg = Doc.string e "postImg"
  time : q.time = Doc.string e "timestamp"
  likes : q.likes = Doc.number e "likes"
  pid : q.pid = Doc.string e "ID"

/-- The two readers give what the two copies hold, and agree. -/
structure ReadsBack (d e : Doc) (v : SocialMore) (q : Post) : Prop where
  social : HandsOver d v
  author : FeedShows e q
  caption : v.caption = q.textCaption
  image : v.imageName = q.postImg
  time : v.timeStamp = q.time
  id : v.id = q.pid

/-- The public copy, as it is listed and handed over: all but the timestamp. -/
theorem social_read {uid id caption imgName profImg username : String} {rs : List Request}
    (h : StoredPost uid id caption imgName profImg username rs) :
    ∃ d n, (contents rs).lookup (.social id) = some d ∧ Doc.number d "likes" = some n ∧
      Doc.string d "timestamp" = some "1 day ago" ∧
      Social.prepare (Social.fetchSocialPost.item d) =
        { imageName := some imgName, caption := some caption, timeStamp := none,
          numLikes := some n, userPic := some profImg, username := some username,
          id := some id, uID := some uid } := by
  obtain ⟨before, between, after, rfl, -, hafter⟩ := h
  have honly : ∀ r ∈ after, OnlyLikes (.social id) r := by
    intro r hr hp
    obtain ⟨tap, rfl⟩ := hafter r hr hp
    exact ⟨tap.newNum, rfl⟩
  obtain ⟨d, hd, hstring, n, hn⟩ :=
    lookup_set (before ++ [Request.create uid id caption imgName] ++ between)
      (r := .publish uid id caption imgName profImg username) rfl honly ⟨0, rfl⟩
  have hread : ∀ k x, k ≠ "likes" → _ = some x → Doc.string d k = some x :=
    fun k x hk hx => (hstring k hk).trans hx
  refine ⟨d, n, hd, hn, hread _ _ (by decide) rfl, ?_⟩
  simp only [Social.prepare, Social.fetchSocialPost, feed, hn,
    hread "postImg" imgName (by decide) rfl, hread "caption" caption (by decide) rfl,
    hread "profImg" profImg (by decide) rfl, hread "username" username (by decide) rfl,
    hread "ID" id (by decide) rfl, hread "uid" uid (by decide) rfl]

/-- The author's copy, as it is listed. -/
theorem author_read {uid id caption imgName profImg username : String} {rs : List Request}
    (h : StoredPost uid id caption imgName profImg username rs) :
    ∃ e m, (contents rs).lookup (.post uid id) = some e ∧ Doc.number e "likes" = some m ∧
      postFeed.fetchData.item e =
        { postImg := some imgName, textCaption := some caption, likes := some m,
          time := some "1 day ago", pid := some id } := by
  obtain ⟨before, between, after, rfl, hposts, -⟩ := h
  have honly : ∀ r ∈ between ++ [Request.publish uid id caption imgName profImg username] ++
      after, OnlyLikes (.post uid id) r := by
    intro r hr hp
    simp only [List.append_assoc, List.mem_append, List.mem_singleton] at hr
    rcases hr with hr | rfl | hr
    · obtain ⟨tap, rfl⟩ := hposts r (List.mem_append_left after hr) hp
      exact ⟨tap.newNum, rfl⟩
    · simp [Request.path, Request.write, Write.path] at hp
    · obtain ⟨tap, rfl⟩ := hposts r (List.mem_append_right between hr) hp
      exact ⟨tap.newNum, rfl⟩
  obtain ⟨e, he, hstring, m, hm⟩ := lookup_set before
    (r := .create uid id caption imgName) rfl honly ⟨0, rfl⟩
  have hread : ∀ k x, k ≠ "likes" → _ = some x → Doc.string e k = some x :=
    fun k x hk hx => (hstring k hk).trans hx
  have htime := hread "timestamp" "1 day ago" (by decide) rfl
  refine ⟨e, m, ?_, hm, ?_⟩
  · simpa only [List.append_assoc] using he
  · simp only [postFeed.fetchData, feed, hm, htime,
      hread "postImg" imgName (by decide) rfl, hread "caption" caption (by decide) rfl,
      hread "ID" id (by decide) rfl]

/-- **A stored post is read back but for the public timestamp.**  Both copies are among the
documents that the two feeds list, the author's feed shows its copy, and what is handed over of
the public one has everything else. -/
theorem read_back_but_time {uid id caption imgName profImg username : String}
    {rs : List Request} (h : StoredPost uid id caption imgName profImg username rs) :
    ∃ d e n m, (contents rs).lookup (.social id) = some d ∧
      (contents rs).lookup (.post uid id) = some e ∧
      Social.fetchSocialPost.item d ∈ Social.fetchSocialPost.append []
        ((Social.fetchSocialPost.collection uid).documents (contents rs)) ∧
      postFeed.fetchData.item e ∈ postFeed.fetchData.append []
        ((postFeed.fetchData.collection uid).documents (contents rs)) ∧
      Doc.number d "likes" = some n ∧ Doc.number e "likes" = some m ∧
      Social.prepare (Social.fetchSocialPost.item d) =
        { imageName := some imgName, caption := some caption, timeStamp := none,
          numLikes := some n, userPic := some profImg, username := some username,
          id := some id, uID := some uid } ∧
      postFeed.fetchData.item e =
        { postImg := some imgName, textCaption := some caption, likes := some m,
          time := some "1 day ago", pid := some id } := by
  obtain ⟨d, n, hd, hn, -, hsocial⟩ := social_read h
  obtain ⟨e, m, he, hm, hauthor⟩ := author_read h
  refine ⟨d, e, n, m, hd, he, ?_, ?_, hn, hm, hsocial, hauthor⟩
  · rw [Loader.append_eq, List.nil_append, Loader.listOf]
    have hmem : d ∈ Collection.socialFeed.documents (contents rs) := mem_docsIn_of_lookup rfl hd
    exact List.mem_map_of_mem (List.mem_filter.mpr ⟨hmem, rfl⟩)
  · rw [Loader.append_eq, List.nil_append, Loader.listOf]
    have hmem : e ∈ (Collection.posts uid).documents (contents rs) :=
      mem_docsIn_of_lookup (by simp [Collection.holds]) he
    exact List.mem_map_of_mem (List.mem_filter.mpr ⟨hmem, rfl⟩)

/-- **No stored post is read back in full.**  Its copies are there, and the public one has a
timestamp, which nobody asks for. -/
theorem never_read_back {uid id caption imgName profImg username : String} {rs : List Request}
    (h : StoredPost uid id caption imgName profImg username rs) :
    ∃ d e, (contents rs).lookup (.social id) = some d ∧
      (contents rs).lookup (.post uid id) = some e ∧
      Doc.string d "timestamp" = some "1 day ago" ∧
      (Social.prepare (Social.fetchSocialPost.item d)).timeStamp = none ∧
      ¬ ReadsBack d e (Social.prepare (Social.fetchSocialPost.item d))
        (postFeed.fetchData.item e) := by
  obtain ⟨d, n, hd, -, htime, hsocial⟩ := social_read h
  obtain ⟨e, m, he, -⟩ := author_read h
  refine ⟨d, e, hd, he, htime, rfl, fun hR => ?_⟩
  have hnone := hR.social.timeStamp
  rw [htime, hsocial] at hnone
  exact absurd hnone (by simp)

/-- Amy's post, which Bob has liked. -/
def amysPost : List Request :=
  [.create "amy" "p" "caption" "img", .publish "amy" "p" "caption" "img" "" "amy",
    .countPost "amy" "p" ⟨0, false⟩, .countSocial "p" ⟨0, false⟩]

theorem never_read_back_amy :
    ∃ d e, (contents amysPost).lookup (.social "p") = some d ∧
      (contents amysPost).lookup (.post "amy" "p") = some e ∧
      Doc.string d "timestamp" = some "1 day ago" ∧
      (Social.prepare (Social.fetchSocialPost.item d)).timeStamp = none ∧
      ¬ ReadsBack d e (Social.prepare (Social.fetchSocialPost.item d))
        (postFeed.fetchData.item e) := by
  have hstored : StoredPost "amy" "p" "caption" "img" "" "amy" amysPost := by
    refine ⟨[], [], [.countPost "amy" "p" ⟨0, false⟩, .countSocial "p" ⟨0, false⟩], rfl, ?_, ?_⟩
    · simp [Request.path, Request.write, Write.path]
    · simp [Request.path, Request.write, Write.path]
  exact never_read_back hstored

/-- **The two readers do not agree on the timestamp.** -/
theorem timestamps_differ :
    ∃ d ∈ (contents amysPost).lookup (.social "p"),
      ∃ e ∈ (contents amysPost).lookup (.post "amy" "p"),
        Doc.string d "timestamp" = some "1 day ago" ∧
        (Social.prepare (Social.fetchSocialPost.item d)).timeStamp = none ∧
        (postFeed.fetchData.item e).time = some "1 day ago" ∧
        ¬ ReadsBack d e (Social.prepare (Social.fetchSocialPost.item d))
          (postFeed.fetchData.item e) := by
  obtain ⟨d, hd, e, he, hstored, hread, htime⟩ :
      ∃ d ∈ (contents amysPost).lookup (.social "p"),
        ∃ e ∈ (contents amysPost).lookup (.post "amy" "p"),
          Doc.string d "timestamp" = some "1 day ago" ∧
          (Social.prepare (Social.fetchSocialPost.item d)).timeStamp = none ∧
          (postFeed.fetchData.item e).time = some "1 day ago" := by
    decide +kernel
  refine ⟨d, hd, e, he, hstored, hread, htime, fun hR => ?_⟩
  have hagree := hR.social.timeStamp
  rw [hstored, hread] at hagree
  simp at hagree

end UTrend
