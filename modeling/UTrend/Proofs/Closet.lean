/-
What the closet form stores, and what the outfit generator makes of it.

The form can be filled in any order, and is emptied only when "Added" is confirmed.
`Filled` ties its parts to what has been pressed and picked: the type and the colours to
the button pressed last, the image to the pick made last, and the documents to the picks
they were made from.

A document of the closet therefore always has one of the three types, and an image name.
The three racks of the outfit generator ask for one type each, so between them they show
every document of the closet once.
-/
import Mathlib.Data.List.Flatten
import Mathlib.Data.List.Perm.Basic
import UTrend.Lib.Machine
import UTrend.Model.AddImage
import UTrend.Model.Phone

namespace UTrend

variable {Png : Type} {me : String} {placeholder : Png}

/-! ### What has been pressed and picked -/

namespace FormEvent

/-- The press of a button. -/
def press : TypeButton → FormEvent Png
  | .top => .topButtonPressed
  | .bottom => .bottomButtonPressed
  | .shoes => .shoesButtonPressed

/-- The button pressed last since an addition was confirmed. -/
def typeAfter (b : Option TypeButton) : FormEvent Png → Option TypeButton
  | .topButtonPressed => some .top
  | .bottomButtonPressed => some .bottom
  | .shoesButtonPressed => some .shoes
  | .okay => none
  | _ => b

def typeSince (es : List (FormEvent Png)) : Option TypeButton := es.foldl typeAfter none

/-- The image picked last. -/
def pickAfter (img : Option Png) : FormEvent Png → Option Png
  | .pick newImage => some newImage
  | _ => img

def lastPick (es : List (FormEvent Png)) : Option Png := es.foldl pickAfter none

/-- How many images have been picked. -/
def picks (es : List (FormEvent Png)) : Nat :=
  es.countP fun
    | .pick _ => true
    | _ => false

end FormEvent

theorem TypeButton.type_injective {a b : TypeButton} (h : a.type = b.type) : a = b := by
  cases a <;> cases b <;> first | rfl | exact absurd h (by decide)

theorem TypeButton.type_ne_empty (b : TypeButton) : b.type ≠ "" := by
  cases b <;> decide

namespace AddImage

theorem typePressed_clothingType (b : TypeButton) (s : AddImage Png) :
    (s.typePressed b).clothingType = some b.type := by
  cases b <;> rfl

theorem typePressed_imageView (b : TypeButton) (s : AddImage Png) :
    (s.typePressed b).imageView = s.imageView := by
  cases b <;> rfl

theorem typePressed_alert (b : TypeButton) (s : AddImage Png) :
    (s.typePressed b).alert = s.alert := by
  cases b <;> rfl

/-- The button that is pressed is the only one with the pressed colour. -/
theorem typePressed_colour (a b : TypeButton) (s : AddImage Png) :
    (s.typePressed b).colour a = .pressed ↔ b.type = a.type := by
  cases a <;> cases b <;>
    simp [typePressed, setColour, resetColors, colour, TypeButton.type]

theorem uploadType_eq_some {s : AddImage Png} {type : String} (h : s.uploadType = some type) :
    ∃ b : TypeButton, type = b.type ∧ s.clothingType = some b.type := by
  unfold uploadType at h
  split at h
  · rename_i htop
    exact ⟨.top, (Option.some.inj h).symm, htop⟩
  · split at h
    · rename_i hbottom
      exact ⟨.bottom, (Option.some.inj h).symm, hbottom⟩
    · split at h
      · rename_i hshoes
        exact ⟨.shoes, (Option.some.inj h).symm, hshoes⟩
      · simp at h

/-- What `addToCloset` does: it uploads an image that was picked with the type of a button,
or it raises the other alert, or it does nothing. -/
theorem addToCloset_cases [DecidableEq Png] (placeholder : Png) (me docId imgN : String)
    (s : AddImage Png) :
    (∃ b : TypeButton, placeholder ≠ s.imageView ∧ s.clothingType = some b.type ∧
      s.addToCloset placeholder me docId imgN = ({ s with alert := some .added },
        [.clothes me docId imgN b.type], [⟨.clothes me, imgN⟩])) ∨
    s.addToCloset placeholder me docId imgN = ({ s with alert := some .wait }, [], []) ∨
    s.addToCloset placeholder me docId imgN = (s, [], []) := by
  unfold addToCloset
  split
  · rename_i himage
    cases htype : s.uploadType with
    | none => exact Or.inr (Or.inl rfl)
    | some type =>
        obtain ⟨b, rfl, hb⟩ := uploadType_eq_some htype
        exact Or.inl ⟨b, himage, hb, rfl⟩
  · exact Or.inr (Or.inr rfl)

end AddImage

/-- **What the form uploads is what a phone does when it adds to the closet.** -/
theorem AddImage.addToCloset_act [DecidableEq Png] {docId imgN : String} {s s' : AddImage Png}
    {rs : List Request} {refs : List StorageRef} (hne : rs ≠ [])
    (h : s.addToCloset placeholder me docId imgN = (s', rs, refs)) (p : Phone) :
    ∃ type, Act.run me p (.addToCloset docId imgN type) =
      some ({ p with uploads := p.uploads ++ refs }, rs) := by
  rcases s.addToCloset_cases placeholder me docId imgN with
    ⟨b, -, -, hadd⟩ | hadd | hadd
  · obtain ⟨-, rfl, rfl⟩ := hadd.symm.trans h
    exact ⟨b.type, rfl⟩
  · obtain ⟨-, rfl, -⟩ := hadd.symm.trans h
    exact absurd rfl hne
  · obtain ⟨-, rfl, -⟩ := hadd.symm.trans h
    exact absurd rfl hne

/-! ### One event -/

variable [DecidableEq Png] {s s' : Closet Png}

namespace Closet

/-- An event that is not the button of an alert needs that none is up. -/
theorem step_free {e : FormEvent Png} (hokay : e ≠ .okay) (hok : e ≠ .ok)
    (h : s.step placeholder me e = some s') :
    s.form.alert = none ∧ s' = s.handle placeholder me e := by
  have hstep : s.step placeholder me e =
      if s.form.alert = none then some (s.handle placeholder me e) else none := by
    cases e with
    | okay => exact absurd rfl hokay
    | ok => exact absurd rfl hok
    | _ => rfl
  rw [hstep] at h
  split at h
  · rename_i halert
    exact ⟨halert, (Option.some.inj h).symm⟩
  · simp at h

/-- What an event can do to the closet. -/
inductive Effect (me : String) (placeholder : Png) (s : Closet Png) :
    FormEvent Png → Closet Png → Prop
  /-- "Added" is confirmed, and the form is emptied -/
  | okay (halert : s.form.alert = some .added) :
      Effect me placeholder s .okay { s with form := s.form.okay placeholder }
  /-- "Wait!" is confirmed -/
  | ok (halert : s.form.alert = some .wait) :
      Effect me placeholder s .ok { s with form := s.form.ok }
  | pick (halert : s.form.alert = none) (newImage : Png) :
      Effect me placeholder s (.pick newImage)
        { s with form := s.form.imagePickerController newImage, picks := s.picks + 1 }
  /-- a type is chosen -/
  | press (halert : s.form.alert = none) (b : TypeButton) :
      Effect me placeholder s (.press b) { s with form := s.form.typePressed b }
  /-- the image is uploaded, and the document is written -/
  | add (halert : s.form.alert = none) (himage : placeholder ≠ s.form.imageView)
      (docId imgN : String) (b : TypeButton) (htype : s.form.clothingType = some b.type) :
      Effect me placeholder s (.addToCloset docId imgN) { s with
        form := { s.form with alert := some .added }
        written := s.written ++ [(s.picks, .clothes me docId imgN b.type)] }
  /-- there is no type -/
  | wait (halert : s.form.alert = none) (docId imgN : String) :
      Effect me placeholder s (.addToCloset docId imgN)
        { s with form := { s.form with alert := some .wait } }
  /-- there is no image -/
  | noImage (docId imgN : String) : Effect me placeholder s (.addToCloset docId imgN) s
  | cancel : Effect me placeholder s .cancel s

theorem effect_step {e : FormEvent Png} (h : s.step placeholder me e = some s') :
    Effect me placeholder s e s' := by
  cases e with
  | okay =>
      simp only [step] at h
      split at h
      · rename_i halert
        obtain rfl := (Option.some.inj h).symm
        exact .okay halert
      · simp at h
  | ok =>
      simp only [step] at h
      split at h
      · rename_i halert
        obtain rfl := (Option.some.inj h).symm
        exact .ok halert
      · simp at h
  | pick newImage =>
      obtain ⟨halert, rfl⟩ := step_free (by simp) (by simp) h
      exact .pick halert newImage
  | cancel =>
      obtain ⟨-, rfl⟩ := step_free (by simp) (by simp) h
      exact .cancel
  | topButtonPressed =>
      obtain ⟨halert, rfl⟩ := step_free (by simp) (by simp) h
      exact .press halert .top
  | bottomButtonPressed =>
      obtain ⟨halert, rfl⟩ := step_free (by simp) (by simp) h
      exact .press halert .bottom
  | shoesButtonPressed =>
      obtain ⟨halert, rfl⟩ := step_free (by simp) (by simp) h
      exact .press halert .shoes
  | addToCloset docId imgN =>
      obtain ⟨halert, hs'⟩ := step_free (by simp) (by simp) h
      simp only [handle] at hs'
      rcases s.form.addToCloset_cases placeholder me docId imgN with
        ⟨b, himage, htype, hadd⟩ | hadd | hadd
      · rw [hadd] at hs'
        rw [hs']
        exact .add halert himage docId imgN b htype
      · rw [hadd] at hs'
        simp only [List.map_nil, List.append_nil] at hs'
        rw [hs']
        exact .wait halert docId imgN
      · rw [hadd] at hs'
        simp only [List.map_nil, List.append_nil] at hs'
        rw [hs']
        exact .noImage docId imgN

/-- What the form shows and what the closet holds, after some events. -/
structure Filled (placeholder : Png) (es : List (FormEvent Png)) (s : Closet Png) : Prop where
  type : ∀ b : TypeButton, s.form.clothingType = some b.type ↔ FormEvent.typeSince es = some b
  colour : ∀ b, s.form.colour b = .pressed ↔ s.form.clothingType = some b.type
  image : placeholder ≠ s.form.imageView → FormEvent.lastPick es = some s.form.imageView
  picks : placeholder ≠ s.form.imageView → 1 ≤ s.picks
  number : s.picks = FormEvent.picks es
  bound : ∀ k ∈ s.written.map Prod.fst, 1 ≤ k ∧ k ≤ s.picks
  nodup : (s.written.map Prod.fst).Nodup
  unused : s.form.alert ≠ some .added → placeholder ≠ s.form.imageView →
    s.picks ∉ s.written.map Prod.fst

/-- **Every event keeps the form in order.** -/
theorem filled_step {past : List (FormEvent Png)} {e : FormEvent Png}
    (hF : Filled placeholder past s) (h : s.step placeholder me e = some s') :
    Filled placeholder (past ++ [e]) s' := by
  have htype : FormEvent.typeSince (past ++ [e]) =
      FormEvent.typeAfter (FormEvent.typeSince past) e := List.foldl_concat ..
  have hpick : FormEvent.lastPick (past ++ [e]) =
      FormEvent.pickAfter (FormEvent.lastPick past) e := List.foldl_concat ..
  have hnumber : FormEvent.picks (past ++ [e]) = s.picks + FormEvent.picks [e] := by
    rw [hF.number]
    exact List.countP_append
  cases effect_step h with
  | okay halert =>
      refine ⟨fun b => ?_, fun b => ?_, ?_, ?_, hnumber.symm, hF.bound, hF.nodup, ?_⟩
      · rw [htype]
        simpa [AddImage.okay, FormEvent.typeAfter] using b.type_ne_empty.symm
      · have hne := b.type_ne_empty.symm
        cases b <;> simpa [AddImage.okay, AddImage.resetColors, AddImage.colour] using hne
      · exact fun himage => absurd rfl himage
      · exact fun himage => absurd rfl himage
      · exact fun _ himage => absurd rfl himage
  | ok halert =>
      have hunused := hF.unused (by simp [halert])
      exact ⟨fun b => htype ▸ hF.type b, hF.colour, fun himage => hpick ▸ hF.image himage,
        hF.picks, hnumber.symm, hF.bound, hF.nodup, fun _ => hunused⟩
  | pick halert newImage =>
      refine ⟨fun b => htype ▸ hF.type b, hF.colour, fun _ => hpick, ?_, hnumber.symm, ?_,
        hF.nodup, ?_⟩
      · exact fun _ => Nat.le_add_left 1 s.picks
      · exact fun k hk => ⟨(hF.bound k hk).1, Nat.le_succ_of_le (hF.bound k hk).2⟩
      · exact fun _ _ hmem => absurd (hF.bound _ hmem).2 (Nat.not_succ_le_self s.picks)
  | press halert b =>
      have hafter : FormEvent.typeAfter (FormEvent.typeSince past) (.press b : FormEvent Png) =
          some b := by
        cases b <;> rfl
      have hsame : FormEvent.pickAfter (FormEvent.lastPick past) (.press b) =
          FormEvent.lastPick past := by
        cases b <;> rfl
      have hnone : FormEvent.picks [(.press b : FormEvent Png)] = 0 := by
        cases b <;> rfl
      rw [hnone] at hnumber
      refine ⟨fun a => ?_, fun a => ?_, ?_, ?_, hnumber.symm, hF.bound, hF.nodup, ?_⟩
      · rw [htype, hafter, AddImage.typePressed_clothingType, Option.some.injEq,
          Option.some.injEq]
        exact ⟨TypeButton.type_injective, congrArg _⟩
      · rw [AddImage.typePressed_colour, AddImage.typePressed_clothingType, Option.some.injEq]
      · rw [hpick, hsame, AddImage.typePressed_imageView]
        exact hF.image
      · rw [AddImage.typePressed_imageView]
        exact hF.picks
      · rw [AddImage.typePressed_imageView, AddImage.typePressed_alert]
        exact hF.unused
  | add halert himage docId imgN b hb =>
      have hunused := hF.unused (by simp [halert]) himage
      refine ⟨fun a => htype ▸ hF.type a, hF.colour, fun h => hpick ▸ hF.image h, hF.picks,
        hnumber.symm, ?_, ?_, fun hne => absurd rfl hne⟩
      · intro k hk
        rw [List.map_append, List.mem_append] at hk
        rcases hk with hk | hk
        · exact hF.bound k hk
        · obtain rfl := List.mem_singleton.mp hk
          exact ⟨hF.picks himage, le_rfl⟩
      · rw [List.map_append, List.nodup_append]
        refine ⟨hF.nodup, List.nodup_singleton _, fun k hk j hj => ?_⟩
        obtain rfl := List.mem_singleton.mp hj
        exact fun (hkj : k = s.picks) => hunused (hkj ▸ hk)
  | wait halert docId imgN =>
      have hunused := hF.unused (by simp [halert])
      exact ⟨fun b => htype ▸ hF.type b, hF.colour, fun himage => hpick ▸ hF.image himage,
        hF.picks, hnumber.symm, hF.bound, hF.nodup, fun _ => hunused⟩
  | noImage docId imgN =>
      exact ⟨fun b => htype ▸ hF.type b, hF.colour, fun himage => hpick ▸ hF.image himage,
        hF.picks, hnumber.symm, hF.bound, hF.nodup, hF.unused⟩
  | cancel =>
      exact ⟨fun b => htype ▸ hF.type b, hF.colour, fun himage => hpick ▸ hF.image himage,
        hF.picks, hnumber.symm, hF.bound, hF.nodup, hF.unused⟩

omit [DecidableEq Png] in
theorem filled_init : Filled placeholder [] (init placeholder) where
  type b := by simp [init, FormEvent.typeSince]
  colour b := by cases b <;> simp [init, AddImage.colour]
  image h := absurd rfl h
  picks h := absurd rfl h
  number := rfl
  bound k hk := by simp [init] at hk
  nodup := List.nodup_nil
  unused _ _ := by simp [init]

theorem filled_run {es : List (FormEvent Png)}
    (hrun : Machine.run (step placeholder me) (init placeholder) es = some s) :
    Filled placeholder es s :=
  Machine.history_run_all (I := Filled placeholder) (fun _ _ _ _ hF h => filled_step hF h)
    filled_init hrun

/-- **Each document of the closet is written by a press of `addToCloset` while the image
picked last is shown, with the type pressed last since an addition was confirmed.  No two
documents come from one pick, and a button has the pressed colour exactly when it is the one
that is chosen.** -/
theorem each_pick_stored_once {es : List (FormEvent Png)}
    (hrun : Machine.run (step placeholder me) (init placeholder) es = some s) :
    (∀ e s', s.step placeholder me e = some s' → s'.written ≠ s.written →
      ∃ docId imgN b img, e = .addToCloset docId imgN ∧ s.form.imageView = img ∧
        placeholder ≠ img ∧ FormEvent.lastPick es = some img ∧
        FormEvent.typeSince es = some b ∧
        s'.written = s.written ++
          [(FormEvent.picks es, .clothes me docId imgN (TypeButton.type b))]) ∧
      (s.written.map Prod.fst).Nodup ∧
      (∀ k ∈ s.written.map Prod.fst, 1 ≤ k ∧ k ≤ FormEvent.picks es) ∧
      ∀ b, s.form.colour b = .pressed ↔ s.form.clothingType = some b.type := by
  have hF := filled_run hrun
  refine ⟨fun e s' h hne => ?_, hF.nodup, fun k hk => hF.number ▸ hF.bound k hk, hF.colour⟩
  cases effect_step h with
  | add halert himage docId imgN b htype =>
      exact ⟨docId, imgN, b, s.form.imageView, rfl, rfl, himage, hF.image himage,
        (hF.type b).mp htype, by rw [hF.number]⟩
  | _ => exact absurd rfl hne

/-- Two pieces of clothing, after a press without an image and one without a type. -/
def twoItems : List (FormEvent Nat) :=
  [.topButtonPressed, .addToCloset "a" "x", .pick 1, .addToCloset "b" "y", .okay, .pick 2,
    .cancel, .addToCloset "c" "z", .ok, .bottomButtonPressed, .shoesButtonPressed,
    .addToCloset "d" "w", .okay]

theorem each_pick_stored_once_two :
    ∃ s, Machine.run (step 0 "amy") (init 0) twoItems = some s ∧
      s.requests = [.clothes "amy" "b" "y" "top", .clothes "amy" "d" "w" "shoes"] ∧
      (s.written.map Prod.fst).Nodup ∧
      ∀ b, s.form.colour b = .pressed ↔ s.form.clothingType = some b.type := by
  obtain ⟨s, hs, hrequests⟩ : ∃ s, Machine.run (step 0 "amy") (init 0) twoItems = some s ∧
      s.requests = [.clothes "amy" "b" "y" "top", .clothes "amy" "d" "w" "shoes"] := by
    decide +kernel
  obtain ⟨-, hnodup, -, hcolour⟩ := each_pick_stored_once hs
  exact ⟨s, hs, hrequests, hnodup, hcolour⟩

end Closet

/-! ### The racks -/

open List in
/-- **Predicates of which exactly one holds of each element cut a list into parts that make it
up.** -/
theorem flatMap_filter_perm {α : Type*} {ps : List (α → Bool)} : ∀ {l : List α},
    (∀ x ∈ l, ps.countP (fun p => p x) = 1) → (ps.flatMap fun p => l.filter p).Perm l := by
  intro l
  induction l with
  | nil => intro _; simp
  | cons x l ih =>
      intro hone
      have hx : ps.flatMap (fun p => [x].filter p) = [x] := by
        have hcount : ∀ qs : List (α → Bool),
            qs.flatMap (fun p => [x].filter p) = List.replicate (qs.countP fun p => p x) x := by
          intro qs
          induction qs with
          | nil => rfl
          | cons q qs ihq =>
              rw [List.flatMap_cons, ihq, List.countP_cons]
              cases hq : q x <;> simp [hq, List.replicate_succ]
        rw [hcount, hone x (by simp)]
        rfl
      calc (ps.flatMap fun p => (x :: l).filter p)
          = ps.flatMap fun p => [x].filter p ++ l.filter p := by
            congr 1
            funext p
            rw [← List.filter_append, List.singleton_append]
        _ ~ ps.flatMap (fun p => [x].filter p) ++ ps.flatMap fun p => l.filter p :=
            (List.flatMap_append_perm ps _ _).symm
        _ = x :: ps.flatMap fun p => l.filter p := by rw [hx, List.singleton_append]
        _ ~ x :: l := (ih fun y hy => hone y (by simp [hy])).cons x

/-- A document of a closet: a name and one of the three types. -/
def IsClothes (d : Doc) : Prop :=
  (∃ imgN, Doc.string d "imgName" = some imgN) ∧
    ∃ b : TypeButton, Doc.string d "type" = some b.type

/-- The three loaders of the outfit generator. -/
def racks : List (Loader ClothingItem) :=
  [TopCell.fetchTops, BottomCell.fetchBottoms, ShoeCell.fetchShoes]

/-- A piece of clothing is kept by one rack. -/
theorem IsClothes.one_rack {d : Doc} (h : IsClothes d) : racks.countP (fun L => L.keeps d) = 1 := by
  obtain ⟨-, b, hb⟩ := h
  cases b <;>
    simp [racks, TopCell.fetchTops, BottomCell.fetchBottoms, ShoeCell.fetchShoes, rack, hb,
      TypeButton.type]

theorem rack_names {L : Loader ClothingItem} (hL : L ∈ racks) (snap : List Doc) :
    (L.listOf snap).map ClothingItem.uploadedImg =
      (snap.filter L.keeps).map fun d => Doc.string d "imgName" := by
  simp only [racks, List.mem_cons, List.not_mem_nil, or_false] at hL
  rcases hL with rfl | rfl | rfl
  all_goals
    rw [Loader.listOf, List.map_map]
    rfl

theorem wardrobe_names (snap : List Doc) :
    (wardrobeFeed.fetchData.listOf snap).map ClothingItem.uploadedImg =
      snap.map fun d => Doc.string d "imgName" := by
  have hall : snap.filter wardrobeFeed.fetchData.keeps = snap :=
    List.filter_eq_self.mpr fun _ _ => rfl
  rw [Loader.listOf, hall, List.map_map]
  rfl

/-- What the racks show of a row of clothes, and what the wardrobe shows. -/
theorem racks_perm {snap : List Doc} (h : ∀ d ∈ snap, IsClothes d) :
    (racks.flatMap fun L => (L.listOf snap).map ClothingItem.uploadedImg).Perm
      ((wardrobeFeed.fetchData.listOf snap).map ClothingItem.uploadedImg) := by
  have hparts : ((racks.map Loader.keeps).flatMap fun p => snap.filter p).Perm snap := by
    refine flatMap_filter_perm fun d hd => ?_
    rw [List.countP_map]
    exact (h d hd).one_rack
  have hnames := hparts.map fun d => Doc.string d "imgName"
  rw [List.map_flatMap, List.flatMap_map] at hnames
  rw [wardrobe_names, List.flatMap_congr fun L hL => rack_names hL snap]
  exact hnames

namespace Closet

/-- **The documents of a closet have a name and one of the three types.** -/
theorem isClothes_of_requests {rs : List Request}
    (h : ∀ r ∈ rs, ∃ docId imgN b, r = .clothes me docId imgN (TypeButton.type b))
    {d : Doc} (hd : d ∈ (Collection.clothes me).documents (contents rs)) : IsClothes d := by
  obtain ⟨p, -, hlookup⟩ := DocStore.mem_docsIn hd
  have hI : (∀ r ∈ rs, ∃ docId imgN b, r = .clothes me docId imgN (TypeButton.type b)) →
      ∀ x, (contents rs).lookup p = some x → IsClothes x := by
    refine contents_induction (p := p)
      (I := fun rs d => (∀ r ∈ rs, ∃ docId imgN b, r = .clothes me docId imgN
        (TypeButton.type b)) → ∀ x, d = some x → IsClothes x) ?_ ?_ ?_ rs
    · simp
    · intro rs r d ih _ hall
      exact ih fun x hx => hall x (by simp [hx])
    · intro rs r d _ _ hall x hx
      obtain ⟨docId, imgN, b, rfl⟩ := hall r (by simp)
      obtain rfl := Option.some.inj hx
      exact ⟨⟨imgN, rfl⟩, b, rfl⟩
  exact hI h d hlookup

/-- The closet has been written by the form alone. -/
theorem requests_run {es : List (FormEvent Png)} {s s' : Closet Png}
    (hrun : Machine.run (step placeholder me) s es = some s')
    (hs : ∀ r ∈ s.requests, ∃ docId imgN b, r = .clothes me docId imgN (TypeButton.type b)) :
    ∀ r ∈ s'.requests, ∃ docId imgN b, r = .clothes me docId imgN (TypeButton.type b) := by
  refine Machine.invariant_run_all (I := fun t : Closet Png => ∀ r ∈ t.requests,
    ∃ docId imgN b, r = .clothes me docId imgN (TypeButton.type b)) ?_ hs hrun
  intro t e t' ht hstep
  cases effect_step hstep with
  | add halert himage docId imgN b htype =>
      intro r hr
      simp only [requests, List.map_append, List.mem_append, List.map_cons, List.map_nil,
        List.mem_singleton] at hr
      rcases hr with hr | rfl
      · exact ht r hr
      · exact ⟨docId, imgN, b, rfl⟩
  | _ => exact ht

end Closet

end UTrend
