/-
A store of documents, each a map from field names to values.

Three writes change it.  `set` puts a document in place of whatever was there,
`merge` adds its fields to the document and creates it when it is missing, and
`delete` removes it.  A write touches one document, so what it does is a function
of that document alone: `Write.result`.  `lookup_apply` is the only fact about
`apply` that later proofs use, and `lookup_replay_concat` is its form for a store
that is the outcome of a list of writes.

The store is an `AList`, so that a collection can be listed and counted.
-/
import Mathlib.Data.List.AList
import Mathlib.Data.List.Induction

namespace DocStore

variable {κ φ ν : Type*} [DecidableEq κ]

/-- A document: the value of each field it has. -/
abbrev Doc (φ ν : Type*) := φ → Option ν

/-- The documents that exist, each under its path. -/
abbrev Store (κ φ ν : Type*) := AList fun _ : κ => Doc φ ν

@[simp] theorem mem_iff_isSome {s : Store κ φ ν} {p : κ} : (s.lookup p).isSome ↔ p ∈ s :=
  AList.lookup_isSome

theorem exists_lookup_of_mem {s : Store κ φ ν} {p : κ} (h : p ∈ s) :
    ∃ d, s.lookup p = some d :=
  Option.isSome_iff_exists.mp (mem_iff_isSome.mpr h)

theorem mem_of_lookup {s : Store κ φ ν} {p : κ} {d : Doc φ ν} (h : s.lookup p = some d) :
    p ∈ s :=
  mem_iff_isSome.mp (by rw [h]; rfl)

/-! ### Listing and counting a collection -/

/-- The documents whose path satisfies `q`. -/
def docsIn (q : κ → Bool) (s : Store κ φ ν) : List (Doc φ ν) :=
  s.entries.filterMap fun e => if q e.1 then some e.2 else none

theorem mem_docsIn {q : κ → Bool} {s : Store κ φ ν} {d : Doc φ ν} (h : d ∈ docsIn q s) :
    ∃ p, q p = true ∧ s.lookup p = some d := by
  obtain ⟨⟨p, d'⟩, hmem, hd⟩ := List.mem_filterMap.mp h
  by_cases hq : q p = true
  · simp only [hq, if_true, Option.some.injEq] at hd
    exact ⟨p, hq, hd ▸ AList.mem_lookup_iff.mpr hmem⟩
  · simp [hq] at hd

theorem mem_docsIn_of_lookup {q : κ → Bool} {s : Store κ φ ν} {p : κ} {d : Doc φ ν}
    (hq : q p = true) (h : s.lookup p = some d) : d ∈ docsIn q s :=
  List.mem_filterMap.mpr ⟨⟨p, d⟩, AList.mem_lookup_iff.mp h, by simp [hq]⟩

/-- **What tells the documents of a collection apart is listed once each.**  `f` reads it off
a document, and `path` is where the document with it must be. -/
theorem nodup_filterMap_docsIn {α : Type*} {q : κ → Bool} {s : Store κ φ ν}
    {f : Doc φ ν → Option α} {path : α → κ}
    (h : ∀ p d, q p = true → s.lookup p = some d → ∀ a, f d = some a → path a = p) :
    ((docsIn q s).filterMap f).Nodup := by
  have hpath : ∀ e ∈ s.entries, ∀ a,
      ((if q e.1 then some e.2 else none).bind f) = some a → path a = e.1 := by
    intro e he a ha
    by_cases hq : q e.1 = true
    · rw [if_pos hq, Option.bind_some] at ha
      exact h e.1 e.2 hq (AList.mem_lookup_iff.mpr he) a ha
    · simp [hq] at ha
  rw [docsIn, List.filterMap_filterMap]
  refine List.pairwise_filterMap.mpr (s.nodupKeys.pairwise_ne.imp_of_mem ?_)
  rintro e e' he he' hne a ha a' ha' rfl
  exact hne ((hpath e he a ha).symm.trans (hpath e' he' a ha'))

/-- How many documents have a path that satisfies `q`. -/
def count (q : κ → Bool) (s : Store κ φ ν) : Nat := s.keys.countP q

theorem count_insert_of_notMem {q : κ → Bool} {s : Store κ φ ν} {p : κ} (h : p ∉ s)
    (d : Doc φ ν) : count q (s.insert p d) = count q s + if q p then 1 else 0 := by
  have hkeys : s.keys.erase p = s.keys := List.erase_of_not_mem h
  rw [count, AList.keys_insert, hkeys, List.countP_cons]
  rfl

theorem count_erase_of_mem {q : κ → Bool} {s : Store κ φ ν} {p : κ} (h : p ∈ s) :
    count q (s.erase p) + (if q p then 1 else 0) = count q s := by
  have hperm : s.keys.countP q = (p :: s.keys.erase p).countP q :=
    (List.perm_cons_erase (AList.mem_keys.mp h)).countP_eq q
  rw [count, count, AList.keys_erase, hperm, List.countP_cons]

theorem count_insert_of_mem {q : κ → Bool} {s : Store κ φ ν} {p : κ} (h : p ∈ s)
    (d : Doc φ ν) : count q (s.insert p d) = count q s := by
  have herase := count_erase_of_mem (q := q) h
  rw [count, AList.keys_erase] at herase
  rw [count, AList.keys_insert, List.countP_cons]
  exact herase

/-! ### Writes -/

variable [DecidableEq φ]

/-- The document with no fields. -/
def Doc.empty : Doc φ ν := fun _ => none

/-- The document with the given fields written over it. -/
def Doc.update (d : Doc φ ν) (fields : List (φ × ν)) : Doc φ ν :=
  fun k => (fields.lookup k).or (d k)

omit [DecidableEq κ] in
/-- Which fields a document has after fields have been written over it. -/
theorem Doc.isSome_update (d : Doc φ ν) (fields : List (φ × ν)) (k : φ) :
    (d.update fields k).isSome ↔ k ∈ fields.map Prod.fst ∨ (d k).isSome := by
  rw [Doc.update, Option.isSome_or, Bool.or_eq_true, List.lookup_isSome_iff]
  refine or_congr_left ⟨?_, ?_⟩
  · rintro ⟨x, hx, hk⟩
    exact List.mem_map.mpr ⟨x, hx, (beq_iff_eq.mp hk).symm⟩
  · intro hk
    obtain ⟨x, hx, rfl⟩ := List.mem_map.mp hk
    exact ⟨x, hx, beq_self_eq_true _⟩

omit [DecidableEq κ] in
/-- What a field holds afterwards was written, or was there. -/
theorem Doc.update_eq_some {d : Doc φ ν} {fields : List (φ × ν)} {k : φ} {v : ν}
    (h : d.update fields k = some v) : (k, v) ∈ fields ∨ d k = some v := by
  rw [Doc.update, Option.or_eq_some_iff] at h
  refine h.imp (fun hk => ?_) And.right
  obtain ⟨l, m, rfl, -⟩ := List.lookup_eq_some_iff.mp hk
  simp

/-- One write to one document. -/
inductive Write (κ φ ν : Type*)
  /-- Replace the document. -/
  | set (path : κ) (fields : List (φ × ν))
  /-- Write over the document's fields, creating it if it is missing. -/
  | merge (path : κ) (fields : List (φ × ν))
  /-- Remove the document. -/
  | delete (path : κ)
deriving DecidableEq, Repr

/-- The document a write is about. -/
def Write.path : Write κ φ ν → κ
  | .set p _ | .merge p _ | .delete p => p

def Write.apply (s : Store κ φ ν) : Write κ φ ν → Store κ φ ν
  | .set p fields => s.insert p (Doc.empty.update fields)
  | .merge p fields => s.insert p (((s.lookup p).getD Doc.empty).update fields)
  | .delete p => s.erase p

/-- What a write leaves of its document. -/
def Write.result (old : Option (Doc φ ν)) : Write κ φ ν → Option (Doc φ ν)
  | .set _ fields => some (Doc.empty.update fields)
  | .merge _ fields => some ((old.getD Doc.empty).update fields)
  | .delete _ => none

/-- **A write changes its own document and no other.** -/
theorem lookup_apply (w : Write κ φ ν) (s : Store κ φ ν) (p : κ) :
    (w.apply s).lookup p = if w.path = p then w.result (s.lookup p) else s.lookup p := by
  by_cases h : w.path = p
  · subst h
    cases w <;> simp [Write.apply, Write.result, Write.path]
  · rw [if_neg h]
    cases w with
    | set q fields => exact AList.lookup_insert_ne fun hc => h hc.symm
    | merge q fields => exact AList.lookup_insert_ne fun hc => h hc.symm
    | delete q => exact AList.lookup_erase_ne fun hc => h hc.symm

/-- The write removes its document. -/
def Write.deletes : Write κ φ ν → Bool
  | .delete _ => true
  | _ => false

/-- After a write its document exists, unless the write removed it. -/
theorem mem_apply (w : Write κ φ ν) (s : Store κ φ ν) (p : κ) :
    p ∈ w.apply s ↔ if w.path = p then w.deletes = false else p ∈ s := by
  rw [← mem_iff_isSome, lookup_apply]
  by_cases h : w.path = p
  · rw [if_pos h, if_pos h]
    cases w <;> simp [Write.result, Write.deletes]
  · rw [if_neg h, if_neg h, mem_iff_isSome]

/-! ### What a write leaves alone -/

/-- A field of a document, if the document exists and has it. -/
def field (s : Store κ φ ν) (p : κ) (k : φ) : Option ν := (s.lookup p).bind fun d => d k

/-- The write is about another document, or merges other fields into this one. -/
def Write.Spares (p : κ) (k : φ) : Write κ φ ν → Prop
  | .merge q fields => q = p → fields.lookup k = none
  | .set q _ | .delete q => q ≠ p

omit [DecidableEq κ] in
theorem Write.spares_of_ne {w : Write κ φ ν} {p : κ} {k : φ} (h : w.path ≠ p) :
    w.Spares p k := by
  cases w with
  | set q fields | delete q => exact h
  | merge q fields => exact fun hq => absurd hq h

theorem field_apply {w : Write κ φ ν} {p : κ} {k : φ} (h : w.Spares p k) (s : Store κ φ ν) :
    field (w.apply s) p k = field s p k := by
  rw [field, lookup_apply, field]
  by_cases hp : w.path = p
  · rw [if_pos hp]
    cases w with
    | set q fields => exact absurd hp h
    | delete q => exact absurd hp h
    | merge q fields =>
        have hk : fields.lookup k = none := h hp
        cases s.lookup p <;> simp [Write.result, Doc.update, Doc.empty, hk]
  · rw [if_neg hp]

/-- **Writes that spare a field leave it as it is.** -/
theorem field_foldl_apply {ws : List (Write κ φ ν)} {p : κ} {k : φ}
    (h : ∀ w ∈ ws, w.Spares p k) : ∀ s : Store κ φ ν,
      field (ws.foldl Write.apply s) p k = field s p k := by
  induction ws with
  | nil => intro s; rfl
  | cons w ws ih =>
      intro s
      rw [List.foldl_cons, ih fun v hv => h v (by simp [hv]), field_apply (h w (by simp))]

/-- **Writes to other documents leave a document as it is.** -/
theorem lookup_foldl_apply {ws : List (Write κ φ ν)} {p : κ} (h : ∀ w ∈ ws, w.path ≠ p) :
    ∀ s : Store κ φ ν, (ws.foldl Write.apply s).lookup p = s.lookup p := by
  induction ws with
  | nil => intro s; rfl
  | cons w ws ih =>
      intro s
      rw [List.foldl_cons, ih fun v hv => h v (by simp [hv]), lookup_apply,
        if_neg (h w (by simp))]

/-! ### The outcome of a list of writes -/

/-- The store after the writes, in order, from nothing. -/
def replay (ws : List (Write κ φ ν)) : Store κ φ ν := ws.foldl Write.apply ∅

theorem replay_append (ws vs : List (Write κ φ ν)) :
    replay (ws ++ vs) = vs.foldl Write.apply (replay ws) := List.foldl_append

theorem replay_concat (ws : List (Write κ φ ν)) (w : Write κ φ ν) :
    replay (ws ++ [w]) = w.apply (replay ws) := replay_append ws [w]

theorem lookup_replay_concat (ws : List (Write κ φ ν)) (w : Write κ φ ν) (p : κ) :
    (replay (ws ++ [w])).lookup p =
      if w.path = p then w.result ((replay ws).lookup p) else (replay ws).lookup p := by
  rw [replay_concat, lookup_apply]

/-- **What every write keeps of a document holds of every document.** -/
theorem lookup_invariant {I : κ → Doc φ ν → Prop} {ws : List (Write κ φ ν)}
    (h : ∀ w ∈ ws, ∀ old, (∀ d, old = some d → I w.path d) →
      ∀ d, w.result old = some d → I w.path d) :
    ∀ {p : κ} {d : Doc φ ν}, (replay ws).lookup p = some d → I p d := by
  induction ws using List.reverseRecOn with
  | nil => simp [replay]
  | append_singleton ws w ih =>
      intro p d hd
      have hold := fun {q e} => ih (fun v hv => h v (by simp [hv])) (p := q) (d := e)
      rw [lookup_replay_concat] at hd
      by_cases hp : w.path = p
      · subst hp
        rw [if_pos rfl] at hd
        exact h w (by simp) _ (fun e he => hold he) d hd
      · rw [if_neg hp] at hd
        exact hold hd

/-- **Where no two writes are to one document, each document is what its write leaves of
nothing.** -/
theorem lookup_replay_of_nodup {ws : List (Write κ φ ν)} (hnodup : (ws.map Write.path).Nodup)
    {p : κ} {d : Doc φ ν} : (replay ws).lookup p = some d ↔
      ∃ w ∈ ws, w.path = p ∧ w.result none = some d := by
  induction ws using List.reverseRecOn with
  | nil => simp [replay]
  | append_singleton ws w ih =>
      rw [List.map_append, List.nodup_append] at hnodup
      obtain ⟨hws, -, hdisjoint⟩ := hnodup
      have hne : ∀ v ∈ ws, v.path ≠ w.path := fun v hv =>
        hdisjoint _ (List.mem_map_of_mem hv) _ (by simp)
      rw [lookup_replay_concat]
      by_cases hp : w.path = p
      · have hnone : (replay ws).lookup p = none := by
          rw [replay, lookup_foldl_apply fun v hv => hp ▸ hne v hv, AList.lookup_empty]
        rw [if_pos hp, hnone]
        constructor
        · exact fun hd => ⟨w, by simp, hp, hd⟩
        · rintro ⟨v, hv, hvp, hd⟩
          rcases List.mem_append.mp hv with hv | hv
          · exact absurd (hvp.trans hp.symm) (hne v hv)
          · exact List.mem_singleton.mp hv ▸ hd
      · rw [if_neg hp, ih hws]
        constructor
        · rintro ⟨v, hv, hd⟩
          exact ⟨v, by simp [hv], hd⟩
        · rintro ⟨v, hv, hvp, hd⟩
          rcases List.mem_append.mp hv with hv | hv
          · exact ⟨v, hv, hvp, hd⟩
          · exact absurd (List.mem_singleton.mp hv ▸ hvp) hp

/-! ### Leaving writes out -/

/-- What a write leaves of a document depends on that document alone. -/
theorem lookup_apply_congr {s t : Store κ φ ν} {p : κ} (h : s.lookup p = t.lookup p)
    (w : Write κ φ ν) : (w.apply s).lookup p = (w.apply t).lookup p := by
  rw [lookup_apply, lookup_apply, h]

/-- What a write leaves of a field depends on that field alone. -/
theorem field_apply_congr {s t : Store κ φ ν} {p : κ} {k : φ} (h : field s p k = field t p k)
    (w : Write κ φ ν) : field (w.apply s) p k = field (w.apply t) p k := by
  have hold : ∀ u : Store κ φ ν, ((u.lookup p).getD Doc.empty) k = field u p k := by
    intro u
    unfold field
    cases u.lookup p <;> rfl
  by_cases hp : w.path = p
  · simp only [field, lookup_apply, if_pos hp]
    cases w with
    | set q fields => rfl
    | merge q fields => simp only [Write.result, Option.bind_some, Doc.update, hold, h]
    | delete q => rfl
  · simp only [field, lookup_apply, if_neg hp]
    exact h

section Filter

variable {α : Type*} {f : α → Write κ φ ν} {keep : α → Bool} {p : κ} {k : φ}

/-- **Writes to other documents can be left out**, as far as one document goes. -/
theorem lookup_replay_filter {l : List α} (h : ∀ x ∈ l, (f x).path = p → keep x = true) :
    (replay ((l.filter keep).map f)).lookup p = (replay (l.map f)).lookup p := by
  induction l using List.reverseRecOn with
  | nil => rfl
  | append_singleton l x ih =>
      have hl := ih fun y hy => h y (by simp [hy])
      rw [List.filter_append, List.map_append, List.map_append, replay_append, replay_append]
      by_cases hx : keep x = true
      · simp only [List.filter_cons_of_pos hx, List.filter_nil, List.map_cons, List.map_nil,
          List.foldl_cons, List.foldl_nil]
        exact lookup_apply_congr hl (f x)
      · have hpath : (f x).path ≠ p := fun hp => hx (h x (by simp) hp)
        simp only [List.filter_cons_of_neg hx, List.filter_nil, List.map_cons, List.map_nil,
          List.foldl_cons, List.foldl_nil]
        rw [hl, lookup_apply, if_neg hpath]

/-- **Writes that spare a field can be left out**, as far as that field goes. -/
theorem field_replay_filter {l : List α} (h : ∀ x ∈ l, keep x = false → (f x).Spares p k) :
    field (replay ((l.filter keep).map f)) p k = field (replay (l.map f)) p k := by
  induction l using List.reverseRecOn with
  | nil => rfl
  | append_singleton l x ih =>
      have hl := ih fun y hy => h y (by simp [hy])
      rw [List.filter_append, List.map_append, List.map_append, replay_append, replay_append]
      by_cases hx : keep x = true
      · simp only [List.filter_cons_of_pos hx, List.filter_nil, List.map_cons, List.map_nil,
          List.foldl_cons, List.foldl_nil]
        exact field_apply_congr hl (f x)
      · have hspares := h x (by simp) (by simpa using hx)
        simp only [List.filter_cons_of_neg hx, List.filter_nil, List.map_cons, List.map_nil,
          List.foldl_cons, List.foldl_nil]
        rw [hl, field_apply hspares]

/-- **Writes that remove nothing only add documents.** -/
theorem mem_replay_of_filter {l : List α}
    (h : ∀ x ∈ l, keep x = false → (f x).path = p → (f x).deletes = false)
    (hmem : p ∈ replay ((l.filter keep).map f)) : p ∈ replay (l.map f) := by
  induction l using List.reverseRecOn with
  | nil => exact hmem
  | append_singleton l x ih =>
      have hl := ih fun y hy => h y (by simp [hy])
      rw [List.map_append, List.map_singleton, replay_concat, mem_apply]
      by_cases hx : keep x = true
      · rw [List.filter_append, List.filter_cons_of_pos hx, List.filter_nil, List.map_append,
          List.map_singleton, replay_concat, mem_apply] at hmem
        split at hmem <;> rename_i hp
        · rwa [if_pos hp]
        · rw [if_neg hp]
          exact hl hmem
      · rw [List.filter_append, List.filter_cons_of_neg hx, List.filter_nil, List.append_nil]
          at hmem
        split
        · exact h x (by simp) (by simpa using hx) ‹_›
        · exact hl hmem

end Filter

/-- A document stays there through writes that do not remove it. -/
theorem mem_replay_append {ws vs : List (Write κ φ ν)} {p : κ} (h : p ∈ replay ws)
    (hkept : ∀ v ∈ vs, v.path = p → v.deletes = false) : p ∈ replay (ws ++ vs) := by
  induction vs using List.reverseRecOn with
  | nil => rwa [List.append_nil]
  | append_singleton vs v ih =>
      rw [← List.append_assoc, replay_concat, mem_apply]
      split
      · exact hkept v (by simp) ‹_›
      · exact ih fun x hx => hkept x (by simp [hx])

/-- **A write that comes in between removes nothing, unless it is a removal.** -/
theorem mem_replay_insert {ws vs : List (Write κ φ ν)} {w : Write κ φ ν} {p : κ}
    (h : p ∈ replay (ws ++ vs)) (hw : w.path = p → w.deletes = false) :
    p ∈ replay (ws ++ w :: vs) := by
  induction vs using List.reverseRecOn with
  | nil =>
      rw [List.append_nil] at h
      refine mem_replay_append h fun v hv => ?_
      obtain rfl := List.mem_singleton.mp hv
      exact hw
  | append_singleton vs v ih =>
      rw [← List.cons_append, ← List.append_assoc, replay_concat, mem_apply]
      rw [← List.append_assoc, replay_concat, mem_apply] at h
      split at h
      · exact (if_pos ‹_›).mpr h
      · exact (if_neg ‹_›).mpr (ih h)

/-- A write to a path that does not satisfy `q` leaves the count alone. -/
theorem count_apply_of_not {q : κ → Bool} {s : Store κ φ ν} {w : Write κ φ ν}
    (h : q w.path = false) : count q (w.apply s) = count q s := by
  have hinsert : ∀ p d, q p = false → count q (s.insert p d) = count q s := by
    intro p d hp
    by_cases hmem : p ∈ s
    · exact count_insert_of_mem hmem d
    · simp [count_insert_of_notMem hmem, hp]
  cases w with
  | set p fields => exact hinsert p _ h
  | merge p fields => exact hinsert p _ h
  | delete p =>
      have hp : q p = false := h
      by_cases hmem : p ∈ s
      · simpa [Write.apply, hp] using count_erase_of_mem (q := q) hmem
      · rw [Write.apply, count, AList.keys_erase, List.erase_of_not_mem hmem, count]

end DocStore
