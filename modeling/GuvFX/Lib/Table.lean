/-
# Tables of rows under a primary key

A table is a finite list of rows, each under its own primary key, in the order in which the
rows were inserted.  The operations are those of a relational store: the row of a key, the
first row that satisfies a filter, the update of one row, the insertion of a row under a key
that is not in use.
-/
import Mathlib.Data.List.Nodup
import Mathlib.Data.List.Perm.Subperm

namespace GuvFX

/-- Rows of type `ρ` under pairwise distinct primary keys, in insertion order. -/
structure Table (ρ : Type*) where
  rows : List (ℕ × ρ)
  /-- No key is used twice. -/
  nodup : (rows.map Prod.fst).Nodup

namespace Table

variable {ρ : Type*}

def empty : Table ρ := ⟨[], List.nodup_nil⟩

instance : Inhabited (Table ρ) := ⟨empty⟩

def keys (t : Table ρ) : List ℕ := t.rows.map Prod.fst

def get (t : Table ρ) (k : ℕ) : Option ρ := (t.rows.find? fun e => e.1 = k).map Prod.snd

def first (t : Table ρ) (p : ℕ → ρ → Bool) : Option (ℕ × ρ) := t.rows.find? fun e => p e.1 e.2

def filter (t : Table ρ) (p : ℕ → ρ → Bool) : List (ℕ × ρ) := t.rows.filter fun e => p e.1 e.2

/-- Change the row of the key `k` by `f`, and leave the other rows alone. -/
def modify (t : Table ρ) (k : ℕ) (f : ρ → ρ) : Table ρ where
  rows := t.rows.map fun e => if e.1 = k then (e.1, f e.2) else e
  nodup := by
    have hfst : Prod.fst ∘ (fun e : ℕ × ρ => if e.1 = k then (e.1, f e.2) else e) = Prod.fst := by
      funext e
      by_cases h : e.1 = k <;> simp [h]
    rw [List.map_map, hfst]
    exact t.nodup

def fresh (t : Table ρ) : ℕ := t.keys.foldr max 0 + 1

/-- Insert a row under the key `k`; a key in use is refused and the table stays as it is. -/
def insert (t : Table ρ) (k : ℕ) (v : ρ) : Table ρ :=
  if h : k ∈ t.keys then t
  else ⟨t.rows ++ [(k, v)], by
    rw [List.map_append]
    exact t.nodup.append (by simp) (by simpa [List.disjoint_singleton, keys] using h)⟩

/-- Change every row by `f`. -/
def map {σ : Type*} (t : Table ρ) (f : ρ → σ) : Table σ where
  rows := t.rows.map fun e => (e.1, f e.2)
  nodup := by
    have hfst : Prod.fst ∘ (fun e : ℕ × ρ => (e.1, f e.2)) = Prod.fst := rfl
    rw [List.map_map, hfst]
    exact t.nodup

/-- The rows under the same keys, as far as `f` gives them a value. -/
def filterMap {σ : Type*} (t : Table ρ) (f : ρ → Option σ) : Table σ where
  rows := t.rows.filterMap fun e => (f e.2).map fun v => (e.1, v)
  nodup := by
    have hsub : ((t.rows.filterMap fun e => (f e.2).map fun v => (e.1, v)).map Prod.fst).Sublist
        (t.rows.map Prod.fst) := by
      generalize t.rows = rows
      induction rows with
      | nil => exact List.Sublist.slnil
      | cons e rows ih =>
        rw [List.filterMap_cons, List.map_cons]
        cases f e.2 with
        | none => exact ih.cons e.1
        | some v => exact ih.cons_cons e.1
    exact t.nodup.sublist hsub

/-- The rows of a list of private versions in the place of those under the same keys. -/
def overlay (t : Table ρ) (versions : List (ℕ × ρ)) : Table ρ where
  rows := t.rows.map fun e => (e.1, (versions.lookup e.1).getD e.2)
  nodup := by
    have hfst : Prod.fst ∘ (fun e : ℕ × ρ => (e.1, (versions.lookup e.1).getD e.2)) = Prod.fst := rfl
    rw [List.map_map, hfst]
    exact t.nodup

/-! ### The row of a key -/

variable {t : Table ρ} {k j : ℕ}

lemma mem_rows_of_get {v : ρ} (h : t.get k = some v) : (k, v) ∈ t.rows := by
  obtain ⟨⟨k', v'⟩, he, rfl⟩ := Option.map_eq_some_iff.mp h
  obtain rfl : k' = k := by simpa using List.find?_some he
  exact List.mem_of_find?_eq_some he

lemma eq_of_mem_rows {v w : ρ} (hv : (k, v) ∈ t.rows) (hw : (k, w) ∈ t.rows) : v = w := by
  have h := List.inj_on_of_nodup_map t.nodup hv hw rfl
  exact congrArg Prod.snd h

lemma get_eq_some_iff {v : ρ} : t.get k = some v ↔ (k, v) ∈ t.rows := by
  refine ⟨mem_rows_of_get, fun h => ?_⟩
  have hsome : (t.rows.find? fun e => e.1 = k) ≠ none := by
    intro hnone
    exact absurd (List.find?_eq_none.mp hnone _ h) (by simp)
  obtain ⟨e, he⟩ := Option.ne_none_iff_exists'.mp hsome
  obtain rfl : e.1 = k := by simpa using List.find?_some he
  have hmem : (e.1, e.2) ∈ t.rows := List.mem_of_find?_eq_some he
  rw [get, he, Option.map_some, eq_of_mem_rows hmem h]

lemma get_eq_none_iff : t.get k = none ↔ k ∉ t.keys := by
  rw [Option.eq_none_iff_forall_not_mem, keys, List.mem_map, not_exists]
  constructor
  · rintro h ⟨k', v⟩ ⟨hmem, rfl⟩
    exact h v (get_eq_some_iff.mpr hmem)
  · intro h v hv
    exact h (k, v) ⟨mem_rows_of_get hv, rfl⟩

lemma mem_keys_of_get {v : ρ} (h : t.get k = some v) : k ∈ t.keys :=
  List.mem_map_of_mem (f := Prod.fst) (mem_rows_of_get h)

lemma get_of_mem_keys (h : k ∈ t.keys) : ∃ v, t.get k = some v := by
  obtain ⟨⟨k', v⟩, hmem, rfl⟩ := List.mem_map.mp h
  exact ⟨v, get_eq_some_iff.mpr hmem⟩

/-! ### Updates -/

lemma mem_rows_modify {f : ρ → ρ} {v : ρ} :
    (j, v) ∈ (t.modify k f).rows ↔
      if j = k then ∃ w, (j, w) ∈ t.rows ∧ v = f w else (j, v) ∈ t.rows := by
  simp only [modify, List.mem_map]
  constructor
  · rintro ⟨⟨j', w⟩, hmem, heq⟩
    by_cases hj : j' = k
    · simp only [hj, if_true, Prod.mk.injEq] at heq
      obtain ⟨rfl, rfl⟩ := heq
      simpa using ⟨w, hj ▸ hmem, rfl⟩
    · simp only [hj, if_false, Prod.mk.injEq] at heq
      obtain ⟨rfl, rfl⟩ := heq
      simpa [hj] using hmem
  · by_cases hj : j = k
    · simp only [hj, if_true]
      rintro ⟨w, hmem, rfl⟩
      exact ⟨(k, w), hmem, by simp⟩
    · simp only [hj, if_false]
      exact fun hmem => ⟨(j, v), hmem, by simp [hj]⟩

@[simp] lemma keys_modify (t : Table ρ) (k : ℕ) (f : ρ → ρ) : (t.modify k f).keys = t.keys := by
  rw [keys, modify, List.map_map, keys]
  refine List.map_congr_left fun e _ => ?_
  by_cases h : e.1 = k <;> simp [h]

@[simp] lemma get_modify_self (t : Table ρ) (k : ℕ) (f : ρ → ρ) :
    (t.modify k f).get k = (t.get k).map f := by
  cases h : t.get k with
  | none => simpa [get_eq_none_iff] using get_eq_none_iff.mp h
  | some v =>
    rw [Option.map_some, get_eq_some_iff, mem_rows_modify, if_pos rfl]
    exact ⟨v, mem_rows_of_get h, rfl⟩

lemma get_modify_of_ne (t : Table ρ) (f : ρ → ρ) (h : j ≠ k) : (t.modify k f).get j = t.get j := by
  ext v
  rw [get_eq_some_iff, mem_rows_modify, if_neg h, get_eq_some_iff]

lemma get_modify (t : Table ρ) (j k : ℕ) (f : ρ → ρ) :
    (t.modify k f).get j = if j = k then (t.get k).map f else t.get j := by
  by_cases h : j = k
  · subst h; simp
  · rw [get_modify_of_ne t f h, if_neg h]

lemma modify_eq_self {f : ρ → ρ} (h : ∀ v, t.get k = some v → f v = v) : t.modify k f = t := by
  have hrows : (t.modify k f).rows = t.rows := by
    refine (List.map_congr_left fun e he => ?_).trans (List.map_id t.rows)
    by_cases hk : e.1 = k
    · have hrow : f e.2 = e.2 := h e.2 (get_eq_some_iff.mpr (by rw [← hk]; exact he))
      simp [hk, hrow, Prod.ext_iff]
    · simp [hk]
  cases t
  simpa [modify] using hrows

@[simp] lemma get_map {σ : Type*} (t : Table ρ) (f : ρ → σ) (k : ℕ) :
    (t.map f).get k = (t.get k).map f := by
  ext v
  rw [get_eq_some_iff, Option.map_eq_some_iff]
  simp only [map, List.mem_map, Prod.mk.injEq, get_eq_some_iff]
  constructor
  · rintro ⟨⟨j, w⟩, hmem, rfl, rfl⟩
    exact ⟨w, hmem, rfl⟩
  · rintro ⟨w, hmem, rfl⟩
    exact ⟨(k, w), hmem, rfl, rfl⟩

@[simp] lemma get_overlay (t : Table ρ) (versions : List (ℕ × ρ)) (k : ℕ) :
    (t.overlay versions).get k = (t.get k).map (versions.lookup k).getD := by
  ext v
  rw [get_eq_some_iff, Option.map_eq_some_iff]
  simp only [overlay, List.mem_map, Prod.mk.injEq, get_eq_some_iff]
  constructor
  · rintro ⟨⟨j, w⟩, hmem, rfl, rfl⟩
    exact ⟨w, hmem, rfl⟩
  · rintro ⟨w, hmem, rfl⟩
    exact ⟨(k, w), hmem, rfl, rfl⟩

/-! ### Searches -/

lemma get_of_first {p : ℕ → ρ → Bool} {v : ρ} (h : t.first p = some (k, v)) : t.get k = some v :=
  get_eq_some_iff.mpr (List.mem_of_find?_eq_some h)

lemma of_first {p : ℕ → ρ → Bool} {v : ρ} (h : t.first p = some (k, v)) : p k v = true := by
  simpa using List.find?_some h

/-- An update that does not change what the filter says about its row finds the same row,
changed by the update if it is the updated one. -/
lemma first_modify {p : ℕ → ρ → Bool} {f : ρ → ρ} (hp : ∀ v, t.get k = some v → p k (f v) = p k v) :
    (t.modify k f).first p = (t.first p).map fun e => if e.1 = k then (e.1, f e.2) else e := by
  have key : ∀ e ∈ t.rows, p (if e.1 = k then (e.1, f e.2) else e).1
      (if e.1 = k then (e.1, f e.2) else e).2 = p e.1 e.2 := by
    rintro ⟨k', v⟩ he
    by_cases h : k' = k
    · subst h
      simpa using hp v (get_eq_some_iff.mpr he)
    · simp [h]
  simp only [first, modify]
  generalize t.rows = rows at key
  induction rows with
  | nil => rfl
  | cons e rows ih =>
    have he := key e List.mem_cons_self
    have hrest := ih fun e' he' => key e' (List.mem_cons_of_mem e he')
    rw [List.map_cons, List.find?_cons, List.find?_cons, he, hrest]
    cases p e.1 e.2 <;> rfl

/-! ### Insertions -/

lemma fresh_not_mem (t : Table ρ) : t.fresh ∉ t.keys := by
  have hle : ∀ (keys : List ℕ), ∀ k ∈ keys, k ≤ keys.foldr max 0 := by
    intro keys
    induction keys with
    | nil => simp
    | cons j keys ih =>
      intro k hk
      rcases List.mem_cons.mp hk with rfl | hk
      · exact Nat.le_max_left ..
      · exact Nat.le_trans (ih k hk) (Nat.le_max_right ..)
  intro hmem
  have := hle t.keys t.fresh hmem
  unfold fresh at this
  omega

lemma insert_of_not_mem (v : ρ) (h : k ∉ t.keys) : (t.insert k v).rows = t.rows ++ [(k, v)] := by
  rw [insert, dif_neg h]

lemma insert_of_mem (v : ρ) (h : k ∈ t.keys) : t.insert k v = t := by
  rw [insert, dif_pos h]

lemma get_insert (v : ρ) (h : k ∉ t.keys) (j : ℕ) :
    (t.insert k v).get j = if j = k then some v else t.get j := by
  ext w
  rw [get_eq_some_iff, insert_of_not_mem v h, List.mem_append, List.mem_singleton]
  by_cases hj : j = k
  · subst hj
    have hno : (j, w) ∉ t.rows := fun hmem => h (List.mem_map_of_mem (f := Prod.fst) hmem)
    simp [hno, eq_comm]
  · simp [hj, get_eq_some_iff]

/-- An insertion leaves the rows that were there. -/
lemma get_insert_of_get {v u : ρ} (hk : k ∉ t.keys) (h : t.get j = some u) :
    (t.insert k v).get j = some u := by
  have hj : j ≠ k := by
    rintro rfl
    rw [get_eq_none_iff.mpr hk] at h
    cases h
  rwa [get_insert v hk, if_neg hj]

/-! ### Counting the rows of a filter -/

lemma mem_filter {p : ℕ → ρ → Bool} {v : ρ} :
    (k, v) ∈ t.filter p ↔ t.get k = some v ∧ p k v = true := by
  rw [filter, List.mem_filter, get_eq_some_iff]

lemma nodup_keys_filter (t : Table ρ) (p : ℕ → ρ → Bool) : ((t.filter p).map Prod.fst).Nodup :=
  t.nodup.sublist (List.filter_sublist.map Prod.fst)

lemma filter_insert (v : ρ) (hk : k ∉ t.keys) (p : ℕ → ρ → Bool) :
    (t.insert k v).filter p = t.filter p ++ if p k v then [(k, v)] else [] := by
  rw [filter, insert_of_not_mem v hk, List.filter_append, filter]
  cases hp : p k v <;> simp [hp]

/-- The rows of one filter lie, by their keys, among those of another and the key `r`. -/
lemma length_filter_le_succ {t' : Table ρ} {p p' : ℕ → ρ → Bool} (r : ℕ)
    (h : ∀ k v', t'.get k = some v' → p' k v' = true →
      k = r ∨ ∃ v, t.get k = some v ∧ p k v = true) :
    (t'.filter p').length ≤ (t.filter p).length + 1 := by
  have hsub : (t'.filter p').map Prod.fst ⊆ r :: (t.filter p).map Prod.fst := by
    intro k hk
    obtain ⟨⟨k', v'⟩, hmem, rfl⟩ := List.mem_map.mp hk
    obtain ⟨hget, hp'⟩ := mem_filter.mp hmem
    rcases h k' v' hget hp' with rfl | ⟨v, hv, hp⟩
    · exact List.mem_cons_self
    · exact List.mem_cons_of_mem r (List.mem_map.mpr ⟨(k', v), mem_filter.mpr ⟨hv, hp⟩, rfl⟩)
  have hle := (List.subperm_of_subset (t'.nodup_keys_filter p') hsub).length_le
  simpa using hle

lemma length_filter_le {t' : Table ρ} {p p' : ℕ → ρ → Bool}
    (h : ∀ k v', t'.get k = some v' → p' k v' = true → ∃ v, t.get k = some v ∧ p k v = true) :
    (t'.filter p').length ≤ (t.filter p).length := by
  have hsub : (t'.filter p').map Prod.fst ⊆ (t.filter p).map Prod.fst := by
    intro k hk
    obtain ⟨⟨k', v'⟩, hmem, rfl⟩ := List.mem_map.mp hk
    obtain ⟨hget, hp'⟩ := mem_filter.mp hmem
    obtain ⟨v, hv, hp⟩ := h k' v' hget hp'
    exact List.mem_map.mpr ⟨(k', v), mem_filter.mpr ⟨hv, hp⟩, rfl⟩
  have hle := (List.subperm_of_subset (t'.nodup_keys_filter p') hsub).length_le
  simpa using hle

lemma length_filter_le_one {p : ℕ → ρ → Bool} (r : ℕ)
    (h : ∀ k v, t.get k = some v → p k v = true → k = r) : (t.filter p).length ≤ 1 := by
  have hsub : (t.filter p).map Prod.fst ⊆ [r] := by
    intro k hk
    obtain ⟨⟨k', v⟩, hmem, rfl⟩ := List.mem_map.mp hk
    obtain ⟨hget, hp⟩ := mem_filter.mp hmem
    exact List.mem_singleton.mpr (h k' v hget hp)
  have hle := (List.subperm_of_subset (t.nodup_keys_filter p) hsub).length_le
  simpa using hle

end Table
end GuvFX
