/-
# Tables whose primary key is made of columns

The rows of such a table carry their key: it is a function of the row, and the table keeps the
rows of pairwise distinct keys.  There are three insertions, which differ in what they do when the
key is in use: refuse, leave the old row, or put the new row in its place.
-/
import Mathlib.Data.List.Nodup

namespace GuvFX

structure Rows (ρ : Type*) {κ : Type*} (key : ρ → κ) where
  rows : List ρ
  nodup : (rows.map key).Nodup

namespace Rows

variable {ρ κ : Type*} {key : ρ → κ}

instance [DecidableEq ρ] : DecidableEq (Rows ρ key) := fun t u =>
  decidable_of_iff (t.rows = u.rows) ⟨fun h => by cases t; cases u; cases h; rfl, congrArg rows⟩

def empty : Rows ρ key := ⟨[], List.nodup_nil⟩

instance : Inhabited (Rows ρ key) := ⟨empty⟩

/-- Change the rows by `f`, which keeps their keys. -/
def modify (t : Rows ρ key) (f : ρ → ρ) (hf : ∀ r, key (f r) = key r) : Rows ρ key where
  rows := t.rows.map f
  nodup := by
    have hkey : key ∘ f = key := funext hf
    rw [List.map_map, hkey]
    exact t.nodup

def delete (t : Rows ρ key) (p : ρ → Bool) : Rows ρ key where
  rows := t.rows.filter fun r => !p r
  nodup := t.nodup.sublist (List.filter_sublist.map key)

section Insertions

variable [DecidableEq κ]

def get (t : Rows ρ key) (k : κ) : Option ρ := t.rows.find? fun r => key r = k

def insert (t : Rows ρ key) (r : ρ) : Option (Rows ρ key) :=
  if h : key r ∈ t.rows.map key then none
  else some ⟨t.rows ++ [r], by
    rw [List.map_append]
    exact t.nodup.append (by simp) (by simpa [List.disjoint_singleton] using h)⟩

def insertOrIgnore (t : Rows ρ key) (r : ρ) : Rows ρ key := (t.insert r).getD t

def insertOrReplace (t : Rows ρ key) (r : ρ) : Rows ρ key :=
  (t.delete fun r' => key r' = key r).insertOrIgnore r

end Insertions

/-! ### The row of a key -/

@[simp] lemma rows_empty : (empty : Rows ρ key).rows = [] := rfl

lemma mem_modify {t : Rows ρ key} {f : ρ → ρ} {hf : ∀ r, key (f r) = key r} {r : ρ} :
    r ∈ (t.modify f hf).rows ↔ ∃ r' ∈ t.rows, f r' = r := List.mem_map

lemma mem_delete {t : Rows ρ key} {p : ρ → Bool} {r : ρ} :
    r ∈ (t.delete p).rows ↔ r ∈ t.rows ∧ p r = false := by
  rw [delete, List.mem_filter, Bool.not_eq_true']

lemma eq_of_key_eq {t : Rows ρ key} {r r' : ρ} (hr : r ∈ t.rows) (hr' : r' ∈ t.rows)
    (h : key r = key r') : r = r' := List.inj_on_of_nodup_map t.nodup hr hr' h

variable [DecidableEq κ]

lemma get_eq_some_iff {t : Rows ρ key} {k : κ} {r : ρ} :
    t.get k = some r ↔ r ∈ t.rows ∧ key r = k := by
  constructor
  · intro h
    exact ⟨List.mem_of_find?_eq_some h, by simpa using List.find?_some h⟩
  · rintro ⟨hr, rfl⟩
    cases h : t.get (key r) with
    | none => exact absurd (List.find?_eq_none.mp h r hr) (by simp)
    | some r' =>
      have hkey : key r' = key r := by simpa using List.find?_some h
      rw [eq_of_key_eq (List.mem_of_find?_eq_some h) hr hkey]

lemma get_eq_none_iff {t : Rows ρ key} {k : κ} : t.get k = none ↔ ∀ r ∈ t.rows, key r ≠ k := by
  simp [get, List.find?_eq_none]

@[simp] lemma get_empty (k : κ) : (empty : Rows ρ key).get k = none := rfl

lemma get_modify (t : Rows ρ key) (f : ρ → ρ) (hf : ∀ r, key (f r) = key r) (k : κ) :
    (t.modify f hf).get k = (t.get k).map f := by
  ext r
  rw [get_eq_some_iff, mem_modify, Option.map_eq_some_iff]
  constructor
  · rintro ⟨⟨r', hr', rfl⟩, hkey⟩
    exact ⟨r', get_eq_some_iff.mpr ⟨hr', (hf r').symm.trans hkey⟩, rfl⟩
  · rintro ⟨r', hr', rfl⟩
    obtain ⟨hmem, hkey⟩ := get_eq_some_iff.mp hr'
    exact ⟨⟨r', hmem, rfl⟩, (hf r').trans hkey⟩

lemma get_delete (t : Rows ρ key) (p : ρ → Bool) (k : κ) :
    (t.delete p).get k = (t.get k).filter fun r => !p r := by
  ext r
  rw [get_eq_some_iff, mem_delete, Option.filter_eq_some_iff, get_eq_some_iff, Bool.not_eq_true']
  exact ⟨fun ⟨⟨hr, hp⟩, hkey⟩ => ⟨⟨hr, hkey⟩, hp⟩, fun ⟨⟨hr, hkey⟩, hp⟩ => ⟨⟨hr, hp⟩, hkey⟩⟩

/-! ### Insertions -/

lemma insert_eq_none_iff {t : Rows ρ key} {r : ρ} :
    t.insert r = none ↔ ∃ r' ∈ t.rows, key r' = key r := by
  by_cases h : key r ∈ t.rows.map key
  · rw [insert, dif_pos h]
    exact iff_of_true rfl (List.mem_map.mp h)
  · rw [insert, dif_neg h]
    exact iff_of_false (by simp) fun hr => h (List.mem_map.mpr hr)

lemma rows_of_insert {t t' : Rows ρ key} {r : ρ} (h : t.insert r = some t') :
    t'.rows = t.rows ++ [r] := by
  unfold insert at h
  split at h
  · cases h
  · exact (congrArg rows (Option.some.inj h)).symm

lemma insert_of_fresh {t : Rows ρ key} {r : ρ} (h : t.get (key r) = none) :
    ∃ t', t.insert r = some t' ∧ t'.rows = t.rows ++ [r] := by
  cases hins : t.insert r with
  | none =>
    obtain ⟨r', hr', hkey⟩ := insert_eq_none_iff.mp hins
    exact absurd hkey (get_eq_none_iff.mp h r' hr')
  | some t' => exact ⟨t', rfl, rows_of_insert hins⟩

lemma get_of_insert {t t' : Rows ρ key} {r : ρ} (h : t.insert r = some t') (k : κ) :
    t'.get k = if key r = k then some r else t.get k := by
  have hfresh : ∀ r' ∈ t.rows, key r' ≠ key r := by
    intro r' hr' hkey
    have hnone := insert_eq_none_iff.mpr ⟨r', hr', hkey⟩
    rw [hnone] at h
    cases h
  rw [get, rows_of_insert h, List.find?_append]
  by_cases hk : key r = k
  · subst hk
    have hnone : t.rows.find? (fun r' => key r' = key r) = none := get_eq_none_iff.mpr hfresh
    rw [hnone, if_pos rfl]
    simp
  · have hlast : [r].find? (fun r' => key r' = k) = none := by simp [hk]
    rw [hlast, if_neg hk, Option.or_none]
    rfl

lemma fresh_of_insert {t t' : Rows ρ key} {r : ρ} (h : t.insert r = some t') :
    t.get (key r) = none := by
  cases hget : t.get (key r) with
  | none => rfl
  | some r' =>
    rw [insert_eq_none_iff.mpr ⟨r', get_eq_some_iff.mp hget⟩] at h
    cases h

lemma insertOrIgnore_of_fresh {t : Rows ρ key} {r : ρ} (h : t.get (key r) = none) :
    (t.insertOrIgnore r).rows = t.rows ++ [r] := by
  obtain ⟨t', hins, hrows⟩ := insert_of_fresh h
  rw [insertOrIgnore, hins, Option.getD_some, hrows]

lemma get_insertOrIgnore (t : Rows ρ key) (r : ρ) (k : κ) :
    (t.insertOrIgnore r).get k = if key r = k then some ((t.get k).getD r) else t.get k := by
  cases h : t.insert r with
  | none =>
    obtain ⟨r', hr', hkey⟩ := insert_eq_none_iff.mp h
    rw [insertOrIgnore, h, Option.getD_none]
    by_cases hk : key r = k
    · rw [if_pos hk, get_eq_some_iff.mpr ⟨hr', hkey.trans hk⟩, Option.getD_some]
    · rw [if_neg hk]
  | some t' =>
    rw [insertOrIgnore, h, Option.getD_some, get_of_insert h]
    by_cases hk : key r = k
    · have hnone : t.get k = none := by
        cases hget : t.get k with
        | none => rfl
        | some r' =>
          obtain ⟨hr', hkey⟩ := get_eq_some_iff.mp hget
          rw [insert_eq_none_iff.mpr ⟨r', hr', hkey.trans hk.symm⟩] at h
          cases h
      rw [if_pos hk, if_pos hk, hnone, Option.getD_none]
    · rw [if_neg hk, if_neg hk]

lemma get_insertOrReplace (t : Rows ρ key) (r : ρ) (k : κ) :
    (t.insertOrReplace r).get k = if key r = k then some r else t.get k := by
  rw [insertOrReplace, get_insertOrIgnore, get_delete]
  by_cases hk : key r = k
  · have hnone : ((t.get k).filter fun r' => !decide (key r' = key r)) = none := by
      cases hget : t.get k with
      | none => rfl
      | some r' =>
        have hkey := (get_eq_some_iff.mp hget).2
        simp [hkey, hk]
    rw [if_pos hk, if_pos hk, hnone, Option.getD_none]
  · rw [if_neg hk, if_neg hk]
    cases hget : t.get k with
    | none => rfl
    | some r' =>
      have hkey := (get_eq_some_iff.mp hget).2
      have hne : key r' ≠ key r := fun h => hk (h ▸ hkey)
      simp [hne]

end Rows
end GuvFX
