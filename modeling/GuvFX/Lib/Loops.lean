/-
# Loops over ranges, and what they do not see

A loop runs over the integers of a range and reads lists by an index, which counts from the end when
it is negative.  Two loops that read lists with a common beginning go through the same states as long
as they stay within it; later steps of one of them alone keep whatever only concerns the beginning.
-/
import Mathlib.Algebra.Order.Group.Int
import Mathlib.Data.List.TakeDrop
import Mathlib.Order.Lattice
import Mathlib.Tactic.Lemma

namespace GuvFX
namespace Loops

variable {α β : Type} {S T : Type}

/-! ### Ranges -/

/-- The integers from the first one on, up to the second one. -/
def pyRange (a b : ℤ) : List ℤ := (List.range (b - a).toNat).map fun k : ℕ => a + k

variable {a b i : ℤ}

lemma mem_pyRange : i ∈ pyRange a b ↔ a ≤ i ∧ i < b := by
  simp only [pyRange, List.mem_map, List.mem_range]
  constructor
  · rintro ⟨k, hk, rfl⟩
    omega
  · rintro ⟨ha, hb⟩
    exact ⟨(i - a).toNat, by omega, by omega⟩

lemma pyRange_eq_nil (h : b ≤ a) : pyRange a b = [] := by
  have : (b - a).toNat = 0 := by omega
  simp [pyRange, this]

lemma pyRange_append {m : ℤ} (ham : a ≤ m) (hmb : m ≤ b) :
    pyRange a b = pyRange a m ++ pyRange m b := by
  obtain ⟨p, rfl⟩ : ∃ p : ℕ, m = a + p := ⟨(m - a).toNat, by omega⟩
  obtain ⟨q, rfl⟩ : ∃ q : ℕ, b = a + p + q := ⟨(b - (a + p)).toNat, by omega⟩
  have h1 : (a + p + q - a).toNat = p + q := by omega
  have h2 : (a + (p : ℤ) - a).toNat = p := by omega
  have h3 : (a + (p : ℤ) + q - (a + p)).toNat = q := by omega
  simp only [pyRange, h1, h2, h3, List.range_add, List.map_append, List.map_map]
  congr 1
  apply List.map_congr_left
  intro k _
  simp only [Function.comp_apply]
  push_cast
  omega

/-! ### Lists by index -/

/-- The place of an index; a negative one counts from the end. -/
def place (xs : List α) (i : ℤ) : Option ℕ :=
  if 0 ≤ i then (if i < xs.length then some i.toNat else none)
  else if 0 ≤ i + xs.length then some (i + xs.length).toNat else none

/-- The item at an index; there may be none. -/
def pyGet (xs : List α) (i : ℤ) : Option α := (place xs i).bind fun k => xs[k]?

def pySet (xs : List α) (i : ℤ) (x : α) : Option (List α) := (place xs i).map fun k => xs.set k x

/-- The items before an index. -/
def pyTake (xs : List α) (i : ℤ) : List α :=
  if 0 ≤ i then xs.take i.toNat else xs.take (i + xs.length).toNat

lemma place_of_nonneg {xs : List α} (h : 0 ≤ i) :
    place xs i = if i < xs.length then some i.toNat else none := by
  simp [place, h]

lemma pyGet_of_nonneg {xs : List α} (h : 0 ≤ i) : pyGet xs i = xs[i.toNat]? := by
  unfold pyGet
  rw [place_of_nonneg h]
  by_cases hi : i < xs.length
  · rw [if_pos hi]
    rfl
  · rw [if_neg hi, List.getElem?_eq_none (by omega)]
    rfl

/-- Two lists have their first items in common. -/
def Agree (n : ℕ) (xs ys : List α) : Prop := xs.take n = ys.take n

namespace Agree

variable {n : ℕ} {xs ys zs : List α}

lemma refl (n : ℕ) (xs : List α) : Agree n xs xs := rfl

lemma symm (h : Agree n xs ys) : Agree n ys xs := Eq.symm h

lemma trans (h : Agree n xs ys) (h' : Agree n ys zs) : Agree n xs zs := Eq.trans h h'

lemma mono {m : ℕ} (h : Agree n xs ys) (hm : m ≤ n) : Agree m xs ys := by
  have := congrArg (List.take m) h
  rwa [List.take_take, List.take_take, min_eq_left hm] at this

lemma map (f : α → β) (h : Agree n xs ys) : Agree n (xs.map f) (ys.map f) := by
  unfold Agree at h ⊢
  rw [← List.map_take, ← List.map_take, h]

/-- The items of the common beginning are the same. -/
lemma getElem? (h : Agree n xs ys) {k : ℕ} (hk : k < n) : xs[k]? = ys[k]? := by
  have := congrArg (fun l => l[k]?) h
  simpa [List.getElem?_take, hk] using this

lemma pyGet (h : Agree n xs ys) (h0 : 0 ≤ i) (hi : i < n) :
    Loops.pyGet xs i = Loops.pyGet ys i := by
  rw [pyGet_of_nonneg h0, pyGet_of_nonneg h0]
  exact h.getElem? (by omega)

lemma pyTake (h : Agree n xs ys) (h0 : 0 ≤ i) (hi : i ≤ n) :
    Loops.pyTake xs i = Loops.pyTake ys i := by
  unfold Loops.pyTake
  rw [if_pos h0, if_pos h0]
  exact h.mono (by omega)

lemma append (hn : n ≤ xs.length) (zs : List α) : Agree n (xs ++ zs) xs := by
  unfold Agree
  rw [List.take_append_of_le_length hn]

/-- An item behind the common beginning has been replaced. -/
lemma pySet {x : α} (hi : n ≤ i) (h : Loops.pySet xs i x = some zs) : Agree n zs xs := by
  unfold Loops.pySet at h
  rw [place_of_nonneg (by omega)] at h
  split_ifs at h with hlt
  · cases h
    unfold Agree
    rw [List.take_set_of_le (by omega)]
  · cases h

/-- The same item of the common beginning has been replaced. -/
lemma pySet_pySet {x : α} {xs' ys' : List α} (h : Agree n xs ys) (h0 : 0 ≤ i)
    (hx : Loops.pySet xs i x = some xs') (hy : Loops.pySet ys i x = some ys') :
    Agree n xs' ys' := by
  unfold Loops.pySet at hx hy
  rw [place_of_nonneg h0] at hx hy
  split_ifs at hx with hltx
  · split_ifs at hy with hlty
    · cases hx
      cases hy
      unfold Agree at h ⊢
      rw [List.take_set, List.take_set, h]
    · cases hy
  · cases hx

/-- Lists that are not longer than their common beginning are the same. -/
lemma eq_of_length_lt (h : Agree n xs ys) (hx : xs.length < n) : xs = ys := by
  unfold Agree at h
  rw [List.take_of_length_le hx.le] at h
  have hlen := congrArg List.length h
  rw [List.length_take] at hlen
  rw [List.take_of_length_le (by omega)] at h
  exact h

lemma replicate (n k m : ℕ) (x : α) (hk : n ≤ k) (hm : n ≤ m) :
    Agree n (List.replicate k x) (List.replicate m x) := by
  unfold Agree
  rw [List.take_replicate, List.take_replicate, min_eq_left hk, min_eq_left hm]

end Agree

/-! ### Loops -/

def loop (step : S → α → Option S) (is : List α) (s : S) : Option S := is.foldlM step s

@[simp] lemma loop_nil {step : S → α → Option S} {s : S} : loop step [] s = some s := rfl

lemma loop_cons {step : S → α → Option S} {i : α} {is : List α} {s : S} :
    loop step (i :: is) s = (step s i).bind (loop step is) := by
  simp only [loop, List.foldlM_cons]
  rfl

lemma loop_append {step : S → α → Option S} {is js : List α} {s : S} :
    loop step (is ++ js) s = (loop step is s).bind (loop step js) := by
  simp only [loop, List.foldlM_append]
  rfl

lemma loop_congr {step step' : S → α → Option S} {is : List α}
    (h : ∀ s, ∀ i ∈ is, step s i = step' s i) (s : S) : loop step is s = loop step' is s := by
  induction is generalizing s with
  | nil => rfl
  | cons i is ih =>
    rw [loop_cons, loop_cons, h s i List.mem_cons_self]
    exact congrArg _ (funext fun s' => ih (fun s j hj => h s j (List.mem_cons_of_mem i hj)) s')

lemma loop_invariant {step : S → α → Option S} {P : S → Prop} {is : List α}
    (hstep : ∀ s s' i, i ∈ is → P s → step s i = some s' → P s') {s e : S} (hs : P s)
    (h : loop step is s = some e) : P e := by
  induction is generalizing s with
  | nil => cases h; exact hs
  | cons i is ih =>
    rw [loop_cons, Option.bind_eq_some_iff] at h
    obtain ⟨s', hi, h⟩ := h
    exact ih (fun s s' j hj => hstep s s' j (List.mem_cons_of_mem i hj))
      (hstep s s' i List.mem_cons_self hs hi) h

lemma range_related {step : S → ℤ → Option S} {step' : T → ℤ → Option T} {R : ℤ → S → T → Prop}
    (hab : a ≤ b)
    (hstep : ∀ s t s' t' i, a ≤ i → i < b → R i s t → step s i = some s' → step' t i = some t' →
      R (i + 1) s' t') {s e : S} {t e' : T} (hst : R a s t)
    (h : loop step (pyRange a b) s = some e) (h' : loop step' (pyRange a b) t = some e') :
    R b e e' := by
  obtain ⟨k, rfl⟩ : ∃ k : ℕ, b = a + k := ⟨(b - a).toNat, by omega⟩
  induction k generalizing a s t with
  | zero =>
    rw [pyRange_eq_nil (by omega)] at h h'
    cases h
    cases h'
    simpa using hst
  | succ k ih =>
    have hcons : pyRange a (a + (k + 1 : ℕ)) = a :: pyRange (a + 1) (a + 1 + k) := by
      rw [pyRange_append (m := a + 1) (by omega) (by push_cast; omega)]
      have hend : a + ((k + 1 : ℕ) : ℤ) = a + 1 + k := by push_cast; omega
      rw [hend]
      simp [pyRange]
    rw [hcons, loop_cons, Option.bind_eq_some_iff] at h h'
    obtain ⟨s', hi, h⟩ := h
    obtain ⟨t', hi', h'⟩ := h'
    have hR := hstep s t s' t' a le_rfl (by push_cast; omega) hst hi hi'
    have hend : a + ((k + 1 : ℕ) : ℤ) = a + 1 + k := by push_cast; omega
    rw [hend]
    exact ih hR (by omega)
      (fun s t s' t' i ha hb => hstep s t s' t' i (by omega) (by push_cast; omega)) h h'

/-- Two loops over ranges with the same beginning.  Up to the index `n` their steps keep one relation,
which comes down to another one; behind it, a step of either loop alone keeps the other one. -/
theorem ranges_related {step step' : S → ℤ → Option S} {R : ℤ → S → S → Prop} {Q : S → S → Prop}
    {n b' : ℤ} (hb : n ≤ b) (hb' : n ≤ b') (hRQ : ∀ s t i, n ≤ i → R i s t → Q s t)
    (hsame : ∀ s t s' t' i, a ≤ i → i < n → R i s t → step s i = some s' → step' t i = some t' →
      R (i + 1) s' t')
    (hleft : ∀ s t s' i, a ≤ i → n ≤ i → i < b → Q s t → step s i = some s' → Q s' t)
    (hright : ∀ s t t' i, a ≤ i → n ≤ i → i < b' → Q s t → step' t i = some t' → Q s t')
    {s t e e' : S} (hst : R a s t) (h : loop step (pyRange a b) s = some e)
    (h' : loop step' (pyRange a b') t = some e') : Q e e' := by
  -- the indices before `n`, and those from `n` on
  have hsplit : ∀ c, n ≤ c → pyRange a c = pyRange a (max a n) ++ pyRange (max a n) c := by
    intro c hc
    rcases le_total a n with ha | ha
    · rw [max_eq_right ha, ← pyRange_append ha hc]
    · rw [max_eq_left ha, pyRange_eq_nil le_rfl, List.nil_append]
  rw [hsplit b hb, loop_append, Option.bind_eq_some_iff] at h
  rw [hsplit b' hb', loop_append, Option.bind_eq_some_iff] at h'
  obtain ⟨s₁, hs₁, h⟩ := h
  obtain ⟨t₁, ht₁, h'⟩ := h'
  have hR : R (max a n) s₁ t₁ := range_related (le_max_left a n)
    (fun s t s' t' i ha hi => hsame s t s' t' i ha (by omega)) hst hs₁ ht₁
  have hQ : Q e t₁ := loop_invariant (P := fun s => Q s t₁)
    (fun s s' i hi hq => hleft s t₁ s' i (by have := mem_pyRange.mp hi; omega)
      (by have := mem_pyRange.mp hi; omega) (mem_pyRange.mp hi).2 hq)
    (hRQ _ _ _ (le_max_right a n) hR) h
  exact loop_invariant (P := fun t => Q e t)
    (fun t t' i hi hq => hright e t t' i (by have := mem_pyRange.mp hi; omega)
      (by have := mem_pyRange.mp hi; omega) (mem_pyRange.mp hi).2 hq) hQ h'

end Loops
end GuvFX
