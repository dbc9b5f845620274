/-
# The body that a signature covers

A request is a dictionary.  Its signature is a keyed hash of the canonical text of some of its members:
those with a name from a fixed list, and one more, the digest of a part that is carried beside the body,
if the request has it.  The text determines the members it is made of, and whether the digest is there.
-/
import GuvFX.Lib.Json

namespace GuvFX
namespace SignedBody

/-- The members of a dictionary, each name once. -/
abbrev Fields := List (String × Json)

def get (fields : Fields) (name : String) : Option Json :=
  (fields.find? fun m => m.1 = name).map (·.2)

def bodyNames (signed : List String) (digest : String) (fields : Fields) : List String :=
  signed ++ if (get fields digest).isSome then [digest] else []

def pick (fields : Fields) (names : List String) : Fields :=
  names.filterMap fun name => (get fields name).map fun v => (name, v)

def bodyFields (signed : List String) (digest : String) (fields : Fields) : Fields :=
  pick fields (bodyNames signed digest fields)

/-- The text that the signature covers. -/
def canonicalBody (signed : List String) (digest : String) (fields : Fields) : List Char :=
  Json.dumps (.obj (bodyFields signed digest fields))

variable {signed : List String} {digest name : String} {fields fields' : Fields} {v v' : Json}

lemma get_append_of_ne {other : String} (h : name ≠ other) :
    get (fields ++ [(other, v)]) name = get fields name := by
  have hlast : [(other, v)].find? (fun m => m.1 = name) = none := by simp [Ne.symm h]
  rw [get, List.find?_append, hlast, Option.or_none, get]

/-- What is found in a selection of members, with others after it. -/
lemma get_pick_append (names : List String) (rest : Fields) :
    get (pick fields names ++ rest) name =
      if name ∈ names then (get fields name).or (get rest name) else get rest name := by
  induction names with
  | nil => simp [pick]
  | cons first names ih =>
    have hcons : pick fields (first :: names) ++ rest =
        ((get fields first).map fun v => (first, v)).toList ++ (pick fields names ++ rest) := by
      rw [pick, List.filterMap_cons]
      cases get fields first <;> rfl
    rw [hcons]
    by_cases hfirst : name = first
    · subst hfirst
      cases hv : get fields name with
      | none =>
        rw [hv] at ih
        simpa using ih
      | some v => simp [get]
    · have hskip : get (((get fields first).map fun v => (first, v)).toList
          ++ (pick fields names ++ rest)) name = get (pick fields names ++ rest) name := by
        cases get fields first with
        | none => rfl
        | some v => simp [get, Ne.symm hfirst]
      rw [hskip, ih]
      simp [hfirst]

lemma mem_bodyFields : (name, v) ∈ bodyFields signed digest fields ↔
    name ∈ bodyNames signed digest fields ∧ get fields name = some v := by
  rw [bodyFields, pick, List.mem_filterMap]
  constructor
  · rintro ⟨name', hname', hv⟩
    obtain ⟨v', hv', heq⟩ := Option.map_eq_some_iff.mp hv
    obtain ⟨rfl, rfl⟩ := Prod.mk.inj heq
    exact ⟨hname', hv'⟩
  · rintro ⟨hname, hv⟩
    exact ⟨name, hname, by rw [hv, Option.map_some]⟩

lemma mem_bodyNames : name ∈ bodyNames signed digest fields ↔
    name ∈ signed ∨ name = digest ∧ (get fields digest).isSome := by
  rw [bodyNames, List.mem_append]
  by_cases h : (get fields digest).isSome
  · simp [h]
  · simp [h]

lemma mem_bodyNames_of_get (hname : name ∈ signed ++ [digest]) (hv : get fields name = some v) :
    name ∈ bodyNames signed digest fields := by
  refine mem_bodyNames.mpr ?_
  rcases List.mem_append.mp hname with h | h
  · exact .inl h
  · obtain rfl := List.mem_singleton.mp h
    exact .inr ⟨rfl, by rw [hv]; rfl⟩

lemma get_of_body_eq (h : canonicalBody signed digest fields = canonicalBody signed digest fields')
    (hname : name ∈ signed ++ [digest]) (hv : get fields name = some v) :
    ∃ v', get fields' name = some v' ∧ v'.canon = v.canon := by
  have hmem := mem_bodyFields.mpr ⟨mem_bodyNames_of_get hname hv, hv⟩
  obtain ⟨v', hmem', hcanon⟩ := Json.mem_of_canon_eq (Json.canon_eq_of_dumps_eq h) hmem
  exact ⟨v', (mem_bodyFields.mp hmem').2, hcanon⟩

/-- A text or an integer. -/
def Plain (v : Json) : Prop := (∃ s, v = .str s) ∨ ∃ n, v = .int n

lemma Plain.eq_of_canon (hv : Plain v) (h : v'.canon = v.canon) : v' = v := by
  rcases hv with ⟨s, rfl⟩ | ⟨n, rfl⟩
  · exact Json.eq_of_canon_eq_str h
  · exact Json.eq_of_canon_eq_int h

/-- **A body whose members are texts and integers determines them**, and whether the digest is one. -/
theorem fields_eq_of_body_eq
    (h : canonicalBody signed digest fields = canonicalBody signed digest fields')
    (hplain : ∀ name ∈ signed ++ [digest], ∀ v, get fields' name = some v → Plain v)
    (hname : name ∈ signed ++ [digest]) : get fields name = get fields' name := by
  cases hv : get fields name with
  | some v =>
    obtain ⟨v', hv', hcanon⟩ := get_of_body_eq h hname hv
    rw [hv', (hplain name hname v' hv').eq_of_canon hcanon.symm]
  | none =>
    cases hv' : get fields' name with
    | none => rfl
    | some v' =>
      obtain ⟨v, hv₀, -⟩ := get_of_body_eq h.symm hname hv'
      rw [hv] at hv₀
      cases hv₀

lemma canonicalBody_congr (h : ∀ name ∈ signed ++ [digest], get fields name = get fields' name) :
    canonicalBody signed digest fields = canonicalBody signed digest fields' := by
  have hdigest := h digest (by simp)
  have hnames : bodyNames signed digest fields = bodyNames signed digest fields' := by
    rw [bodyNames, hdigest, bodyNames]
  rw [canonicalBody, canonicalBody, bodyFields, bodyFields, hnames]
  congr 2
  refine List.filterMap_congr fun name hname => ?_
  rw [h name]
  rcases mem_bodyNames.mp hname with hsigned | ⟨rfl, -⟩
  · exact List.mem_append_left _ hsigned
  · exact List.mem_append_right _ List.mem_cons_self

lemma canonicalBody_head (signed : List String) (digest : String) (fields : Fields) : ∃ text, canonicalBody signed digest fields = '{' :: text := by
  rw [canonicalBody, Json.dumps, Json.canon]
  cases (Json.canonMembers (bodyFields signed digest fields)).insertionSort Json.keyLe with
  | nil => exact ⟨_, by rw [Json.render]⟩
  | cons m ms => exact ⟨_, by rw [Json.render]⟩

end SignedBody
end GuvFX
