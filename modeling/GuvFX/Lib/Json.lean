/-
# The text of a JSON value

A signature covers the text of a value, with the members of its objects sorted and without white
space.  The text determines the value: no text of one value begins with the text of another one,
unless a number goes on.  The proof follows the values and compares the two texts from their first
characters on.

Texts of values are plain ASCII; other characters are written as escapes, those beyond the basic plane
as two of them.
-/
import Mathlib.Data.List.Sort
import Mathlib.Data.List.TakeWhile
import Mathlib.Tactic.Lemma

namespace GuvFX

def isNumberChar (c : Char) : Bool := c.isDigit || c ∈ "-+.eENaInfity".toList

structure FloatText where
  chars : List Char
  number : ∀ c ∈ chars, isNumberChar c = true
  /-- It begins like a number. -/
  lead : ∃ c ∈ chars.head?, c.isDigit ∨ c ∈ ['-', 'N', 'I']
  /-- It has a point, an exponent or a name. -/
  notInt : ∃ c ∈ chars, c.isDigit = false ∧ c ≠ '-'
  deriving DecidableEq

/-- A JSON value; the members of an object are in the order in which they have been written. -/
inductive Json
  | null
  | bool (b : Bool)
  | int (n : ℤ)
  | float (x : FloatText)
  | str (s : String)
  | arr (items : List Json)
  | obj (members : List (String × Json))

namespace Json

/-! ### Characters -/

def hexDigit (d : ℕ) : Char := (Nat.digitChar d)

/-- The value of a hexadecimal digit. -/
def hexVal (c : Char) : ℕ :=
  if c.isDigit then c.toNat - '0'.toNat else c.toNat - 'a'.toNat + 10

lemma hexVal_hexDigit : ∀ d < 16, hexVal (hexDigit d) = d := by decide

def unitEscape (n : ℕ) : List Char :=
  ['\\', 'u', hexDigit (n / 4096), hexDigit (n / 256 % 16), hexDigit (n / 16 % 16), hexDigit (n % 16)]

/-- A character within a text. -/
def escape (c : Char) : List Char :=
  if c = '"' then ['\\', '"']
  else if c = '\\' then ['\\', '\\']
  else if c = '\n' then ['\\', 'n']
  else if c = '\r' then ['\\', 'r']
  else if c = '\t' then ['\\', 't']
  else if c = '\x0c' then ['\\', 'f']
  else if c = '\x08' then ['\\', 'b']
  else if 32 ≤ c.toNat ∧ c.toNat ≤ 126 then [c]
  else if c.toNat < 0x10000 then unitEscape c.toNat
  else unitEscape (0xD800 + (c.toNat - 0x10000) / 0x400) ++
    unitEscape (0xDC00 + (c.toNat - 0x10000) % 0x400)

def readUnit : List Char → Option (ℕ × List Char)
  | '\\' :: 'u' :: a :: b :: c :: d :: rest =>
    some (((hexVal a * 16 + hexVal b) * 16 + hexVal c) * 16 + hexVal d, rest)
  | _ => none

/-- The first character of an escaped text, and what follows it. -/
def readChar : List Char → Option (Char × List Char)
  | '\\' :: '"' :: rest => some ('"', rest)
  | '\\' :: '\\' :: rest => some ('\\', rest)
  | '\\' :: 'n' :: rest => some ('\n', rest)
  | '\\' :: 'r' :: rest => some ('\r', rest)
  | '\\' :: 't' :: rest => some ('\t', rest)
  | '\\' :: 'f' :: rest => some ('\x0c', rest)
  | '\\' :: 'b' :: rest => some ('\x08', rest)
  | '\\' :: rest =>
    match readUnit ('\\' :: rest) with
    | none => none
    | some (n, rest) =>
      if 0xD800 ≤ n ∧ n < 0xE000 then
        (readUnit rest).map fun (low, rest) =>
          (Char.ofNat (0x10000 + (n - 0xD800) * 0x400 + (low - 0xDC00)), rest)
      else some (Char.ofNat n, rest)
  | c :: rest => some (c, rest)
  | [] => none

lemma readUnit_unitEscape {n : ℕ} (hn : n < 0x10000) (rest : List Char) :
    readUnit (unitEscape n ++ rest) = some (n, rest) := by
  have h3 : hexVal (hexDigit (n / 4096)) = n / 4096 := hexVal_hexDigit _ (by omega)
  have h2 : hexVal (hexDigit (n / 256 % 16)) = n / 256 % 16 := hexVal_hexDigit _ (by omega)
  have h1 : hexVal (hexDigit (n / 16 % 16)) = n / 16 % 16 := hexVal_hexDigit _ (by omega)
  have h0 : hexVal (hexDigit (n % 16)) = n % 16 := hexVal_hexDigit _ (by omega)
  have hsum : ((n / 4096 * 16 + n / 256 % 16) * 16 + n / 16 % 16) * 16 + n % 16 = n := by omega
  simp only [unitEscape, List.cons_append, List.nil_append, readUnit, h0, h1, h2, h3, hsum]

lemma readChar_unitEscape {n : ℕ} (rest : List Char) :
    readChar (unitEscape n ++ rest) =
      match readUnit (unitEscape n ++ rest) with
      | none => none
      | some (n, rest) =>
        if 0xD800 ≤ n ∧ n < 0xE000 then
          (readUnit rest).map fun (low, rest) =>
            (Char.ofNat (0x10000 + (n - 0xD800) * 0x400 + (low - 0xDC00)), rest)
        else some (Char.ofNat n, rest) := rfl

lemma readChar_escape (c : Char) (rest : List Char) :
    readChar (escape c ++ rest) = some (c, rest) := by
  unfold escape
  split_ifs with h1 h2 h3 h4 h5 h6 h7 hascii hbmp
  · subst h1; rfl
  · subst h2; rfl
  · subst h3; rfl
  · subst h4; rfl
  · subst h5; rfl
  · subst h6; rfl
  · subst h7; rfl
  · -- a character that is written as it is
    rw [List.singleton_append, readChar.eq_def]
    split <;> simp_all
  · rw [readChar_unitEscape, readUnit_unitEscape hbmp]
    have hvalid := c.valid
    have hout : ¬ (0xD800 ≤ c.toNat ∧ c.toNat < 0xE000) := by
      rcases hvalid with h | ⟨h, -⟩
      · have : c.toNat < 0xD800 := h
        omega
      · have : 0xDFFF < c.toNat := h
        omega
    simp only [if_neg hout, Char.ofNat_toNat]
  · have hmax : c.toNat < 0x110000 := by
      rcases c.valid with h | ⟨-, h⟩
      · have : c.toNat < 0xD800 := h
        omega
      · exact h
    rw [List.append_assoc, readChar_unitEscape, readUnit_unitEscape (by omega)]
    have hin : 0xD800 ≤ 0xD800 + (c.toNat - 0x10000) / 0x400 ∧
        0xD800 + (c.toNat - 0x10000) / 0x400 < 0xE000 := by omega
    have hback : 0x10000 + (0xD800 + (c.toNat - 0x10000) / 0x400 - 0xD800) * 0x400 +
        (0xDC00 + (c.toNat - 0x10000) % 0x400 - 0xDC00) = c.toNat := by omega
    simp only [if_pos hin, readUnit_unitEscape (show 0xDC00 + (c.toNat - 0x10000) % 0x400 < 0x10000 by omega),
      Option.map_some, hback, Char.ofNat_toNat]

lemma escape_ne_quote (c : Char) (x y : List Char) : escape c ++ x ≠ '"' :: y := by
  intro h
  have hread := readChar_escape c x
  rw [h] at hread
  obtain ⟨rfl, -⟩ := Prod.mk.inj (Option.some.inj hread)
  simp [escape] at h

/-! ### Texts, numbers, values -/

def quoted (s : String) : List Char := '"' :: (s.toList.flatMap escape ++ ['"'])

def intText (n : ℤ) : List Char :=
  if n < 0 then '-' :: Nat.toDigits 10 n.natAbs else Nat.toDigits 10 n.natAbs

mutual

/-- The text of a value. -/
def render : Json → List Char
  | .null => ['n', 'u', 'l', 'l']
  | .bool true => ['t', 'r', 'u', 'e']
  | .bool false => ['f', 'a', 'l', 's', 'e']
  | .int n => intText n
  | .float x => x.chars
  | .str s => quoted s
  | .arr [] => ['[', ']']
  | .arr (v :: vs) => '[' :: (render v ++ renderItems vs)
  | .obj [] => ['{', '}']
  | .obj ((k, v) :: ms) => '{' :: (quoted k ++ ':' :: (render v ++ renderMembers ms))

def renderItems : List Json → List Char
  | [] => [']']
  | v :: vs => ',' :: (render v ++ renderItems vs)

def renderMembers : List (String × Json) → List Char
  | [] => ['}']
  | (k, v) :: ms => ',' :: (quoted k ++ ':' :: (render v ++ renderMembers ms))

end

def Ended (x : List Char) : Prop := x.takeWhile isNumberChar = []

lemma ended_cons {c : Char} {x : List Char} (h : isNumberChar c = false) : Ended (c :: x) := by
  simp [Ended, h]

lemma ended_items (vs : List Json) (x : List Char) : Ended (renderItems vs ++ x) := by
  cases vs <;> exact ended_cons (by decide)

lemma ended_members (ms : List (String × Json)) (x : List Char) : Ended (renderMembers ms ++ x) := by
  cases ms <;> exact ended_cons (by decide)

lemma number_append_inj {u v x y : List Char} (hu : ∀ c ∈ u, isNumberChar c = true)
    (hv : ∀ c ∈ v, isNumberChar c = true) (hx : Ended x) (hy : Ended y) (h : u ++ x = v ++ y) :
    u = v ∧ x = y := by
  have huv : u = v := by
    calc u = (u ++ x).takeWhile isNumberChar := by
          rw [List.takeWhile_append_of_pos hu, hx, List.append_nil]
      _ = (v ++ y).takeWhile isNumberChar := by rw [h]
      _ = v := by rw [List.takeWhile_append_of_pos hv, hy, List.append_nil]
  rw [huv] at h
  exact ⟨huv, List.append_cancel_left h⟩

lemma quoted_append_inj_aux (s t : List Char) (x y : List Char)
    (h : s.flatMap escape ++ '"' :: x = t.flatMap escape ++ '"' :: y) : s = t ∧ x = y := by
  induction s generalizing t with
  | nil =>
    cases t with
    | nil => exact ⟨rfl, (List.cons.inj h).2⟩
    | cons d t =>
      rw [List.flatMap_cons, List.append_assoc] at h
      exact absurd h.symm (escape_ne_quote d _ _)
  | cons c s ih =>
    rw [List.flatMap_cons, List.append_assoc] at h
    cases t with
    | nil => exact absurd h (escape_ne_quote c _ _)
    | cons d t =>
      rw [List.flatMap_cons, List.append_assoc] at h
      -- the first characters are read back from both texts
      have hread := (readChar_escape c _).symm.trans ((congrArg readChar h).trans (readChar_escape d _))
      obtain ⟨rfl, hrest⟩ := Prod.mk.inj (Option.some.inj hread)
      obtain ⟨rfl, hxy⟩ := ih t hrest
      exact ⟨rfl, hxy⟩

lemma quoted_append_inj {s t : String} {x y : List Char} (h : quoted s ++ x = quoted t ++ y) :
    s = t ∧ x = y := by
  have htail : s.toList.flatMap escape ++ '"' :: x = t.toList.flatMap escape ++ '"' :: y := by
    simpa [quoted, List.append_assoc] using h
  obtain ⟨hst, hxy⟩ := quoted_append_inj_aux _ _ x y htail
  exact ⟨String.toList_inj.mp hst, hxy⟩

lemma isNumberChar_intText (n : ℤ) : ∀ c ∈ intText n, isNumberChar c = true := by
  have hdigits : ∀ c ∈ Nat.toDigits 10 n.natAbs, isNumberChar c = true := fun c hc => by
    rw [isNumberChar, Nat.isDigit_of_mem_toDigits (by omega) (by omega) hc, Bool.true_or]
  intro c hc
  unfold intText at hc
  split at hc
  · rcases List.mem_cons.mp hc with rfl | hc
    · decide
    · exact hdigits c hc
  · exact hdigits c hc

lemma mem_intText {n : ℤ} {c : Char} (hc : c ∈ intText n) : c.isDigit = true ∨ c = '-' := by
  unfold intText at hc
  split at hc
  · rcases List.mem_cons.mp hc with rfl | hc
    · exact .inr rfl
    · exact .inl (Nat.isDigit_of_mem_toDigits (by omega) (by omega) hc)
  · exact .inl (Nat.isDigit_of_mem_toDigits (by omega) (by omega) hc)

lemma toDigits_injective {m n : ℕ} (h : Nat.toDigits 10 m = Nat.toDigits 10 n) : m = n := by
  calc m = Nat.ofDigitChars 10 (Nat.toDigits 10 m) 0 := Nat.ofDigitChars_ten_toDigits.symm
    _ = Nat.ofDigitChars 10 (Nat.toDigits 10 n) 0 := by rw [h]
    _ = n := Nat.ofDigitChars_ten_toDigits

lemma toDigits_ne_minus (n : ℕ) (x : List Char) : Nat.toDigits 10 n ≠ '-' :: x := by
  intro h
  have hdigit := Nat.isDigit_of_mem_toDigits (b := 10) (n := n) (c := '-') (by omega) (by omega)
    (by rw [h]; exact List.mem_cons_self)
  exact absurd hdigit (by decide)

lemma intText_injective {m n : ℤ} (h : intText m = intText n) : m = n := by
  unfold intText at h
  split at h <;> split at h
  · have hnat := toDigits_injective (List.cons.inj h).2
    omega
  · exact absurd h.symm (toDigits_ne_minus _ _)
  · exact absurd h (toDigits_ne_minus _ _)
  · have hnat := toDigits_injective h
    omega

lemma chars_ne_intText (x : FloatText) (n : ℤ) : x.chars ≠ intText n := by
  intro h
  obtain ⟨c, hc, hdigit, hminus⟩ := x.notInt
  rw [h] at hc
  rcases mem_intText hc with h | h
  · rw [hdigit] at h
    cases h
  · exact hminus h

/-! ### The first character of a value -/

/-- The kinds of values that the first character tells apart. -/
inductive Lead
  | nullWord | trueWord | falseWord | number | quote | bracket | brace
  deriving DecidableEq

/-- What the first character says of a value. -/
def Lead.ofChar (c : Char) : Option Lead :=
  if c = 'n' then some .nullWord else if c = 't' then some .trueWord
  else if c = 'f' then some .falseWord else if c = '"' then some .quote
  else if c = '[' then some .bracket else if c = '{' then some .brace
  else if c.isDigit ∨ c ∈ ['-', 'N', 'I'] then some .number else none

def lead : Json → Lead
  | .null => .nullWord
  | .bool true => .trueWord
  | .bool false => .falseWord
  | .int _ | .float _ => .number
  | .str _ => .quote
  | .arr _ => .bracket
  | .obj _ => .brace

lemma Lead.ofChar_number {c : Char} (h : c.isDigit ∨ c ∈ ['-', 'N', 'I']) :
    Lead.ofChar c = some .number := by
  have hne : ∀ d : Char, (d.isDigit || d ∈ ['-', 'N', 'I']) = false → c ≠ d := by
    rintro d hd rfl
    have hc : (c.isDigit || c ∈ ['-', 'N', 'I']) = true := by simpa using h
    rw [hd] at hc
    cases hc
  rw [ofChar, if_neg (hne 'n' (by decide)), if_neg (hne 't' (by decide)),
    if_neg (hne 'f' (by decide)), if_neg (hne '"' (by decide)), if_neg (hne '[' (by decide)),
    if_neg (hne '{' (by decide)), if_pos h]

/-- The text of a value begins with a character that tells its kind. -/
lemma render_lead (v : Json) (x : List Char) :
    ∃ c rest, render v ++ x = c :: rest ∧ Lead.ofChar c = some v.lead := by
  cases v with
  | null => exact ⟨'n', _, rfl, rfl⟩
  | bool b => cases b with
    | true => exact ⟨'t', _, rfl, rfl⟩
    | false => exact ⟨'f', _, rfl, rfl⟩
  | int n =>
    have hne : intText n ≠ [] := by
      unfold intText
      split
      · exact List.cons_ne_nil _ _
      · exact Nat.toDigits_ne_nil
    obtain ⟨c, rest, htext⟩ := List.exists_cons_of_ne_nil hne
    refine ⟨c, rest ++ x, by rw [render, htext, List.cons_append], Lead.ofChar_number ?_⟩
    rcases mem_intText (n := n) (c := c) (by rw [htext]; exact List.mem_cons_self) with h | rfl
    · exact .inl h
    · exact .inr (by decide)
  | float f =>
    obtain ⟨c, hhead, hlead⟩ := f.lead
    obtain ⟨rest, htext⟩ := List.head?_eq_some_iff.mp hhead
    exact ⟨c, rest ++ x, by rw [render, htext, List.cons_append], Lead.ofChar_number hlead⟩
  | str s => exact ⟨'"', _, rfl, rfl⟩
  | arr items => cases items with
    | nil => exact ⟨'[', _, rfl, rfl⟩
    | cons v vs => exact ⟨'[', _, rfl, rfl⟩
  | obj members => cases members with
    | nil => exact ⟨'{', _, rfl, rfl⟩
    | cons m ms => exact ⟨'{', _, rfl, rfl⟩

/-- Two values at the beginning of one text are of one kind. -/
lemma lead_eq {a b : Json} {x y : List Char} (h : render a ++ x = render b ++ y) :
    a.lead = b.lead := by
  obtain ⟨c, rest, hc, ha⟩ := render_lead a x
  obtain ⟨d, rest', hd, hb⟩ := render_lead b y
  obtain ⟨rfl, -⟩ := List.cons.inj (hc.symm.trans (h.trans hd))
  exact Option.some.inj (ha.symm.trans hb)

/-- A value does not begin with the bracket that closes an array or an object. -/
lemma render_ne_close {v : Json} {c : Char} {x y : List Char} (hc : Lead.ofChar c = none) :
    render v ++ x ≠ c :: y := by
  intro h
  obtain ⟨d, rest, hd, hlead⟩ := render_lead v x
  obtain ⟨rfl, -⟩ := List.cons.inj (hd.symm.trans h)
  rw [hc] at hlead
  cases hlead

/-! ### The text determines the value -/

mutual

theorem render_append_inj : ∀ (a b : Json) (x y : List Char), Ended x → Ended y →
    render a ++ x = render b ++ y → a = b ∧ x = y
  | .null, b, x, y, _, _, h => by
    have hlead := lead_eq h
    cases b with
    | null => exact ⟨rfl, List.append_cancel_left h⟩
    | bool b => cases b <;> cases hlead
    | _ => cases hlead
  | .bool true, b, x, y, _, _, h => by
    have hlead := lead_eq h
    cases b with
    | bool b => cases b with
      | true => exact ⟨rfl, List.append_cancel_left h⟩
      | false => cases hlead
    | _ => cases hlead
  | .bool false, b, x, y, _, _, h => by
    have hlead := lead_eq h
    cases b with
    | bool b => cases b with
      | true => cases hlead
      | false => exact ⟨rfl, List.append_cancel_left h⟩
    | _ => cases hlead
  | .int m, b, x, y, hx, hy, h => by
    have hlead := lead_eq h
    cases b with
    | int n =>
      obtain ⟨hmn, hxy⟩ :=
        number_append_inj (isNumberChar_intText m) (isNumberChar_intText n) hx hy h
      exact ⟨by rw [intText_injective hmn], hxy⟩
    | float f =>
      have hmf := (number_append_inj (isNumberChar_intText m) f.number hx hy h).1
      exact absurd hmf.symm (chars_ne_intText f m)
    | bool b => cases b <;> cases hlead
    | _ => cases hlead
  | .float f, b, x, y, hx, hy, h => by
    have hlead := lead_eq h
    cases b with
    | int n =>
      have hfn := (number_append_inj f.number (isNumberChar_intText n) hx hy h).1
      exact absurd hfn (chars_ne_intText f n)
    | float f' =>
      obtain ⟨hff, hxy⟩ := number_append_inj f.number f'.number hx hy h
      obtain ⟨chars, _, _, _⟩ := f
      obtain ⟨chars', _, _, _⟩ := f'
      obtain rfl : chars = chars' := hff
      exact ⟨rfl, hxy⟩
    | bool b => cases b <;> cases hlead
    | _ => cases hlead
  | .str s, b, x, y, _, _, h => by
    have hlead := lead_eq h
    cases b with
    | str t =>
      obtain ⟨rfl, hxy⟩ := quoted_append_inj h
      exact ⟨rfl, hxy⟩
    | bool b => cases b <;> cases hlead
    | _ => cases hlead
  | .arr [], b, x, y, _, _, h => by
    have hlead := lead_eq h
    cases b with
    | arr items =>
      cases items with
      | nil => exact ⟨rfl, List.append_cancel_left h⟩
      | cons w ws =>
        simp only [render, List.cons_append, List.append_assoc, List.cons.injEq, true_and] at h
        exact absurd h.symm (render_ne_close rfl)
    | bool b => cases b <;> cases hlead
    | _ => cases hlead
  | .arr (v :: vs), b, x, y, _, _, h => by
    have hlead := lead_eq h
    cases b with
    | arr items =>
      cases items with
      | nil =>
        simp only [render, List.cons_append, List.append_assoc, List.cons.injEq, true_and] at h
        exact absurd h (render_ne_close rfl)
      | cons w ws =>
        simp only [render, List.cons_append, List.append_assoc, List.cons.injEq, true_and] at h
        obtain ⟨rfl, hrest⟩ :=
          render_append_inj v w _ _ (ended_items vs x) (ended_items ws y) h
        obtain ⟨rfl, hxy⟩ := renderItems_append_inj vs ws x y hrest
        exact ⟨rfl, hxy⟩
    | bool b => cases b <;> cases hlead
    | _ => cases hlead
  | .obj [], b, x, y, _, _, h => by
    have hlead := lead_eq h
    cases b with
    | obj members =>
      cases members with
      | nil => exact ⟨rfl, List.append_cancel_left h⟩
      | cons m ms =>
        have htail := (List.cons.inj h).2
        exact absurd (List.cons.inj htail).1 (by decide)
    | bool b => cases b <;> cases hlead
    | _ => cases hlead
  | .obj ((k, v) :: ms), b, x, y, _, _, h => by
    have hlead := lead_eq h
    cases b with
    | obj members =>
      cases members with
      | nil =>
        have htail := (List.cons.inj h).2
        exact absurd (List.cons.inj htail).1 (by decide)
      | cons m ms' =>
        obtain ⟨k', v'⟩ := m
        simp only [render, List.cons_append, List.append_assoc, List.cons.injEq, true_and] at h
        obtain ⟨rfl, hvalue⟩ := quoted_append_inj h
        obtain ⟨rfl, hrest⟩ := render_append_inj v v' _ _ (ended_members ms x)
          (ended_members ms' y) (List.cons.inj hvalue).2
        obtain ⟨rfl, hxy⟩ := renderMembers_append_inj ms ms' x y hrest
        exact ⟨rfl, hxy⟩
    | bool b => cases b <;> cases hlead
    | _ => cases hlead

theorem renderItems_append_inj : ∀ (vs ws : List Json) (x y : List Char),
    renderItems vs ++ x = renderItems ws ++ y → vs = ws ∧ x = y
  | [], ws, x, y, h => by
    cases ws with
    | nil => exact ⟨rfl, List.append_cancel_left h⟩
    | cons w ws => exact absurd (List.cons.inj h).1 (by decide)
  | v :: vs, ws, x, y, h => by
    cases ws with
    | nil => exact absurd (List.cons.inj h).1 (by decide)
    | cons w ws =>
      simp only [renderItems, List.cons_append, List.append_assoc, List.cons.injEq, true_and] at h
      obtain ⟨rfl, hrest⟩ := render_append_inj v w _ _ (ended_items vs x) (ended_items ws y) h
      obtain ⟨rfl, hxy⟩ := renderItems_append_inj vs ws x y hrest
      exact ⟨rfl, hxy⟩

theorem renderMembers_append_inj : ∀ (ms ms' : List (String × Json)) (x y : List Char),
    renderMembers ms ++ x = renderMembers ms' ++ y → ms = ms' ∧ x = y
  | [], ms', x, y, h => by
    cases ms' with
    | nil => exact ⟨rfl, List.append_cancel_left h⟩
    | cons m ms' => exact absurd (List.cons.inj h).1 (by decide)
  | (k, v) :: ms, ms', x, y, h => by
    cases ms' with
    | nil => exact absurd (List.cons.inj h).1 (by decide)
    | cons m ms' =>
      obtain ⟨k', v'⟩ := m
      simp only [renderMembers, List.cons_append, List.append_assoc, List.cons.injEq, true_and] at h
      obtain ⟨rfl, hvalue⟩ := quoted_append_inj h
      obtain ⟨rfl, hrest⟩ := render_append_inj v v' _ _ (ended_members ms x)
        (ended_members ms' y) (List.cons.inj hvalue).2
      obtain ⟨rfl, hxy⟩ := renderMembers_append_inj ms ms' x y hrest
      exact ⟨rfl, hxy⟩

end

/-- The text of a value determines it. -/
theorem render_injective {a b : Json} (h : render a = render b) : a = b := by
  have happ : render a ++ [] = render b ++ [] := by rw [List.append_nil, List.append_nil, h]
  exact (render_append_inj a b [] [] rfl rfl happ).1

/-! ### Sorted members -/

/-- The member goes before the other one. -/
def keyLe (m m' : String × Json) : Prop := m.1 ≤ m'.1

instance : DecidableRel keyLe := fun m m' => inferInstanceAs (Decidable (m.1 ≤ m'.1))

mutual

/-- The value with the members of all its objects sorted. -/
def canon : Json → Json
  | .arr items => .arr (canonItems items)
  | .obj members => .obj ((canonMembers members).insertionSort keyLe)
  | .null => .null
  | .bool b => .bool b
  | .int n => .int n
  | .float x => .float x
  | .str s => .str s

def canonItems : List Json → List Json
  | [] => []
  | v :: vs => canon v :: canonItems vs

def canonMembers : List (String × Json) → List (String × Json)
  | [] => []
  | (k, v) :: ms => (k, canon v) :: canonMembers ms

end

lemma mem_canonMembers {k : String} {w : Json} {ms : List (String × Json)} :
    (k, w) ∈ canonMembers ms ↔ ∃ v, (k, v) ∈ ms ∧ canon v = w := by
  induction ms with
  | nil => simp [canonMembers]
  | cons m ms ih =>
    obtain ⟨k', v'⟩ := m
    rw [canonMembers, List.mem_cons, ih]
    constructor
    · rintro (heq | ⟨v, hv, rfl⟩)
      · obtain ⟨rfl, rfl⟩ := Prod.mk.inj heq
        exact ⟨v', List.mem_cons_self, rfl⟩
      · exact ⟨v, List.mem_cons_of_mem _ hv, rfl⟩
    · rintro ⟨v, hv, rfl⟩
      rcases List.mem_cons.mp hv with heq | hv
      · obtain ⟨rfl, rfl⟩ := Prod.mk.inj heq
        exact .inl rfl
      · exact .inr ⟨v, hv, rfl⟩

/-- Objects that are the same up to the order of their members have the same members. -/
lemma mem_of_canon_eq {ms ms' : List (String × Json)} (h : canon (.obj ms) = canon (.obj ms'))
    {k : String} {v : Json} (hv : (k, v) ∈ ms) : ∃ v', (k, v') ∈ ms' ∧ canon v' = canon v := by
  rw [canon, canon] at h
  have hmem : (k, canon v) ∈ (canonMembers ms).insertionSort keyLe :=
    (List.perm_insertionSort keyLe _).mem_iff.mpr (mem_canonMembers.mpr ⟨v, hv, rfl⟩)
  rw [Json.obj.inj h] at hmem
  exact mem_canonMembers.mp ((List.perm_insertionSort keyLe _).mem_iff.mp hmem)

lemma keys_canonMembers (ms : List (String × Json)) :
    (canonMembers ms).map Prod.fst = ms.map Prod.fst := by
  induction ms with
  | nil => rfl
  | cons m ms ih => rw [canonMembers, List.map_cons, ih, List.map_cons]

lemma eq_of_perm_of_keys {l l' : List (String × Json)} (hperm : l.Perm l')
    (hkeys : l.map Prod.fst = l'.map Prod.fst) (hnodup : (l.map Prod.fst).Nodup) : l = l' := by
  induction l generalizing l' with
  | nil => exact hperm.nil_eq
  | cons m l ih =>
    cases l' with
    | nil => cases hkeys
    | cons m' l' =>
      obtain ⟨-, hrest⟩ := List.cons.inj hkeys
      obtain ⟨hnew, hnodup⟩ := List.nodup_cons.mp hnodup
      obtain rfl : m = m' := by
        refine (List.mem_cons.mp (hperm.subset List.mem_cons_self)).resolve_right fun hmem => hnew ?_
        rw [hrest]
        exact List.mem_map_of_mem hmem
      rw [ih hperm.cons_inv hrest hnodup]

/-- Objects with the same keys, each once, that are the same up to their order have the same values. -/
lemma canonMembers_eq {ms ms' : List (String × Json)} (h : canon (.obj ms) = canon (.obj ms'))
    (hnodup : (ms.map Prod.fst).Nodup) (hkeys : ms.map Prod.fst = ms'.map Prod.fst) :
    canonMembers ms = canonMembers ms' := by
  rw [canon, canon] at h
  have hperm := (List.perm_insertionSort keyLe (canonMembers ms)).symm.trans
    (Json.obj.inj h ▸ List.perm_insertionSort keyLe (canonMembers ms'))
  refine eq_of_perm_of_keys hperm ?_ ?_
  · rw [keys_canonMembers, keys_canonMembers, hkeys]
  · rwa [keys_canonMembers]

lemma eq_of_canon_eq_str {v : Json} {s : String} (h : canon v = .str s) : v = .str s := by
  cases v <;> simp_all [canon]

lemma eq_of_canon_eq_int {v : Json} {n : ℤ} (h : canon v = .int n) : v = .int n := by
  cases v <;> simp_all [canon]

/-- The text that a signature covers: sorted members, no white space. -/
def dumps (v : Json) : List Char := render (canon v)

/-- Values with the same text are the same up to the order of their members. -/
theorem canon_eq_of_dumps_eq {a b : Json} (h : dumps a = dumps b) : canon a = canon b :=
  render_injective h

end Json
end GuvFX
