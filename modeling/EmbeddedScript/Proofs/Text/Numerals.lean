import EmbeddedScript.Text.Numeral
import Mathlib.Data.List.Induction

/-!
# Reading and writing numerals

`Numeral.parse?` reads exactly what `Numeral.write` writes, so **a name is read as a
number exactly when it is the numeral of that number**. The forms it reads are the
canonical ones: digits alone, the first of which is zero only in the numeral of zero.

A reader of machine words accepts more: a plus sign in front, and any number of leading
zeros. `Numeral.readWord?` is that reader. What it accepts besides the numerals is told
apart by writing what was read and comparing, and that is another way to say which names
are read as numbers below a bound (`Numeral.filter_parse?_eq_filter_readWord?`).
-/

namespace EmbeddedScript.Numeral

variable {s : String} {n : Nat} {cs : List Char} {c : Char}

/-! ## Digits -/

/-- The digits are the digits of the library. -/
theorem isDigit_eq (c : Char) : isDigit c = c.isDigit := by
  rw [Bool.eq_iff_iff]
  simp [isDigit, Char.isDigit, Char.le_def]

/-- A row of digits writes the number that the library reads in it. -/
theorem value_eq_ofDigitChars (cs : List Char) : value cs = Nat.ofDigitChars 10 cs 0 :=
  Nat.ofDigitChars_eq_foldl.symm

/-- The numeral of a number is its decimal digits. -/
theorem toList_write (n : Nat) : (write n).toList = Nat.toDigits 10 n := by
  rw [write, Nat.toString_eq_ofList_toDigits, String.toList_ofList]

/-- A digit counts less than ten, and is the digit of what it counts. -/
theorem digitChar_of_isDigit (h : isDigit c = true) :
    c.toNat - '0'.toNat < 10 ∧ (c.toNat - '0'.toNat).digitChar = c := by
  rw [isDigit_eq, Char.isDigit_iff_toNat] at h
  have hlt : c.toNat - '0'.toNat < 10 := by
    have : '0'.toNat = 48 ∧ '9'.toNat = 57 := by decide
    omega
  refine ⟨hlt, Char.toNat_inj.1 ?_⟩
  rw [Nat.toNat_digitChar_of_lt_ten hlt]
  exact Nat.add_sub_cancel' h.1

/-! ## The canonical form -/

/-- **The canonical form of a numeral**: some digits, the first of which is zero only if
it is the only one. -/
structure Canonical (cs : List Char) : Prop where
  /-- There is a digit. -/
  ne_nil : cs ≠ []
  /-- There are digits only. -/
  isDigit : ∀ c ∈ cs, isDigit c = true
  /-- A leading zero stands alone. -/
  leading : cs.head? = some '0' → cs = ['0']

/-- The digits of a number other than zero do not begin with a zero. -/
theorem head?_toDigits_ne (h : 0 < n) : (Nat.toDigits 10 n).head? ≠ some '0' := by
  induction n using Nat.strongRecOn with
  | ind n ih =>
    rw [Nat.toDigits_eq_if (by decide)]
    split
    case isTrue =>
      simp only [List.head?_cons, ne_eq, Option.some.injEq, Nat.digitChar_eq_zero]
      exact Nat.ne_of_gt h
    case isFalse hn =>
      have hfront := ih (n / 10) (by omega) (by omega)
      rw [List.head?_append, List.head?_eq_some_head Nat.toDigits_ne_nil] at *
      exact hfront

/-- **What is written is canonical.** -/
theorem canonical_toDigits (n : Nat) : Canonical (Nat.toDigits 10 n) where
  ne_nil := Nat.toDigits_ne_nil
  isDigit c hc := by
    rw [isDigit_eq]
    exact Nat.isDigit_of_mem_toDigits (by decide) (by decide) hc
  leading hhead := by
    rcases Nat.eq_zero_or_pos n with rfl | hn
    · rfl
    · exact absurd hhead (head?_toDigits_ne hn)

/-- Digits that do not begin with a zero write a number other than zero. -/
theorem value_pos (hne : cs ≠ []) (hd : ∀ c ∈ cs, isDigit c = true)
    (hz : cs.head? ≠ some '0') : 0 < value cs := by
  obtain ⟨c, rest, rfl⟩ := List.exists_cons_of_ne_nil hne
  obtain ⟨-, hc⟩ := digitChar_of_isDigit (hd c List.mem_cons_self)
  have hpos : 0 < c.toNat - '0'.toNat := by
    refine Nat.pos_of_ne_zero fun h0 => hz ?_
    rw [h0] at hc
    exact congrArg some hc.symm
  rw [value_eq_ofDigitChars, Nat.ofDigitChars_cons, Nat.ofDigitChars_eq_ofDigitChars_zero]
  have := Nat.mul_pos (Nat.pow_pos (by decide : 0 < 10) : 0 < 10 ^ rest.length)
    (by simpa using hpos : 0 < 10 * 0 + (c.toNat - '0'.toNat))
  omega

/-- **A canonical form is what is written** for the number that it writes. The induction
takes the last digit off, since that is how numbers are written. -/
theorem Canonical.toDigits_value (h : Canonical cs) : Nat.toDigits 10 (value cs) = cs := by
  induction cs using List.reverseRecOn with
  | nil => exact absurd rfl h.ne_nil
  | append_singleton cs c ih =>
    obtain ⟨hlt, hc⟩ := digitChar_of_isDigit (h.isDigit c (by simp))
    have hvalue : value (cs ++ [c]) = 10 * value cs + (c.toNat - '0'.toNat) := by
      simp [value]
    by_cases hnil : cs = []
    · subst hnil
      rw [hvalue, show value [] = 0 from rfl, Nat.mul_zero, Nat.zero_add,
        Nat.toDigits_of_lt_base hlt, hc, List.nil_append]
    · have hd : ∀ c' ∈ cs, Numeral.isDigit c' = true := fun c' hc' =>
        h.isDigit c' (List.mem_append_left _ hc')
      have hz : cs.head? ≠ some '0' := fun hz => by
        have := h.leading (by rw [List.head?_append, hz, Option.some_or])
        exact hnil (List.append_eq_singleton_iff.1 this |>.elim (·.1) fun h => absurd h.2 nofun)
      rw [hvalue, ← Nat.toDigits_append_toDigits (by decide) (value_pos hnil hd hz) hlt,
        ih ⟨hnil, hd, fun h0 => absurd h0 hz⟩, Nat.toDigits_of_lt_base hlt, hc]

/-! ## What is read -/

/-- **Numbers are read in canonical forms only.** -/
theorem parse?_eq_some_iff_canonical :
    parse? s = some n ↔ Canonical s.toList ∧ value s.toList = n := by
  unfold parse?
  split
  case h_1 h =>
    rw [h]
    exact ⟨nofun, fun hc => absurd rfl hc.1.ne_nil⟩
  case h_2 h =>
    rw [h]
    have hzero : Canonical ['0'] := canonical_toDigits 0
    simp [hzero, value]
  case h_3 rest hne h =>
    rw [h]
    refine ⟨nofun, fun hc => absurd (hc.1.leading rfl) fun heq => hne ?_⟩
    simpa using heq
  case h_4 hnil _ hz =>
    have hcanonical : Canonical s.toList ↔ ∀ c ∈ s.toList, isDigit c = true := by
      refine ⟨Canonical.isDigit, fun hd => ⟨hnil, hd, fun hhead => ?_⟩⟩
      obtain ⟨rest, hrest⟩ := List.head?_eq_some_iff.1 hhead
      exact absurd hrest (hz rest)
    rw [hcanonical, Option.ite_none_right_eq_some, List.all_eq_true, Option.some.injEq]

/-- **A name is read as a number when it is the numeral of that number.** -/
theorem parse?_eq_some_iff : parse? s = some n ↔ s = write n := by
  rw [parse?_eq_some_iff_canonical, ← String.toList_inj, toList_write]
  constructor
  · rintro ⟨hc, rfl⟩
    exact hc.toDigits_value.symm
  · intro h
    rw [h, value_eq_ofDigitChars]
    exact ⟨canonical_toDigits n, Nat.ofDigitChars_ten_toDigits⟩

@[simp] theorem parse?_write (n : Nat) : parse? (write n) = some n :=
  parse?_eq_some_iff.2 rfl

/-! ## Words -/

/-- The number of machine words. -/
def wordBound : Nat := 0x10000000000000000

/-- What follows the plus sign in front, if there is one. -/
def unsigned : List Char → List Char
  | '+' :: cs => cs
  | cs => cs

/-- **Read a machine word**: digits with any number of leading zeros, and perhaps a plus
sign in front. A number that is no word is refused. -/
def readWord? (s : String) : Option Nat :=
  let digits := unsigned s.toList
  if digits ≠ [] ∧ digits.all isDigit ∧ value digits < wordBound then some (value digits)
  else none

/-- What is written for a word is read as that word. -/
theorem readWord?_write (h : n < wordBound) : readWord? (write n) = some n := by
  have hc := canonical_toDigits n
  have hsign : unsigned (Nat.toDigits 10 n) = Nat.toDigits 10 n := by
    unfold unsigned
    split
    case h_1 cs heq => exact absurd (hc.isDigit '+' (heq ▸ List.mem_cons_self)) (by decide)
    case h_2 => rfl
  have hvalue : value (Nat.toDigits 10 n) = n :=
    (value_eq_ofDigitChars _).trans Nat.ofDigitChars_ten_toDigits
  simp only [readWord?, toList_write, hsign, hvalue]
  exact if_pos ⟨hc.ne_nil, List.all_eq_true.2 hc.isDigit, h⟩

/-- **Canonical numerals below a bound**, by reading a word and comparing what is written
for it: what the reader accepts in any other spelling is refused by the comparison. -/
theorem filter_parse?_eq_filter_readWord? {bound : Nat} (hb : bound ≤ wordBound) (s : String) :
    (parse? s).filter (· < bound)
      = (readWord? s).filter fun n => n < bound ∧ write n = s := by
  ext n
  rw [Option.filter_eq_some_iff, Option.filter_eq_some_iff, parse?_eq_some_iff,
    decide_eq_true_iff, decide_eq_true_iff]
  constructor
  · rintro ⟨rfl, hn⟩
    exact ⟨readWord?_write (Nat.lt_of_lt_of_le hn hb), hn, rfl⟩
  · rintro ⟨-, hn, hs⟩
    exact ⟨hs.symm, hn⟩

end EmbeddedScript.Numeral
