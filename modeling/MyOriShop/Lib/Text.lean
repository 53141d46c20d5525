import Mathlib.Data.List.Basic
import Mathlib.Data.List.DropRight
import Mathlib.Data.String.Basic

/-!
# Text: the string operations of the source language

The Python `str` methods the services and the parsers call, on Lean's `String` (a string is its
list of Unicode scalar values).

* `isSpace` is `str.isspace` on one character: the White_Space characters plus the four
  separators U+001C to U+001F, which is what `str.strip` trims and what a blank line consists of.
* `strip` is `str.strip()`, `isBlank` is `not s.strip()`.
* `parseDigits` is the guard `s.isascii() and s.isdigit()` together with `int(s)`.
* `orNone` is the idiom `s or None`.

Results:
* `not_isBlank_of_mem`: one character that is not white space makes a line non-blank.
* `strip_strip`: there is nothing left to strip.
-/

namespace MyOriShop.Lib.Text

/-- `str.isspace` for one character. -/
def isSpace (c : Char) : Bool :=
  let n := c.toNat
  (9 ≤ n && n ≤ 13) || (28 ≤ n && n ≤ 32) || n == 0x85 || n == 0xA0 || n == 0x1680 ||
    (0x2000 ≤ n && n ≤ 0x200A) || n == 0x2028 || n == 0x2029 || n == 0x202F || n == 0x205F ||
    n == 0x3000

/-- `str.strip` on the character list: white space goes from both ends. -/
def stripChars (cs : List Char) : List Char :=
  ((cs.dropWhile isSpace).reverse.dropWhile isSpace).reverse

/-- `str.strip()`. -/
def strip (s : String) : String := String.ofList (stripChars s.toList)

/-- `not s.strip()`: nothing but white space. -/
def isBlank (s : String) : Bool := s.toList.all isSpace

/-- The idiom `s or None`: an empty string is stored as NULL. -/
def orNone (s : String) : Option String := if s = "" then none else some s

/-- `int(s) if s.isascii() and s.isdigit()`: only a non-empty run of ASCII digits parses. -/
def parseDigits (s : String) : Option Nat :=
  if s ≠ "" ∧ s.toList.all Char.isDigit then some (Nat.ofDigitChars 10 s.toList 0) else none

theorem not_isBlank_of_mem {s : String} {c : Char} (hc : c ∈ s.toList) (hs : isSpace c = false) :
    isBlank s = false := by
  unfold isBlank
  rw [List.all_eq_false]
  exact ⟨c, hc, by simp [hs]⟩

/-- What is stripped neither begins nor ends with white space. -/
theorem stripChars_stripChars (cs : List Char) : stripChars (stripChars cs) = stripChars cs := by
  have hfirst : (stripChars cs).dropWhile isSpace = stripChars cs := by
    unfold stripChars
    generalize hfront : cs.dropWhile isSpace = front
    cases front with
    | nil => rfl
    | cons c front =>
      have hc : isSpace c = false := by
        have hhead := List.head_dropWhile_not isSpace (l := cs) (by simp [hfront])
        simpa [hfront] using hhead
      obtain ⟨kept, hkept⟩ : ∃ kept,
          ((c :: front).reverse.dropWhile isSpace).reverse = c :: kept := by
        rw [List.reverse_cons, List.dropWhile_append]
        split_ifs
        · exact ⟨[], by simp [hc]⟩
        · exact ⟨_, by rw [List.reverse_append]; rfl⟩
      rw [hkept, List.dropWhile_cons_of_neg (by simp [hc])]
  rw [stripChars, hfirst]
  unfold stripChars
  rw [List.reverse_reverse, List.dropWhile_idempotent]

theorem strip_strip (s : String) : strip (strip s) = strip s := by
  unfold strip
  rw [String.toList_ofList, stripChars_stripChars]

end MyOriShop.Lib.Text
