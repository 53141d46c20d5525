import MyOriShop.Lib.Json

/-!
# JsonLimits: a reader of JSON that may give up

`Lib.Json.loads` reads every text that is JSON. A reader of an actual platform also raises on text
that is JSON: on an integer with too many digits, and where arrays and objects nest too deep.

* `LoadsError` is how such a reader raises, `Loads` any such reader.
* `plainLoads` has no limits, `shallowLoads depth` gives up after so many opening brackets.

Results:
* `shallowLoads_deep`: brackets alone are too deep.
-/

namespace MyOriShop.Lib.Json

/-- How `json.loads` raises. -/
inductive LoadsError where
  /-- `JSONDecodeError`, a `ValueError`. -/
  | decode
  /-- The plain `ValueError` about an integer with too many digits. -/
  | digits
  /-- `RecursionError`. -/
  | recursion
  deriving DecidableEq

/-- `isinstance(e, ValueError)`. -/
def LoadsError.isValueError : LoadsError → Bool
  | .decode | .digits => true
  | .recursion => false

/-- A `json.loads`. -/
abbrev Loads := String → Except LoadsError Value

/-- The reader without limits. -/
def plainLoads : Loads := fun raw =>
  match loads raw with
  | some v => .ok v
  | none => .error .decode

/-- A reader that nests no deeper than `depth`, for text that opens with brackets. -/
def shallowLoads (depth : Nat) : Loads := fun raw =>
  if depth < (raw.toList.takeWhile (· = '[')).length then .error .recursion else plainLoads raw

/-- Opening brackets. -/
def deepText (n : Nat) : String := String.ofList (List.replicate n '[')

theorem takeWhile_deepText (n : Nat) :
    (deepText n).toList.takeWhile (· = '[') = List.replicate n '[' := by
  rw [deepText, String.toList_ofList, List.takeWhile_replicate]
  simp

theorem shallowLoads_deep {depth n : Nat} (h : depth < n) :
    shallowLoads depth (deepText n) = .error .recursion := by
  unfold shallowLoads
  rw [takeWhile_deepText, List.length_replicate, if_pos h]

/-- Where the reader without limits returns a value, that is the value. -/
theorem plainLoads_ok_iff {raw : String} {v : Value} :
    plainLoads raw = .ok v ↔ loads raw = some v := by
  unfold plainLoads
  cases loads raw with
  | none => exact ⟨fun h => (nomatch h), fun h => (nomatch h)⟩
  | some w => exact ⟨fun h => by cases h; rfl, fun h => by cases h; rfl⟩

end MyOriShop.Lib.Json
