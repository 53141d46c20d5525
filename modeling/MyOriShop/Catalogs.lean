import Mathlib.Data.List.ReduceOption
import MyOriShop.Locations
import MyOriShop.MasterImport
import MyOriShop.Money

/-!
# Catalogs: the published files and what is in them (`app/services/catalogs.py`)

A catalog is a file of one folder, by the year and the number that the digits of its name make up.
Which products are in it says a column of the dictionary, with codes such as `01_26`. The list of
the catalogs counts every code that is read as the catalog's; the page of a catalog lists the rows
with the one code that the catalog is written as.

* `scanCatalogFiles`, `listCatalogs`, `getCatalog`, `productsInCatalog` and `catalogsForCode` are
  the functions of these names. The folder is the names that match the pattern, in the order of the
  directory; an answer is `none` where the source raises.
* `isDigit` is `str.isdigit` of one character.
* `Dictionary.Agrees`: the list counts a row for a catalog as the catalog's page does.

Results:
* `parseUrlCode_toUrlCode`: which links are read as they were written.
* `get?_scanCatalogFiles`: the file of a catalog is the first that has its key.
* `catalog_pages`: which catalogs of the list have a page, when the count is that of the page, and
  that the links of a product's card all work.
-/

namespace MyOriShop

open Lib.Text Lib.Assoc
open Lib.Json (Value)

/-! ## Codes -/

/-- `parse_url_code`: `2026-01` is the first catalog of 2026. -/
def parseUrlCode (code : String) : Option (Nat × Nat) :=
  match takeDecimals (stripChars code.toList) with
  | (year, '-' :: rest) =>
    match takeDecimals rest with
    | (number, []) =>
      if year.length = 4 ∧ (number.length = 1 ∨ number.length = 2) then
        some (natOfDecimals year, natOfDecimals number)
      else none
    | _ => none
  | _ => none

/-- `to_url_code`. -/
def toUrlCode (year number : Nat) : String :=
  String.ofList (Nat.toDigits 10 year ++ '-' :: twoDigits number)

/-! ## The folder -/

/-- `_file_key` of a name that ends in `.pdf`. -/
def fileKey (filename : String) : Option (Nat × Nat) :=
  let stem := filename.toList.take (filename.toList.length - 4)
  let digits := stem.filterMap decimalDigit
  if digits.length < 5 then none
  else some (natOfDecimals (digits.take 4), natOfDecimals (digits.drop 4))

/-- `mapping.setdefault(key, pdf.name)`, for a file that has a key. -/
def scanCatalogFile (mapping : Dict (Nat × Nat) String) (filename : String) :
    Dict (Nat × Nat) String :=
  match fileKey filename with
  | none => mapping
  | some key => mapping.modify key fun old => old.getD filename

/-- `scan_catalog_files`. -/
def scanCatalogFiles (folder : List String) : Dict (Nat × Nat) String :=
  folder.foldl scanCatalogFile Dict.empty

/-- A published catalog. -/
structure PublishedCatalog where
  year : Nat
  number : Nat
  filename : String
  deriving DecidableEq

/-- `url_code`. -/
def PublishedCatalog.urlCode (c : PublishedCatalog) : String := toUrlCode c.year c.number

/-- `get_catalog`. -/
def getCatalog (folder : List String) (urlCode : String) : Option PublishedCatalog :=
  (parseUrlCode urlCode).bind fun key =>
    ((scanCatalogFiles folder).get? key).map fun filename => ⟨key.1, key.2, filename⟩

/-! ## The dictionary -/

/-- `e.catalogs or []`. -/
def Dictionary.codes (e : Dictionary) : Value := if isTruthy e.catalogs then e.catalogs else .arr []

/-- `parse_json_code` of an element: only a text has `strip`. -/
def codeKey : Value → Option (Option (Nat × Nat))
  | .str code => some (parseJsonCode code)
  | _ => none

/-- The keys that a row's codes are read as. -/
def Dictionary.codeKeys (e : Dictionary) : Option (List (Nat × Nat)) :=
  (listOf e.codes).toOption.bind fun codes => (codes.mapM codeKey).map List.reduceOption

/-- Whether an element is the text. -/
def isText (code : String) : Value → Bool
  | .str s => s = code
  | _ => false

/-- `json_code in (e.catalogs or [])`. -/
def Dictionary.hasCode (code : String) (e : Dictionary) : Option Bool :=
  match e.codes with
  | .str s => some (occursIn code s)
  | v => (listOf v).toOption.map fun items => items.any (isText code)

/-- `_membership_counts`. -/
def membershipCounts (rows : List Dictionary) : Option (Counter (Nat × Nat)) :=
  if rows.all fun e => e.codeKeys.isSome then
    some ((rows.flatMap fun e => e.codeKeys.getD []).foldl
      (fun counts key => counts.add key 1) Dict.empty)
  else none

/-- `products_in_catalog`. -/
def productsInCatalog (env : Env) (rows : List Dictionary) (urlCode : String) :
    Option (List Dictionary) :=
  match parseUrlCode urlCode with
  | none => some []
  | some (year, number) =>
    let jsonCode := toJsonCode year number
    if rows.all fun e => (e.hasCode jsonCode).isSome then
      some (sortBy (fun e => env.lower e.name)
        (rows.filter fun e => e.hasCode jsonCode = some true))
    else none

/-- `catalogs_for_code`, as keys. -/
def catalogsForCode (folder : List String) (rows : List Dictionary) (code : String) :
    Option (List (Nat × Nat)) :=
  if strip code = "" then some [] else
  match rows.find? fun e => e.code = strip code with
  | none => some []
  | some e => e.codeKeys.map fun keys =>
    sortByDesc (fun key => (toLex key : Nat ×ₗ Nat))
      (keys.filter fun key => ((scanCatalogFiles folder).get? key).isSome)

/-! ## The list -/

/-- A row of the list. -/
structure CatalogRow extends PublishedCatalog where
  productCount : Nat

/-- What the list is asked for. -/
structure CatalogQuery where
  year : String := ""
  sort : String := ""

/-- The year that the rows are filtered by, if any; `int` raises for a digit that is not decimal. -/
def askedYear (isDigit : Char → Bool) (year : String) : Option (Option Nat) :=
  if strip year ≠ "" ∧ (strip year).toList.all isDigit then
    match takeDecimals (strip year).toList with
    | (ds, []) => some (some (natOfDecimals ds))
    | _ => none
  else some none

/-- The rows of all catalogs, or of those of a year. -/
def catalogRows (folder : List String) (counts : Counter (Nat × Nat)) (year : Option Nat) :
    List CatalogRow :=
  let rows := (scanCatalogFiles folder).entries.map fun e =>
    { year := e.1.1, number := e.1.2, filename := e.2, productCount := (counts.get? e.1).getD 0 }
  match year with
  | none => rows
  | some y => rows.filter fun c => c.year = y

/-- `list_catalogs`. -/
def listCatalogs (isDigit : Char → Bool) (folder : List String) (rows : List Dictionary)
    (q : CatalogQuery) (page : Int) : Option (ListPage CatalogQuery CatalogRow) := do
  let counts ← membershipCounts rows
  let year ← askedYear isDigit q.year
  let catalogs := catalogRows folder counts year
  let key := fun c : CatalogRow => (toLex (c.year, c.number) : Nat ×ₗ Nat)
  let sorted := if q.sort = "oldest" then sortBy key catalogs else sortByDesc key catalogs
  let shown := paginate sorted page
  return { rows := shown.1, total := shown.2.1, totalPages := shown.2.2, page := page, query := q }

/-- A row's codes are read as the catalog's as often as its page takes the row in: once or never. -/
def Dictionary.Agrees (year number : Nat) (e : Dictionary) : Prop :=
  (e.codeKeys.getD []).count (year, number) =
    if e.hasCode (toJsonCode year number) = some true then 1 else 0

instance (year number : Nat) : DecidablePred (Dictionary.Agrees year number) :=
  fun _ => inferInstanceAs (Decidable (_ = _))

/-! ## What a code is read as -/

theorem isDigit_twoDigits (n : Nat) : ∀ c ∈ twoDigits n, c.isDigit := by
  intro c hc
  obtain h | h := List.mem_append.mp hc
  · split at h
    · rw [List.mem_singleton.mp h]
      rfl
    · exact absurd h List.not_mem_nil
  · exact Nat.isDigit_of_mem_toDigits (by omega) le_rfl h

theorem ofDigitChars_twoDigits (n : Nat) : Nat.ofDigitChars 10 (twoDigits n) 0 = n := by
  have hzero : Nat.ofDigitChars 10 (if n < 10 then ['0'] else []) 0 = 0 := by split <;> rfl
  rw [twoDigits, Nat.ofDigitChars_append, hzero, Nat.ofDigitChars_ten_toDigits]

theorem two_le_length_twoDigits (n : Nat) : 2 ≤ (twoDigits n).length := by
  have hpos : 0 < (Nat.toDigits 10 n).length := Nat.length_toDigits_pos
  have hone : (Nat.toDigits 10 n).length ≤ 1 ↔ n < 10 ^ 1 :=
    Nat.length_toDigits_le_iff (by omega) (by omega)
  rw [twoDigits, List.length_append]
  split
  · rw [List.length_singleton]
    omega
  · omega

theorem length_twoDigits_iff (n : Nat) :
    (twoDigits n).length = 1 ∨ (twoDigits n).length = 2 ↔ n < 100 := by
  have hpos : 0 < (Nat.toDigits 10 n).length := Nat.length_toDigits_pos
  have hone : (Nat.toDigits 10 n).length ≤ 1 ↔ n < 10 ^ 1 :=
    Nat.length_toDigits_le_iff (by omega) (by omega)
  have htwo : (Nat.toDigits 10 n).length ≤ 2 ↔ n < 10 ^ 2 :=
    Nat.length_toDigits_le_iff (by omega) (by omega)
  rw [twoDigits, List.length_append]
  split
  · rw [List.length_singleton]
    omega
  · rw [List.length_nil]
    omega

theorem length_toDigits_four (n : Nat) :
    (Nat.toDigits 10 n).length = 4 ↔ 1000 ≤ n ∧ n < 10000 := by
  have hthree : (Nat.toDigits 10 n).length ≤ 3 ↔ n < 10 ^ 3 :=
    Nat.length_toDigits_le_iff (by omega) (by omega)
  have hfour : (Nat.toDigits 10 n).length ≤ 4 ↔ n < 10 ^ 4 :=
    Nat.length_toDigits_le_iff (by omega) (by omega)
  omega

/-- A run of digits up to what ends it. -/
theorem takeDecimals_until {cs : List Char} (h : ∀ c ∈ cs, c.isDigit) {c : Char}
    (hc : decimalDigit c = none) (rest : List Char) :
    takeDecimals (cs ++ c :: rest) = (cs.map fun d => d.toNat - '0'.toNat, c :: rest) := by
  rw [takeDecimals_digits h, takeDecimals, hc, List.append_nil]

theorem takeDecimals_all {cs : List Char} (h : ∀ c ∈ cs, c.isDigit) :
    takeDecimals cs = (cs.map fun d => d.toNat - '0'.toNat, []) := by
  have hread := takeDecimals_digits h []
  rwa [List.append_nil, takeDecimals, List.append_nil] at hread

/-- Digits around a separator have no white space. -/
theorem stripChars_written {cs ds : List Char} (hcs : ∀ c ∈ cs, c.isDigit)
    (hds : ∀ c ∈ ds, c.isDigit) {sep : Char} (hsep : isSpace sep = false) :
    stripChars (cs ++ sep :: ds) = cs ++ sep :: ds := by
  refine stripChars_eq_self fun c hc => ?_
  obtain h | h := List.mem_append.mp hc
  · exact isSpace_of_isDigit (hcs c h)
  · obtain rfl | h := List.mem_cons.mp h
    · exact hsep
    · exact isSpace_of_isDigit (hds c h)

theorem isDigit_toDigits (n : Nat) : ∀ c ∈ Nat.toDigits 10 n, c.isDigit :=
  fun _ hc => Nat.isDigit_of_mem_toDigits (by omega) le_rfl hc

/-- **A link is read as it was written for years of four digits and numbers of two.** -/
theorem parseUrlCode_toUrlCode (year number : Nat) :
    parseUrlCode (toUrlCode year number) =
      if (1000 ≤ year ∧ year < 10000) ∧ number < 100 then some (year, number) else none := by
  unfold parseUrlCode toUrlCode
  rw [String.toList_ofList,
    stripChars_written (isDigit_toDigits year) (isDigit_twoDigits number) (by decide),
    takeDecimals_until (isDigit_toDigits year) (by decide)]
  simp only [takeDecimals_all (isDigit_twoDigits number), List.length_map, natOfDecimals_digits,
    Nat.ofDigitChars_ten_toDigits, ofDigitChars_twoDigits, length_toDigits_four,
    length_twoDigits_iff]

/-- A code is read as it was written for numbers of two digits, in this century. -/
theorem parseJsonCode_toJsonCode (year : Nat) {number : Nat} (hnumber : number < 100) :
    parseJsonCode (toJsonCode year number) = some (2000 + year % 100, number) := by
  have hyear : (twoDigits (year % 100)).length = 2 := by
    have hshort := (length_twoDigits_iff (year % 100)).mpr (Nat.mod_lt _ (by omega))
    have hlong := two_le_length_twoDigits (year % 100)
    omega
  unfold parseJsonCode toJsonCode
  rw [String.toList_ofList,
    stripChars_written (isDigit_twoDigits number) (isDigit_twoDigits (year % 100)) (by decide),
    takeDecimals_until (isDigit_twoDigits number) (by decide)]
  simp only [takeDecimals_all (isDigit_twoDigits (year % 100)), List.length_map,
    natOfDecimals_digits, ofDigitChars_twoDigits, length_twoDigits_iff, hyear, hnumber, and_self,
    if_true]

/-- A digit is below ten. -/
theorem decimalDigit_lt {c : Char} {n : Nat} (h : decimalDigit c = some n) : n < 10 := by
  obtain ⟨z, hz, rfl⟩ := Option.map_eq_some_iff.mp h
  have hrange := List.find?_some hz
  simp only [Bool.and_eq_true, decide_eq_true_eq] at hrange
  omega

theorem lt_of_mem_takeDecimals {cs : List Char} : ∀ n ∈ (takeDecimals cs).1, n < 10 := by
  induction cs with
  | nil => exact fun n hn => absurd hn List.not_mem_nil
  | cons c cs ih =>
    intro n hn
    unfold takeDecimals at hn
    cases hc : decimalDigit c with
    | none =>
      rw [hc] at hn
      exact absurd hn List.not_mem_nil
    | some d =>
      rw [hc] at hn
      obtain rfl | hn := List.mem_cons.mp hn
      · exact decimalDigit_lt hc
      · exact ih n hn

/-- A number of so many digits. -/
theorem natOfDecimals_lt {ds : List Nat} (h : ∀ d ∈ ds, d < 10) :
    natOfDecimals ds < 10 ^ ds.length := by
  induction ds using List.reverseRecOn with
  | nil => exact Nat.one_pos
  | append_singleton ds d ih =>
    have hd : d < 10 := h d (List.mem_append_right _ List.mem_cons_self)
    have hds := ih fun e he => h e (List.mem_append_left _ he)
    unfold natOfDecimals at hds ⊢
    rw [List.foldl_append, List.foldl_cons, List.foldl_nil, List.length_append,
      List.length_singleton, pow_succ]
    omega

/-- What is read as a catalog is one of this century, with a number of two digits. -/
theorem parseJsonCode_range {code : String} {key : Nat × Nat} (h : parseJsonCode code = some key) :
    (2000 ≤ key.1 ∧ key.1 < 2100) ∧ key.2 < 100 := by
  unfold parseJsonCode at h
  split at h
  · next month rest hmonth =>
    split at h
    · next year hyear =>
      split_ifs at h with hlength
      cases h
      have hmonths : ∀ n ∈ month, n < 10 := by
        have hread := @lt_of_mem_takeDecimals (stripChars code.toList)
        rwa [hmonth] at hread
      have hyears : ∀ n ∈ year, n < 10 := by
        have hread := @lt_of_mem_takeDecimals rest
        rwa [hyear] at hread
      have hnumber := natOfDecimals_lt hmonths
      have hshort := natOfDecimals_lt hyears
      rw [hlength.2] at hshort
      obtain hone | htwo := hlength.1
      · rw [hone] at hnumber
        omega
      · rw [htwo] at hnumber
        omega
    · cases h
  · cases h

/-! ## What a name is read as -/

theorem fileKey_year {filename : String} {key : Nat × Nat} (h : fileKey filename = some key) :
    key.1 < 10000 := by
  dsimp only [fileKey] at h
  split_ifs at h with hshort
  cases h
  refine lt_of_lt_of_le (natOfDecimals_lt fun d hd => ?_)
    (Nat.pow_le_pow_right (by omega) (List.length_take_le 4 _))
  obtain ⟨c, -, hc⟩ := List.mem_filterMap.mp (List.mem_of_mem_take hd)
  exact decimalDigit_lt hc

theorem get?_scanCatalogFile (mapping : Dict (Nat × Nat) String) (filename : String)
    (key : Nat × Nat) :
    (scanCatalogFile mapping filename).get? key =
      (mapping.get? key).or (if fileKey filename = some key then some filename else none) := by
  unfold scanCatalogFile
  cases hfile : fileKey filename with
  | none => simp
  | some k =>
    rw [Dict.get?_modify]
    by_cases hk : key = k
    · subst hk
      cases mapping.get? key <;> simp
    · simp [hk, Ne.symm hk]

theorem get?_foldl_scanCatalogFile (folder : List String) (mapping : Dict (Nat × Nat) String)
    (key : Nat × Nat) : (folder.foldl scanCatalogFile mapping).get? key =
      (mapping.get? key).or (folder.find? fun f => fileKey f = some key) := by
  induction folder generalizing mapping with
  | nil => simp
  | cons f folder ih =>
    rw [List.foldl_cons, ih, get?_scanCatalogFile, List.find?_cons, Option.or_assoc]
    by_cases hf : fileKey f = some key <;> simp [hf]

/-- **The file of a catalog is the first that has its key.** -/
theorem get?_scanCatalogFiles (folder : List String) (key : Nat × Nat) :
    (scanCatalogFiles folder).get? key = folder.find? fun f => fileKey f = some key := by
  rw [scanCatalogFiles, get?_foldl_scanCatalogFile, Dict.get?_empty, Option.none_or]

theorem year_of_scanned {folder : List String} {key : Nat × Nat} {filename : String}
    (h : (scanCatalogFiles folder).get? key = some filename) : key.1 < 10000 := by
  rw [get?_scanCatalogFiles] at h
  exact fileKey_year (by simpa using List.find?_some h)

/-- The link of a published catalog, as far as it is read. -/
theorem getCatalog_toUrlCode {folder : List String} {year number : Nat} {filename : String}
    (h : (scanCatalogFiles folder).get? (year, number) = some filename) :
    getCatalog folder (toUrlCode year number) =
      if 1000 ≤ year ∧ number < 100 then some ⟨year, number, filename⟩ else none := by
  have hyear : year < 10000 := year_of_scanned h
  rw [getCatalog, parseUrlCode_toUrlCode]
  by_cases hread : 1000 ≤ year ∧ number < 100
  · rw [if_pos ⟨⟨hread.1, hyear⟩, hread.2⟩, if_pos hread, Option.bind_some, h]
    rfl
  · rw [if_neg fun h' => hread ⟨h'.1.1, h'.2⟩, if_neg hread, Option.bind_none]

/-! ## The counts -/

theorem getD_addCounts (a b : Option Nat) : (addCounts a b).getD 0 = a.getD 0 + b.getD 0 := by
  cases a <;> cases b <;> simp

theorem getD_tallied (keys : List (Nat × Nat)) (counts : Counter (Nat × Nat)) (key : Nat × Nat) :
    ((keys.foldl (fun counts k => counts.add k 1) counts).get? key).getD 0 =
      (counts.get? key).getD 0 + keys.count key := by
  induction keys generalizing counts with
  | nil => rfl
  | cons k keys ih =>
    rw [List.foldl_cons, ih, get?_add, getD_addCounts, List.count_cons]
    by_cases hk : key = k
    · simp [hk, add_assoc, add_comm]
    · simp [hk, Ne.symm hk]

/-- The count of a catalog is the sum over the rows. -/
theorem getD_membershipCounts {rows : List Dictionary} {counts : Counter (Nat × Nat)}
    (h : membershipCounts rows = some counts) (key : Nat × Nat) :
    (counts.get? key).getD 0 = (rows.map fun e => (e.codeKeys.getD []).count key).sum := by
  unfold membershipCounts at h
  split_ifs at h
  cases h
  rw [getD_tallied, Dict.get?_empty, List.count_flatMap]
  exact Nat.zero_add _

/-- Two sums of which one is nowhere above the other. -/
theorem sum_eq_sum_iff {α : Type} {rows : List α} {f g : α → Nat} (h : ∀ a ∈ rows, f a ≤ g a) :
    (rows.map f).sum = (rows.map g).sum ↔ ∀ a ∈ rows, f a = g a := by
  induction rows with
  | nil => simp
  | cons a rows ih =>
    have hrest := fun b hb => h b (List.mem_cons_of_mem a hb)
    have hle : (rows.map f).sum ≤ (rows.map g).sum := List.sum_le_sum hrest
    have ha := h a List.mem_cons_self
    rw [List.map_cons, List.map_cons, List.sum_cons, List.sum_cons, List.forall_mem_cons,
      ← ih hrest]
    omega

/-- A column that is no bare text is asked for its elements. -/
theorem hasCode_of_list {e : Dictionary} (h : ∀ s, e.catalogs ≠ .str s) (code : String) :
    e.hasCode code = (listOf e.codes).toOption.map fun items => items.any (isText code) := by
  unfold Dictionary.hasCode
  split
  · next s hs =>
    unfold Dictionary.codes at hs
    split_ifs at hs
    exact absurd hs (h s)
  · rfl

theorem codeKeys_some {e : Dictionary} {keys : List (Nat × Nat)} (h : e.codeKeys = some keys) :
    ∃ items ks, (listOf e.codes).toOption = some items ∧
      List.Forall₂ (fun v k => codeKey v = some k) items ks ∧ keys = ks.reduceOption := by
  obtain ⟨items, hitems, h⟩ := Option.bind_eq_some_iff.mp h
  obtain ⟨ks, hks, rfl⟩ := Option.map_eq_some_iff.mp h
  exact ⟨items, ks, hitems, mapM_option_iff.mp hks, rfl⟩

/-- Every key of a row is one of this century. -/
theorem range_of_mem_codeKeys {e : Dictionary} {keys : List (Nat × Nat)}
    (h : e.codeKeys = some keys) {key : Nat × Nat} (hkey : key ∈ keys) :
    (2000 ≤ key.1 ∧ key.1 < 2100) ∧ key.2 < 100 := by
  obtain ⟨items, ks, -, hread, rfl⟩ := codeKeys_some h
  obtain ⟨v, -, hv⟩ := Lib.Fallible.forall₂_mem_right hread (List.reduceOption_mem_iff.mp hkey)
  cases v with
  | str code => exact parseJsonCode_range (Option.some.inj hv)
  | _ => cases hv

/-- A row that the page takes in has a code that is read as the catalog's, if it is one of this
century. -/
theorem mem_codeKeys_of_hasCode {e : Dictionary} {keys : List (Nat × Nat)}
    (h : e.codeKeys = some keys) (htext : ∀ s, e.catalogs ≠ .str s) {year number : Nat}
    (hyear : 2000 ≤ year ∧ year < 2100) (hnumber : number < 100)
    (hcode : e.hasCode (toJsonCode year number) = some true) : (year, number) ∈ keys := by
  obtain ⟨items, ks, hitems, hread, rfl⟩ := codeKeys_some h
  rw [hasCode_of_list htext, hitems] at hcode
  obtain ⟨v, hv, htextv⟩ := List.any_eq_true.mp (Option.some.inj hcode)
  obtain ⟨k, hk, hvk⟩ := Lib.Fallible.forall₂_mem_left hread hv
  cases v with
  | str code =>
    have hcode : code = toJsonCode year number := of_decide_eq_true htextv
    have hkey : parseJsonCode code = k := Option.some.inj hvk
    rw [hcode, parseJsonCode_toJsonCode year hnumber,
      show 2000 + year % 100 = year by omega] at hkey
    exact List.reduceOption_mem_iff.mpr (hkey ▸ hk)
  | _ => cases hvk

theorem hasCode_isSome {e : Dictionary} (h : e.codeKeys.isSome) (code : String) :
    (e.hasCode code).isSome := by
  obtain ⟨keys, hkeys⟩ := Option.isSome_iff_exists.mp h
  obtain ⟨items, -, hitems, -⟩ := codeKeys_some hkeys
  unfold Dictionary.hasCode
  split
  · rfl
  · rw [hitems]
    rfl

theorem readable_rows {rows : List Dictionary} {counts : Counter (Nat × Nat)}
    (h : membershipCounts rows = some counts) : ∀ e ∈ rows, e.codeKeys.isSome := by
  unfold membershipCounts at h
  split_ifs at h with hall
  exact List.all_eq_true.mp hall

theorem length_filter_sum {α : Type} (p : α → Prop) [DecidablePred p] (rows : List α) :
    (rows.filter fun a => p a).length = (rows.map fun a => if p a then 1 else 0).sum := by
  induction rows with
  | nil => rfl
  | cons a rows ih =>
    rw [List.filter_cons, List.map_cons, List.sum_cons, ← ih]
    by_cases ha : p a <;> simp [ha, add_comm]

/-- The count is that of the page where every row agrees: the two differ in one direction only. -/
theorem count_iff_agrees {rows : List Dictionary} {counts : Counter (Nat × Nat)}
    (h : membershipCounts rows = some counts) (htexts : ∀ e ∈ rows, ∀ s, e.catalogs ≠ .str s)
    {year number : Nat} (hnumber : number < 100) :
    (counts.get? (year, number)).getD 0 =
        (rows.filter fun e => e.hasCode (toJsonCode year number) = some true).length ↔
      ∀ e ∈ rows, e.Agrees year number := by
  have hreadable := readable_rows h
  rw [getD_membershipCounts h, length_filter_sum]
  by_cases hyear : 2000 ≤ year ∧ year < 2100
  · rw [eq_comm, sum_eq_sum_iff fun e he => ?_]
    · exact forall₂_congr fun e _ => eq_comm
    · obtain ⟨keys, hkeys⟩ := Option.isSome_iff_exists.mp (hreadable e he)
      rw [hkeys, Option.getD_some]
      split
      · next hcode =>
        exact List.count_pos_iff.mpr
          (mem_codeKeys_of_hasCode hkeys (htexts e he) hyear hnumber hcode)
      · exact Nat.zero_le _
  · refine sum_eq_sum_iff fun e he => ?_
    obtain ⟨keys, hkeys⟩ := Option.isSome_iff_exists.mp (hreadable e he)
    rw [hkeys, Option.getD_some,
      List.count_eq_zero.mpr fun hmem => hyear (range_of_mem_codeKeys hkeys hmem).1]
    exact Nat.zero_le _

/-! ## The pages -/

theorem mem_of_mem_paginate {α : Type} {rows : List α} {page : Int} {a : α}
    (h : a ∈ (paginate rows page).1) : a ∈ rows :=
  List.mem_of_mem_drop (List.mem_of_mem_take h)

theorem mem_catalogRows {folder : List String} {counts : Counter (Nat × Nat)} {year : Option Nat}
    {c : CatalogRow} (h : c ∈ catalogRows folder counts year) :
    (scanCatalogFiles folder).get? (c.year, c.number) = some c.filename ∧
      c.productCount = (counts.get? (c.year, c.number)).getD 0 := by
  have hmem : ∃ e ∈ (scanCatalogFiles folder).entries, (⟨⟨e.1.1, e.1.2, e.2⟩,
      (counts.get? e.1).getD 0⟩ : CatalogRow) = c := by
    unfold catalogRows at h
    cases year with
    | none => exact List.mem_map.mp h
    | some y => exact List.mem_map.mp (List.mem_of_mem_filter h)
  obtain ⟨e, he, rfl⟩ := hmem
  exact ⟨Dict.get?_eq_some.mpr he, rfl⟩

/-- What the list shows of a catalog. -/
theorem mem_listCatalogs {isDigit : Char → Bool} {folder : List String} {rows : List Dictionary}
    {q : CatalogQuery} {page : Int} {view : ListPage CatalogQuery CatalogRow}
    (h : listCatalogs isDigit folder rows q page = some view) :
    ∃ counts, membershipCounts rows = some counts ∧ ∀ c ∈ view.rows,
      (scanCatalogFiles folder).get? (c.year, c.number) = some c.filename ∧
        c.productCount = (counts.get? (c.year, c.number)).getD 0 := by
  obtain ⟨counts, hcounts, h⟩ := Option.bind_eq_some_iff.mp h
  obtain ⟨year, -, h⟩ := Option.bind_eq_some_iff.mp h
  cases h
  refine ⟨counts, hcounts, fun c hc => @mem_catalogRows folder counts year c ?_⟩
  have hsorted := mem_of_mem_paginate hc
  split at hsorted
  · exact (List.perm_insertionSort _ _).mem_iff.mp hsorted
  · exact (List.perm_insertionSort _ _).mem_iff.mp hsorted

theorem productsInCatalog_toUrlCode (env : Env) {rows : List Dictionary}
    (h : ∀ e ∈ rows, e.codeKeys.isSome) {year number : Nat}
    (hyear : 1000 ≤ year ∧ year < 10000) (hnumber : number < 100) :
    productsInCatalog env rows (toUrlCode year number) =
      some (sortBy (fun e => env.lower e.name)
        (rows.filter fun e => e.hasCode (toJsonCode year number) = some true)) := by
  unfold productsInCatalog
  rw [parseUrlCode_toUrlCode, if_pos ⟨hyear, hnumber⟩]
  exact if_pos (List.all_eq_true.mpr fun e he => hasCode_isSome (h e he) _)

/-- **The links of a product's card all work.** -/
theorem cardLinks_work {folder : List String} {rows : List Dictionary} {code : String}
    {links : List (Nat × Nat)} (h : catalogsForCode folder rows code = some links)
    {key : Nat × Nat} (hkey : key ∈ links) :
    (getCatalog folder (toUrlCode key.1 key.2)).isSome := by
  unfold catalogsForCode at h
  split_ifs at h
  · cases h
    exact absurd hkey List.not_mem_nil
  · split at h
    · cases h
      exact absurd hkey List.not_mem_nil
    · obtain ⟨keys, hkeys, rfl⟩ := Option.map_eq_some_iff.mp h
      have hmem := List.mem_filter.mp ((List.perm_insertionSort _ _).mem_iff.mp hkey)
      obtain ⟨filename, hfile⟩ := Option.isSome_iff_exists.mp hmem.2
      obtain ⟨⟨hyear, -⟩, hnumber⟩ := range_of_mem_codeKeys hkeys hmem.1
      rw [getCatalog_toUrlCode hfile, if_pos ⟨by omega, hnumber⟩]
      rfl

/-- **A catalog of the list has a page exactly when its year has four digits and its number no more
than two, and is counted there as on the page exactly when every row agrees. A product's card is
served, and its links all work.** -/
theorem catalog_pages (env : Env) {isDigit : Char → Bool} {folder : List String}
    {rows : List Dictionary} {q : CatalogQuery} {page : Int}
    {view : ListPage CatalogQuery CatalogRow}
    (h : listCatalogs isDigit folder rows q page = some view)
    (htexts : ∀ e ∈ rows, ∀ s, e.catalogs ≠ .str s) :
    (∀ c ∈ view.rows,
      getCatalog folder c.urlCode =
          (if 1000 ≤ c.year ∧ c.number < 100 then some c.toPublishedCatalog else none) ∧
        (1000 ≤ c.year ∧ c.number < 100 → ∃ listing,
          productsInCatalog env rows c.urlCode = some listing ∧
            (c.productCount = listing.length ↔ ∀ e ∈ rows, e.Agrees c.year c.number))) ∧
      ∀ code, ∃ links, catalogsForCode folder rows code = some links ∧
        ∀ key ∈ links, (getCatalog folder (toUrlCode key.1 key.2)).isSome := by
  obtain ⟨counts, hcounts, hlisted⟩ := mem_listCatalogs h
  have hreadable := readable_rows hcounts
  refine ⟨fun c hc => ?_, fun code => ?_⟩
  · obtain ⟨hfile, hcount⟩ := hlisted c hc
    refine ⟨getCatalog_toUrlCode hfile, fun hread => ?_⟩
    have hlisting := productsInCatalog_toUrlCode env hreadable
      ⟨hread.1, year_of_scanned hfile⟩ hread.2
    refine ⟨_, hlisting, ?_⟩
    rw [hcount, sortBy, List.length_insertionSort]
    exact count_iff_agrees hcounts htexts hread.2
  · have hserved : (catalogsForCode folder rows code).isSome := by
      unfold catalogsForCode
      split_ifs
      · rfl
      · split
        · rfl
        · next e he =>
          rw [Option.isSome_map]
          exact hreadable e (List.mem_of_find?_eq_some he)
    obtain ⟨links, hlinks⟩ := Option.isSome_iff_exists.mp hserved
    exact ⟨links, hlinks, fun key hkey => cardLinks_work hlinks hkey⟩

/-- A row of the dictionary. -/
def memberRow (id : String) (catalogs : List String) : Dictionary where
  id := id
  code := id
  name := id
  catalogs := .arr (catalogs.map Value.str)
  nameLc := none
  rubric := none
  createdAt := ""
  updatedAt := ""

/-- A catalog whose code a row has in two spellings, and a file whose number has three digits. -/
theorem catalog_pages_folder : ∃ view, listCatalogs Char.isDigit ["2026-03.pdf", "2025100.pdf"]
      [memberRow "500" ["03_26", "3_26"]] {} 0 = some view ∧
    view.rows.map (fun c => (c.year, c.number)) = [(2026, 3), (2025, 100)] ∧
    ∀ c ∈ view.rows, (c.number < 100 → ∃ listing,
        productsInCatalog .sample [memberRow "500" ["03_26", "3_26"]] c.urlCode = some listing ∧
          c.productCount ≠ listing.length) ∧
      (100 ≤ c.number → getCatalog ["2026-03.pdf", "2025100.pdf"] c.urlCode = none) := by
  have hkeys : (listCatalogs Char.isDigit ["2026-03.pdf", "2025100.pdf"]
      [memberRow "500" ["03_26", "3_26"]] {} 0).map
        (fun v => v.rows.map fun c => (c.year, c.number)) =
      some [(2026, 3), (2025, 100)] := by decide +kernel
  obtain ⟨view, hview, hrows⟩ := Option.map_eq_some_iff.mp hkeys
  have htexts : ∀ e ∈ [memberRow "500" ["03_26", "3_26"]], ∀ s, e.catalogs ≠ .str s :=
    List.forall_mem_singleton.mpr (by rintro s ⟨⟩)
  obtain ⟨hpages, -⟩ := catalog_pages .sample hview htexts
  have hagrees : ¬Dictionary.Agrees 2026 3 (memberRow "500" ["03_26", "3_26"]) := by decide +kernel
  refine ⟨view, hview, hrows, fun c hc => ⟨fun hnumber => ?_, fun hnumber => ?_⟩⟩
  · have hkey : (c.year, c.number) ∈ [(2026, 3), (2025, 100)] := hrows ▸ List.mem_map_of_mem hc
    have h2026 : c.year = 2026 ∧ c.number = 3 := by
      simp only [List.mem_cons, Prod.mk.injEq, List.not_mem_nil, or_false] at hkey
      omega
    obtain ⟨listing, hlisting, hcount⟩ := (hpages c hc).2 ⟨by omega, hnumber⟩
    refine ⟨listing, hlisting, fun heq => hagrees ?_⟩
    rw [← h2026.1, ← h2026.2]
    exact hcount.mp heq _ List.mem_cons_self
  · rw [(hpages c hc).1]
    exact if_neg fun h => absurd h.2 (by omega)

end MyOriShop
